import RouteImpact.Number.Binary64
import RouteImpact.Text.Quoted

namespace RouteImpact

open Number (Binary64)

/-!
# Data values

The values that configuration files and persisted graphs are made of.  The fields
of a record keep the order in which they were first written.
-/

/-- A data value. -/
inductive Json where
  | null
  | bool (value : Bool)
  | int (value : Int)
  | float (value : Binary64)
  | text (value : String)
  | list (items : List Json)
  | record (fields : List (String × Json))
deriving Repr, Inhabited

namespace Json

/-- Sets a field of a record; a field that is there keeps its place. -/
def setField (name : String) (value : Json) : List (String × Json) → List (String × Json)
  | [] => [(name, value)]
  | (n, v) :: rest => if n = name then (n, value) :: rest else (n, v) :: setField name value rest

/-- The value of a field of a record. -/
def field? (fields : List (String × Json)) (name : String) : Option Json :=
  (fields.find? (·.1 == name)).map (·.2)

/-- The value of a field, when the value is a record that has it. -/
def get? (v : Json) (name : String) : Option Json :=
  match v with
  | .record fields => field? fields name
  | _ => none

/-- Whether a value counts as true: numbers other than zero, texts, lists and
records that are not empty. -/
def truth : Json → Bool
  | .null => false
  | .bool b => b
  | .int n => n != 0
  | .float x => !x.isZero
  | .text s => !s.isEmpty
  | .list xs => !xs.isEmpty
  | .record fs => !fs.isEmpty

mutual

/-- A value as it is shown in a message. -/
def shown : Json → String
  | .null => "None"
  | .bool b => if b then "True" else "False"
  | .int n => toString n
  | .float x => x.render
  | .text s => Text.quoted s
  | .list xs => "[" ++ ", ".intercalate (shownItems xs) ++ "]"
  | .record fs => "\x7b" ++ ", ".intercalate (shownFields fs) ++ "\x7d"

/-- Each value of a list as it is shown in a message. -/
def shownItems : List Json → List String
  | [] => []
  | x :: xs => shown x :: shownItems xs

/-- Each field of a record as it is shown in a message. -/
def shownFields : List (String × Json) → List String
  | [] => []
  | (name, x) :: rest => (Text.quoted name ++ ": " ++ shown x) :: shownFields rest

end

end Json

end RouteImpact
