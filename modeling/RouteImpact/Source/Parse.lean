import RouteImpact.Source.Language
import RouteImpact.Syntax.Grammar
import RouteImpact.Syntax.Site
import RouteImpact.Text.Quoted

namespace RouteImpact.Source

open Syntax

/-!
# Parsing a file

The dialect follows from the ending of the file's name.  A text with errors in
its own dialect is tried once more in the dialect that has both types and markup;
the second tree counts only if it has no errors.
-/

/-- A parsed text. -/
structure Tree where
  root : Node
  dialect : Dialect
  table : KindTable

/-- Whether some line of the text could not be read. -/
def Tree.hasErrors (t : Tree) : Bool := t.root.children.any (·.kind == "ERROR")

/-- The nodes of the given kinds, with what encloses them. -/
def Tree.sites (t : Tree) (kinds : List String) : List Site := ofKinds t.table kinds

/-- The nodes of the given kinds, in document order. -/
def Tree.nodes (t : Tree) (kinds : List String) : List Node := (t.sites kinds).map (·.node)

/-- Why a file has no tree. -/
inductive ParseFailure where
  | unsupported (ending : String)
  | byConvention (ending : String)
  | binary
deriving Repr, DecidableEq

/-- The name of a failure. -/
def ParseFailure.reason : ParseFailure → String
  | .unsupported _ => "unsupported"
  | .byConvention _ => "convention-only"
  | .binary => "binary"

/-- What a failure is about. -/
def ParseFailure.detail : ParseFailure → String
  | .unsupported ending => "no grammar for " ++ Text.quoted ending
  | .byConvention ending => ending
  | .binary => "content contains a null byte"

/-- Parses a text in one dialect. -/
def parseAs (d : Dialect) (text : String) : Tree :=
  let root := parseText d text
  ⟨root, d, index root⟩

/-- The dialect that texts with errors are tried in. -/
def fallback : Dialect := .tsx

/-- Parses a text in its own dialect, or in the fallback if only that reads it. -/
def parseWithFallback (d : Dialect) (text : String) : Tree :=
  let tree := parseAs d text
  if d = fallback ∨ !tree.hasErrors then tree
  else
    let retry := parseAs fallback text
    if retry.hasErrors then tree else retry

/-- Whether a text holds a null character. -/
def isBinary (text : String) : Bool := text.toList.contains (Char.ofNat 0)

/-- Parses a text by the ending of its file's name, with or without a point. -/
def parse (text ending : String) : Except ParseFailure Tree :=
  let ending :=
    if Text.startsWith ending "." then Text.lower ending else "." ++ Text.lower ending
  match Language.ofEnding? ending with
  | none => .error (.unsupported ending)
  | some .byConvention => .error (.byConvention ending)
  | some (.parsed d) => if isBinary text then .error .binary else .ok (parseWithFallback d text)

end RouteImpact.Source
