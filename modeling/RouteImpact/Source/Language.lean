import RouteImpact.Path.Lexical
import RouteImpact.Syntax.Rule
import RouteImpact.Text.Lowercase

namespace RouteImpact.Source

open Syntax (Dialect)

/-!
# Languages by file name

The ending of a file's name decides how the file is read: in a dialect of the
source language, by the conventions on its path alone, or not at all.
-/

/-- How a file is read. -/
inductive Language where
  | parsed (dialect : Dialect)
  /-- The file's path may declare a route; its content is not looked at. -/
  | byConvention
deriving Repr, DecidableEq

/-- The language of an ending in lower case, point included. -/
def Language.ofEnding? (ending : String) : Option Language :=
  if ending = ".ts" then some (.parsed .typescript)
  else if ending = ".tsx" ∨ ending = ".jsx" then some (.parsed .tsx)
  else if ending = ".js" ∨ ending = ".mjs" ∨ ending = ".cjs" then some (.parsed .javascript)
  else if ending = ".vue" ∨ ending = ".svelte" then some .byConvention
  else none

/-- The language of a file. -/
def language? (path : String) : Option Language :=
  Language.ofEnding? (Text.lower (Path.suffix path))

/-- Whether a file is one of those that are analysed. -/
def isSupported (path : String) : Bool := (language? path).isSome

/-- Whether a file is analysed by its path alone. -/
def isByConvention (path : String) : Bool := language? path == some .byConvention

/-- The dialect a file is parsed in. -/
def dialect? (path : String) : Option Dialect :=
  match language? path with
  | some (.parsed d) => some d
  | _ => none

end RouteImpact.Source
