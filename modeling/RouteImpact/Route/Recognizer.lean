import RouteImpact.Route.Convention
import RouteImpact.Route.Markup
import RouteImpact.Route.Objects

namespace RouteImpact.Route

open Source

/-!
# Route recognizers

A recognizer finds the routes of one style of declaration.  The routes of a file
are those of all recognizers, one after the other; a recognizer that fails adds
none.
-/

/-- What a recognizer may look at. -/
structure Context where
  file : String
  tree : Option Tree
  framework : String

/-- One style of declaration. -/
structure Recognizer where
  name : String
  /-- The routes of a file, or nothing when the recognizer fails. -/
  recognize : Context → Option (List RouteDecl)

/-- Elements with a path. -/
def markupRecognizer : Recognizer :=
  ⟨"jsx", fun c => some (c.tree.elim [] (Markup.routes c.file))⟩

/-- Objects with a path. -/
def objectRecognizer : Recognizer :=
  ⟨"object", fun c => some (c.tree.elim [] (Objects.routes c.file))⟩

def appRecognizer : Recognizer := ⟨"next-app", fun c => some (Convention.appRoutes c.file)⟩

def pagesRecognizer : Recognizer :=
  ⟨"next-pages", fun c => some (Convention.pagesRoutes c.framework c.file)⟩

def svelteRecognizer : Recognizer :=
  ⟨"sveltekit", fun c => some (Convention.svelteRoutes c.file)⟩

/-- The built-in recognizers, in the order in which their routes are reported. -/
def defaultRecognizers : List Recognizer :=
  [markupRecognizer, objectRecognizer, appRecognizer, pagesRecognizer, svelteRecognizer]

/-- The routes of a file by several recognizers. -/
def recognizeAll (recognizers : List Recognizer) (c : Context) : List RouteDecl :=
  recognizers.flatMap fun r => (r.recognize c).getD []

end RouteImpact.Route
