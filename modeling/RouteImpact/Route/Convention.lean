import RouteImpact.Fact.Basic
import RouteImpact.Path.Lexical
import RouteImpact.Route.Address

namespace RouteImpact.Route.Convention

/-!
# Routes by convention

Frameworks that derive routes from the places of files: `app/**/page.tsx`,
`pages/**` and `routes/**/+page.svelte`.  The content of the file does not
matter.
-/

/-- The endings of page files. -/
def pageEndings : List String := [".tsx", ".jsx", ".ts", ".js"]

/-- Routes by convention stand on no line. -/
def conventionLine : Int := 0

/-- The route of a file, declared by the file as a whole. -/
def pageRoute (file path component recognizer : String) : RouteDecl :=
  { path, component, declaringFile := file, line := conventionLine, recognizer }

/-- The directories of a page below a marker that show in the route. -/
def visibleSegments (segments : List String) : List String :=
  segments.dropLast.filter (!isInvisible ·)

/-- `app/**/page.tsx` and its like. -/
def appRoutes (file : String) : List RouteDecl :=
  let (stem, ending) := Path.splitExtension (Path.baseName file)
  if stem ≠ "page" ∨ !pageEndings.contains ending then []
  else
    match afterMarker? "app" (Text.split '/' file) with
    | none => []
    | some segments =>
      [pageRoute file (ofSegments (visibleSegments segments)) "Next.js Page" "next-app"]

/-- Files of `pages/` that are no pages. -/
def specialPages : List String := ["_app", "_document", "_error"]

/-- The frameworks under which `pages/` holds routes. -/
def pagesFrameworks : List String := ["unknown", "nextjs"]

/-- `pages/**`, unless the project uses another framework. -/
def pagesRoutes (framework file : String) : List RouteDecl :=
  let (stem, ending) := Path.splitExtension file
  if !pagesFrameworks.contains framework ∨ !pageEndings.contains ending then []
  else
    match afterMarker? "pages" (Text.split '/' stem) with
    | none => []
    | some segments =>
      let last := segments.getLast?.getD ""
      if segments = [] ∨ segments.head? = some "api" ∨ specialPages.contains last then []
      else
        let segments := if last = "index" then segments.dropLast else segments
        [pageRoute file (ofSegments segments) "Next.js Page" "next-pages"]

/-- `routes/**/+page.svelte`. -/
def svelteRoutes (file : String) : List RouteDecl :=
  if Path.baseName file ≠ "+page.svelte" then []
  else
    match afterMarker? "routes" (Text.split '/' file) with
    | none => []
    | some segments =>
      [pageRoute file (ofSegments (visibleSegments segments)) "SvelteKit Page" "sveltekit"]

end RouteImpact.Route.Convention
