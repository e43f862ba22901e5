import RouteImpact.Proofs.Syntax.Index

namespace RouteImpact.Route

open Syntax Source

/-!
# Routes of elements

The path of an element is that of all routes around it, joined from the outside in, and then
its own.  The search for the paths around it ends at the nearest absolute one, which takes the
place of everything outside of it.

* `join_of_absolute` — joining starts anew at an absolute path;
* `Markup.pathsAround` — the paths of all paired elements around a node, and `parentPath_eq_foldl`
  that the shorter search joins to the same;
* `Markup.routes_eq_map` — one route for each element that declares one, in document order.
-/

/-! ### Joining -/

/-- An absolute path stands for itself, whatever is around it. -/
theorem join_of_absolute {child : String} (h : Text.startsWith child "/" = true)
    (parent : String) : join parent child = child := by
  rw [join, if_pos (Or.inr h)]

namespace Markup

/-! ### The routes around an element -/

/-- The path that a node declares for what is inside of it: only paired elements have an
inside. -/
def pathInside? (n : Node) : Option String :=
  if n.kind = "jsx_element" then ownPath? (attributes n) else none

/-- The paths of all paired elements around a node that have one, nearest first. -/
def pathsAround (enclosing : List Node) : List String := enclosing.filterMap pathInside?

/-- The search goes on outside of an element, unless its path is absolute. -/
theorem enclosingPaths_cons (n : Node) (rest : List Node) :
    enclosingPaths (n :: rest) =
      match pathInside? n with
      | some own => if Text.startsWith own "/" then [own] else own :: enclosingPaths rest
      | none => enclosingPaths rest := by
  rw [enclosingPaths, pathInside?]
  split
  · rfl
  · rfl

/-- Seen from inside a node, the path around is that around the node with the node's own. -/
theorem parentPath_cons (n : Node) (rest : List Node) :
    parentPath (n :: rest) = (pathInside? n).elim (parentPath rest) (join (parentPath rest)) := by
  rw [parentPath, enclosingPaths_cons]
  cases pathInside? n with
  | none => rfl
  | some own =>
    dsimp only [Option.elim_some]
    split
    · next habs =>
      rw [join_of_absolute habs]
      exact join_of_absolute habs _
    · rfl

/-- **The path around a node** is joined from the paths of all elements around it, the
outermost first. -/
theorem parentPath_eq_foldl (enclosing : List Node) :
    parentPath enclosing = (pathsAround enclosing).reverse.foldl join "" := by
  induction enclosing with
  | nil => rfl
  | cons n rest ih =>
    rw [parentPath_cons, ih]
    cases hown : pathInside? n with
    | none => rw [pathsAround, pathsAround, List.filterMap_cons_none hown]; rfl
    | some own =>
      rw [pathsAround, pathsAround, List.filterMap_cons_some hown, List.reverse_cons,
        List.foldl_append]
      rfl

/-! ### Elements that declare a route -/

/-- Whether attributes declare a route: a path, or an index that is bare or true. -/
def declares (attrs : List (String × Option Node)) : Bool :=
  (find? attrs "path").isSome ||
    (find? attrs "index").any fun value => value.all fun value => literalOrText value == "true"

/-- The path that they declare. -/
def declaredPath (attrs : List (String × Option Node)) : String :=
  match find? attrs "path" with
  | some value => value.elim "" literalOrText
  | none => indexRoute

theorem ownPath?_eq (attrs : List (String × Option Node)) :
    ownPath? attrs = if declares attrs then some (declaredPath attrs) else none := by
  rw [ownPath?, declares, declaredPath]
  cases find? attrs "path" with
  | some value => simp
  | none =>
    cases find? attrs "index" with
    | none => simp
    | some index =>
      cases index with
      | none => simp
      | some value => by_cases h : literalOrText value = "true" <;> simp [h]

/-- Whether a node is an element, paired or not. -/
def isElement (n : Node) : Bool :=
  n.named && ["jsx_element", "jsx_self_closing_element"].contains n.kind

/-- The elements of a tree, in document order. -/
def elements (root : Node) : List Site := (root.sites []).filter (isElement ·.node)

/-- The routes of a tree are read off its elements. -/
theorem routes_eq_filterMap (file : String) (root : Node) (d : Dialect) :
    routes file ⟨root, d, index root⟩ = (elements root).filterMap (route? file) := by
  rw [routes, Tree.sites, ofKinds_index root (by decide)]
  rfl

/-- **Each element that declares a route gives one, in document order**, and its path is joined
from the paths of all paired elements around it, the outermost first, and its own. -/
theorem routes_eq_map (file : String) (root : Node) (d : Dialect) :
    routes file ⟨root, d, index root⟩ =
      ((elements root).filter fun site => declares (attributes site.node)).map fun site =>
        { path := ((pathsAround site.enclosing).reverse ++
            [declaredPath (attributes site.node)]).foldl join ""
          component := (elementComponent? site.node (attributes site.node)).getD unknownComponent
          declaringFile := file
          line := site.node.line
          recognizer := "jsx" } := by
  rw [routes_eq_filterMap, ← List.filterMap_eq_map, List.filterMap_filter]
  congr 1
  funext site
  simp only [route?, ownPath?_eq, parentPath_eq_foldl, Function.comp_apply, List.foldl_append]
  split
  · rfl
  · rfl

end Markup

end RouteImpact.Route
