import Mathlib.Data.List.Forall2
import RouteImpact.Proofs.Route.Markup
import RouteImpact.Proofs.Route.Objects

namespace RouteImpact

namespace Route

open Syntax RouteImpact.Fact

/-!
# Trees of routes and how they are written

A tree of routes says where each route stands, which component it renders, and which routes lie
inside of it.  It can be written with elements and with objects.

* `RouteTree`, `RouteTree.routes` — a tree, and the paths that it stands for;
* `RouteTree.isElement`, `RouteTree.isObject` — whether a node is that tree, written the one way
  or the other: whatever the order of attributes and keys, the quotes and the spaces are;
* `RouteHead.ownPath?_of_fits` and its like — what is read off a node that is so written.
-/

/-! ### Trees -/

/-- Where a route stands: at a path, at the path of the routes around it, or at none of its
own. -/
inductive Place where
  | path (text : String)
  | index
  | layout
deriving Repr, DecidableEq

/-- The keys under which a component is given. -/
inductive ComponentKey where
  | element
  | component
  | capital
deriving Repr, DecidableEq

/-- How a key is written. -/
def ComponentKey.spelling : ComponentKey → String
  | element => "element"
  | component => "component"
  | capital => "Component"

/-- A route without the routes inside of it. -/
structure RouteHead where
  place : Place
  key : ComponentKey
  component : String
deriving Repr, DecidableEq

/-- A route and the routes inside of it. -/
inductive RouteTree where
  | node (head : RouteHead) (children : List RouteTree)

/-- Induction over a tree, with what holds of all routes right inside. -/
@[induction_eliminator]
theorem RouteTree.induction {motive : RouteTree → Prop}
    (node : ∀ head children, (∀ c ∈ children, motive c) → motive (.node head children)) :
    ∀ r, motive r
  | .node head children => node head children fun c hc =>
      have : sizeOf c < sizeOf (RouteTree.node head children) := by
        have := List.sizeOf_lt_of_mem hc
        simp only [RouteTree.node.sizeOf_spec]
        omega
      RouteTree.induction node c

namespace RouteHead

variable (h : RouteHead)

/-- The path of its own that a route has. -/
def ownPath? : Option String :=
  match h.place with
  | .path text => some text
  | .index => some indexRoute
  | .layout => none

/-- The path around the routes inside. -/
def inside (parent : String) : String := h.ownPath?.elim parent (join parent)

/-- The path and the component of a route that has a path of its own. -/
def declared (parent : String) : List (String × String) :=
  (h.ownPath?.map fun own => (join parent own, h.component)).toList

end RouteHead

mutual

/-- The paths of a tree's routes and their components, given the path around it. -/
def RouteTree.routes (parent : String) : RouteTree → List (String × String)
  | .node head children => head.declared parent ++ routesAll (head.inside parent) children

/-- The paths of the routes of several trees. -/
def RouteTree.routesAll (parent : String) : List RouteTree → List (String × String)
  | [] => []
  | r :: rest => r.routes parent ++ routesAll parent rest

end

theorem RouteTree.routesAll_eq_flatMap (parent : String) (rs : List RouteTree) :
    routesAll parent rs = rs.flatMap (routes parent) := by
  induction rs with
  | nil => rfl
  | cons r rest ih => rw [routesAll, ih, List.flatMap_cons]

theorem RouteTree.routes_node (parent : String) (head : RouteHead) (children : List RouteTree) :
    (RouteTree.node head children).routes parent =
      head.declared parent ++ children.flatMap (routes (head.inside parent)) := by
  rw [routes, routesAll_eq_flatMap]

/-! ### Heads -/

/-- Whether a node is a literal of the given text. -/
def isLiteral (text : String) (n : Node) : Bool := n.stringValue? == some text

/-- Whether a node is the word `true`. -/
def isTrue (n : Node) : Bool := n.kind == "true" && n.text == "true"

/-- Whether a node is an expression in braces that passes a test. -/
def inBraces (test : Node → Bool) (n : Node) : Bool :=
  n.kind == "jsx_expression" &&
    match n.namedChildren with
    | [inner] => test inner
    | _ => false

namespace RouteHead

/-- Whether a node names the component: `<X/>` as an element, else `X`. -/
def isComponent (h : RouteHead) (n : Node) : Bool :=
  h.component != "" &&
    match h.key with
    | .element => n.kind == "jsx_self_closing_element" &&
        (n.child? "name").any (·.text == h.component)
    | .component | .capital => n.kind == "identifier" && n.text == h.component

/-- Whether the values given for keys are those of a route: the path or the flag of its place,
and the component under its key, and under no other. -/
def fits {α : Type} (h : RouteHead) (value? : String → Option α) (isPath : String → α → Bool)
    (isFlag isComponent : α → Bool) : Bool :=
  (match h.place with
    | .path text => (value? "path").any (isPath text)
    | .index => (value? "path").isNone && (value? "index").any isFlag
    | .layout => (value? "path").isNone && (value? "index").isNone) &&
  componentKeys.all fun key =>
    if key = h.key.spelling then (value? key).any isComponent else (value? key).isNone

/-- Whether attributes are those of a route. -/
def fitsElement (h : RouteHead) (attrs : List (String × Option Node)) : Bool :=
  h.fits (Markup.find? attrs)
    (fun text value => value.any fun n => isLiteral text n || inBraces (isLiteral text) n)
    (fun value => value.all (inBraces isTrue))
    (fun value => value.any (inBraces h.isComponent))

/-- Whether the pairs of an object are those of a route. -/
def fitsObject (h : RouteHead) (object : Node) : Bool :=
  h.fits (Objects.value? object) isLiteral isTrue h.isComponent

end RouteHead

/-! ### Writing -/

/-- Whether a node is an element with attributes. -/
def isMarked (n : Node) : Bool :=
  ["jsx_element", "jsx_self_closing_element"].contains n.kind && !(Markup.attributes n).isEmpty

mutual

/-- Whether a node is an element that writes the tree: the elements with attributes right
inside of it write the routes inside. -/
def RouteTree.isElement : RouteTree → Node → Bool
  | .node head children, n =>
    n.named && isMarked n && head.fitsElement (Markup.attributes n) &&
      (n.kind == "jsx_element" || children.isEmpty) &&
      areElements children (n.children.flatMap (Node.outermost isMarked))

def RouteTree.areElements : List RouteTree → List Node → Bool
  | [], [] => true
  | r :: rs, n :: ns => r.isElement n && areElements rs ns
  | _, _ => false

end

mutual

/-- Whether a node is an object that writes the tree: the objects right inside of it are those
in the array of its children, and write the routes inside. -/
def RouteTree.isObject : RouteTree → Node → Bool
  | .node head children, n =>
    Objects.isObject n && head.fitsObject n &&
      (Objects.childObjects n).map (·.id) ==
        (n.children.flatMap (Node.outermost Objects.isObject)).map (·.id) &&
      areObjects children (Objects.childObjects n)

def RouteTree.areObjects : List RouteTree → List Node → Bool
  | [], [] => true
  | r :: rs, n :: ns => r.isObject n && areObjects rs ns
  | _, _ => false

end

theorem RouteTree.areElements_iff {rs : List RouteTree} {ns : List Node} :
    areElements rs ns = true ↔ List.Forall₂ (fun r n => r.isElement n = true) rs ns := by
  induction rs generalizing ns with
  | nil => cases ns <;> simp [areElements]
  | cons r rs ih => cases ns <;> simp [areElements, ih]

theorem RouteTree.areObjects_iff {rs : List RouteTree} {ns : List Node} :
    areObjects rs ns = true ↔ List.Forall₂ (fun r n => r.isObject n = true) rs ns := by
  induction rs generalizing ns with
  | nil => cases ns <;> simp [areObjects]
  | cons r rs ih => cases ns <;> simp [areObjects, ih]

theorem RouteTree.isObject_iff {head : RouteHead} {children : List RouteTree} {n : Node} :
    (node head children).isObject n = true ↔
      Objects.isObject n = true ∧ head.fitsObject n = true ∧
        (Objects.childObjects n).map (·.id) =
          (n.children.flatMap (Node.outermost Objects.isObject)).map (·.id) ∧
        List.Forall₂ (fun r n => r.isObject n = true) children (Objects.childObjects n) := by
  rw [isObject, ← areObjects_iff]
  simp only [Bool.and_eq_true, beq_iff_eq, and_assoc]

/-- What nodes give one by one is what the trees that they write give. -/
theorem flatMap_eq_of_forall₂ {α : Type} {writes : RouteTree → Node → Prop} {rs : List RouteTree}
    {ns : List Node} (h : List.Forall₂ writes rs ns) {f : RouteTree → List α}
    {g : Node → List α} (hfg : ∀ r ∈ rs, ∀ n ∈ ns, writes r n → g n = f r) :
    ns.flatMap g = rs.flatMap f := by
  induction h with
  | nil => rfl
  | @cons r n rs ns hrn _ ih =>
    rw [List.flatMap_cons, List.flatMap_cons, hfg r List.mem_cons_self n List.mem_cons_self hrn]
    exact congrArg _ (ih fun r hr n hn =>
      hfg r (List.mem_cons_of_mem _ hr) n (List.mem_cons_of_mem _ hn))

/-! ### What is read off a node -/

section

variable {h : RouteHead} {n : Node} {text : String}

theorem unbrace_of_kind (hkind : n.kind ≠ "jsx_expression") : unbrace n = some n := by
  rw [unbrace, unwrapKinds, if_neg (by simpa using hkind)]

/-- Braces do not show in what is read. -/
theorem exists_of_inBraces {test : Node → Bool} (hn : inBraces test n = true) :
    ∃ inner, test inner = true ∧ unbrace n = unbrace inner := by
  simp only [inBraces, Bool.and_eq_true, beq_iff_eq] at hn
  obtain ⟨hkind, htest⟩ := hn
  split at htest
  · next inner hnamed =>
    refine ⟨inner, htest, ?_⟩
    have hwrapped : ["jsx_expression"].contains n.kind = true := by simp [hkind]
    rw [unbrace, unwrapKinds, if_pos hwrapped]
    split
    · next hnil => simp [hnamed] at hnil
    · next c rest hcons =>
      rw [hnamed, List.cons.injEq] at hcons
      rw [hcons.1, unbrace]
  · cases htest

theorem kind_of_isLiteral (hn : isLiteral text n = true) : n.kind ≠ "jsx_expression" := by
  intro hkind
  simp [isLiteral, Node.stringValue?, hkind] at hn

theorem literalOrText_of_isLiteral (hn : isLiteral text n = true) : literalOrText n = text := by
  have hvalue : n.stringValue? = some text := by simpa [isLiteral] using hn
  rw [literalOrText, unbrace_of_kind (kind_of_isLiteral hn)]
  simp [hvalue]

theorem literalOrText_of_isTrue (hn : isTrue n = true) : literalOrText n = "true" := by
  simp only [isTrue, Bool.and_eq_true, beq_iff_eq] at hn
  rw [literalOrText, unbrace_of_kind (by simp [hn.1])]
  simp [Node.stringValue?, hn.1, hn.2]

theorem literalOrText_of_unbrace {inner : Node} (hn : unbrace n = unbrace inner) :
    literalOrText n = literalOrText inner := by
  rw [literalOrText, literalOrText, hn]

theorem component?_of_isComponent (hn : h.isComponent n = true) :
    (component? n).bind nonEmpty? = some h.component := by
  simp only [RouteHead.isComponent, Bool.and_eq_true, bne_iff_ne, ne_eq] at hn
  obtain ⟨hne, hn⟩ := hn
  have hname : nonEmpty? h.component = some h.component := if_neg hne
  cases hkey : h.key with
  | element =>
    rw [hkey] at hn
    simp only [Bool.and_eq_true, beq_iff_eq, Option.any_eq_true] at hn
    obtain ⟨hkind, tag, htag, htext⟩ := hn
    rw [component?, unbrace_of_kind (by simp [hkind])]
    simp [componentOf?, elementName?, hkind, htag, htext, hname]
  | component | capital =>
    rw [hkey] at hn
    simp only [Bool.and_eq_true, beq_iff_eq] at hn
    rw [component?, unbrace_of_kind (by simp [hn.1])]
    simp [componentOf?, hn.1, hn.2, hname]

theorem component?_of_inBraces (hn : inBraces h.isComponent n = true) :
    (component? n).bind nonEmpty? = some h.component := by
  obtain ⟨inner, hinner, hunbrace⟩ := exists_of_inBraces hn
  rw [component?, hunbrace, ← component?]
  exact component?_of_isComponent hinner

end

namespace RouteHead

section

variable {α : Type} {h : RouteHead} {value? : String → Option α} {isPath : String → α → Bool}
  {isFlag isComponent : α → Bool}

/-- What stands under the keys of a route's place. -/
theorem place_of_fits (hf : h.fits value? isPath isFlag isComponent = true) :
    match h.place with
    | .path text => ∃ v, value? "path" = some v ∧ isPath text v = true
    | .index => value? "path" = none ∧ ∃ v, value? "index" = some v ∧ isFlag v = true
    | .layout => value? "path" = none ∧ value? "index" = none := by
  have hplace := (Bool.and_eq_true_iff.1 hf).1
  cases hp : h.place <;> rw [hp] at hplace <;>
    simpa [Option.any_eq_true] using hplace

/-- The component stands under its own key. -/
theorem component_of_fits (hf : h.fits value? isPath isFlag isComponent = true) :
    ∃ v, value? h.key.spelling = some v ∧ isComponent v = true := by
  have hall := (Bool.and_eq_true_iff.1 hf).2
  rw [List.all_eq_true] at hall
  have hmem : h.key.spelling ∈ componentKeys := by
    cases h.key <;> decide
  simpa [Option.any_eq_true] using hall _ hmem

theorem none_of_fits (hf : h.fits value? isPath isFlag isComponent = true) {key : String}
    (hkey : key ∈ componentKeys) (hne : key ≠ h.key.spelling) : value? key = none := by
  have hall := (Bool.and_eq_true_iff.1 hf).2
  rw [List.all_eq_true] at hall
  simpa [hne] using hall key hkey

/-- The keys for components are asked in order, and the one that stands there is found. -/
theorem findSome?_of_fits (hf : h.fits value? isPath isFlag isComponent = true)
    (name? : α → Option String)
    (hname : ∀ v, isComponent v = true → name? v = some h.component) :
    componentKeys.findSome? (fun key => (value? key).bind name?) = some h.component := by
  obtain ⟨v, hv, hcomponent⟩ := component_of_fits hf
  have hfound : (value? h.key.spelling).bind name? = some h.component := by
    rw [hv, Option.bind_some, hname v hcomponent]
  have hother : ∀ key ∈ componentKeys, key ≠ h.key.spelling → (value? key).bind name? = none := by
    intro key hkey hne
    rw [none_of_fits hf hkey hne, Option.bind_none]
  have hkeys : componentKeys = ["element", "component", "Component"] := rfl
  rw [hkeys] at hother ⊢
  cases hkey : h.key <;> rw [hkey] at hfound hother <;>
    simp_all [ComponentKey.spelling]

end

variable {h : RouteHead}

theorem ownPath?_of_fitsElement {attrs : List (String × Option Node)}
    (hf : h.fitsElement attrs = true) : Markup.ownPath? attrs = h.ownPath? := by
  have hplace := place_of_fits hf
  rw [Markup.ownPath?, ownPath?]
  cases hp : h.place with
  | path text =>
    rw [hp] at hplace
    obtain ⟨value, hvalue, hpath⟩ := hplace
    obtain ⟨n, rfl, hn⟩ := (Option.any_eq_true _ _).1 hpath
    rw [hvalue]
    rcases Bool.or_eq_true_iff.1 hn with hn | hn
    · exact congrArg some (literalOrText_of_isLiteral hn)
    · obtain ⟨inner, hinner, hunbrace⟩ := exists_of_inBraces hn
      exact congrArg some
        ((literalOrText_of_unbrace hunbrace).trans (literalOrText_of_isLiteral hinner))
  | index =>
    rw [hp] at hplace
    obtain ⟨hnone, value, hvalue, hflag⟩ := hplace
    rw [hnone, hvalue]
    cases value with
    | none => rfl
    | some n =>
      obtain ⟨inner, hinner, hunbrace⟩ := exists_of_inBraces hflag
      have htrue := (literalOrText_of_unbrace hunbrace).trans (literalOrText_of_isTrue hinner)
      exact if_pos htrue
  | layout =>
    rw [hp] at hplace
    rw [hplace.1, hplace.2]

theorem elementComponent?_of_fitsElement {attrs : List (String × Option Node)}
    (hf : h.fitsElement attrs = true) (n : Node) :
    Markup.elementComponent? n attrs = some h.component := by
  have hattribute : Markup.attributeComponent? attrs = some h.component := by
    have hfound := findSome?_of_fits hf
      (fun value => value.bind fun n => (component? n).bind nonEmpty?) fun value hvalue => by
        obtain ⟨n, rfl, hn⟩ := (Option.any_eq_true _ _).1 hvalue
        exact component?_of_inBraces hn
    rw [← hfound, Markup.attributeComponent?]
    congr 1
    funext key
    rcases Markup.find? attrs key with _ | (_ | _) <;> rfl
  rw [Markup.elementComponent?, hattribute]

theorem ownPath?_of_fitsObject {o : Node} (hf : h.fitsObject o = true) :
    Objects.ownPath? o = h.ownPath? := by
  have hplace := place_of_fits hf
  rw [Objects.ownPath?, ownPath?]
  cases hp : h.place with
  | path text =>
    rw [hp] at hplace
    obtain ⟨value, hvalue, hpath⟩ := hplace
    rw [hvalue]
    exact congrArg some (literalOrText_of_isLiteral hpath)
  | index =>
    rw [hp] at hplace
    obtain ⟨hnone, value, hvalue, hflag⟩ := hplace
    rw [hnone, hvalue]
    simp only [isTrue, Bool.and_eq_true, beq_iff_eq] at hflag
    exact if_pos hflag.2
  | layout =>
    rw [hp] at hplace
    rw [hplace.1, hplace.2]

theorem objectComponent?_of_fitsObject {o : Node} (hf : h.fitsObject o = true) :
    Objects.objectComponent? o = some h.component :=
  findSome?_of_fits hf _ fun _ => component?_of_isComponent

/-- Whether an object with this head is taken for a route: it has a path, an index, or its
component under one of the keys in small letters. -/
def qualifies (h : RouteHead) : Bool := h.place != .layout || h.key != .capital

theorem isRouteObject_of_fitsObject {o : Node} (hf : h.fitsObject o = true) :
    Objects.isRouteObject o = h.qualifies := by
  have hplace := place_of_fits hf
  obtain ⟨v, hv, -⟩ := component_of_fits hf
  have helement := none_of_fits hf (show "element" ∈ componentKeys by decide)
  have hcomponent := none_of_fits hf (show "component" ∈ componentKeys by decide)
  rw [Objects.isRouteObject, qualifies]
  cases hp : h.place with
  | path text =>
    rw [hp] at hplace
    obtain ⟨value, hvalue, -⟩ := hplace
    simp [Objects.routeKeys, hvalue]
  | index =>
    rw [hp] at hplace
    obtain ⟨-, value, hvalue, -⟩ := hplace
    simp [Objects.routeKeys, hvalue]
  | layout =>
    -- only the key of the component decides
    rw [hp] at hplace
    cases hkey : h.key <;> rw [hkey] at hv helement hcomponent <;>
      simp_all [Objects.routeKeys, ComponentKey.spelling]

end RouteHead

end Route

end RouteImpact
