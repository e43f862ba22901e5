import RouteImpact.Proofs.Graph.Consistency
import RouteImpact.Proofs.Impact.Coherence
import RouteImpact.Proofs.Project.Facts

namespace RouteImpact

/-!
# Graphs that follow from their facts

A graph that was built from facts says nothing that its facts do not say, so two such
graphs with the same facts are one graph.

* `ImportGraph.Reflects` — forward edges and route files are those of the facts;
* `ImportGraph.Exact` — reverse edges are the forward edges read backwards: lost when a
  reverse edge outlives its forward edge, kept when the graph prunes;
* `ImportGraph.Mentioned` — every node has a fact or an importer: true of what is built at
  once, lost when an import goes away;
* `ImportGraph.Marked` — the marks of entry points are those of the present edges;
* `ImportGraph.node?_of_same_facts`, `ImportGraph.bare_of_same_facts` — a graph with the
  facts of another has its nodes, and further ones only without edges;
* `Impact.search_congr_edges` — a search does not tell such graphs apart.
-/

namespace ImportGraph

/-- Forward edges and route files are those of the facts. -/
structure Reflects (g : ImportGraph) : Prop where
  imports : ∀ x, g.importsOf x = (g.fact? x).elim NameSet.empty (targets x)
  routeFile : ∀ x n, g.node? x = some n → n.isRouteFile = (g.fact? x).any (!·.routes.isEmpty)
  known : ∀ x, (g.fact? x).isSome = true → (g.node? x).isSome = true

/-- Reverse edges are the forward edges read backwards. -/
def Exact (g : ImportGraph) : Prop := ∀ x y, y ∈ g.importersOf x ↔ x ∈ g.importsOf y

/-- Every node has a fact or an importer. -/
def Mentioned (g : ImportGraph) : Prop :=
  ∀ x, (g.node? x).isSome = true → (g.fact? x).isSome = true ∨ ∃ y, y ∈ g.importersOf x

/-- The marks of entry points are those of the present edges. -/
def Marked (g : ImportGraph) : Prop :=
  ∀ x n, g.node? x = some n → n.isEntryPoint = isEntry x n

/-! ### Replacing a fact -/

theorem isSome_node?_upsert (g : ImportGraph) (file : String) (fact : FileFact) (x : String) :
    ((g.upsert file fact).node? x).isSome = true ↔
      x = file ∨ x ∈ targets file fact ∨ (g.node? x).isSome = true := by
  rw [node?_upsert, ownNode?]
  by_cases ht : x ∈ targets file fact
  · simp [ht]
  · rw [if_neg ht, Option.isSome_map]
    by_cases hx : file = x
    · simp [hx]
    · simp [ht, hx, Ne.symm hx]

/-- Only the file at hand becomes a route file or ceases to be one. -/
theorem isRouteFile_upsert {g : ImportGraph} {file x : String} {fact : FileFact} {n : GraphNode}
    (h : (g.upsert file fact).node? x = some n) :
    n.isRouteFile = if file = x then !fact.routes.isEmpty
      else (g.node? x).elim false (·.isRouteFile) := by
  rw [node?_upsert, ownNode?] at h
  by_cases hx : file = x
  · subst hx
    rw [if_neg (notMem_targets_self file fact), if_pos rfl, Option.map_some] at h
    rw [if_pos rfl]
    cases h
    split <;> rfl
  · rw [if_neg hx] at h ⊢
    by_cases ht : x ∈ targets file fact
    · rw [if_pos ht] at h
      cases h
      cases g.node? x <;> rfl
    · rw [if_neg ht] at h
      obtain ⟨m, hm, rfl⟩ := Option.map_eq_some_iff.1 h
      rw [hm]
      simp only [Option.elim_some]
      split <;> rfl

theorem Reflects.upsert {g : ImportGraph} (h : g.Reflects) (file : String) (fact : FileFact) :
    (g.upsert file fact).Reflects where
  imports := by
    intro x
    rw [importsOf_upsert, fact?_upsert]
    by_cases hx : file = x
    · subst hx
      simp
    · rw [if_neg hx, if_neg hx]
      exact h.imports x
  routeFile := by
    intro x n hn
    rw [isRouteFile_upsert hn, fact?_upsert]
    by_cases hx : file = x
    · simp [hx]
    · rw [if_neg hx, if_neg hx]
      cases hm : g.node? x with
      | some m => exact h.routeFile x m hm
      | none =>
        -- a file without a node has no fact
        cases hf : g.fact? x with
        | none => rfl
        | some f =>
          have hnode := h.known x (by simp [hf])
          rw [hm] at hnode
          cases hnode
  known := by
    intro x hx
    rw [fact?_upsert] at hx
    rw [isSome_node?_upsert]
    by_cases hfile : file = x
    · exact Or.inl hfile.symm
    · rw [if_neg hfile] at hx
      exact Or.inr (Or.inr (h.known x hx))

/-- Edges stay exact when what is no longer imported is pruned, or when nothing is lost. -/
theorem Exact.upsert {g : ImportGraph} (h : g.Exact) {file : String} {fact : FileFact}
    (hkept : g.prune = true ∨ ∀ x ∈ g.importsOf file, x ∈ targets file fact) :
    (g.upsert file fact).Exact := by
  intro x y
  rw [mem_importersOf_upsert, importsOf_upsert, h x y]
  by_cases hy : file = y
  · subst hy
    rw [if_pos rfl]
    constructor
    · rintro (⟨-, hx⟩ | ⟨hx, hgone⟩)
      · exact hx
      · rcases hkept with hprune | hkept
        · exact absurd ⟨rfl, hprune, hx⟩ hgone
        · exact hkept x hx
    · exact fun hx => Or.inl ⟨rfl, hx⟩
  · rw [if_neg hy]
    simp [Ne.symm hy]

theorem Mentioned.upsert {g : ImportGraph} (h : g.Mentioned) {file : String} {fact : FileFact}
    (hkept : ∀ x ∈ g.importsOf file, x ∈ targets file fact) :
    (g.upsert file fact).Mentioned := by
  intro x hx
  rw [isSome_node?_upsert] at hx
  rw [fact?_upsert]
  by_cases hfile : file = x
  · exact Or.inl (by rw [if_pos hfile]; rfl)
  · rw [if_neg hfile]
    rcases hx with rfl | ht | hnode
    · exact absurd rfl hfile
    · exact Or.inr ⟨file, (mem_importersOf_upsert ..).2 (Or.inl ⟨rfl, ht⟩)⟩
    · refine (h x hnode).imp_right ?_
      rintro ⟨y, hy⟩
      refine ⟨y, (mem_importersOf_upsert ..).2 ?_⟩
      -- an importer that goes away is the file itself, and then it comes again
      by_cases hgone : y = file ∧ g.prune = true ∧ x ∈ g.importsOf file
      · exact Or.inl ⟨hgone.1, hkept x hgone.2.2⟩
      · exact Or.inr ⟨hy, hgone⟩

/-! ### Route files -/

theorem mem_routeFiles {g : ImportGraph} {x : String} :
    x ∈ g.routeFiles ↔ ∃ n, g.node? x = some n ∧ n.isRouteFile = true := by
  rw [routeFiles, Text.sort, List.mem_mergeSort]
  constructor
  · intro h
    obtain ⟨⟨file, n⟩, hentry, rfl⟩ := List.mem_map.1 h
    obtain ⟨hentry, hroute⟩ := List.mem_filter.1 hentry
    exact ⟨n, OrderedMap.get?_eq_some_iff.2 hentry, hroute⟩
  · rintro ⟨n, hn, hroute⟩
    have hentry : (x, n) ∈ g.nodes.entries := OrderedMap.get?_eq_some_iff.1 hn
    exact List.mem_map.2 ⟨(x, n), List.mem_filter.2 ⟨hentry, hroute⟩, rfl⟩

/-- Replacing the fact of one file leaves the other route files. -/
theorem mem_routeFiles_upsert {g : ImportGraph} {file x : String} {fact : FileFact}
    (hx : file ≠ x) : x ∈ (g.upsert file fact).routeFiles ↔ x ∈ g.routeFiles := by
  rw [mem_routeFiles, mem_routeFiles]
  constructor
  · rintro ⟨n, hn, hroute⟩
    rw [isRouteFile_upsert hn, if_neg hx] at hroute
    cases hold : g.node? x with
    | none => simp [hold] at hroute
    | some old => exact ⟨old, rfl, by simpa [hold] using hroute⟩
  · rintro ⟨old, hold, hroute⟩
    have hsome : ((g.upsert file fact).node? x).isSome = true :=
      (isSome_node?_upsert g file fact x).2 (Or.inr (Or.inr (by simp [hold])))
    obtain ⟨n, hn⟩ := Option.isSome_iff_exists.1 hsome
    refine ⟨n, hn, ?_⟩
    rw [isRouteFile_upsert hn, if_neg hx, hold]
    exact hroute

/-- The route files of a graph that follows from its facts are those with routes. -/
theorem Reflects.mem_routeFiles_iff {g : ImportGraph} (h : g.Reflects) {x : String} :
    x ∈ g.routeFiles ↔ ∃ fact, g.fact? x = some fact ∧ fact.routes ≠ [] := by
  rw [mem_routeFiles]
  constructor
  · rintro ⟨n, hn, hroute⟩
    rw [h.routeFile x n hn, Option.any_eq_true] at hroute
    obtain ⟨fact, hfact, hroutes⟩ := hroute
    exact ⟨fact, hfact, by simpa using hroutes⟩
  · rintro ⟨fact, hfact, hroutes⟩
    obtain ⟨n, hn⟩ := Option.isSome_iff_exists.1 (h.known x (by simp [hfact]))
    refine ⟨n, hn, ?_⟩
    rw [h.routeFile x n hn, hfact]
    simpa using hroutes

/-! ### Marking entry points -/

theorem mem_routeFiles_markEntryPoints {g : ImportGraph} {x : String} :
    x ∈ g.markEntryPoints.routeFiles ↔ x ∈ g.routeFiles := by
  rw [mem_routeFiles, mem_routeFiles, node?_markEntryPoints]
  cases g.node? x with
  | none => simp
  | some n => simp

theorem Marked.markEntryPoints (g : ImportGraph) : g.markEntryPoints.Marked := by
  intro x n hn
  rw [node?_markEntryPoints] at hn
  obtain ⟨m, _, rfl⟩ := Option.map_eq_some_iff.1 hn
  rfl

@[simp] theorem fact?_markEntryPoints (g : ImportGraph) (x : String) :
    g.markEntryPoints.fact? x = g.fact? x := rfl

theorem isSome_node?_markEntryPoints (g : ImportGraph) (x : String) :
    (g.markEntryPoints.node? x).isSome = (g.node? x).isSome := by
  rw [node?_markEntryPoints, Option.isSome_map]

theorem Reflects.markEntryPoints {g : ImportGraph} (h : g.Reflects) :
    g.markEntryPoints.Reflects where
  imports := by
    intro x
    rw [importsOf_markEntryPoints, fact?_markEntryPoints]
    exact h.imports x
  routeFile := by
    intro x n hn
    rw [node?_markEntryPoints] at hn
    obtain ⟨m, hm, rfl⟩ := Option.map_eq_some_iff.1 hn
    exact h.routeFile x m hm
  known := by
    intro x hx
    rw [isSome_node?_markEntryPoints]
    exact h.known x hx

theorem Exact.markEntryPoints {g : ImportGraph} (h : g.Exact) : g.markEntryPoints.Exact := by
  intro x y
  rw [importersOf_markEntryPoints, importsOf_markEntryPoints]
  exact h x y

theorem Mentioned.markEntryPoints {g : ImportGraph} (h : g.Mentioned) :
    g.markEntryPoints.Mentioned := by
  intro x hx
  rw [isSome_node?_markEntryPoints] at hx
  rw [importersOf_markEntryPoints, fact?_markEntryPoints]
  exact h x hx

/-! ### The empty graph -/

theorem reflects_empty (prune : Bool) : ({ prune } : ImportGraph).Reflects where
  imports := fun _ => rfl
  routeFile := fun _ _ h => by cases h
  known := fun _ h => by cases h

theorem exact_empty (prune : Bool) : ({ prune } : ImportGraph).Exact :=
  fun x y => by simp [importersOf, importsOf, node?]

theorem mentioned_empty (prune : Bool) : ({ prune } : ImportGraph).Mentioned :=
  fun _ h => by cases h

end ImportGraph

namespace Project

open ImportGraph

variable {fact : String → FileFact}

/-! ### Putting in many facts -/

/-- **Run principle.** What putting in one of the facts keeps, putting in all of them
keeps. -/
theorem addFacts_induction {P : ImportGraph → Prop} {files : List String} {g : ImportGraph}
    (start : P g) (step : ∀ g, ∀ file ∈ files, P g → P (g.upsert file (fact file))) :
    P (addFacts fact g files) := by
  induction files generalizing g with
  | nil => exact start
  | cons file files ih =>
    exact ih (step g file (by simp) start) fun g f hf => step g f (by simp [hf])

@[simp] theorem fact?_addFacts (g : ImportGraph) (files : List String) (x : String) :
    (addFacts fact g files).fact? x = if x ∈ files then some (fact x) else g.fact? x := by
  induction files generalizing g with
  | nil => simp [addFacts]
  | cons file files ih =>
    show (addFacts fact (g.upsert file (fact file)) files).fact? x = _
    rw [ih, fact?_upsert]
    by_cases hx : x ∈ files
    · simp [hx]
    · by_cases hfile : file = x
      · simp [hfile]
      · simp [hx, hfile, Ne.symm hfile]

@[simp] theorem prune_addFacts (g : ImportGraph) (files : List String) :
    (addFacts fact g files).prune = g.prune :=
  addFacts_induction (P := fun h => h.prune = g.prune) rfl fun _ _ _ h => h

theorem addFacts_append (g : ImportGraph) (files more : List String) :
    addFacts fact (addFacts fact g files) more = addFacts fact g (files ++ more) := by
  rw [addFacts, addFacts, addFacts, List.foldl_append]

/-- Batches make no difference to the graph. -/
theorem foldl_addFacts (g : ImportGraph) (runs : List (List String)) :
    runs.foldl (addFacts fact) g = addFacts fact g runs.flatten := by
  induction runs generalizing g with
  | nil => rfl
  | cons run runs ih => rw [List.foldl_cons, ih, addFacts_append, List.flatten_cons]

theorem reflects_addFacts {g : ImportGraph} (h : g.Reflects) (files : List String) :
    (addFacts fact g files).Reflects :=
  addFacts_induction h fun _ file _ h => h.upsert file (fact file)

theorem exact_addFacts {g : ImportGraph} (h : g.Exact) (hprune : g.prune = true)
    (files : List String) : (addFacts fact g files).Exact := by
  have hboth : (addFacts fact g files).Exact ∧ (addFacts fact g files).prune = true :=
    addFacts_induction (P := fun g => g.Exact ∧ g.prune = true) ⟨h, hprune⟩
      fun g file _ h => ⟨h.1.upsert (Or.inl h.2), h.2⟩
  exact hboth.1

/-- **Building at once.** A graph into which facts were put for the first time follows from
them, has exact edges with or without pruning, and no node without a reason. -/
theorem addFacts_fresh (fact : String → FileFact) (prune : Bool) (files : List String) :
    (addFacts fact { prune } files).Reflects ∧ (addFacts fact { prune } files).Exact ∧
      (addFacts fact { prune } files).Mentioned := by
  -- a file that comes twice comes with the same fact, so no import is ever lost
  have hinv : (addFacts fact { prune } files).Reflects ∧ (addFacts fact { prune } files).Exact ∧
      (addFacts fact { prune } files).Mentioned ∧
      ∀ x old, (addFacts fact { prune } files).fact? x = some old → old = fact x := by
    refine addFacts_induction (P := fun g => g.Reflects ∧ g.Exact ∧ g.Mentioned ∧
      ∀ x old, g.fact? x = some old → old = fact x) ?_ ?_
    · exact ⟨reflects_empty prune, exact_empty prune, mentioned_empty prune,
        fun _ _ h => by cases h⟩
    · rintro g file - ⟨hreflects, hexact, hmentioned, hfacts⟩
      have hkept : ∀ x ∈ g.importsOf file, x ∈ targets file (fact file) := by
        intro x hx
        rw [hreflects.imports] at hx
        cases hf : g.fact? file with
        | none =>
          rw [hf] at hx
          exact absurd hx (NameSet.not_mem_empty x)
        | some old =>
          rw [hf, Option.elim_some, hfacts file old hf] at hx
          exact hx
      refine ⟨hreflects.upsert .., hexact.upsert (Or.inr hkept), hmentioned.upsert hkept, ?_⟩
      intro x old hold
      rw [fact?_upsert] at hold
      by_cases hx : file = x
      · subst hx
        rw [if_pos rfl] at hold
        exact (Option.some.inj hold).symm
      · rw [if_neg hx] at hold
        exact hfacts x old hold
  exact ⟨hinv.1, hinv.2.1, hinv.2.2.1⟩

end Project

namespace ImportGraph

/-! ### Graphs with the same facts -/

/-- The dates of facts do not show in a graph. -/
def SameFacts (g h : ImportGraph) : Prop :=
  ∀ x, (g.fact? x).map FileFact.undated = (h.fact? x).map FileFact.undated

section SameFacts

variable {g h : ImportGraph}

theorem SameFacts.isSome (hfacts : g.SameFacts h) (x : String) :
    (g.fact? x).isSome = (h.fact? x).isSome := by
  have := congrArg Option.isSome (hfacts x)
  simpa using this

/-- What does not depend on the date of a fact is the same in both graphs. -/
theorem SameFacts.elim (hfacts : g.SameFacts h) {α : Type} (none : α) (f : FileFact → α)
    (hf : ∀ fact, f fact.undated = f fact) (x : String) :
    (g.fact? x).elim none f = (h.fact? x).elim none f := by
  have hmap : ∀ o : Option FileFact, o.elim none f = (o.map FileFact.undated).elim none f := by
    intro o
    cases o with
    | none => rfl
    | some fact => exact (hf fact).symm
  rw [hmap, hmap (h.fact? x), hfacts x]

theorem importsOf_of_same_facts (hg : g.Reflects) (hh : h.Reflects) (hfacts : g.SameFacts h)
    (x : String) : g.importsOf x = h.importsOf x := by
  rw [hg.imports, hh.imports]
  exact hfacts.elim NameSet.empty (targets x) (fun _ => rfl) x

theorem importersOf_of_same_facts (hg : g.Reflects) (hh : h.Reflects) (hge : g.Exact)
    (hhe : h.Exact) (hfacts : g.SameFacts h) (x : String) :
    g.importersOf x = h.importersOf x := by
  ext y
  rw [hge, hhe, importsOf_of_same_facts hg hh hfacts]

/-- **Nodes.** A graph with the facts of a graph that was built at once has its nodes. -/
theorem node?_of_same_facts (hg : g.Reflects) (hh : h.Reflects) (hge : g.Exact) (hhe : h.Exact)
    (hgm : g.Marked) (hhm : h.Marked) (hmentioned : h.Mentioned) (hfacts : g.SameFacts h)
    {x : String} {n : GraphNode} (hn : h.node? x = some n) : g.node? x = some n := by
  have himporters := importersOf_of_same_facts hg hh hge hhe hfacts x
  have himports := importsOf_of_same_facts hg hh hfacts x
  have hsome : (g.node? x).isSome = true := by
    rcases hmentioned x (by simp [hn]) with hfact | ⟨y, hy⟩
    · exact hg.known x (by rw [hfacts.isSome]; exact hfact)
    · rw [← himporters] at hy
      obtain ⟨m, hm, _⟩ := exists_node_of_mem_importersOf hy
      simp [hm]
  obtain ⟨m, hm⟩ := Option.isSome_iff_exists.1 hsome
  rw [hm, Option.some.injEq]
  -- the four fields of a node follow from the facts, one after the other
  have hby : m.importedBy = n.importedBy := by
    rw [← importersOf_of_node? hm, ← importersOf_of_node? hn, himporters]
  have hto : m.imports = n.imports := by
    rw [← importsOf_of_node? hm, ← importsOf_of_node? hn, himports]
  have hroute : m.isRouteFile = n.isRouteFile := by
    rw [hg.routeFile x m hm, hh.routeFile x n hn]
    have hany : ∀ o : Option FileFact, o.any (!·.routes.isEmpty) =
        o.elim false (!·.routes.isEmpty) := fun o => by cases o <;> rfl
    rw [hany, hany]
    exact hfacts.elim false (!·.routes.isEmpty) (fun _ => rfl) x
  have hentry : m.isEntryPoint = n.isEntryPoint := by
    rw [hgm x m hm, hhm x n hn, isEntry, isEntry, hby]
  cases m
  cases n
  simp_all

/-- **Further nodes** are left over from imports that are gone. -/
theorem bare_of_same_facts (hg : g.Reflects) (hh : h.Reflects) (hge : g.Exact) (hhe : h.Exact)
    (hfacts : g.SameFacts h) {x : String} {n : GraphNode} (hn : g.node? x = some n)
    (hnone : h.node? x = none) :
    g.fact? x = none ∧ n.imports = NameSet.empty ∧ n.importedBy = NameSet.empty := by
  have hfact : g.fact? x = none := by
    cases hf : g.fact? x with
    | none => rfl
    | some fact =>
      have hknown := hh.known x (by rw [← hfacts.isSome, hf]; rfl)
      rw [hnone] at hknown
      cases hknown
  refine ⟨hfact, ?_, ?_⟩
  · rw [← importsOf_of_node? hn, hg.imports, hfact]
    rfl
  · rw [← importersOf_of_node? hn, importersOf_of_same_facts hg hh hge hhe hfacts, importersOf,
      hnone]
    rfl

end SameFacts

end ImportGraph

namespace Impact

/-! ### Searches that do not tell graphs apart -/

/-- The routes that a search takes from a file, which may have no node. -/
def routesAt (g : ImportGraph) (x : String) : List String :=
  (g.node? x).elim [] (ownRoutes g x)

/-- In a graph that follows from its facts, a file adds the routes of its fact. -/
theorem routesAt_of_reflects {g : ImportGraph} (h : g.Reflects) (x : String) :
    routesAt g x = (g.fact? x).elim [] (·.routePaths) := by
  unfold routesAt
  cases hn : g.node? x with
  | none =>
    cases hf : g.fact? x with
    | none => rfl
    | some fact =>
      have hknown := h.known x (by simp [hf])
      rw [hn] at hknown
      cases hknown
  | some n =>
    rw [Option.elim_some, ownRoutes, h.routeFile x n hn]
    cases hf : g.fact? x with
    | none => rfl
    | some fact =>
      -- a file that declares nothing adds nothing
      by_cases hroutes : fact.routes = []
      · simp [hroutes, FileFact.routePaths]
      · simp [hroutes]

/-- **Importers and routes decide.** A search reads nothing else, not even which files
have a node. -/
theorem search_congr_edges {g h : ImportGraph}
    (himporters : ∀ x, g.importersOf x = h.importersOf x)
    (hroutes : ∀ x, routesAt g x = routesAt h x) (limit : Option Int)
    (queue : List (String × Nat)) (visited routes : NameSet) :
    search g limit queue visited routes = search h limit queue visited routes := by
  fun_induction search g limit queue visited routes with
  | case1 visited routes => rw [search_nil]
  | case2 visited routes file depth rest hs => rw [search_of_stops hs]
  | case3 visited routes file depth rest hs hn ih =>
    have hs' : stops limit routes depth = false := by simpa using hs
    cases hm : h.node? file with
    | none => rw [search_of_none hs' hm, ih]
    | some m =>
      -- a node without importers and routes is passed over too
      have hby : m.importedBy = NameSet.empty := by
        rw [← ImportGraph.importersOf_of_node? hm, ← himporters, ImportGraph.importersOf, hn]
        rfl
      have hown : ownRoutes h file m = [] := by
        have := hroutes file
        simpa [routesAt, hn, hm] using this.symm
      rw [search_of_some hs' hm, hown, fresh, hby, ih]
      simp [NameSet.empty]
  | case4 visited routes file depth rest hs n hn ih =>
    have hs' : stops limit routes depth = false := by simpa using hs
    cases hm : h.node? file with
    | none =>
      have hby : n.importedBy = NameSet.empty := by
        rw [← ImportGraph.importersOf_of_node? hn, himporters, ImportGraph.importersOf, hm]
        rfl
      have hown : ownRoutes g file n = [] := by
        have := hroutes file
        simpa [routesAt, hn, hm] using this
      rw [ih, search_of_none hs' hm, hown, fresh, hby]
      simp [NameSet.empty]
    | some m =>
      have hby : n.importedBy = m.importedBy := by
        rw [← ImportGraph.importersOf_of_node? hn, ← ImportGraph.importersOf_of_node? hm,
          himporters]
      have hown : ownRoutes g file n = ownRoutes h file m := by
        have := hroutes file
        simpa [routesAt, hn, hm] using this
      rw [ih, search_of_some hs' hm, hown, fresh_congr hby]

/-- An answer, when nothing is remembered, is a search, also for a file without a node. -/
theorem fst_impactOf_empty (g : ImportGraph) (limit : Option Int) (file : String) :
    (ImpactCache.empty.impactOf g limit file).1 = (searchFrom g limit file).routes.toList := by
  cases hn : g.node? file with
  | some n => exact ImpactCache.impactOf_empty (by simp [hn]) limit
  | none =>
    have hstops : stops limit NameSet.empty 0 = false := by
      simp [stops, NameSet.isEmpty, NameSet.empty]
    rw [searchFrom, search_of_none hstops hn, search_nil]
    simp only [ImpactCache.impactOf, hn]
    rfl

theorem searchFrom_of_same_facts {g h : ImportGraph} (hg : g.Reflects) (hh : h.Reflects)
    (hge : g.Exact) (hhe : h.Exact) (hfacts : g.SameFacts h) (limit : Option Int)
    (file : String) : searchFrom g limit file = searchFrom h limit file := by
  refine search_congr_edges
    (ImportGraph.importersOf_of_same_facts hg hh hge hhe hfacts) ?_ limit _ _ _
  intro x
  rw [routesAt_of_reflects hg, routesAt_of_reflects hh]
  exact hfacts.elim [] (·.routePaths) (fun _ => rfl) x

end Impact

end RouteImpact
