import Mathlib.Data.List.Induction
import RouteImpact.Proofs.Graph.Reflection

namespace RouteImpact.ImportGraph

/-!
# What a history of facts leaves in a graph

A graph into which facts were put one after the other, the same file perhaps many times,
is read off the history alone.

* `History.graph` — the graph after a history, from an empty one;
* `History.last?` — the fact of a file that counts, the last one;
* `mem_node?_graph`, `fact?_graph` — which files have a node, and their facts;
* `reflects_graph` — forward edges and route files follow from the last facts;
* `exact_graph`, `mem_importersOf_graph` — the two forms of the reverse edges: with pruning
  those of the last facts, without it those of every fact that ever was;
* `graph_of_history` — all of it at once.
-/

/-- The facts that were put into a graph, with their files, the oldest first. -/
abbrev History := List (String × FileFact)

namespace History

/-- The graph after a history. -/
def graph (prune : Bool) (h : History) : ImportGraph :=
  run prune (h.map fun e => .upsert e.1 e.2)

/-- The last fact of a file. -/
def last? (h : History) (file : String) : Option FileFact :=
  (h.reverse.find? (·.1 == file)).map (·.2)

@[simp] theorem graph_nil (prune : Bool) : graph prune [] = { prune } := rfl

@[simp] theorem graph_concat (prune : Bool) (h : History) (file : String) (fact : FileFact) :
    graph prune (h ++ [(file, fact)]) = (graph prune h).upsert file fact := by
  simp [graph, run, List.foldl_append, apply]

@[simp] theorem last?_nil (file : String) : last? [] file = none := rfl

@[simp] theorem last?_concat (h : History) (file : String) (fact : FileFact) (x : String) :
    last? (h ++ [(file, fact)]) x = if file = x then some fact else last? h x := by
  by_cases hx : file = x <;> simp [last?, hx]

/-- A file has a last fact when it has any. -/
theorem last?_eq_none_iff {h : History} {x : String} :
    last? h x = none ↔ ∀ e ∈ h, e.1 ≠ x := by
  simp [last?]

/-- The last fact of a file is one of its facts. -/
theorem mem_of_last? {h : History} {x : String} {fact : FileFact} (hlast : last? h x = some fact) :
    (x, fact) ∈ h := by
  obtain ⟨e, he, rfl⟩ := Option.map_eq_some_iff.1 hlast
  have hx : e.1 = x := by simpa using List.find?_some he
  subst hx
  exact List.mem_reverse.1 (List.mem_of_find?_eq_some he)

end History

open History

/-! ### Nodes, facts and forward edges -/

theorem mem_targets {file x : String} {fact : FileFact} :
    x ∈ targets file fact ↔ x ≠ file ∧ ∃ edge ∈ fact.imports, edge.source = some x := by
  simp only [targets, NameSet.mem_ofList, List.mem_filter, FileFact.resolvedImports,
    Text.mem_distinct, List.mem_filterMap, bne_iff_ne]
  exact and_comm

@[simp] theorem prune_graph (prune : Bool) (h : History) : (graph prune h).prune = prune := by
  induction h using List.reverseRecOn with
  | nil => rfl
  | append_singleton h e ih =>
    rw [graph_concat]
    exact ih

@[simp] theorem fact?_graph (prune : Bool) (h : History) (x : String) :
    (graph prune h).fact? x = last? h x := by
  induction h using List.reverseRecOn with
  | nil => rfl
  | append_singleton h e ih => rw [graph_concat, fact?_upsert, last?_concat, ih]

/-- The files with a node are those that were put in and those they were said to import. -/
theorem mem_node?_graph (prune : Bool) (h : History) (x : String) :
    ((graph prune h).node? x).isSome = true ↔
      ∃ e ∈ h, x = e.1 ∨ ∃ edge ∈ e.2.imports, edge.source = some x := by
  induction h using List.reverseRecOn with
  | nil => simp [graph, run, node?]
  | append_singleton h e ih =>
    obtain ⟨file, fact⟩ := e
    rw [graph_concat, isSome_node?_upsert, ih, mem_targets]
    simp only [List.mem_append, List.mem_singleton, or_and_right, exists_or, exists_eq_left]
    -- the file at hand has a node even when it imports itself
    by_cases hx : x = file
    · simp [hx]
    · simp only [hx, false_or, ne_eq, not_false_eq_true, true_and]
      exact or_comm

/-- Forward edges and route files follow from the last facts. -/
theorem reflects_graph (prune : Bool) (h : History) : (graph prune h).Reflects := by
  induction h using List.reverseRecOn with
  | nil => exact reflects_empty prune
  | append_singleton h e ih =>
    rw [graph_concat]
    exact ih.upsert e.1 e.2

theorem mem_importsOf_graph (prune : Bool) (h : History) (x y : String) :
    y ∈ (graph prune h).importsOf x ↔
      y ≠ x ∧ ∃ fact, last? h x = some fact ∧ ∃ edge ∈ fact.imports, edge.source = some y := by
  rw [(reflects_graph prune h).imports, fact?_graph]
  cases last? h x with
  | none => simp
  | some fact => simp [mem_targets]

theorem isRouteFile_graph (prune : Bool) (h : History) (x : String) :
    ((graph prune h).node? x).any (·.isRouteFile) = true ↔
      ∃ fact, last? h x = some fact ∧ fact.routes ≠ [] := by
  have hroutes := (reflects_graph prune h).mem_routeFiles_iff (x := x)
  rw [fact?_graph, mem_routeFiles] at hroutes
  rw [Option.any_eq_true, hroutes]

/-! ### Reverse edges -/

/-- **With pruning** nothing of an older fact is left. -/
theorem exact_graph (h : History) : (graph true h).Exact := by
  induction h using List.reverseRecOn with
  | nil => exact exact_empty true
  | append_singleton h e ih =>
    rw [graph_concat]
    exact ih.upsert (Or.inl (prune_graph true h))

/-- **Without pruning** nothing of an older fact is lost. -/
theorem mem_importersOf_graph (h : History) (x y : String) :
    y ∈ (graph false h).importersOf x ↔
      y ≠ x ∧ ∃ fact, (y, fact) ∈ h ∧ ∃ edge ∈ fact.imports, edge.source = some x := by
  induction h using List.reverseRecOn with
  | nil => simp [graph, run, importersOf, node?]
  | append_singleton h e ih =>
    obtain ⟨file, fact⟩ := e
    rw [graph_concat, mem_importersOf_upsert, ih, prune_graph, mem_targets]
    simp only [List.mem_append, List.mem_singleton, Prod.mk.injEq, or_and_right, exists_or]
    constructor
    · rintro (⟨rfl, hne, hedge⟩ | ⟨⟨hne, hold⟩, -⟩)
      · exact ⟨hne.symm, Or.inr ⟨fact, ⟨rfl, rfl⟩, hedge⟩⟩
      · exact ⟨hne, Or.inl hold⟩
    · rintro ⟨hne, hold | ⟨_, ⟨rfl, rfl⟩, hedge⟩⟩
      · exact Or.inr ⟨⟨hne, hold⟩, by simp⟩
      · exact Or.inl ⟨rfl, hne.symm, hedge⟩

/-! ### The whole graph -/

/-- **A graph is determined by its history.**  Nodes are the files that were put in and
those that any of their facts resolves an import to; facts, forward edges and route files
are those of the last facts, so there are none for a file that was never put in; and reverse
edges are the forward edges read backwards when the graph prunes, and the imports of every
fact of the history when it does not. -/
theorem graph_of_history (prune : Bool) (h : History) :
    (∀ x, ((graph prune h).node? x).isSome = true ↔
      ∃ e ∈ h, x = e.1 ∨ ∃ edge ∈ e.2.imports, edge.source = some x) ∧
    (∀ x, (graph prune h).fact? x = last? h x) ∧
    (∀ x, (graph prune h).fact? x = none ↔ ∀ e ∈ h, e.1 ≠ x) ∧
    (∀ x y, y ∈ (graph prune h).importsOf x ↔
      y ≠ x ∧ ∃ fact, last? h x = some fact ∧ ∃ edge ∈ fact.imports, edge.source = some y) ∧
    (∀ x, ((graph prune h).node? x).any (·.isRouteFile) = true ↔
      ∃ fact, last? h x = some fact ∧ fact.routes ≠ []) ∧
    (∀ x y, y ∈ (graph prune h).importersOf x ↔
      if prune = true then x ∈ (graph prune h).importsOf y
      else y ≠ x ∧ ∃ fact, (y, fact) ∈ h ∧ ∃ edge ∈ fact.imports, edge.source = some x) := by
  refine ⟨mem_node?_graph prune h, fact?_graph prune h, ?_, mem_importsOf_graph prune h,
    isRouteFile_graph prune h, ?_⟩
  · intro x
    rw [fact?_graph, last?_eq_none_iff]
  · intro x y
    cases prune with
    | true => exact exact_graph h x y
    | false => exact mem_importersOf_graph h x y

end RouteImpact.ImportGraph
