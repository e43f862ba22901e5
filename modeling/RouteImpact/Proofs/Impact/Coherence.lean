import RouteImpact.Impact.Cache
import RouteImpact.Proofs.Impact.Search

namespace RouteImpact.ImpactCache

open Impact

/-!
# Remembered answers stay right

An answer is remembered together with the files its search entered.  A search reads
nothing else (`searchFrom_congr`), so an answer goes wrong only when one of these files
changes its view, and then the index leads to it.

* `mem_keysThrough_remember`, `mem_keysThrough_invalidate`, `mem_stale` — what the index
  holds after a change;
* `Coherent` — every answer is what a search on the present graph would give, and the
  index covers its search;
* `Coherent.impactOf`, `Coherent.replace`, `Coherent.of_view_eq` — asking keeps it, and so
  do replacing a fact and dropping what the change touches.
-/

/-! ### The index -/

/-- Noting several visits adds the key to the visited files. -/
theorem get?_foldl_noteVisit (key : String) (files : List String) (index : OrderedMap NameSet)
    (x k : String) :
    k ∈ ((files.foldl (noteVisit key) index).get? x).getD NameSet.empty ↔
      (k = key ∧ x ∈ files) ∨ k ∈ (index.get? x).getD NameSet.empty := by
  induction files generalizing index with
  | nil => simp
  | cons file files ih =>
    have hstep : k ∈ ((noteVisit key index file).get? x).getD NameSet.empty ↔
        (k = key ∧ x = file) ∨ k ∈ (index.get? x).getD NameSet.empty := by
      rw [noteVisit, OrderedMap.get?_set]
      by_cases hx : file = x
      · subst hx
        simp
      · simp [hx, Ne.symm hx]
    rw [List.foldl_cons, ih, hstep, List.mem_cons, or_comm (a := x = file), and_or_left,
      or_assoc]

theorem mem_keysThrough_remember (c : ImpactCache) (file : String) (found : Outcome)
    (x k : String) :
    k ∈ (c.remember file found).keysThrough x ↔
      (k = file ∧ x ∈ found.visited) ∨ k ∈ c.keysThrough x :=
  get?_foldl_noteVisit file found.visited.toList c.visitedBy x k

/-- The index loses the keys that are dropped, and no others. -/
theorem mem_keysThrough_invalidate (c : ImpactCache) (g : ImportGraph)
    (files reaching : List String) (x k : String) :
    k ∈ (c.invalidate g files reaching).2.keysThrough x ↔
      k ∈ c.keysThrough x ∧ k ∉ c.stale g files reaching := by
  unfold keysThrough invalidate
  simp only [OrderedMap.get?_filter, OrderedMap.get?_mapValues]
  cases hx : c.visitedBy.get? x with
  | none => simp
  | some keys =>
    -- an entry that is left out has no key left
    simp only [Option.map_some, Option.filter_some, Option.getD_some]
    by_cases he : (keys.sdiff (c.stale g files reaching)).isEmpty = true
    · have hnone := NameSet.isEmpty_iff.1 he k
      rw [NameSet.mem_sdiff] at hnone
      simp [he, hnone]
    · simp [he]

theorem answers_get?_invalidate (c : ImpactCache) (g : ImportGraph)
    (files reaching : List String) {k : String} {routes : List String} :
    (c.invalidate g files reaching).2.answers.get? k = some routes ↔
      c.answers.get? k = some routes ∧ k ∉ c.stale g files reaching := by
  unfold invalidate
  simp only [OrderedMap.get?_filter, Option.filter_eq_some_iff, Bool.not_eq_true',
    decide_eq_false_iff_not]

/-! ### What is dropped -/

theorem mem_withImporters {g : ImportGraph} {files : List String} {x : String} :
    x ∈ withImporters g files ↔ ∃ f ∈ files, x = f ∨ x ∈ g.importersOf f := by
  have hstep : ∀ (s : NameSet) (f : String),
      x ∈ (s.insert f).union (g.importersOf f) ↔ (x = f ∨ x ∈ g.importersOf f) ∨ x ∈ s := by
    intro s f
    rw [NameSet.mem_union, NameSet.mem_insert, or_right_comm]
  rw [withImporters, NameSet.mem_foldl hstep]
  simp

/-- The answers that are dropped: those for the changed files and their importers, and
those whose search entered a file that the change touches. -/
theorem mem_stale {c : ImpactCache} {g : ImportGraph} {files reaching : List String}
    {k : String} :
    k ∈ c.stale g files reaching ↔
      k ∈ withImporters g files ∨
        ∃ x, (x ∈ withImporters g files ∨ x ∈ reaching) ∧ k ∈ c.keysThrough x := by
  have hstep : ∀ (s : NameSet) (x : String),
      k ∈ s.union (c.keysThrough x) ↔ k ∈ c.keysThrough x ∨ k ∈ s := by
    intro s x
    rw [NameSet.mem_union, or_comm]
  rw [stale, NameSet.mem_foldl hstep, or_comm]
  refine or_congr_right (exists_congr fun x => and_congr_left fun _ => ?_)
  rw [← NameSet.mem_def, NameSet.mem_foldl_insert]
  exact Or.comm

/-! ### The invariant -/

/-- An answer for a file with a node, when nothing is remembered, is a search. -/
theorem impactOf_empty {g : ImportGraph} {file : String} (h : (g.node? file).isSome = true)
    (limit : Option Int) :
    (empty.impactOf g limit file).1 = (searchFrom g limit file).routes.toList := by
  obtain ⟨n, hn⟩ := Option.isSome_iff_exists.1 h
  simp only [impactOf, hn]
  rfl

/-- Every remembered answer is what would be answered now if nothing were remembered, and
the index leads from every file that its search enters to the answer. -/
structure Coherent (g : ImportGraph) (limit : Option Int) (c : ImpactCache) : Prop where
  answer : ∀ k routes, c.answers.get? k = some routes → routes = (empty.impactOf g limit k).1
  known : ∀ k routes, c.answers.get? k = some routes → (g.node? k).isSome = true
  indexed : ∀ k routes, c.answers.get? k = some routes →
    ∀ x ∈ (searchFrom g limit k).visited, k ∈ c.keysThrough x

theorem coherent_empty (g : ImportGraph) (limit : Option Int) : Coherent g limit empty where
  answer := by intro k routes h; cases h
  known := by intro k routes h; cases h
  indexed := by intro k routes h; cases h

/-- A file has a node when a search sees something of it. -/
theorem isSome_node?_of_view_eq {g g' : ImportGraph} {file : String}
    (h : view g file = view g' file) : (g'.node? file).isSome = (g.node? file).isSome := by
  have h' := congrArg Option.isSome h
  rw [view, view, Option.isSome_map, Option.isSome_map] at h'
  exact h'.symm

namespace Coherent

variable {g g' : ImportGraph} {limit : Option Int} {c : ImpactCache}

/-- **Asking** keeps the cache coherent: what is added was just computed. -/
theorem impactOf (h : Coherent g limit c) (file : String) :
    Coherent g limit (c.impactOf g limit file).2 := by
  unfold ImpactCache.impactOf
  cases c.answers.get? file with
  | some routes => exact h
  | none =>
    cases hn : g.node? file with
    | none => exact h
    | some n =>
      have hsome : (g.node? file).isSome = true := by simp [hn]
      -- an answer is the new one or was there before
      have hcases : ∀ k routes,
          (c.remember file (searchFrom g limit file)).answers.get? k = some routes →
          (k = file ∧ routes = (searchFrom g limit file).routes.toList) ∨
            c.answers.get? k = some routes := by
        intro k routes hk
        rw [remember, OrderedMap.get?_set] at hk
        by_cases hfile : file = k
        · rw [if_pos hfile, Option.some.injEq] at hk
          exact Or.inl ⟨hfile.symm, hk.symm⟩
        · rw [if_neg hfile] at hk
          exact Or.inr hk
      refine ⟨?_, ?_, ?_⟩
      · intro k routes hk
        rcases hcases k routes hk with ⟨rfl, rfl⟩ | hold
        · exact (impactOf_empty hsome limit).symm
        · exact h.answer k routes hold
      · intro k routes hk
        rcases hcases k routes hk with ⟨rfl, -⟩ | hold
        · exact hsome
        · exact h.known k routes hold
      · intro k routes hk x hx
        rw [mem_keysThrough_remember]
        rcases hcases k routes hk with ⟨rfl, -⟩ | hold
        · exact Or.inl ⟨rfl, hx⟩
        · exact Or.inr (h.indexed k routes hold x hx)

/-- What a coherent cache answers is what would be answered if nothing were remembered. -/
theorem fst_impactOf (h : Coherent g limit c) (file : String) :
    (c.impactOf g limit file).1 = (empty.impactOf g limit file).1 := by
  cases hk : c.answers.get? file with
  | some routes =>
    rw [← h.answer file routes hk, ImpactCache.impactOf, hk]
  | none =>
    simp only [ImpactCache.impactOf, hk]
    cases g.node? file <;> rfl

/-- An answer stays right in a graph that looks the same at the files of its search. -/
theorem answer_of_view_eq (h : Coherent g limit c) {k : String} {routes : List String}
    (hk : c.answers.get? k = some routes)
    (hview : ∀ x ∈ (searchFrom g limit k).visited, view g x = view g' x) :
    routes = (empty.impactOf g' limit k).1 ∧ (g'.node? k).isSome = true := by
  have hself : (g'.node? k).isSome = true := by
    rw [isSome_node?_of_view_eq (hview k (mem_searchFrom_self g limit k))]
    exact h.known k routes hk
  refine ⟨?_, hself⟩
  -- both answers are searches, and the searches are one
  rw [impactOf_empty hself, searchFrom_congr hview, ← impactOf_empty (h.known k routes hk)]
  exact h.answer k routes hk

/-- Changes that no search sees keep the cache coherent. -/
theorem of_view_eq (h : Coherent g limit c) (hview : ∀ x, view g x = view g' x) :
    Coherent g' limit c where
  answer := fun _ _ hk => (h.answer_of_view_eq hk fun x _ => hview x).1
  known := fun _ _ hk => (h.answer_of_view_eq hk fun x _ => hview x).2
  indexed := by
    intro k routes hk x hx
    rw [searchFrom_congr fun x _ => hview x] at hx
    exact h.indexed k routes hk x hx

/-- **Dropping** keeps the cache coherent when every file whose view has changed is among
the changed files, their importers and the files that they reach. -/
theorem invalidate (h : Coherent g limit c) {files reaching : List String}
    (hview : ∀ x, x ∉ files → x ∉ reaching → view g x = view g' x) :
    Coherent g' limit (c.invalidate g' files reaching).2 := by
  -- the search for an answer that is kept entered no touched file
  have hkept : ∀ k routes, (c.invalidate g' files reaching).2.answers.get? k = some routes →
      c.answers.get? k = some routes ∧
        ∀ x ∈ (searchFrom g limit k).visited, view g x = view g' x := by
    intro k routes hk
    obtain ⟨hold, hstale⟩ := (answers_get?_invalidate ..).1 hk
    refine ⟨hold, fun x hx => hview x ?_ ?_⟩
    · intro hfile
      have htouched : x ∈ withImporters g' files := mem_withImporters.2 ⟨x, hfile, Or.inl rfl⟩
      exact hstale (mem_stale.2 (Or.inr ⟨x, Or.inl htouched, h.indexed k routes hold x hx⟩))
    · intro hreach
      exact hstale (mem_stale.2 (Or.inr ⟨x, Or.inr hreach, h.indexed k routes hold x hx⟩))
  refine ⟨?_, ?_, ?_⟩
  · intro k routes hk
    obtain ⟨hold, hsame⟩ := hkept k routes hk
    exact (h.answer_of_view_eq hold hsame).1
  · intro k routes hk
    obtain ⟨hold, hsame⟩ := hkept k routes hk
    exact (h.answer_of_view_eq hold hsame).2
  · intro k routes hk x hx
    obtain ⟨hold, hsame⟩ := hkept k routes hk
    rw [searchFrom_congr hsame] at hx
    rw [mem_keysThrough_invalidate]
    exact ⟨h.indexed k routes hold x hx, ((answers_get?_invalidate ..).1 hk).2⟩

end Coherent

/-! ### Changes of the graph -/

/-- A search sees nothing of a change at files that it does not touch. -/
theorem view_upsert_of_notMem {g : ImportGraph} {file : String} {fact : FileFact} {x : String}
    (hfile : x ≠ file) (hold : x ∉ g.importsOf file)
    (hnew : x ∉ ImportGraph.targets file fact) : view g x = view (g.upsert file fact) x := by
  have hfact : (g.upsert file fact).fact? x = g.fact? x := by
    rw [ImportGraph.fact?_upsert, if_neg (Ne.symm hfile)]
  simp only [view, ownRoutes, ImportGraph.node?_upsert_of_notMem hfile hold hnew, hfact]

/-- A search does not see which files are marked as entry points. -/
theorem view_markEntryPoints (g : ImportGraph) (x : String) :
    view g x = view g.markEntryPoints x := by
  unfold view
  rw [ImportGraph.node?_markEntryPoints, Option.map_map]
  rfl

/-- **Replacing a fact**, and then dropping what its file, its old imports and its new
imports touch, keeps the cache coherent. -/
theorem Coherent.replace {g : ImportGraph} {limit : Option Int} {c : ImpactCache}
    (h : Coherent g limit c) (file : String) (fact : FileFact) :
    Coherent (g.upsert file fact) limit
      (c.invalidate (g.upsert file fact) [file]
        ((g.importsOf file).union ((g.upsert file fact).importsOf file)).toList).2 := by
  apply h.invalidate
  intro x hfile hreach
  have himports : (g.upsert file fact).importsOf file = ImportGraph.targets file fact := by
    rw [ImportGraph.importsOf_upsert, if_pos rfl]
  rw [← NameSet.mem_def, NameSet.mem_union, himports, not_or] at hreach
  exact view_upsert_of_notMem (by simpa using hfile) hreach.1 hreach.2

end RouteImpact.ImpactCache
