import Mathlib.Data.List.Basic
import RouteImpact.Proofs.Impact.Coherence

namespace RouteImpact.ImpactCache

open Impact

/-!
# What a change drops

A remembered answer is dropped exactly when the search that gave it entered a file that the
change touches.  The cache does not say which search gave an answer, so the statements are
about a cache that is watched: beside it stands the last search made for every file.

* `Watched` — a graph, a cache and the searches; `Watched.apply` is one event,
  `Watched.run` any number of them;
* `Indexed` — every answer comes from the last search for its file, and the index leads from
  a file to exactly the answers whose search entered it; `Indexed.apply` says that every event
  keeps this, `indexed_run` that it holds after every run;
* `dropped_of_run` — what a change drops, what it keeps and what it counts.
-/

/-- What happens to a cache and to the graph that it answers for. -/
inductive Event where
  | ask (file : String)
  | change (files reaching : List String)
  | clear
  | upsert (path : String) (fact : FileFact)

/-- A cache with its graph, and for every file the outcome of the last search for it. -/
structure Watched where
  graph : ImportGraph
  cache : ImpactCache := empty
  searches : OrderedMap Outcome := OrderedMap.empty

namespace Watched

/-- Whether a question for a file makes a search: the file has a node and no answer. -/
def searchesFor (s : Watched) (file : String) : Bool :=
  !s.cache.isCached file && (s.graph.node? file).isSome

/-- What one event does. -/
def apply (limit : Option Int) (s : Watched) : Event → Watched
  | .ask file =>
    { s with
      cache := (s.cache.impactOf s.graph limit file).2
      searches := if s.searchesFor file then s.searches.set file (searchFrom s.graph limit file)
        else s.searches }
  | .change files reaching => { s with cache := (s.cache.invalidate s.graph files reaching).2 }
  | .clear => { s with cache := empty }
  | .upsert path fact => { s with graph := s.graph.upsert path fact }

/-- What any number of events do. -/
def run (limit : Option Int) (s : Watched) (events : List Event) : Watched :=
  events.foldl (apply limit) s

/-- The last search for `key` entered `x`. -/
def Entered (s : Watched) (key x : String) : Prop :=
  ∃ found, s.searches.get? key = some found ∧ x ∈ found.visited

/-- A search is made and its outcome remembered. -/
def search (s : Watched) (file : String) (found : Outcome) : Watched :=
  { s with cache := s.cache.remember file found, searches := s.searches.set file found }

/-- A question changes nothing, or its search is remembered. -/
theorem apply_ask (limit : Option Int) (s : Watched) (file : String) :
    s.apply limit (.ask file) =
      if s.searchesFor file then s.search file (searchFrom s.graph limit file) else s := by
  unfold apply search searchesFor impactOf isCached OrderedMap.contains
  cases hanswer : s.cache.answers.get? file with
  | some routes => simp [hanswer]
  | none => cases hnode : s.graph.node? file <;> simp [hanswer, hnode]

theorem entered_search (s : Watched) (file : String) (found : Outcome) (key x : String) :
    (s.search file found).Entered key x ↔
      if file = key then x ∈ found.visited else s.Entered key x := by
  simp only [Entered, search, OrderedMap.get?_set]
  split <;> simp

end Watched

/-! ### Answers -/

theorem isCached_iff {c : ImpactCache} {key : String} :
    c.isCached key = true ↔ ∃ routes, c.answers.get? key = some routes :=
  Option.isSome_iff_exists

theorem isCached_remember {c : ImpactCache} {file key : String} {found : Outcome} :
    (c.remember file found).isCached key = true ↔ file = key ∨ c.isCached key = true := by
  simp only [isCached_iff, remember, OrderedMap.get?_set]
  split <;> simp_all

/-- An answer is left after a change if it is not among those that are dropped. -/
theorem isCached_invalidate {c : ImpactCache} {g : ImportGraph} {files reaching : List String}
    {key : String} :
    (c.invalidate g files reaching).2.isCached key = true ↔
      c.isCached key = true ∧ key ∉ c.stale g files reaching := by
  simp only [isCached_iff, answers_get?_invalidate, exists_and_right]

/-- What is counted is what was there before a change and is not there after it. -/
theorem fst_invalidate (c : ImpactCache) (g : ImportGraph) (files reaching : List String) :
    (c.invalidate g files reaching).1 =
      (c.answers.keys.filter fun key =>
        !(c.invalidate g files reaching).2.isCached key).length := by
  have hgone : ∀ e ∈ c.answers.entries, (!(c.invalidate g files reaching).2.isCached e.1) =
      !!decide (e.1 ∈ c.stale g files reaching) := by
    intro e he
    have hcached : c.isCached e.1 = true :=
      isCached_iff.2 ⟨e.2, OrderedMap.get?_eq_some_iff.2 he⟩
    rw [Bool.not_not, Bool.eq_iff_iff, Bool.not_eq_true', ← Bool.not_eq_true,
      isCached_invalidate, decide_eq_true_eq]
    simp [hcached]
  have hsplit := List.length_eq_length_filter_add (l := c.answers.entries)
    fun e => !decide (e.1 ∈ c.stale g files reaching)
  rw [OrderedMap.keys, List.filter_map, List.length_map]
  simp only [Function.comp_def, List.filter_congr hgone]
  simp only [invalidate, OrderedMap.size, OrderedMap.filter]
  omega

/-! ### The index is exact -/

/-- Every answer comes from the last search for its file, which entered that file itself, and
the index leads from a file to exactly the answers whose search entered it. -/
structure Indexed (s : Watched) : Prop where
  answer : ∀ key routes, s.cache.answers.get? key = some routes →
    ∃ found, s.searches.get? key = some found ∧ routes = found.routes.toList
  self : ∀ key, s.cache.isCached key = true → s.Entered key key
  index : ∀ key x, key ∈ s.cache.keysThrough x ↔ s.cache.isCached key = true ∧ s.Entered key x

theorem indexed_empty (s : Watched) : Indexed { s with cache := empty } where
  answer := by intro key routes h; cases h
  self := by intro key h; cases h
  index := by
    intro key x
    constructor
    · intro h
      exact absurd h (NameSet.not_mem_empty key)
    · rintro ⟨h, -⟩
      cases h

namespace Indexed

variable {s : Watched}

/-- **Asking.** The search is now the last one for its file, and before it the index led from
nowhere to that file. -/
theorem search (h : Indexed s) {file : String} (hnew : s.cache.isCached file = false)
    {found : Outcome} (hself : file ∈ found.visited) : Indexed (s.search file found) where
  answer := by
    intro key routes hkey
    simp only [Watched.search, remember, OrderedMap.get?_set] at hkey ⊢
    split at hkey
    · next heq =>
      cases hkey
      exact ⟨found, if_pos heq, rfl⟩
    · next hne =>
      rw [if_neg hne]
      exact h.answer key routes hkey
  self := by
    intro key hkey
    rw [Watched.entered_search]
    split
    · next heq => exact heq ▸ hself
    · next hne => exact h.self key ((isCached_remember.1 hkey).resolve_left hne)
  index := by
    intro key x
    rw [Watched.entered_search, Watched.search, mem_keysThrough_remember, isCached_remember,
      h.index]
    by_cases hkey : file = key
    · subst hkey
      simp [hnew]
    · simp [hkey, Ne.symm hkey]

/-- **Dropping.** The index loses the keys that lose their answers. -/
theorem invalidate (h : Indexed s) (files reaching : List String) :
    Indexed { s with cache := (s.cache.invalidate s.graph files reaching).2 } where
  answer := fun key routes hkey => h.answer key routes ((answers_get?_invalidate ..).1 hkey).1
  self := fun key hkey => h.self key (isCached_invalidate.1 hkey).1
  index := by
    intro key x
    rw [mem_keysThrough_invalidate, isCached_invalidate, h.index, and_right_comm]
    exact Iff.rfl

/-- **Step.** Every event keeps the index exact; a fact that is put into the graph does not
show in it. -/
theorem apply (h : Indexed s) (limit : Option Int) (event : Event) :
    Indexed (s.apply limit event) := by
  cases event with
  | ask file =>
    rw [Watched.apply_ask]
    split
    · next hsearch =>
      simp only [Watched.searchesFor, Bool.and_eq_true, Bool.not_eq_true'] at hsearch
      exact h.search hsearch.1 (mem_searchFrom_self s.graph limit file)
    · exact h
  | change files reaching => exact h.invalidate files reaching
  | clear => exact indexed_empty s
  | upsert path fact => exact ⟨h.answer, h.self, h.index⟩

/-- Of the answers that are there, those are dropped whose search entered a touched file. -/
theorem mem_stale_iff (h : Indexed s) {key : String} (hkey : s.cache.isCached key = true)
    (files reaching : List String) :
    key ∈ s.cache.stale s.graph files reaching ↔
      ∃ x, ((∃ f ∈ files, x = f ∨ x ∈ s.graph.importersOf f) ∨ x ∈ reaching) ∧
        s.Entered key x := by
  simp only [mem_stale, h.index, hkey, true_and, ← mem_withImporters]
  refine ⟨fun hstale => hstale.elim (fun hself => ?_) id, Or.inr⟩
  -- an answer for a touched file is reached through that file
  exact ⟨key, Or.inl hself, h.self key hkey⟩

end Indexed

/-- **Run.** The index is exact after every run. -/
theorem indexed_run {s : Watched} (h : Indexed s) (limit : Option Int) (events : List Event) :
    Indexed (s.run limit events) := by
  induction events generalizing s with
  | nil => exact h
  | cons event events ih => exact ih (h.apply limit event)

/-- **A change drops what it touches and nothing else.**  Take the cache after any run of
questions, changes, clearings and new facts, and a change of `files` that reaches `reaching`.
Every answer comes from the last search for its file.  It is dropped if and only if that
search entered one of `files`, a file that imports one of them now, or one of `reaching`; the
answers that are left keep their routes, what is counted are the answers that are gone, and the
index again leads from a file to exactly the answers whose search entered it. -/
theorem dropped_of_run (g : ImportGraph) (limit : Option Int) (events : List Event)
    (files reaching : List String) :
    let s := Watched.run limit { graph := g } events
    let count := (s.cache.invalidate s.graph files reaching).1
    let after := (s.cache.invalidate s.graph files reaching).2
    let touched := fun x =>
      (∃ f ∈ files, x = f ∨ x ∈ s.graph.importersOf f) ∨ x ∈ reaching
    (∀ key routes, s.cache.answers.get? key = some routes →
      ∃ found, s.searches.get? key = some found ∧ routes = found.routes.toList ∧
        (after.isCached key = false ↔ ∃ x ∈ found.visited, touched x)) ∧
      (∀ key, after.isCached key = true →
        after.answers.get? key = s.cache.answers.get? key) ∧
      count = (s.cache.answers.keys.filter fun key => !after.isCached key).length ∧
      ∀ x key, key ∈ after.keysThrough x ↔ after.isCached key = true ∧ s.Entered key x := by
  intro s count after touched
  have hindexed : Indexed s := indexed_run (indexed_empty { graph := g }) limit events
  refine ⟨?_, ?_, fst_invalidate .., fun x key => (hindexed.invalidate files reaching).index key x⟩
  · intro key routes hkey
    obtain ⟨found, hfound, hroutes⟩ := hindexed.answer key routes hkey
    have hcached : s.cache.isCached key = true := isCached_iff.2 ⟨routes, hkey⟩
    refine ⟨found, hfound, hroutes, ?_⟩
    have hentered : ∀ x, s.Entered key x ↔ x ∈ found.visited := by simp [Watched.Entered, hfound]
    rw [← Bool.not_eq_true, isCached_invalidate, hindexed.mem_stale_iff hcached, not_and_not_right]
    simp only [hentered, hcached, true_implies]
    exact exists_congr fun x => and_comm
  · intro key hkey
    obtain ⟨routes, hroutes⟩ := isCached_iff.1 hkey
    rw [hroutes, ((answers_get?_invalidate ..).1 hroutes).1]

end RouteImpact.ImpactCache
