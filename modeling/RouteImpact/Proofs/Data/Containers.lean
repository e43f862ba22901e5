import RouteImpact.Data.NameSet
import RouteImpact.Data.OrderedMap
import RouteImpact.Text.Basic

namespace RouteImpact

/-!
# Containers by what they hold

A `NameSet` is its members and an `OrderedMap` is its look-ups.  The later modules
speak about sets and maps through these two views only:

* `NameSet.ext` — sets with the same members are equal, since the members are kept
  sorted;
* `OrderedMap.get?_eq_some_iff` — a look-up finds exactly the entries;
* `OrderedMap.get?_ofList` — a map made of a list answers with the last entry of a
  name, and `OrderedMap.get?_ofList_of_nodup` with the only one.

`Text.mem_distinct` and `Text.mem_sortedSet` say that lists of texts keep their members, and
`bind_eq_ok` and `exists_of_mapM` take apart a computation that succeeded.
-/

/-- A computation in two parts succeeds when both do. -/
theorem bind_eq_ok {ε α β : Type} {x : Except ε α} {f : α → Except ε β} {b : β} :
    (x >>= f) = .ok b ↔ ∃ a, x = .ok a ∧ f a = .ok b := by
  cases x with
  | error e => simp [bind, Except.bind]
  | ok a => simp [bind, Except.bind]

/-- What was computed item by item was computed from some item. -/
theorem exists_of_mapM {ε α β : Type} {f : α → Except ε β} {xs : List α} {ys : List β} {y : β}
    (h : xs.mapM f = .ok ys) (hy : y ∈ ys) : ∃ x ∈ xs, f x = .ok y := by
  induction xs generalizing ys with
  | nil =>
    cases h
    cases hy
  | cons x xs ih =>
    rw [List.mapM_cons] at h
    obtain ⟨first, hfirst, h⟩ := bind_eq_ok.1 h
    obtain ⟨rest, hrest, h⟩ := bind_eq_ok.1 h
    cases h
    rcases List.mem_cons.1 hy with rfl | hy
    · exact ⟨x, by simp, hfirst⟩
    · obtain ⟨x', hx', hread⟩ := ih hrest hy
      exact ⟨x', by simp [hx'], hread⟩

namespace Text

/-- Dropping repetitions keeps the members. -/
@[simp] theorem mem_distinct {x : String} {xs : List String} : x ∈ distinct xs ↔ x ∈ xs := by
  induction xs with
  | nil => rfl
  | cons y ys ih =>
    rw [distinct, List.mem_cons, List.mem_cons, List.mem_filter, ih]
    by_cases h : x = y
    · simp [h]
    · simp [h]

@[simp] theorem mem_sortedSet {x : String} {xs : List String} : x ∈ sortedSet xs ↔ x ∈ xs := by
  rw [sortedSet, mem_distinct, sort, List.mem_mergeSort]

end Text

namespace NameSet

/-- **Extensionality.** Two sets with the same members are equal. -/
@[ext] theorem ext {s t : NameSet} (h : ∀ x, x ∈ s ↔ x ∈ t) : s = t := by
  -- the same members make the lists permutations, and sorted permutations are equal
  have hperm : s.toList.Perm t.toList := (List.perm_ext_iff_of_nodup s.nodup t.nodup).2 h
  have hlist : s.toList = t.toList :=
    hperm.eq_of_pairwise (fun _ _ _ _ hab hba => absurd hba (String.lt_asymm hab))
      s.sorted t.sorted
  cases s
  cases t
  simp_all

theorem isEmpty_iff {s : NameSet} : s.isEmpty = true ↔ ∀ x, x ∉ s := by
  rw [isEmpty, List.isEmpty_iff, List.eq_nil_iff_forall_not_mem]
  exact Iff.rfl

/-- Inserting a member changes nothing. -/
theorem insert_of_mem {s : NameSet} {x : String} (h : x ∈ s) : s.insert x = s := by
  ext y
  rw [mem_insert]
  exact ⟨fun hy => hy.elim (fun e => e ▸ h) id, Or.inr⟩

/-- A set that grows with every element of a list: what it holds in the end was there at
the start or came with an element. -/
theorem mem_foldl {φ : NameSet → String → NameSet} {P : String → Prop} {x : String}
    (h : ∀ s f, x ∈ φ s f ↔ P f ∨ x ∈ s) (xs : List String) (s : NameSet) :
    x ∈ xs.foldl φ s ↔ (∃ f ∈ xs, P f) ∨ x ∈ s := by
  induction xs generalizing s with
  | nil => simp
  | cons f xs ih =>
    rw [List.foldl_cons, ih, h]
    simp only [List.mem_cons, exists_eq_or_imp]
    rw [← or_assoc, or_comm (a := ∃ f ∈ xs, P f)]

/-- A set is made again from the list of its members. -/
@[simp] theorem ofList_toList (s : NameSet) : ofList s.toList = s := by
  ext x
  rw [mem_ofList]
  exact Iff.rfl

end NameSet

namespace OrderedMap

variable {α : Type}

/-! ### Look-ups and entries -/

theorem lookup_of_mem {es : List (String × α)} (hnd : (es.map Prod.fst).Nodup) {k : String}
    {v : α} (h : (k, v) ∈ es) : lookup k es = some v := by
  induction es with
  | nil => simp at h
  | cons e es ih =>
    obtain ⟨n, w⟩ := e
    rw [List.map_cons, List.nodup_cons] at hnd
    rcases List.mem_cons.1 h with he | ht
    · cases he
      simp [lookup]
    · have hne : n ≠ k := by
        rintro rfl
        exact hnd.1 (List.mem_map.2 ⟨(n, v), ht, rfl⟩)
      simp only [lookup, if_neg hne]
      exact ih hnd.2 ht

/-- Without repeated names a look-up finds exactly the entries. -/
theorem lookup_eq_some_iff {es : List (String × α)} (hnd : (es.map Prod.fst).Nodup) {k : String}
    {v : α} : lookup k es = some v ↔ (k, v) ∈ es :=
  ⟨mem_of_lookup, lookup_of_mem hnd⟩

theorem get?_eq_some_iff {m : OrderedMap α} {k : String} {v : α} :
    m.get? k = some v ↔ (k, v) ∈ m.entries :=
  lookup_eq_some_iff m.nodup

theorem mem_keys_iff {m : OrderedMap α} {k : String} : k ∈ m.keys ↔ (m.get? k).isSome = true := by
  rw [Option.isSome_iff_exists]
  simp only [get?_eq_some_iff, keys, List.mem_map, Prod.exists, exists_and_right, exists_eq_right]

/-- The order of entries without repeated names does not show in look-ups. -/
theorem lookup_perm {es fs : List (String × α)} (hp : es.Perm fs)
    (hnd : (es.map Prod.fst).Nodup) (k : String) : lookup k es = lookup k fs := by
  have hnd' : (fs.map Prod.fst).Nodup := (hp.map Prod.fst).nodup_iff.1 hnd
  ext v
  rw [lookup_eq_some_iff hnd, lookup_eq_some_iff hnd', hp.mem_iff]

/-! ### Maps made of lists and parts of maps -/

theorem lookup_append (k : String) (es fs : List (String × α)) :
    lookup k (es ++ fs) = (lookup k es).or (lookup k fs) := by
  induction es with
  | nil => simp [lookup]
  | cons e es ih =>
    obtain ⟨n, w⟩ := e
    by_cases h : n = k <;> simp [lookup, h, ih]

/-- Setting one entry after the other: the last one of a name counts, and what was
there before where there is none. -/
theorem get?_foldl_set (es : List (String × α)) (m : OrderedMap α) (k : String) :
    (es.foldl (fun m (k, v) => m.set k v) m).get? k = (lookup k es.reverse).or (m.get? k) := by
  induction es generalizing m with
  | nil => simp [lookup]
  | cons e es ih =>
    obtain ⟨n, w⟩ := e
    rw [List.foldl_cons, ih, List.reverse_cons, lookup_append, get?_set, Option.or_assoc]
    by_cases h : n = k <;> simp [lookup, h]

/-- Setting a value that depends on the name alone, for one name after the other. -/
theorem get?_foldl_assign (v : String → α) (ks : List String) (m : OrderedMap α) (k : String) :
    (ks.foldl (fun m k => m.set k (v k)) m).get? k = if k ∈ ks then some (v k) else m.get? k := by
  induction ks generalizing m with
  | nil => simp
  | cons n ks ih =>
    rw [List.foldl_cons, ih, get?_set]
    by_cases hk : k ∈ ks
    · simp [hk]
    · by_cases hn : n = k
      · simp [hn]
      · simp [hk, hn, Ne.symm hn]

theorem get?_ofList (es : List (String × α)) (k : String) :
    (ofList es).get? k = lookup k es.reverse := by
  rw [ofList, get?_foldl_set, get?_empty, Option.or_none]

theorem get?_ofList_of_nodup {es : List (String × α)} (hnd : (es.map Prod.fst).Nodup)
    (k : String) : (ofList es).get? k = lookup k es := by
  rw [get?_ofList]
  exact (lookup_perm es.reverse_perm.symm hnd k).symm

theorem mem_of_get?_ofList {es : List (String × α)} {k : String} {v : α}
    (h : (ofList es).get? k = some v) : (k, v) ∈ es := by
  rw [get?_ofList] at h
  exact List.mem_reverse.1 (mem_of_lookup h)

theorem lookup_filter (p : String → α → Bool) {es : List (String × α)}
    (hnd : (es.map Prod.fst).Nodup) (k : String) :
    lookup k (es.filter fun e => p e.1 e.2) = (lookup k es).filter (p k) := by
  have hnd' : ((es.filter fun e => p e.1 e.2).map Prod.fst).Nodup :=
    hnd.sublist (List.filter_sublist.map _)
  ext v
  rw [lookup_eq_some_iff hnd', List.mem_filter, Option.filter_eq_some_iff,
    lookup_eq_some_iff hnd]

@[simp] theorem get?_filter (m : OrderedMap α) (p : String → α → Bool) (k : String) :
    (m.filter p).get? k = (m.get? k).filter (p k) :=
  lookup_filter p m.nodup k

end OrderedMap

end RouteImpact
