import RouteImpact.Proofs.Data.Containers

namespace RouteImpact

/-!
# What sorting forgets

Sorting by a text that belongs to every element is stable: elements with one text keep
their order, and nothing else of the order they came in is left.

* `Text.sort_perm` — sorted texts do not depend on the order they came in;
* `Text.mergeSort_of_key` — sorted elements depend only on the order of those with one
  text;
* `OrderedMap.perm_entries` — maps with the same look-ups have the same entries, in some
  order, so sorting the entries by name makes them equal (`OrderedMap.sort_entries`).
-/

namespace Text

theorem le_iff {a b : String} : le a b = true ↔ a ≤ b := by
  rw [le, Bool.not_eq_true', decide_eq_false_iff_not]
  exact String.not_lt

theorem le_trans (a b c : String) (hab : le a b = true) (hbc : le b c = true) :
    le a c = true := by
  rw [le_iff] at hab hbc ⊢
  exact String.le_trans hab hbc

theorem le_total (a b : String) : (le a b || le b a) = true := by
  rw [Bool.or_eq_true, le_iff, le_iff]
  exact String.le_total a b

theorem le_antisymm {a b : String} (hab : le a b = true) (hba : le b a = true) : a = b :=
  String.le_antisymm (le_iff.1 hab) (le_iff.1 hba)

/-- Sorted texts do not depend on the order they came in. -/
theorem sort_perm {xs ys : List String} (h : xs.Perm ys) : sort xs = sort ys :=
  List.Perm.eq_of_pairwise (fun _ _ _ _ => le_antisymm)
    (List.pairwise_mergeSort le_trans le_total xs) (List.pairwise_mergeSort le_trans le_total ys)
    ((List.mergeSort_perm xs le).trans (h.trans (List.mergeSort_perm ys le).symm))

/-- What is left out of sorted texts can be left out before. -/
theorem filter_sort (p : String → Bool) (xs : List String) :
    (sort xs).filter p = sort (xs.filter p) :=
  List.Perm.eq_of_pairwise (fun _ _ _ _ => le_antisymm)
    ((List.pairwise_mergeSort le_trans le_total xs).filter p)
    (List.pairwise_mergeSort le_trans le_total _)
    (((List.mergeSort_perm xs le).filter p).trans (List.mergeSort_perm _ le).symm)

section Key

variable {α : Type} (key : α → String)

/-- The order of elements by the text that belongs to them. -/
def leBy (a b : α) : Bool := le (key a) (key b)

theorem pairwise_sortBy (xs : List α) :
    (xs.mergeSort (leBy key)).Pairwise fun a b => leBy key a b :=
  List.pairwise_mergeSort (fun a b c => le_trans (key a) (key b) (key c))
    (fun a b => le_total (key a) (key b)) xs

/-- **Stability.** Elements with one text keep their order. -/
theorem filter_sortBy (xs : List α) (k : String) :
    (xs.mergeSort (leBy key)).filter (key · = k) = xs.filter (key · = k) := by
  -- elements with one text are in order already, so they are a part of the sorted list
  have hpairwise : (xs.filter (key · = k)).Pairwise fun a b => leBy key a b := by
    refine List.pairwise_of_forall_mem_list fun a ha b hb => ?_
    have hka : key a = k := by simpa using (List.mem_filter.1 ha).2
    have hkb : key b = k := by simpa using (List.mem_filter.1 hb).2
    rw [leBy, hka, hkb]
    exact le_iff.2 (String.le_refl k)
  have hsub : (xs.filter (key · = k)).Sublist (xs.mergeSort (leBy key)) :=
    List.sublist_mergeSort (fun a b c => le_trans (key a) (key b) (key c))
      (fun a b => le_total (key a) (key b)) hpairwise List.filter_sublist
  have hfilter := hsub.filter (key · = k)
  rw [List.filter_filter] at hfilter
  simp only [Bool.and_self] at hfilter
  exact (hfilter.eq_of_length ((List.mergeSort_perm xs _).filter _).length_eq.symm).symm

theorem mem_iff_of_filter_eq {xs ys : List α}
    (h : ∀ k, xs.filter (key · = k) = ys.filter (key · = k)) (a : α) : a ∈ xs ↔ a ∈ ys := by
  have ha : ∀ zs : List α, a ∈ zs ↔ a ∈ zs.filter (key · = key a) := by simp
  rw [ha xs, ha ys, h]

/-- Sorted lists that agree on the elements of each text are equal. -/
theorem eq_of_filter_eq {xs ys : List α} (hxs : xs.Pairwise fun a b => leBy key a b)
    (hys : ys.Pairwise fun a b => leBy key a b)
    (h : ∀ k, xs.filter (key · = k) = ys.filter (key · = k)) : xs = ys := by
  induction xs generalizing ys with
  | nil =>
    cases ys with
    | nil => rfl
    | cons b ys => exact absurd ((mem_iff_of_filter_eq key h b).2 (by simp)) (by simp)
  | cons a xs ih =>
    have hmem := mem_iff_of_filter_eq key h
    cases ys with
    | nil => exact absurd ((hmem a).1 (by simp)) (by simp)
    | cons b ys =>
      rw [List.pairwise_cons] at hxs hys
      -- both first elements have the least text, and those with that text agree
      have hab : leBy key a b = true := by
        rcases List.mem_cons.1 ((hmem b).2 (by simp)) with rfl | hb
        · exact le_iff.2 (String.le_refl _)
        · exact hxs.1 b hb
      have hba : leBy key b a = true := by
        rcases List.mem_cons.1 ((hmem a).1 (by simp)) with rfl | ha
        · exact le_iff.2 (String.le_refl _)
        · exact hys.1 a ha
      have hkey : key a = key b := le_antisymm hab hba
      have heq : a = b := by
        have hfirst := h (key a)
        simp only [List.filter_cons, hkey, decide_true, if_true] at hfirst
        exact (List.cons.inj hfirst).1
      subst heq
      have htail : ∀ k, xs.filter (key · = k) = ys.filter (key · = k) := by
        intro k
        have hk := h k
        by_cases hak : key a = k
        · simp only [List.filter_cons, hak, decide_true, if_true] at hk
          exact (List.cons.inj hk).2
        · simpa [hak] using hk
      rw [ih hxs.2 hys.2 htail]

/-- **Only the order of elements with one text shows** after sorting. -/
theorem mergeSort_of_key {xs ys : List α}
    (h : ∀ k, xs.filter (key · = k) = ys.filter (key · = k)) :
    xs.mergeSort (leBy key) = ys.mergeSort (leBy key) := by
  refine eq_of_filter_eq key (pairwise_sortBy key xs) (pairwise_sortBy key ys) fun k => ?_
  rw [filter_sortBy, filter_sortBy, h]

end Key

end Text

namespace OrderedMap

variable {α : Type}

theorem nodup_entries (m : OrderedMap α) : m.entries.Nodup :=
  List.Pairwise.of_map Prod.fst (fun _ _ hne heq => hne (congrArg Prod.fst heq)) m.nodup

/-- Maps with the same look-ups have the same entries, in some order. -/
theorem perm_entries {m n : OrderedMap α} (h : ∀ k, m.get? k = n.get? k) :
    m.entries.Perm n.entries := by
  rw [List.perm_ext_iff_of_nodup m.nodup_entries n.nodup_entries]
  rintro ⟨k, v⟩
  rw [← get?_eq_some_iff, ← get?_eq_some_iff, h]

/-- Sorting the entries by name leaves nothing of the order they came in. -/
theorem sort_entries {m n : OrderedMap α} (h : ∀ k, m.get? k = n.get? k) :
    m.entries.mergeSort (Text.leBy Prod.fst) = n.entries.mergeSort (Text.leBy Prod.fst) := by
  refine List.Perm.eq_of_pairwise ?_ (Text.pairwise_sortBy _ _) (Text.pairwise_sortBy _ _)
    ((List.mergeSort_perm _ _).trans ((perm_entries h).trans (List.mergeSort_perm _ _).symm))
  rintro ⟨k, v⟩ ⟨l, w⟩ hv hw hle hge
  -- of one name there is one entry
  obtain rfl : k = l := Text.le_antisymm hle hge
  have hv' := get?_eq_some_iff.2 ((List.mergeSort_perm _ _).mem_iff.1 hv)
  have hw' := get?_eq_some_iff.2 ((List.mergeSort_perm _ _).mem_iff.1 hw)
  rw [h, hw', Option.some.injEq] at hv'
  rw [hv']

end OrderedMap

end RouteImpact
