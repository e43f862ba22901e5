import Mathlib.Data.List.Nodup
import RouteImpact.Proofs.Data.Sorting
import RouteImpact.Proofs.Disk.Places
import RouteImpact.Proofs.Project.Discovery

namespace RouteImpact.Store

open Disk (lead Followable)

/-!
# What a listing shows

A store in a directory lists the files below it whose names do not have the ending of
unfinished files.  The order in which the disk holds them does not show.

* `listed` — the keys of these files; `mem_listed` says which they are;
* `keysBelow_eq_sort` — a listing is any list of these keys, sorted.
-/

/-- The keys of the finished files below a place. -/
def listed (d : Disk) (base : Disk.Place) : List String :=
  ((d.filesBelow base).filter fun names =>
    !Text.endsWith (names.getLast?.getD "") temporaryEnding).map (Text.join "/")

section Listed

variable {d : Disk} {base : Disk.Place}

theorem proper_of_mem_filesBelow (h : d.Sound) {names : Disk.Place}
    (hnames : names ∈ d.filesBelow base) : ∀ n ∈ names, Path.Proper n := by
  obtain ⟨bytes, hbytes⟩ := Option.isSome_iff_exists.1 ((Project.mem_filesBelow h).1 hnames).2
  intro n hn
  exact (h.nameable (Disk.bytes?_eq_some_iff.1 hbytes) n (List.mem_append_right base hn)).proper

/-- The finished files below a place are those that stand there. -/
theorem mem_listed (h : d.Sound) {key : String} :
    key ∈ listed d base ↔ ∃ names, names ≠ [] ∧ (d.bytes? (base ++ names)).isSome = true ∧
      Text.endsWith (names.getLast?.getD "") temporaryEnding = false ∧
      Text.join "/" names = key := by
  simp only [listed, List.mem_map, List.mem_filter, Project.mem_filesBelow h, Bool.not_eq_true',
    and_assoc]

theorem nodup_filesBelow (h : d.Sound) : (d.filesBelow base).Nodup := by
  have hdistinct : d.entries.Pairwise fun a b => a.1 ≠ b.1 := List.pairwise_map.1 h.distinct
  refine List.pairwise_filterMap.2 (hdistinct.imp fun {a b} hne names hnames names' hnames' => ?_)
  -- two entries seen as one would stand at one place
  rintro rfl
  have hplace : ∀ e : Disk.Place × Disk.Entry,
      (if e.2.isFile = true then (Path.below? base e.1).filter (· ≠ []) else none) = some names →
        e.1 = base ++ names := by
    intro e he
    split at he
    · exact Project.below?_eq_some_iff.1 (Option.filter_eq_some_iff.1 he).1
    · cases he
  exact hne ((hplace a hnames).trans (hplace b hnames').symm)

theorem nodup_listed (h : d.Sound) : (listed d base).Nodup := by
  refine List.Nodup.map_on ?_ ((nodup_filesBelow h).filter _)
  intro names hnames names' hnames' heq
  have hproper := proper_of_mem_filesBelow h (List.mem_filter.1 hnames).1
  have hproper' := proper_of_mem_filesBelow h (List.mem_filter.1 hnames').1
  rw [← Path.components_join hproper, heq, Path.components_join hproper']

end Listed

/-- **A listing** is any list of the keys of the finished files, sorted. -/
theorem keysBelow_eq_sort {d : Disk} (h : d.Sound) {path : String}
    (hroot : d.Followable (Path.components path)) {keys : List String} (hnodup : keys.Nodup)
    (hkeys : ∀ key, key ∈ keys ↔ key ∈ listed d (lead [] (Path.components path))) :
    keysBelow d path = Text.sort keys := by
  have hfind : ∀ place e, d.find (Path.components path ++ []) = .ok (place, e) ↔
      place = lead [] (Path.components path) ++ [] ∧
        d.at? (lead [] (Path.components path) ++ []) = some e :=
    fun _ _ => h.find_append_iff hroot (by simp)
  simp only [List.append_nil] at hfind
  by_cases hdir : d.at? (lead [] (Path.components path)) = some .directory
  · rw [keysBelow, (hfind _ _).2 ⟨rfl, hdir⟩]
    refine Text.sort_perm ?_
    exact (List.perm_ext_iff_of_nodup (nodup_listed h) hnodup).2 fun key => (hkeys key).symm
  · -- without a directory there is nothing below it
    have hnone : keys = [] := by
      refine List.eq_nil_iff_forall_not_mem.2 fun key hkey => hdir ?_
      obtain ⟨names, hne, hbytes, -⟩ := (mem_listed h).1 ((hkeys key).1 hkey)
      obtain ⟨bytes, hbytes⟩ := Option.isSome_iff_exists.1 hbytes
      exact h.directory_of_append hne (Disk.bytes?_eq_some_iff.1 hbytes)
    rw [hnone, keysBelow]
    split
    · next hok => exact absurd ((hfind _ _).1 hok).2 hdir
    · simp [Text.sort]

end RouteImpact.Store
