import RouteImpact.Proofs.Path.Names

namespace RouteImpact

/-!
# What a spelling is made of

The spelling under which a file is known is a relative path, and it has no characters that
the path it was made from does not have, slashes and points apart.

* `Path.isAbsolute_normalize`, `Path.isAbsolute_tidy` — relative paths stay relative;
* `Path.mem_of_mem_normalize`, `Path.mem_of_mem_tidy` — where characters come from;
* `Project.hasNul_append` — seen from the project, a spelling holds the character that ends
  names only if the project's directory or the path does.
-/

namespace Path

/-! ### Relative paths -/

/-- Normal forms are made of the parts that are there, and of two points. -/
theorem of_mem_normalizeParts {rooted : Bool} {parts : List String} {name : String}
    (h : name ∈ normalizeParts rooted parts) : name = ".." ∨ (name ∈ parts ∧ name ≠ "") := by
  have hfold : ∀ (ps kept : List String), name ∈ ps.foldl (pushPart rooted) kept →
      name ∈ kept ∨ name = ".." ∨ (name ∈ ps ∧ name ≠ "") := by
    intro ps
    induction ps with
    | nil => exact fun kept hmem => Or.inl hmem
    | cons p ps ih =>
      intro kept hmem
      -- one part is added, or the last one is taken back
      have hpush : name ∈ pushPart rooted kept p → name ∈ kept ∨ name = ".." ∨
          (name = p ∧ name ≠ "") := by
        unfold pushPart
        grind
      rcases ih _ hmem with hkept | hpoints | ⟨hps, hne⟩
      · rcases hpush hkept with hkept | hpoints | ⟨rfl, hne⟩
        · exact Or.inl hkept
        · exact Or.inr (Or.inl hpoints)
        · exact Or.inr (Or.inr ⟨by simp, hne⟩)
      · exact Or.inr (Or.inl hpoints)
      · exact Or.inr (Or.inr ⟨by simp [hps], hne⟩)
  rw [normalizeParts, List.mem_reverse] at h
  rcases hfold parts [] h with hnil | hfound
  · cases hnil
  · exact hfound

theorem whole_of_mem_normalizeParts {rooted : Bool} {p name : String}
    (h : name ∈ normalizeParts rooted (Text.split '/' p)) : Whole name := by
  rcases of_mem_normalizeParts h with rfl | ⟨hmem, hne⟩
  · exact whole_points
  · exact ⟨hne, Text.notMem_of_mem_split hmem⟩

theorem isAbsolute_normalize {p : String} (h : isAbsolute p = false) :
    isAbsolute (normalize p) = false := by
  simp only [normalize, leadingSlashes_of_relative h]
  rw [show String.ofList [] = "" from rfl, String.empty_append]
  split
  · decide
  · exact isAbsolute_of_whole fun n hn => whole_of_mem_normalizeParts hn

theorem isAbsolute_tidy {p : String} (h : isAbsolute p = false) :
    isAbsolute (tidy p) = false := by
  simp only [tidy, root, leadingSlashes_of_relative h]
  rw [show String.ofList [] = "" from rfl, String.empty_append]
  split
  · decide
  · refine isAbsolute_of_whole fun n hn => ⟨?_, notMem_of_mem_components hn⟩
    have hkept := (List.mem_filter.1 hn).2
    simp only [Bool.and_eq_true, bne_iff_ne] at hkept
    exact hkept.1

theorem isAbsolute_ofRelative {names : List String} (h : ∀ n ∈ names, Whole n) :
    isAbsolute (ofRelative names) = false := by
  unfold ofRelative
  split
  · decide
  · exact isAbsolute_of_whole h

/-! ### Characters -/

section Characters

variable {c : Char} (hslash : c ≠ '/') (hpoint : c ≠ '.')

include hslash in
theorem mem_of_mem_join {names : List String} (h : c ∈ (Text.join "/" names).toList) :
    ∃ n ∈ names, c ∈ n.toList := by
  induction names with
  | nil => simp [Text.join] at h
  | cons n rest ih =>
    cases rest with
    | nil => exact ⟨n, by simp, by simpa [Text.join] using h⟩
    | cons m rest =>
      have htext : (Text.join "/" (n :: m :: rest)).toList =
          n.toList ++ '/' :: (Text.join "/" (m :: rest)).toList := by
        simp [Text.join, String.intercalate_cons_cons]
      rw [htext, List.mem_append, List.mem_cons] at h
      rcases h with hn | rfl | hrest
      · exact ⟨n, by simp, hn⟩
      · exact absurd rfl hslash
      · obtain ⟨x, hx, hc⟩ := ih hrest
        exact ⟨x, List.mem_cons_of_mem n hx, hc⟩

include hslash in
theorem notMem_leadingSlashes (cs : List Char) : c ∉ leadingSlashes cs := by
  unfold leadingSlashes
  split <;> simp [hslash]

include hslash in
theorem mem_of_mem_split {p piece : String} (hpiece : piece ∈ Text.split '/' p)
    (hc : c ∈ piece.toList) : c ∈ p.toList := by
  obtain ⟨cs, hcs, rfl⟩ := List.mem_map.1 hpiece
  rw [String.toList_ofList] at hc
  exact (Text.mem_iff_mem_splitList hslash p.toList).2 ⟨cs, hcs, hc⟩

include hslash hpoint in
theorem mem_of_mem_normalizeParts {rooted : Bool} {p name : String}
    (h : name ∈ normalizeParts rooted (Text.split '/' p)) (hc : c ∈ name.toList) :
    c ∈ p.toList := by
  rcases of_mem_normalizeParts h with rfl | ⟨hmem, -⟩
  · simp [hpoint] at hc
  · exact mem_of_mem_split hslash hmem hc

include hslash hpoint in
theorem mem_of_mem_normalize {p : String} (h : c ∈ (normalize p).toList) : c ∈ p.toList := by
  simp only [normalize] at h
  split at h
  · simp [hpoint] at h
  · rw [String.toList_append, List.mem_append, String.toList_ofList] at h
    rcases h with hlead | hjoin
    · exact absurd hlead (notMem_leadingSlashes hslash _)
    · obtain ⟨n, hn, hc⟩ := mem_of_mem_join hslash hjoin
      exact mem_of_mem_normalizeParts hslash hpoint hn hc

include hslash hpoint in
theorem mem_of_mem_tidy {p : String} (h : c ∈ (tidy p).toList) : c ∈ p.toList := by
  have htidy : tidy p = "." ∨ tidy p = root p ++ Text.join "/" (components p) := by
    unfold tidy
    dsimp only
    split
    · exact Or.inl rfl
    · exact Or.inr rfl
  rcases htidy with htidy | htidy
  · rw [htidy] at h
    simp [hpoint] at h
  · rw [htidy, root, String.toList_append, List.mem_append, String.toList_ofList] at h
    rcases h with hlead | hjoin
    · exact absurd hlead (notMem_leadingSlashes hslash _)
    · obtain ⟨n, hn, hc⟩ := mem_of_mem_join hslash hjoin
      exact mem_of_mem_split hslash (List.mem_filter.1 hn).1 hc

include hslash hpoint in
theorem mem_of_mem_ofRelative {names : List String} (h : c ∈ (ofRelative names).toList) :
    ∃ n ∈ names, c ∈ n.toList := by
  unfold ofRelative at h
  split at h
  · simp [hpoint] at h
  · exact mem_of_mem_join hslash h

end Characters

theorem mem_of_below? {dir parts rest : List String} (h : below? dir parts = some rest) :
    ∀ n ∈ rest, n ∈ parts := by
  induction dir generalizing parts with
  | nil =>
    cases h
    exact fun n hn => hn
  | cons d dir ih =>
    cases parts with
    | nil => cases h
    | cons part parts =>
      rw [below?] at h
      split at h
      · exact fun n hn => List.mem_cons_of_mem part (ih h n hn)
      · cases h

end Path

namespace Project

open Path

/-- A path seen from the project is relative, and made of the path's characters. -/
theorem of_relative? {dir path p : String} (h : relative? dir path = some p) :
    isAbsolute p = false ∧ ∀ c, c ≠ '/' → c ≠ '.' → c ∈ p.toList → c ∈ path.toList := by
  unfold relative? at h
  split at h
  · next habs =>
    split at h
    · cases h
    · obtain ⟨rest, hrest, rfl⟩ := Option.map_eq_some_iff.1 h
      have hbelow := mem_of_below? hrest
      rw [resolveParts, append, if_pos habs] at hbelow
      refine ⟨isAbsolute_ofRelative fun n hn => whole_of_mem_normalizeParts (hbelow n hn), ?_⟩
      intro c hslash hpoint hc
      obtain ⟨n, hn, hc⟩ := mem_of_mem_ofRelative hslash hpoint hc
      exact mem_of_mem_normalizeParts hslash hpoint (hbelow n hn) hc
  · next habs =>
    cases h
    exact ⟨isAbsolute_tidy (by simpa using habs), fun c hslash hpoint =>
      mem_of_mem_tidy hslash hpoint⟩

theorem of_normalize {dir path file : String} (h : normalize dir path = some file) :
    isAbsolute file = false ∧ ∀ c, c ≠ '/' → c ≠ '.' → c ∈ file.toList → c ∈ path.toList := by
  unfold normalize at h
  split at h
  · cases h
  · obtain ⟨p, hp, h⟩ := Option.bind_eq_some_iff.1 h
    obtain ⟨hrelative, hchars⟩ := of_relative? hp
    dsimp only at h
    split at h
    · cases h
    · cases h
      refine ⟨isAbsolute_normalize hrelative, fun c hslash hpoint hc => ?_⟩
      exact hchars c hslash hpoint (mem_of_mem_normalize hslash hpoint hc)

/-- **Seen from the project**, the spelling of a path that does not hold the character that
ends names holds it only if the project's directory does. -/
theorem hasNul_append {dir path file : String} (h : normalize dir path = some file)
    (hpath : Disk.hasNul path = false) :
    Disk.hasNul (append dir file) = Disk.hasNul dir := by
  obtain ⟨hrelative, hchars⟩ := of_normalize h
  have hfile : '\x00' ∉ file.toList := by
    intro hmem
    have hnul := hchars '\x00' (by decide) (by decide) hmem
    rw [Disk.hasNul, ← Bool.not_eq_true, List.contains_iff_mem] at hpath
    exact hpath hnul
  have hmem : '\x00' ∈ (append dir file).toList ↔ '\x00' ∈ dir.toList := by
    rw [append, if_neg (by simp [hrelative])]
    split
    · simp [hfile]
    · simp [hfile]
  rw [Disk.hasNul, Disk.hasNul, Bool.eq_iff_iff, List.contains_iff_mem, List.contains_iff_mem,
    hmem]

end Project

end RouteImpact
