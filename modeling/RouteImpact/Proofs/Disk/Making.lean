import RouteImpact.Proofs.Disk.Places
import RouteImpact.Proofs.Store.Replacement

namespace RouteImpact.Disk

/-!
# Making the way to a place

Directories are made along names one after the other.  Once they are made the names can be
followed, and making them again changes nothing; before that the names lead nowhere, unless
nothing has to be made.  Below a directory, names that run into no file can always be made a
way of.

* `makeWalk_append` — making a way is making its first part and going on;
* `walk_of_makeWalk`, `of_makeDirectories` — a way that was made can be walked;
* `makeDirectories_append_of_made` — a way can be made in two goes;
* `find_append_of_unmade` — a way that has to be made leads nowhere;
* `makeWalk_of_free`, `makeDirectories_of_free` — what a disk holds after a way was made;
* `find_append_of_free`, `target_append` — what names lead to that run into no file, and where
  something can be put.
-/

/-! ### Ways that are made -/

theorem makeWalk_append (d : Disk) (here : Place) (front names : List String) :
    d.makeWalk here (front ++ names) =
      match d.makeWalk here front with
      | (.error e, d') => (.error e, d')
      | (.ok _, d') => d'.makeWalk (lead here front) names := by
  induction front generalizing d here with
  | nil => rfl
  | cons name rest ih =>
    rw [List.cons_append, makeWalk, makeWalk, lead]
    split
    · exact ih d _
    · split
      · rfl
      · split
        · rfl
        · exact ih d _
        · exact ih _ _

/-- **A way that was made can be walked**, and ends in a directory. -/
theorem walk_of_makeWalk {d d' : Disk} {here : Place} {names : List String}
    (hhere : ∀ p, p <+: here → d.at? p = some .directory)
    (h : d.makeWalk here names = (.ok (), d')) :
    d'.walk here names = .ok (lead here names) ∧ d'.at? (lead here names) = some .directory := by
  induction names generalizing d here with
  | nil =>
    cases h
    exact ⟨rfl, hhere here (List.prefix_refl here)⟩
  | cons name rest ih =>
    -- the directory that the step is taken from is still there at the end
    have hstart : d'.at? here = some .directory := by
      have hkept : (d.makeWalk here (name :: rest)).2.at? here = some .directory :=
        at?_makeWalk (hhere here (List.prefix_refl here))
      rwa [h] at hkept
    rw [walk, hstart, lead]
    unfold makeWalk at h
    dsimp only
    split at h
    · next hup =>
      rw [if_pos hup, if_pos hup]
      exact ih (fun p hp => hhere p (hp.trans (List.dropLast_prefix here))) h
    · next hup =>
      split at h
      · cases h
      · next hlong =>
        rw [if_neg hup, if_neg hup, if_neg hlong]
        split at h
        · cases h
        · next hdir =>
          refine ih (fun p hp => ?_) h
          rcases List.prefix_concat_iff.1 hp with rfl | hp
          · exact hdir
          · exact hhere p hp
        · refine ih (fun p hp => ?_) h
          rw [at?_set (by simp)]
          split
          · rfl
          · next hne =>
            rcases List.prefix_concat_iff.1 hp with rfl | hp
            · exact absurd rfl hne
            · exact hhere p hp

/-- A directory that was made is there, where its names lead. -/
theorem of_makeDirectories {d d' : Disk} {root : List String}
    (h : d.makeDirectories root = (.ok (), d')) :
    root.any hasNul = false ∧ d.makeWalk [] root = (.ok (), d') ∧
      d'.locate root = .ok (lead [] root) ∧ d'.at? (lead [] root) = some .directory := by
  unfold makeDirectories at h
  split at h
  · cases h
  · next hnul =>
    obtain ⟨hwalk, hat⟩ := walk_of_makeWalk (by simp [at?_root]) h
    exact ⟨by simpa using hnul, h, by rw [locate, if_neg hnul, hwalk], hat⟩

/-- What is made below a directory can be made after it. -/
theorem makeDirectories_append_of_made {d d' : Disk} {root names : List String}
    (h : d.makeDirectories root = (.ok (), d')) (hnames : names.any hasNul = false) :
    d.makeDirectories (root ++ names) = d'.makeDirectories (root ++ names) := by
  obtain ⟨hnul, hmade, hlocate, hat⟩ := of_makeDirectories h
  have hagain := makeWalk_of_walk (walk_of_locate hlocate).2 hat
  have hclean : ¬(root ++ names).any hasNul = true := by simp [List.any_append, hnul, hnames]
  rw [makeDirectories, makeDirectories, if_neg hclean, if_neg hclean, makeWalk_append,
    makeWalk_append, hmade, hagain]

/-- Before a way is made, names lead along it, but to no file, or nowhere. -/
theorem walk_of_unmade {d d' : Disk} {here : Place} {names : List String}
    (hhere : ∀ p, p <+: here → d.at? p = some .directory)
    (h : d.makeWalk here names = (.ok (), d')) :
    d.walk here names = .error .notFound ∨
      ∃ place, d.walk here names = .ok place ∧ ∀ bytes, d.at? place ≠ some (.file bytes) := by
  induction names generalizing here with
  | nil => exact Or.inr ⟨here, rfl, by simp [hhere here (List.prefix_refl here)]⟩
  | cons name rest ih =>
    rw [walk, hhere here (List.prefix_refl here)]
    unfold makeWalk at h
    dsimp only
    split at h
    · next hup =>
      rw [if_pos hup]
      exact ih (fun p hp => hhere p (hp.trans (List.dropLast_prefix here))) h
    · next hup =>
      split at h
      · cases h
      · next hlong =>
        rw [if_neg hup, if_neg hlong]
        split at h
        · cases h
        · next hdir =>
          refine ih (fun p hp => ?_) h
          rcases List.prefix_concat_iff.1 hp with rfl | hp
          · exact hdir
          · exact hhere p hp
        · next hnone =>
          -- what has to be made is missing, so no further step can be taken
          cases rest with
          | nil => exact Or.inr ⟨here ++ [name], rfl, by simp [hnone]⟩
          | cons next rest => exact Or.inl (by rw [walk, hnone])

/-- **A way that has to be made leads nowhere.** -/
theorem find_append_of_unmade {d d' : Disk} {root : List String}
    (h : d.makeDirectories root = (.ok (), d')) :
    d' = d ∨ ∀ names, names.any hasNul = false → d.find (root ++ names) = .error .notFound := by
  obtain ⟨hnul, hmade, -, -⟩ := of_makeDirectories h
  have hclean : ∀ names : List String, names.any hasNul = false →
      ¬(root ++ names).any hasNul = true := by
    intro names hnames
    simp [List.any_append, hnul, hnames]
  rcases walk_of_unmade (by simp [at?_root]) hmade with hnone | ⟨place, hplace, hfile⟩
  · refine Or.inr fun names hnames => ?_
    rw [find, locate, if_neg (hclean names hnames), walk_append, hnone]
    rfl
  · cases hat : d.at? place with
    | none =>
      refine Or.inr fun names hnames => ?_
      rw [find, locate, if_neg (hclean names hnames), walk_append, hplace]
      cases names with
      | nil => simp only [Except.bind, walk, hat]
      | cons name rest => simp only [Except.bind, walk, hat]
    | some e =>
      cases e with
      | file bytes => exact absurd hat (hfile bytes)
      | directory =>
        rw [makeWalk_of_walk hplace hat] at hmade
        cases hmade
        exact Or.inl rfl

/-- Taking away what is no directory takes no directory away. -/
theorem at?_erase_of_directory {d : Disk} {p q : Place} (hp : d.at? p ≠ some .directory)
    (hq : d.at? q = some .directory) : (d.erase p).at? q = some .directory := by
  by_cases hroot : q = []
  · rw [hroot]
    exact at?_root _
  · rw [at?_erase hroot, if_neg]
    · exact hq
    · rintro rfl
      exact hp hq

/-! ### Ways that run into no file -/

section Free

variable {d : Disk} {here : Place} {names : List String}

/-- **What a disk holds after a way was made**: directories along the way, and what it held
elsewhere. -/
theorem makeWalk_of_free (hhere : d.at? here = some .directory)
    (hnames : ∀ n ∈ names, Nameable n)
    (hfree : ∀ q, q <+: names → ∀ bytes, d.at? (here ++ q) ≠ some (.file bytes)) :
    ∃ d', d.makeWalk here names = (.ok (), d') ∧
      (∀ q, q <+: names → d'.at? (here ++ q) = some .directory) ∧
      ∀ p, (∀ q, q <+: names → p ≠ here ++ q) → d'.at? p = d.at? p := by
  induction names generalizing d here with
  | nil =>
    refine ⟨d, rfl, fun q hq => ?_, fun _ _ => rfl⟩
    rw [List.prefix_nil.1 hq, List.append_nil]
    exact hhere
  | cons name rest ih =>
    have hname := hnames name (by simp)
    have hassoc : ∀ q, here ++ name :: q = here ++ [name] ++ q := by simp
    -- the first step leads into a directory that is there, or that is made
    obtain ⟨d₁, hstep, hdir, hframe⟩ : ∃ d₁ : Disk, d.makeWalk here (name :: rest) =
        d₁.makeWalk (here ++ [name]) rest ∧ d₁.at? (here ++ [name]) = some .directory ∧
        ∀ p, p ≠ here ++ [name] → d₁.at? p = d.at? p := by
      rw [makeWalk, if_neg hname.proper.ne_points, if_neg (Nat.not_lt.2 hname.short)]
      cases hat : d.at? (here ++ [name]) with
      | none =>
        refine ⟨_, rfl, by rw [at?_set (by simp), if_pos rfl], fun p hp => ?_⟩
        rw [at?_set (by simp), if_neg (Ne.symm hp)]
      | some e =>
        cases e with
        | file bytes => exact absurd hat (hfree [name] (by simp) bytes)
        | directory => exact ⟨d, rfl, hat, fun _ _ => rfl⟩
    have hfree₁ : ∀ q, q <+: rest → ∀ bytes, d₁.at? (here ++ [name] ++ q) ≠ some (.file bytes) := by
      intro q hq bytes
      by_cases hq' : q = []
      · simp [hq', hdir]
      · rw [hframe _ (by simpa using hq'), ← hassoc]
        exact hfree (name :: q) (by simpa using hq) bytes
    obtain ⟨d', hmade, hway, helse⟩ := ih hdir (fun n hn => hnames n (by simp [hn])) hfree₁
    refine ⟨d', by rw [hstep, hmade], fun q hq => ?_, fun p hp => ?_⟩
    · rcases List.prefix_cons_iff.1 hq with rfl | ⟨rest', rfl, hrest⟩
      · rw [List.append_nil, helse here fun q _ => by simp, hframe here (by simp)]
        exact hhere
      · rw [hassoc]
        exact hway rest' hrest
    · rw [helse p fun q hq => by rw [← hassoc]; exact hp _ (by simpa using hq)]
      exact hframe p (hp [name] (by simp))

/-- Names that run into no file lead along, or nowhere. -/
theorem walk_of_free (hnames : ∀ n ∈ names, Nameable n)
    (hfree : ∀ q, q <+: names → q ≠ names → ∀ bytes, d.at? (here ++ q) ≠ some (.file bytes)) :
    d.walk here names = .ok (here ++ names) ∨ d.walk here names = .error .notFound := by
  induction names generalizing here with
  | nil => exact Or.inl (by rw [walk, List.append_nil])
  | cons name rest ih =>
    have hname := hnames name (by simp)
    have hassoc : ∀ q, here ++ name :: q = here ++ [name] ++ q := by simp
    rw [walk]
    cases hat : d.at? here with
    | none => exact Or.inr rfl
    | some e =>
      cases e with
      | file bytes => exact absurd hat (by simpa using hfree [] (by simp) (by simp) bytes)
      | directory =>
        dsimp only
        rw [if_neg hname.proper.ne_points, if_neg (Nat.not_lt.2 hname.short), hassoc rest]
        refine ih (fun n hn => hnames n (by simp [hn])) fun q hq hne bytes => ?_
        rw [← hassoc]
        exact hfree (name :: q) (by simpa using hq) (by simpa using hne) bytes

end Free

section Below

variable {d : Disk} {root names front : List String} {base : Place} {name : String}

theorem any_hasNul_of_nameable (hnames : ∀ n ∈ names, Nameable n) : names.any hasNul = false := by
  rw [List.any_eq_false]
  exact fun n hn => by simp [(hnames n hn).no_nul]

theorem locate_append (hroot : d.locate root = .ok base) (hnames : ∀ n ∈ names, Nameable n) :
    d.locate (root ++ names) = d.walk base names := by
  obtain ⟨hnul, hwalk⟩ := walk_of_locate hroot
  have hclean : ¬(root ++ names).any hasNul = true := by
    simp [List.any_append, hnul, any_hasNul_of_nameable hnames]
  rw [locate, if_neg hclean, walk_append, hwalk]
  rfl

/-- **Directories are made** below a directory where no file is in the way. -/
theorem makeDirectories_of_free (h : d.Sound) (hroot : d.locate root = .ok base)
    (hbase : d.at? base = some .directory) (hnames : ∀ n ∈ names, Nameable n)
    (hfree : ∀ q, q <+: names → ∀ bytes, d.at? (base ++ q) ≠ some (.file bytes)) :
    ∃ d', d.makeDirectories (root ++ names) = (.ok (), d') ∧ d'.Sound ∧
      d'.locate root = .ok base ∧ (∀ q, q <+: names → d'.at? (base ++ q) = some .directory) ∧
      ∀ p, (∀ q, q <+: names → p ≠ base ++ q) → d'.at? p = d.at? p := by
  obtain ⟨hnul, hwalk⟩ := walk_of_locate hroot
  obtain ⟨d', hmade, hway, helse⟩ := makeWalk_of_free hbase hnames hfree
  have hclean : ¬(root ++ names).any hasNul = true := by
    simp [List.any_append, hnul, any_hasNul_of_nameable hnames]
  refine ⟨d', ?_, ?_, ?_, hway, helse⟩
  · -- the way to the directory is there, so nothing is made before it
    rw [makeDirectories, if_neg hclean, makeWalk_append, makeWalk_of_walk hwalk hbase,
      ← eq_lead_of_walk hwalk]
    exact hmade
  · have hsound := (h.makeWalk hbase (fun n hn _ => (hnames n hn).proper)
      (any_hasNul_of_nameable hnames)).1
    rwa [hmade] at hsound
  · rw [locate, if_neg (by simp [hnul])]
    refine walk_mono (fun p hp => ?_) hwalk
    have hkept : (d.makeWalk base names).2.at? p = some .directory := at?_makeWalk hp
    rwa [hmade] at hkept

/-- **Nothing is found** where nothing stands, if no file is in the way. -/
theorem find_append_of_free (hroot : d.locate root = .ok base) (hnames : ∀ n ∈ names, Nameable n)
    (hfree : ∀ q, q <+: names → q ≠ names → ∀ bytes, d.at? (base ++ q) ≠ some (.file bytes))
    (hat : d.at? (base ++ names) = none) : d.find (root ++ names) = .error .notFound := by
  rw [find, locate_append hroot hnames]
  rcases walk_of_free hnames hfree with hwalk | hwalk
  · simp only [hwalk, hat]
  · simp only [hwalk]

/-- Something can be put into a directory under any name. -/
theorem target_append (h : d.Sound) (hroot : d.locate root = .ok base)
    (hdir : d.at? (base ++ front) = some .directory) (hname : Nameable name) :
    d.target (root ++ (front ++ [name])) = .ok (base ++ (front ++ [name])) := by
  have hfront : ∀ n ∈ front, Nameable n :=
    fun n hn => h.nameable hdir n (List.mem_append_right base hn)
  have hnames : ∀ n ∈ front ++ [name], Nameable n := by
    intro n hn
    rcases List.mem_append.1 hn with hn | hn
    · exact hfront n hn
    · exact List.mem_singleton.1 hn ▸ hname
  have hwalk : d.walk base (front ++ [name]) = .ok (base ++ (front ++ [name])) := by
    rw [walk_append, h.walk_of_at? hdir]
    simp only [Except.bind, walk, hdir, if_neg hname.proper.ne_points,
      if_neg (Nat.not_lt.2 hname.short), List.append_assoc]
  have habove : (base ++ (front ++ [name])).dropLast = base ++ front := by
    rw [← List.append_assoc, List.dropLast_concat]
  rw [target, locate_append hroot hnames, hwalk]
  simp only [habove, hdir]

end Below

end RouteImpact.Disk
