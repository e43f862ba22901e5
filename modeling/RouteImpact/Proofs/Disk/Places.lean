import RouteImpact.Proofs.Store.Footprint

namespace RouteImpact.Disk

/-!
# Where names lead

Two points lead back to the directory above, so a name can be followed only if the directory
is there that it leads back from.  Below a directory whose own names can be followed, names
without two points lead to the places that they spell.

* `lead` — the place that names lead to; `eq_lead_of_walk` says that a walk that ends, ends
  there;
* `Followable` — names that none leads back from, or that a walk can follow to the last one;
* `Sound.find_append_iff`, `Sound.toOption_read_append` — finding and reading below such names
  is looking at a place;
* `Sound.makeWalk_of_blocked` — where names run into a file, no directory is made along them;
* `Grown` — a disk with the directories of another, and its files but for one place; making
  directories and writing a file let a disk grow (`Sound.grown_makeDirectories`,
  `Sound.grown_write`).
-/

/-! ### Walks -/

/-- The place that names lead to, if the directories on the way are there. -/
def lead : Place → List String → Place
  | here, [] => here
  | here, name :: rest => lead (if name = ".." then here.dropLast else here ++ [name]) rest

theorem lead_append (here : Place) (front names : List String) :
    lead here (front ++ names) = lead (lead here front) names := by
  induction front generalizing here with
  | nil => rfl
  | cons name rest ih => exact ih _

theorem lead_of_forward {here : Place} {names : List String} (h : ∀ n ∈ names, n ≠ "..") :
    lead here names = here ++ names := by
  induction names generalizing here with
  | nil => simp [lead]
  | cons name rest ih =>
    rw [lead, if_neg (h name (by simp)), ih fun n hn => h n (by simp [hn])]
    simp

theorem eq_lead_of_walk {d : Disk} {here place : Place} {names : List String}
    (h : d.walk here names = .ok place) : place = lead here names := by
  induction names generalizing here with
  | nil =>
    cases h
    rfl
  | cons name rest ih =>
    unfold walk at h
    split at h
    · cases h
    · cases h
    · split at h
      · next hup =>
        rw [lead, if_pos hup]
        exact ih h
      · next hup =>
        split at h
        · cases h
        · rw [lead, if_neg hup]
          exact ih h

/-- A walk goes on where its first part ends. -/
theorem walk_append (d : Disk) (here : Place) (front names : List String) :
    d.walk here (front ++ names) = (d.walk here front).bind fun place => d.walk place names := by
  induction front generalizing here with
  | nil => rfl
  | cons name rest ih =>
    rw [List.cons_append, walk, walk]
    cases d.at? here with
    | none => rfl
    | some e =>
      cases e with
      | file bytes => rfl
      | directory =>
        dsimp only
        split
        · exact ih _
        · split
          · rfl
          · exact ih _

/-- Names that can be followed: none of them leads back, or a walk gets to the last one. -/
def Followable (d : Disk) (names : List String) : Prop :=
  (∀ n ∈ names, n ≠ "..") ∨ ∃ place, d.locate names = .ok place

/-- What can be followed can still be followed where no directory is missing. -/
theorem Followable.mono {d d' : Disk} {names : List String} (h : d.Followable names)
    (hdirs : ∀ p, d.at? p = some .directory → d'.at? p = some .directory) :
    d'.Followable names := by
  refine h.imp id ?_
  rintro ⟨place, hlocate⟩
  obtain ⟨hnul, hwalk⟩ := walk_of_locate hlocate
  exact ⟨place, by rw [locate, if_neg (by simp [hnul]), walk_mono hdirs hwalk]⟩

section Following

variable {d : Disk} {root names : List String} {place : Place} {e : Entry}

/-- Below names that can be followed, a walk ends where the names say. -/
theorem eq_of_walk_append (hroot : d.Followable root) (hup : ∀ n ∈ names, n ≠ "..")
    (h : d.walk [] (root ++ names) = .ok place) : place = lead [] root ++ names := by
  rcases hroot with hforward | ⟨base, hbase⟩
  · have hall : ∀ n ∈ root ++ names, n ≠ ".." :=
      fun n hn => (List.mem_append.1 hn).elim (hforward n) (hup n)
    rw [eq_append_of_walk hall h, lead_of_forward hforward, List.nil_append, List.nil_append]
  · obtain ⟨-, hwalk⟩ := walk_of_locate hbase
    rw [walk_append, hwalk] at h
    rw [eq_append_of_walk hup h, eq_lead_of_walk hwalk]

/-- **Finding.** Below names that can be followed, what is found is what stands at the place
that the names say. -/
theorem Sound.find_append_iff (h : d.Sound) (hroot : d.Followable root)
    (hup : ∀ n ∈ names, n ≠ "..") :
    d.find (root ++ names) = .ok (place, e) ↔
      place = lead [] root ++ names ∧ d.at? (lead [] root ++ names) = some e := by
  constructor
  · intro hfind
    obtain ⟨hlocate, hat⟩ := of_find hfind
    have hplace := eq_of_walk_append hroot hup (walk_of_locate hlocate).2
    exact ⟨hplace, hplace ▸ hat⟩
  · rintro ⟨rfl, hat⟩
    rcases hroot with hforward | ⟨base, hbase⟩
    · rw [lead_of_forward hforward, List.nil_append] at hat ⊢
      exact h.find_of_at? hat
    · obtain ⟨hnul, hwalk⟩ := walk_of_locate hbase
      obtain rfl := eq_lead_of_walk hwalk
      have hclean : (root ++ names).any hasNul = false := by
        rw [List.any_append, hnul, Bool.false_or, List.any_eq_false]
        exact fun n hn => by simp [(h.nameable hat n (List.mem_append_right _ hn)).no_nul]
      have hwhole : d.walk [] (root ++ names) = .ok (lead [] root ++ names) := by
        rw [walk_append, hwalk]
        exact h.walk_of_at? hat
      rw [find, locate, if_neg (by simp [hclean]), hwhole]
      simp only [hat]

/-- **Reading.** Below names that can be followed, what is read is what stands there. -/
theorem Sound.toOption_read_append (h : d.Sound) (hroot : d.Followable root)
    (hup : ∀ n ∈ names, n ≠ "..") :
    (d.read (root ++ names)).toOption = d.bytes? (lead [] root ++ names) := by
  ext bytes
  rw [bytes?_eq_some_iff]
  constructor
  · intro hread
    unfold read at hread
    split at hread
    · cases hread
    · next hfind =>
      cases hread
      exact ((h.find_append_iff hroot hup).1 hfind).2
    · cases hread
  · intro hat
    rw [read, (h.find_append_iff hroot hup).2 ⟨rfl, hat⟩]
    rfl

end Following

/-! ### Names that cannot be spelled -/

theorem walk_ne_nulInName {d : Disk} {here : Place} {names : List String} :
    d.walk here names ≠ .error .nulInName := by
  induction names generalizing here with
  | nil => nofun
  | cons name rest ih =>
    unfold walk
    split
    · nofun
    · nofun
    · split
      · exact ih
      · split
        · nofun
        · exact ih

/-- Reading fails for a name that cannot be spelled, whatever the disk holds. -/
theorem read_eq_nulInName_iff {d : Disk} {names : List String} :
    d.read names = .error .nulInName ↔ names.any hasNul = true := by
  by_cases hnul : names.any hasNul = true
  · simp [read, find, locate, hnul]
  · refine ⟨fun hread => ?_, fun hc => absurd hc hnul⟩
    unfold read at hread
    split at hread
    · next hfind =>
      cases hread
      unfold find locate at hfind
      rw [if_neg hnul] at hfind
      split at hfind
      · next hwalk =>
        cases hfind
        exact absurd hwalk walk_ne_nulInName
      · split at hfind <;> cases hfind
    · cases hread
    · cases hread

/-! ### Names that run into a file -/

/-- **Blocked.** Where a walk runs into a file or a name that is too long, making the
directories along it, or along some of it, is refused before anything changes. -/
theorem Sound.makeWalk_of_blocked {d : Disk} (h : d.Sound) {here : Place}
    {front : List String} (hhere : d.at? here = some .directory) {fault : Fault}
    (hfault : fault ≠ .notFound) (hwalk : d.walk here front = .error fault)
    (names : List String) :
    d.makeWalk here (front ++ names) = (.error fault, d) ∧
      ∀ n, (d.makeWalk here ((front ++ names).take n)).2 = d := by
  induction front generalizing here with
  | nil => cases hwalk
  | cons name rest ih =>
    rw [walk, hhere] at hwalk
    dsimp only at hwalk
    -- a part of the way is empty, or takes the first step as the whole way does
    suffices hstep : d.makeWalk here (name :: (rest ++ names)) = (.error fault, d) ∧
        ∀ n, (d.makeWalk here (name :: (rest ++ names).take n)).2 = d by
      refine ⟨hstep.1, fun n => ?_⟩
      cases n with
      | zero => rfl
      | succ n => exact hstep.2 n
    simp only [Disk.makeWalk]
    split at hwalk
    · next hup =>
      simp only [if_pos hup]
      exact ih (h.at?_dropLast hhere) hwalk
    · next hup =>
      simp only [if_neg hup]
      split at hwalk
      · next hlong =>
        cases hwalk
        simp [if_pos hlong]
      · next hlong =>
        simp only [if_neg hlong]
        cases hat : d.at? (here ++ [name]) with
        | none =>
          -- nothing blocks a walk where nothing stands
          cases rest with
          | nil => cases hwalk
          | cons next rest =>
            rw [walk, hat] at hwalk
            cases hwalk
            exact absurd rfl hfault
        | some e =>
          cases e with
          | file bytes =>
            -- a walk that ends at the file is none that fails
            cases rest with
            | nil => cases hwalk
            | cons next rest =>
              rw [walk, hat] at hwalk
              cases hwalk
              exact ⟨rfl, fun _ => rfl⟩
          | directory => exact ih hat hwalk

/-! ### Disks that grow -/

/-- A sound disk with the directories of another, and its files but for the place `q`. -/
structure Grown (q : Place) (d d' : Disk) : Prop where
  sound : d'.Sound
  directory : ∀ p, d.at? p = some .directory → d'.at? p = some .directory
  bytes : ∀ p, p ≠ q → d'.bytes? p = d.bytes? p

theorem Sound.grown {d : Disk} (h : d.Sound) (q : Place) : Grown q d d :=
  ⟨h, fun _ => id, fun _ _ => rfl⟩

theorem Grown.trans {q : Place} {a b c : Disk} (hab : Grown q a b) (hbc : Grown q b c) :
    Grown q a c :=
  ⟨hbc.sound, fun p hp => hbc.directory p (hab.directory p hp),
    fun p hp => (hbc.bytes p hp).trans (hab.bytes p hp)⟩

/-- Making directories takes none away. -/
theorem at?_makeWalk {d : Disk} {here p : Place} {names : List String}
    (h : d.at? p = some .directory) : (d.makeWalk here names).2.at? p = some .directory := by
  induction names generalizing d here with
  | nil => exact h
  | cons name rest ih =>
    unfold makeWalk
    split
    · exact ih h
    · split
      · exact h
      · split
        · exact h
        · exact ih h
        · refine ih ?_
          rw [at?_set (by simp)]
          split
          · rfl
          · exact h

theorem Sound.grown_makeDirectories {d : Disk} (h : d.Sound) {names : List String}
    (hspelled : Spelled names) (q : Place) : Grown q d (d.makeDirectories names).2 := by
  obtain ⟨hsound, hbytes⟩ := h.makeDirectories hspelled
  refine ⟨hsound, fun p hp => ?_, fun p _ => hbytes p⟩
  unfold Disk.makeDirectories
  split
  · exact hp
  · exact at?_makeWalk hp

/-- A file that is written is the only one that changes. -/
theorem Sound.grown_write {d : Disk} (h : d.Sound) {names : List String} (hspelled : Spelled names)
    {q : Place} (hq : ∀ place, d.walk [] names = .ok place → place = q) (bytes : ByteArray) :
    Grown q d (d.write names bytes).2 := by
  rcases d.write_cases names bytes with ⟨e, hw⟩ | ⟨place, htarget, hat, hw⟩
  · rw [hw]
    exact h.grown q
  · obtain rfl := hq place (walk_of_locate (of_target htarget).1).2
    obtain ⟨hne, hsound⟩ := h.set_target (e := .file bytes) hspelled htarget hat
    rw [hw]
    refine ⟨hsound, fun p hp => ?_, fun p hp => bytes?_set_of_ne hne (Ne.symm hp)⟩
    rw [at?_set hne, if_neg]
    · exact hp
    · rintro rfl
      exact hat hp

end RouteImpact.Disk
