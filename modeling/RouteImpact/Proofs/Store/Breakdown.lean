import RouteImpact.Proofs.Store.Keys
import RouteImpact.Proofs.Store.Listing
import RouteImpact.Proofs.Store.Retrieval

namespace RouteImpact

open Disk (Spelled Followable Grown lead)

/-!
# Uploads on a disk that gives out

An upload makes directories, writes the bytes beside their place and moves them there, and
the disk may give out at any point of this.  What is left then, new directories and a file
with the ending of unfinished files, shows neither in what is downloaded nor in what is
listed.

* `Store.Breakdown`, `Host.uploadAmid` — where the disk gives out, and an upload during which
  it does; without a breakdown it is an upload (`Host.uploadAmid_none`);
* `Store.grown_of_failed` — an upload that fails changes no file but the unfinished one;
* `Host.SameAnswer` — answers that are equal, or refusals that differ in their reason;
* `Host.unchanged_of_failed` — an upload that fails leaves the store as it was, and one that
  succeeds can be downloaded;
* `Host.uncovered_by_failed` — a store whose own path leads back from a directory that is not
  there: the directory is made, and what lay behind it shows.
-/

namespace Store

/-- Where the disk gives out during an upload. -/
inductive Breakdown where
  /-- When so many of the directories on the way have been made. -/
  | making (directories : Nat)
  /-- When so many bytes have been written beside the place of the file. -/
  | writing (bytes : Nat)
  /-- Before the file is moved to its place. -/
  | moving

/-- A change after which the disk gives out. -/
def giveOut : Disk.Change → Disk.Change
  | (.error e, d) => (.error e, d)
  | (.ok _, d) => (.error .refused, d)

/-- Writes bytes beside their place, then moves them there, on a disk that may give out. -/
def writeThenMoveAmid (breakdown : Option Breakdown) (d : Disk) (names : List String)
    (data : ByteArray) : Disk.Change :=
  match breakdown with
  | none => writeThenMove d names data
  | some (.making directories) =>
    if names.dropLast.any Disk.hasNul then (.error .nulInName, d)
    else giveOut (d.makeWalk [] (names.dropLast.take directories))
  | some (.writing bytes) => writeBeside d (data.extract 0 bytes)
  | some .moving => writeBeside d data
where
  /-- The directories are made and some bytes written. -/
  writeBeside (d : Disk) (data : ByteArray) : Disk.Change :=
    match d.makeDirectories names.dropLast with
    | (.error e, d) => (.error e, d)
    | (.ok _, d) => giveOut (d.write (temporary names) data)

end Store

namespace Host

open Store (Error Breakdown isKey names ofFault)

/-- Keeps bytes under a key, on a disk that may give out. -/
def uploadAmid (breakdown : Option Breakdown) (h : Host) (key : String) (data : ByteArray) :
    Except Error Unit × Host :=
  match h.store with
  | .directory path =>
    if isKey key then
      match Store.writeThenMoveAmid breakdown h.disk (names path key) data with
      | (.ok _, d) => (.ok (), { h with disk := d })
      | (.error e, d) => (.error (ofFault "upload" key e), { h with disk := d })
    else (.error (.refused "validate" key .badKey), h)
  | _ => h.upload key data

/-- Without a breakdown this is an upload. -/
theorem uploadAmid_none (h : Host) (key : String) (data : ByteArray) :
    h.uploadAmid none key data = h.upload key data := by
  cases hstore : h.store with
  | directory path =>
    cases hwrite : Store.writeThenMove h.disk (names path key) data with
    | mk result d =>
      cases result <;> simp only [uploadAmid, upload, hstore, Store.writeThenMoveAmid, hwrite]
  | memory _ => simp only [uploadAmid, hstore]
  | failing => simp only [uploadAmid, hstore]
  | unreachable => simp only [uploadAmid, hstore]

/-- Answers that are equal, or refusals of one question for different reasons. -/
inductive SameAnswer {α : Type} : Except Error α → Except Error α → Prop
  | same (answer : Except Error α) : SameAnswer answer answer
  | refused (operation key : String) (reason reason' : Store.Reason) :
      SameAnswer (.error (.refused operation key reason)) (.error (.refused operation key reason'))

end Host

/-! ### What a failed upload leaves -/

namespace Store

theorem snd_giveOut (change : Disk.Change) : (giveOut change).2 = change.2 := by
  obtain ⟨result, d⟩ := change
  cases result <;> rfl

section Failed

variable {d d' : Disk} {root names : List String}

/-- Writing beside the place of a file changes the unfinished file and no other. -/
theorem grown_writeBeside (h : d.Sound) (hroot : d.Followable root) (hspelled : Spelled root)
    (hne : names ≠ []) (hnames : ∀ n ∈ names, Path.Proper n) (data : ByteArray) :
    Grown (lead [] root ++ temporary names) d
      (writeThenMoveAmid.writeBeside (root ++ names) d data).2 := by
  have hall : Spelled (root ++ names) := spelled_append hspelled hnames
  have htemporary := proper_of_mem_temporary hnames
  have hmade : Grown (lead [] root ++ temporary names) d
      (d.makeDirectories (root ++ names).dropLast).2 :=
    h.grown_makeDirectories (fun n hn => hall n (List.dropLast_subset _ hn)) _
  unfold writeThenMoveAmid.writeBeside
  generalize d.makeDirectories (root ++ names).dropLast = made at hmade ⊢
  obtain ⟨result, d₁⟩ := made
  cases result with
  | error e => exact hmade
  | ok _ =>
    dsimp only at hmade ⊢
    rw [snd_giveOut, temporary_append root hne]
    refine hmade.trans (hmade.sound.grown_write (spelled_append hspelled htemporary) ?_ data)
    intro place hwalk
    exact Disk.eq_of_walk_append (hroot.mono hmade.directory)
      (fun n hn => (htemporary n hn).ne_points) hwalk

/-- A write in two steps that fails leaves what one leaves that stops before the move. -/
theorem snd_of_failed {e : Disk.Fault} {data : ByteArray}
    (hfail : writeThenMove d names data = (.error e, d')) :
    d' = (writeThenMoveAmid.writeBeside names d data).2 := by
  unfold writeThenMove at hfail
  unfold writeThenMoveAmid.writeBeside
  generalize d.makeDirectories names.dropLast = made at hfail ⊢
  obtain ⟨result, d₁⟩ := made
  cases result with
  | error _ =>
    cases hfail
    rfl
  | ok _ =>
    dsimp only at hfail ⊢
    rw [snd_giveOut]
    generalize d₁.write (temporary names) data = written at hfail ⊢
    obtain ⟨result, d₂⟩ := written
    cases result with
    | error _ =>
      cases hfail
      rfl
    | ok _ =>
      dsimp only at hfail ⊢
      rcases d₂.rename_cases (temporary names) names with ⟨e', hm⟩ | ⟨_, _, _, -, -, -, hm⟩
      · rw [hm] at hfail
        cases hfail
        rfl
      · rw [hm] at hfail
        cases hfail

/-- **What a failed upload leaves**: new directories, and an unfinished file. -/
theorem grown_of_failed (h : d.Sound) (hroot : d.Followable root) (hspelled : Spelled root)
    (hne : names ≠ []) (hnames : ∀ n ∈ names, Path.Proper n) {breakdown : Option Breakdown}
    {data : ByteArray} {e : Disk.Fault}
    (hfail : writeThenMoveAmid breakdown d (root ++ names) data = (.error e, d')) :
    Grown (lead [] root ++ temporary names) d d' := by
  cases breakdown with
  | none =>
    rw [snd_of_failed hfail]
    exact grown_writeBeside h hroot hspelled hne hnames data
  | some b =>
    obtain rfl : (writeThenMoveAmid (some b) d (root ++ names) data).2 = d' := by rw [hfail]
    cases b with
    | making directories =>
      rw [writeThenMoveAmid]
      split
      · exact h.grown _
      · next hnul =>
        have hway : ∀ n ∈ (root ++ names).dropLast.take directories, n ∈ (root ++ names).dropLast :=
          fun _ hn => List.take_subset _ _ hn
        have hclean : ((root ++ names).dropLast.take directories).any Disk.hasNul = false := by
          rw [List.any_eq_false]
          exact fun n hn hc => hnul (List.any_eq_true.2 ⟨n, hway n hn, hc⟩)
        rw [snd_giveOut]
        have hmade := h.grown_makeDirectories
          (fun n hn => spelled_append hspelled hnames n (List.dropLast_subset _ (hway n hn)))
          (lead [] root ++ temporary names)
        rwa [Disk.makeDirectories, if_neg (by simp [hclean])] at hmade
    | writing bytes => exact grown_writeBeside h hroot hspelled hne hnames _
    | moving => exact grown_writeBeside h hroot hspelled hne hnames _

/-- An upload does not succeed on a disk that gives out. -/
theorem eq_none_of_ok {breakdown : Option Breakdown} {data : ByteArray}
    (hok : writeThenMoveAmid breakdown d names data = (.ok (), d')) : breakdown = none := by
  have hgiveOut : ∀ change : Disk.Change, giveOut change ≠ (.ok (), d') := by
    rintro ⟨_ | _, _⟩ <;> nofun
  rcases breakdown with _ | directories | bytes | _
  · rfl
  · rw [writeThenMoveAmid] at hok
    split at hok
    · cases hok
    · exact absurd hok (hgiveOut _)
  all_goals
    rw [writeThenMoveAmid, writeThenMoveAmid.writeBeside] at hok
    split at hok
    · cases hok
    · exact absurd hok (hgiveOut _)

/-- Where the names of the directory run into a file, nothing changes. -/
theorem snd_of_blocked (h : d.Sound) {fault : Disk.Fault} (hfault : fault ≠ .notFound)
    (hlocate : d.locate root = .error fault) (hne : names ≠ []) (breakdown : Option Breakdown)
    (data : ByteArray) : (writeThenMoveAmid breakdown d (root ++ names) data).2 = d := by
  have hway : (root ++ names).dropLast = root ++ names.dropLast :=
    List.dropLast_append_of_ne_nil hne
  by_cases hnul : (root ++ names).dropLast.any Disk.hasNul = true
  · rcases breakdown with _ | _ | _ | _ <;>
      simp [writeThenMoveAmid, writeThenMoveAmid.writeBeside, writeThenMove,
        Disk.makeDirectories, hnul]
  · have hclean : ¬root.any Disk.hasNul = true := by
      rw [hway, List.any_append, Bool.or_eq_true, not_or] at hnul
      exact hnul.1
    rw [Disk.locate, if_neg hclean] at hlocate
    -- what stops the walk stops the directories from being made, in whole or in part
    obtain ⟨hmake, hpart⟩ := h.makeWalk_of_blocked (Disk.at?_root d) hfault hlocate
      names.dropLast
    rw [← hway] at hmake hpart
    rcases breakdown with _ | _ | _ | _ <;>
      simp [writeThenMoveAmid, writeThenMoveAmid.writeBeside, writeThenMove,
        Disk.makeDirectories, hnul, hmake, snd_giveOut, hpart]

end Failed

end Store

/-! ### What shows of it -/

namespace Store

section Shown

variable {d d' : Disk} {path : String} {names : List String}

/-- A finished file is the same on a disk that differs in an unfinished one. -/
theorem bytes?_of_grown {base : Disk.Place} (hgrown : Grown (base ++ temporary names) d d')
    {file : List String} (hlast : Text.endsWith (file.getLast?.getD "") temporaryEnding = false) :
    d'.bytes? (base ++ file) = d.bytes? (base ++ file) := by
  refine hgrown.bytes _ fun heq => ?_
  rw [List.append_cancel_left heq, endsWith_temporary] at hlast
  cases hlast

/-- It is read alike. -/
theorem toOption_read_of_grown {key : String} (h : d.Sound)
    (hroot : d.Followable (Path.components path))
    (hgrown : Grown (lead [] (Path.components path) ++ temporary names) d d')
    (hkey : isKey key = true) (hlast : Text.endsWith (Path.lastName key) temporaryEnding = false) :
    (d'.read (Store.names path key)).toOption = (d.read (Store.names path key)).toOption := by
  obtain ⟨hproper, hnames⟩ := of_isKey hkey
  have hup : ∀ n ∈ Path.components key, n ≠ ".." := fun n hn => (hproper n hn).ne_points
  rw [hnames, hgrown.sound.toOption_read_append (hroot.mono hgrown.directory) hup,
    h.toOption_read_append hroot hup]
  exact bytes?_of_grown hgrown hlast

/-- It is listed alike. -/
theorem keysBelow_of_grown (h : d.Sound) (hroot : d.Followable (Path.components path))
    (hgrown : Grown (lead [] (Path.components path) ++ temporary names) d d') :
    keysBelow d' path = keysBelow d path := by
  rw [keysBelow_eq_sort h hroot (nodup_listed h) fun _ => Iff.rfl]
  refine keysBelow_eq_sort hgrown.sound (hroot.mono hgrown.directory) (nodup_listed h) fun key => ?_
  rw [mem_listed h, mem_listed hgrown.sound]
  constructor
  · rintro ⟨file, hne, hbytes, hlast, hjoin⟩
    exact ⟨file, hne, by rwa [bytes?_of_grown hgrown hlast], hlast, hjoin⟩
  · rintro ⟨file, hne, hbytes, hlast, hjoin⟩
    exact ⟨file, hne, by rwa [← bytes?_of_grown hgrown hlast], hlast, hjoin⟩

end Shown

end Store

namespace Host

open Store (isKey temporaryEnding Breakdown)

/-- What is read alike is downloaded alike. -/
theorem sameAnswer_download {d d' : Disk} {path key : String}
    (hread : isKey key = true → (d'.read (Store.names path key)).toOption =
      (d.read (Store.names path key)).toOption) :
    SameAnswer (download ⟨.directory path, d⟩ key) (download ⟨.directory path, d'⟩ key) := by
  unfold download
  dsimp only
  split
  · next hkey =>
    have hread := hread hkey
    -- a name that cannot be spelled is the one refusal that differs in kind
    have hnul : d.read (Store.names path key) = .error .nulInName ↔
        d'.read (Store.names path key) = .error .nulInName := by
      rw [Disk.read_eq_nulInName_iff, Disk.read_eq_nulInName_iff]
    generalize d.read (Store.names path key) = before at hread hnul ⊢
    generalize d'.read (Store.names path key) = after at hread hnul ⊢
    cases before with
    | ok bytes =>
      cases after with
      | ok bytes' =>
        cases hread
        exact .same _
      | error e => cases hread
    | error e =>
      cases after with
      | ok bytes => cases hread
      | error e' =>
        have hkind : e = .nulInName ↔ e' = .nulInName := by simpa using hnul
        cases e <;> cases e' <;> simp at hkind <;>
          first | exact .same _ | exact .refused _ _ _ _
  · exact .same _

/-- An upload that fails shows neither in what is read nor in what is listed. -/
theorem shown_of_failed {d d' : Disk} {path key : String} (hsound : d.Sound)
    (hroot : (∀ n ∈ Path.components path, n ≠ "..") ∨
      d.locate (Path.components path) ≠ .error .notFound)
    (hkey : isKey key = true) (hne : Path.components key ≠ []) {breakdown : Option Breakdown}
    {data : ByteArray} {e : Disk.Fault}
    (hfail : Store.writeThenMoveAmid breakdown d (Store.names path key) data = (.error e, d')) :
    (∀ other, isKey other = true → Text.endsWith (Path.lastName other) temporaryEnding = false →
      (d'.read (Store.names path other)).toOption = (d.read (Store.names path other)).toOption) ∧
    Store.keysBelow d' path = Store.keysBelow d path := by
  obtain ⟨hproper, hnames⟩ := Store.of_isKey hkey
  rw [hnames] at hfail
  by_cases hfollow : d.Followable (Path.components path)
  · have hgrown := Store.grown_of_failed hsound hfollow (Store.spelled_components path) hne hproper
      hfail
    exact ⟨fun _ hother hlast => Store.toOption_read_of_grown hsound hfollow hgrown hother hlast,
      Store.keysBelow_of_grown hsound hfollow hgrown⟩
  · -- the names of the directory are neither plain nor missing something, so they are blocked
    rw [Disk.Followable, not_or] at hfollow
    cases hlocate : d.locate (Path.components path) with
    | ok place => exact absurd ⟨place, hlocate⟩ hfollow.2
    | error fault =>
      have hfault : fault ≠ .notFound := by
        rintro rfl
        exact hroot.elim hfollow.1 fun hc => hc hlocate
      have hsame := Store.snd_of_blocked hsound hfault hlocate hne breakdown data
      rw [hfail] at hsame
      cases hsame
      exact ⟨fun _ _ _ => rfl, rfl⟩

/-- **Failed uploads leave the store as it was.**  Wherever the disk gives out, and also where it
refuses the upload by itself: each key that does not look unfinished is downloaded as before, or
refused as before, and the same keys are listed.  An upload that does not fail can be downloaded.
The names of the store's own directory must not lead back from a directory that is missing. -/
theorem unchanged_of_failed {h : Host} {path : String} (hstore : h.store = .directory path)
    (hsound : h.disk.Sound)
    (hroot : (∀ n ∈ Path.components path, n ≠ "..") ∨
      h.disk.locate (Path.components path) ≠ .error .notFound)
    {key : String} (hne : Path.components key ≠ []) (breakdown : Option Breakdown)
    (data : ByteArray) :
    (∀ e after, h.uploadAmid breakdown key data = (.error e, after) →
      (∀ other, Text.endsWith (Path.lastName other) temporaryEnding = false →
        SameAnswer (h.download other) (after.download other)) ∧
      ∀ start, after.list start = h.list start) ∧
    ∀ after, h.uploadAmid breakdown key data = (.ok (), after) →
      after.download key = .ok data := by
  obtain ⟨store, d⟩ := h
  obtain rfl : store = .directory path := hstore
  refine ⟨fun e after hupload => ?_, fun after hupload => ?_⟩
  · unfold uploadAmid at hupload
    dsimp only at hupload
    split at hupload
    · next hkey =>
      split at hupload
      · cases hupload
      · next fault d' hw =>
        cases hupload
        obtain ⟨hread, hlist⟩ := shown_of_failed hsound hroot hkey hne hw
        refine ⟨fun other hlast => sameAnswer_download fun hother => hread other hother hlast,
          fun start => ?_⟩
        simp only [list, hlist]
    · cases hupload
      exact ⟨fun _ _ => .same _, fun _ => rfl⟩
  · have hnone : breakdown = none := by
      unfold uploadAmid at hupload
      dsimp only at hupload
      split at hupload
      · split at hupload
        · next hw => exact Store.eq_none_of_ok hw
        · cases hupload
      · cases hupload
    rw [hnone, uploadAmid_none] at hupload
    exact download_of_upload hupload

/-- A store with one file. -/
def heldHost : Host where
  store := .directory "/p/store"
  disk := ⟨[(["p"], .directory), (["p", "store"], .directory),
    (["p", "store", "old"], .file "data".toUTF8)]⟩

theorem unchanged_of_failed_heldHost :
    ∃ e after, heldHost.uploadAmid (some (.writing 1)) "new/k" "new".toUTF8 = (.error e, after) ∧
      SameAnswer (heldHost.download "old") (after.download "old") ∧
      after.list "" = heldHost.list "" := by
  have hall := unchanged_of_failed (h := heldHost) rfl (by decide) (Or.inl (by decide))
    (show Path.components "new/k" ≠ [] by decide) (some (.writing 1)) "new".toUTF8
  obtain ⟨hdownload, hlist⟩ := hall.1 _ _ rfl
  exact ⟨_, _, rfl, hdownload "old" (by decide), hlist ""⟩

/-- A store behind two points that lead back from a directory that is not there. -/
def bentHost : Host where
  store := .directory "/p/gone/../store"
  disk := ⟨[(["p"], .directory), (["p", "store"], .directory),
    (["p", "store", "old"], .file "data".toUTF8), (["p", "store", "k.tmp"], .directory)]⟩

/-- **An upload that fails makes the way to a store**, and what was kept there shows. -/
theorem uncovered_by_failed :
    bentHost.disk.Sound ∧ Store.isKey "k" = true ∧ Path.components "k" ≠ [] ∧
      Text.endsWith (Path.lastName "old") temporaryEnding = false ∧
      (bentHost.upload "k" "new".toUTF8).1 = .error (.refused "upload" "k" .disk) ∧
      bentHost.download "old" = .error (.refused "download" "old" .notFound) ∧
      (bentHost.upload "k" "new".toUTF8).2.download "old" = .ok "data".toUTF8 ∧
      bentHost.list "" = .ok [] ∧
      (bentHost.upload "k" "new".toUTF8).2.list "" = .ok ["old"] := by
  decide +kernel

end Host

end RouteImpact
