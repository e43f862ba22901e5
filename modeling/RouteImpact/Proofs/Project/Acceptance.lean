import RouteImpact.Proofs.Path.Normal
import RouteImpact.Proofs.Project.Discovery

namespace RouteImpact.Project

open Ignore (shouldIgnore alwaysIgnored compileAll ignoredBy ignoredDirectories ignoredEndings
  PatternError)

/-!
# Which files are discovered and which are watched

Discovery tests every directory on the way to a file, and the file; a change is tested by the path
of the file alone.  The second test finds a directory that is never entered, for its name is a part
of the path.  It does not find one that looks like a generated file, nor one that the patterns
match, if they take the file back.

* `survives_iff` — what discovery tests;
* `relevant?_append`, `relevant_iff` — what is tested of a change;
* `shutOut` — the directories that discovery alone is kept out of; `shouldIgnore_above` — there
  are no others;
* `discovered_iff_relevant` — hence a file of the project is discovered if a change of it counts
  and no directory on the way is shut out;
* `discover_typedDisk` — otherwise a change may count of a file that is never discovered.
-/

variable {patterns : List String} {names : Disk.Place}

/-! ### What is tested -/

/-- Discovery tests every start of the way. -/
theorem survives_iff {above names : List String} :
    survives patterns above names = .ok true ↔
      ∀ front, front <+: names → front ≠ [] →
        shouldIgnore patterns (Text.join "/" (above ++ front)) = .ok false := by
  induction names generalizing above with
  | nil =>
    refine ⟨fun _ front hfront hne => ?_, fun _ => rfl⟩
    exact absurd (List.prefix_nil.1 hfront) hne
  | cons name rest ih =>
    rw [survives_cons, ih]
    constructor
    · rintro (⟨-, hfalse⟩ | ⟨hname, hrest⟩) front hfront hne
      · cases hfalse
      · obtain rfl | ⟨later, rfl, hlater⟩ := List.prefix_cons_iff.1 hfront
        · exact absurd rfl hne
        · by_cases hnil : later = []
          · rw [hnil]
            exact hname
          · have := hrest later hlater hnil
            rwa [List.append_assoc] at this
    · intro h
      refine Or.inr ⟨h [name] (by simp) (by simp), fun later hlater _ => ?_⟩
      rw [List.append_assoc]
      exact h (name :: later) (List.prefix_cons_inj name |>.2 hlater) (by simp)

/-- Whether a file is analysed is a matter of its name. -/
theorem isSupported_lastName (hproper : ∀ n ∈ names, Path.Proper n) :
    Source.isSupported (names.getLast?.getD "") = Source.isSupported (Text.join "/" names) := by
  have hlast : Path.lastName (names.getLast?.getD "") = Path.lastName (Text.join "/" names) := by
    rw [Path.lastName, Path.lastName, Path.components_join hproper]
    cases hname : names.getLast? with
    | none => rfl
    | some name =>
      have hmem := List.mem_of_getLast? hname
      have hone : Path.components (Text.join "/" [name]) = [name] :=
        Path.components_join (by simpa using hproper name hmem)
      rw [Text.join, String.intercalate_singleton] at hone
      rw [Option.getD_some, hone]
      rfl
  unfold Source.isSupported Source.language? Path.suffix
  rw [hlast]

variable {d : Disk} {e : Disk.Entry} {root : String}

/-- A change below the project's directory is tested by its path from there. -/
theorem relevant?_append (hd : d.Sound) (hroot : Path.isAbsolute root = true) (hne : names ≠ [])
    (hat : d.at? (Path.components root ++ names) = some e) :
    relevant? root patterns (Path.append root (Text.join "/" names)) =
      (shouldIgnore patterns (Text.join "/" names)).map fun ignored =>
        if !ignored && Source.isSupported (Text.join "/" names) then some (Text.join "/" names)
        else none := by
  have hwhole : ∀ n ∈ Path.components root ++ names, Path.Proper n :=
    fun n hn => (hd.nameable hat n hn).proper
  have hproper : ∀ n ∈ names, Path.Proper n := fun n hn => hwhole n (List.mem_append_right _ hn)
  have hcomponents : Path.components (Path.append root (Text.join "/" names)) =
      Path.components root ++ names := by
    rw [Path.components_append (Path.isAbsolute_join hproper), Path.components_join hproper]
  have hresolved : Path.resolveParts root (Path.append root (Text.join "/" names)) =
      Path.components root ++ names := by
    rw [Path.resolveParts, Path.append, if_pos (Path.isAbsolute_append hroot _),
      Path.normalizeParts_eq_components, hcomponents]
    rw [hcomponents]
    exact fun n hn => (hwhole n hn).ne_points
  have hbelow : Path.below? (Path.components root) (Path.components root ++ names) = some names :=
    below?_eq_some_iff.2 rfl
  have hnul : Disk.hasNul (Path.append root (Text.join "/" names)) = false :=
    hd.hasNul_of_at? (by rw [hcomponents]; exact hat)
  unfold relevant?
  rw [hnul, hresolved, hbelow]
  simp only [Path.ofRelative_of_ne_nil hne]
  cases shouldIgnore patterns (Text.join "/" names) with
  | error e => rfl
  | ok ignored =>
    cases ignored with
    | true => rfl
    | false => simp [bind, Except.bind, pure, Except.pure, Except.map]

theorem relevant_singleton {path file : String} :
    relevant root patterns [path] = .ok [file] ↔ relevant? root patterns path = .ok (some file) := by
  have hone : relevant root patterns [path] =
      ofPattern ((relevant? root patterns path).map (·.toList)) := by
    unfold relevant
    rw [List.mapM_cons, List.mapM_nil]
    cases relevant? root patterns path with
    | error e => rfl
    | ok found => cases found <;> rfl
  rw [hone]
  cases relevant? root patterns path with
  | error e => simp [ofPattern, Except.map]
  | ok found => cases found <;> simp [ofPattern, Except.map]

/-- **What is watched.** A change of a file counts if the file is one that is analysed and its own
path is not ignored. -/
theorem relevant_iff (hd : d.Sound) (hroot : Path.isAbsolute root = true) (hne : names ≠ [])
    (hat : d.at? (Path.components root ++ names) = some e) :
    relevant root patterns [Path.append root (Text.join "/" names)] =
        .ok [Text.join "/" names] ↔
      shouldIgnore patterns (Text.join "/" names) = .ok false ∧
        Source.isSupported (Text.join "/" names) = true := by
  rw [relevant_singleton, relevant?_append hd hroot hne hat]
  cases shouldIgnore patterns (Text.join "/" names) with
  | error e => simp [Except.map]
  | ok ignored => cases ignored <;> simp [Except.map]

/-! ### Directories on the way -/

theorem shouldIgnore_eq_false_iff {path : String} :
    shouldIgnore patterns path = .ok false ↔
      alwaysIgnored path = false ∧
        ∃ compiled, compileAll patterns = .ok compiled ∧
          ignoredBy compiled (Path.tidy path) = false := by
  unfold shouldIgnore
  cases alwaysIgnored path with
  | true => simp
  | false =>
    cases patterns with
    | nil => simp [compileAll, ignoredBy, pure, Except.pure]
    | cons pattern rest =>
      simp only [Bool.false_eq_true, if_false, List.isEmpty_cons, true_and]
      rw [bind_eq_ok]
      simp [pure, Except.pure]

/-- What keeps discovery out of a directory though changes in it may count: the directory is
called like a generated file, or the patterns match it. -/
def shutOut (patterns : List String) (dir : String) : Bool :=
  ignoredEndings.any (Text.endsWith (Path.lastName dir) ·) ||
    (compileAll patterns).toOption.any (ignoredBy · dir)

/-- **Nothing else keeps discovery out** of a directory on the way to a file that counts: a
directory that is never entered is a part of the file's path. -/
theorem shouldIgnore_above {above : List String} (hproper : ∀ n ∈ names, Path.Proper n)
    (habove : above <+: names) (hne : above ≠ [])
    (h : shouldIgnore patterns (Text.join "/" names) = .ok false) :
    shouldIgnore patterns (Text.join "/" above) = .ok false ↔
      shutOut patterns (Text.join "/" above) = false := by
  have hproper' : ∀ n ∈ above, Path.Proper n := fun n hn => hproper n (habove.subset hn)
  obtain ⟨halways, compiled, hcompiled, -⟩ := shouldIgnore_eq_false_iff.1 h
  have hentered : above.any (ignoredDirectories.contains ·) = false := by
    rw [alwaysIgnored, Path.parts_join hproper, Bool.or_eq_false_iff, List.any_eq_false] at halways
    rw [List.any_eq_false]
    exact fun n hn => halways.1 n (habove.subset hn)
  rw [shouldIgnore_eq_false_iff, alwaysIgnored, Path.parts_join hproper', hentered, Bool.false_or,
    Path.tidy_join hne hproper', shutOut, hcompiled, Bool.or_eq_false_iff]
  simp [Except.toOption]

/-! ### Discovery and watching -/

/-- **Discovered and watched.**  A change of a file of the project counts only if discovery ends
well; and then the file is discovered if and only if a change of it counts and no directory on the
way is called like a generated file or matched by the patterns. -/
theorem discovered_iff_relevant (hd : d.Sound) (hroot : Path.isAbsolute root = true)
    (hne : names ≠ []) {bytes : ByteArray}
    (hfile : d.at? (Path.components root ++ names) = some (.file bytes))
    (patterns : List String) :
    (relevant root patterns [Path.append root (Text.join "/" names)] =
        .ok [Text.join "/" names] →
      ∃ files, discover d root patterns = .ok files) ∧
    ∀ files, discover d root patterns = .ok files →
      (Text.join "/" names ∈ files ↔
        relevant root patterns [Path.append root (Text.join "/" names)] =
            .ok [Text.join "/" names] ∧
          ∀ above, above <+: names → above ≠ [] → above ≠ names →
            shutOut patterns (Text.join "/" above) = false) := by
  have hproper : ∀ n ∈ names, Path.Proper n :=
    fun n hn => (hd.nameable hfile n (List.mem_append_right _ hn)).proper
  rw [relevant_iff hd hroot hne hfile]
  refine ⟨fun h => discover_of_tested (shouldIgnore_ok h.1) d root, fun files hfiles => ?_⟩
  have hstands : (d.bytes? (placeOf root (Text.join "/" names))).isSome = true := by
    rw [placeOf_join root hproper, Disk.bytes?_eq_some_iff.2 hfile]
    rfl
  rw [mem_discover hd hfiles, admitted_join_iff hproper, isSupported_lastName hproper,
    survives_iff]
  constructor
  · rintro ⟨⟨-, hsupported, hsurvives⟩, -⟩
    have hown := hsurvives names (List.prefix_refl names) hne
    refine ⟨⟨hown, hsupported⟩, fun above habove hnil _ => ?_⟩
    exact (shouldIgnore_above hproper habove hnil hown).1 (hsurvives above habove hnil)
  · rintro ⟨⟨hown, hsupported⟩, hopen⟩
    refine ⟨⟨hne, hsupported, fun front hfront hnil => ?_⟩, hstands⟩
    -- the file itself counts, and no directory on the way is shut out
    by_cases hall : front = names
    · rw [hall]
      exact hown
    · exact (shouldIgnore_above hproper hfront hnil hown).2 (hopen front hfront hnil hall)

/-! ### Files that are watched and not discovered -/

/-- A project with a directory that is called like a file of declarations. -/
def typedDisk : Disk where
  entries := [(["p"], .directory), (["p", "src"], .directory),
    (["p", "src", "page.ts"], .file "".toUTF8), (["p", "types.d.ts"], .directory),
    (["p", "types.d.ts", "page.ts"], .file "".toUTF8)]

/-- The file in the other directory is discovered, as a change of it counts. -/
theorem discovered_iff_relevant_typedDisk :
    ∃ files, discover typedDisk "/p" ["*.log"] = .ok files ∧
      Text.join "/" ["src", "page.ts"] ∈ files := by
  have hfile : typedDisk.at? (Path.components "/p" ++ ["src", "page.ts"]) =
      some (.file "".toUTF8) := rfl
  have hrelevant : relevant "/p" ["*.log"]
      [Path.append "/p" (Text.join "/" ["src", "page.ts"])] =
        .ok [Text.join "/" ["src", "page.ts"]] := by
    decide +kernel
  have hopen : ∀ above, above <+: ["src", "page.ts"] → above ≠ [] → above ≠ ["src", "page.ts"] →
      shutOut ["*.log"] (Text.join "/" above) = false := by
    intro above habove hnil hall
    obtain rfl | ⟨later, rfl, hlater⟩ := List.prefix_cons_iff.1 habove
    · exact absurd rfl hnil
    · obtain rfl | ⟨last, rfl, hlast⟩ := List.prefix_cons_iff.1 hlater
      · decide +kernel
      · rw [List.prefix_nil.1 hlast] at hall
        exact absurd rfl hall
  obtain ⟨hends, hiff⟩ :=
    discovered_iff_relevant (by decide +kernel) (by decide) (by simp) hfile ["*.log"]
  obtain ⟨files, hfiles⟩ := hends hrelevant
  exact ⟨files, hfiles, (hiff files hfiles).2 ⟨hrelevant, hopen⟩⟩

/-- A change counts in a directory called like a file of declarations, and in a directory that the
patterns match but for this file.  Neither file is discovered. -/
theorem discover_typedDisk :
    relevant "/p" [] ["/p/types.d.ts/page.ts"] = .ok ["types.d.ts/page.ts"] ∧
      discover typedDisk "/p" [] = .ok ["src/page.ts"] ∧
      relevant "/p" ["src", "!src/page.ts"] ["/p/src/page.ts"] = .ok ["src/page.ts"] ∧
      discover typedDisk "/p" ["src", "!src/page.ts"] = .ok [] := by
  refine ⟨?_, ?_, ?_, ?_⟩ <;> decide +kernel

end RouteImpact.Project
