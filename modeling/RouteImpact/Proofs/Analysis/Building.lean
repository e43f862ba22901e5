import RouteImpact.Proofs.Analysis.Steps
import RouteImpact.Proofs.Graph.Reflection
import RouteImpact.Proofs.Store.Footprint

namespace RouteImpact

/-!
# What a forced build makes

A build by force removes the persisted graph, extracts the facts of all files that are
discovered then, and persists the new graph.

* `Started` — a new session as it was asked for; `start_congr` — it depends on the disk through
  the project's settings only;
* `Project.build_of_discover`, `of_rebuild_error` — what a build makes, and what one that fails
  leaves;
* `cleared`, `built`, `of_setUp_force` — the parts of a forced build, and that there are no
  others; `setUp_force_ok` — it succeeds where there is a file and every import can be resolved;
  `start_again` — the session that is built next starts like the one before;
* `Discoverable` — the files of the project; `discoverable_iff` says it by their paths;
* `factNow` — the fact that a file would get now; `undated_factNow` — it depends on the
  text of the file and on what its imports resolve to;
* `Stands`, `Settled` — how the fact of a file compares with the one that it would get;
  `stands_built` — after a build only the persisted graph can have made a difference.
-/

namespace Project

variable {d : Disk} {root : String} {x : Extractor} {now : Moment} {g : ImportGraph}

/-- A build puts the facts of the files that it finds into the graph, batch by batch. -/
theorem build_eq {batch : Int} (hbatch : 0 < batch) {files : List String}
    (h : discover d root (ignorePatterns d root) = .ok files) :
    (build d root x now g none batch).map Built.graph =
      (extractInto (loadFact d root x now) g files).map ImportGraph.markEntryPoints := by
  simp only [build, filesToBuild, h]
  rw [if_neg (by omega), foldlM_extractInto, flatten_batches (by omega)]
  cases extractInto (loadFact d root x now) g files <;> rfl

/-- The counts that are given of a graph when it has been built. -/
def countsOf (g : ImportGraph) (files : List String) : Summary :=
  ⟨files.length, g.routeFiles.length, g.edgeCount, g.entryPoints.length⟩

/-- It succeeds if the facts of all of them can be extracted. -/
theorem build_of_discover {batch : Int} (hbatch : 0 < batch) {files : List String}
    (h : discover d root (ignorePatterns d root) = .ok files)
    (hall : ∀ file ∈ files, Extractable d root x file) :
    ∃ b, build d root x now g none batch = .ok b ∧
      b.graph = (addFacts (factOf d root x now) g files).markEntryPoints ∧
      b.summary = countsOf b.graph files := by
  have hextract := (extractInto_eq_ok (fun _ _ => factOf_of_loadFact) (g := g)).2
    ⟨fun file hfile => (@exists_loadFact _ _ _ _ now).2 (hall file hfile), rfl⟩
  simp only [build, filesToBuild, h]
  rw [if_neg (by omega), foldlM_extractInto, flatten_batches (by omega), hextract]
  exact ⟨_, rfl, rfl, rfl⟩

theorem build_of_discover_error (batch : Int) {e : Failure}
    (h : discover d root (ignorePatterns d root) = .error e) :
    build d root x now g none batch = .error ⟨e, g⟩ := by
  simp only [build, filesToBuild, h]

/-- A build that has succeeded has found the files, and their facts can be extracted. -/
theorem of_build {batch : Int} (hbatch : 0 < batch) {b : Built}
    (h : build d root x now g none batch = .ok b) :
    ∃ files, discover d root (ignorePatterns d root) = .ok files ∧
      (∀ file ∈ files, Extractable d root x file) ∧
      b.graph = (addFacts (factOf d root x now) g files).markEntryPoints := by
  cases hfound : discover d root (ignorePatterns d root) with
  | error e =>
    rw [build_of_discover_error batch hfound] at h
    cases h
  | ok files =>
    have hbuild := @build_eq d root x now g _ hbatch _ hfound
    rw [h] at hbuild
    cases hrun : extractInto (loadFact d root x now) g files with
    | error halted =>
      rw [hrun] at hbuild
      cases hbuild
    | ok g' =>
      rw [hrun] at hbuild
      obtain ⟨hall, rfl⟩ := (extractInto_eq_ok fun _ _ => factOf_of_loadFact).1 hrun
      exact ⟨files, rfl, fun file hfile => exists_loadFact.1 (hall file hfile),
        Except.ok.inj hbuild⟩

/-- A build that fails leaves the facts of some files, which could be extracted. -/
theorem of_build_error {files : Option (List String)} {batch : Int} {halted : Halted ImportGraph}
    (h : build d root x now g files batch = .error halted) :
    ∃ done, (∀ file ∈ done, Extractable d root x file) ∧
      halted.left = addFacts (factOf d root x now) g done := by
  unfold build at h
  split at h
  · cases h
    exact ⟨[], by simp, rfl⟩
  · split at h
    · cases h
      exact ⟨[], by simp, rfl⟩
    · dsimp only at h
      split at h
      · next stopped hrun =>
        cases h
        rw [foldlM_extractInto] at hrun
        obtain ⟨done, file, rest, -, hdone, -, hleft⟩ :=
          of_extractInto_error (fun _ _ => factOf_of_loadFact) hrun
        exact ⟨done, fun f hf => exists_loadFact.1 (hdone f hf), hleft.symm⟩
      · cases h

/-- Where the files are found, it fails at the fact of one of them. -/
theorem of_build_error_of_discover {batch : Int} (hbatch : 0 < batch) {files : List String}
    (hfound : discover d root (ignorePatterns d root) = .ok files) {halted : Halted ImportGraph}
    (h : build d root x now g none batch = .error halted) :
    ∃ file ∈ files, loadFact d root x now file = .error halted.failure := by
  have hbuild := @build_eq d root x now g _ hbatch _ hfound
  rw [h] at hbuild
  cases hrun : extractInto (loadFact d root x now) g files with
  | ok g' =>
    rw [hrun] at hbuild
    cases hbuild
  | error stopped =>
    rw [hrun] at hbuild
    cases hbuild
    obtain ⟨done, file, rest, rfl, -, hfile, -⟩ :=
      of_extractInto_error (fun _ _ => factOf_of_loadFact) hrun
    exact ⟨file, by simp, hfile⟩

/-- One that does not fail at the fact of a file leaves none. -/
theorem left_of_build_error {files : Option (List String)} {batch : Int}
    {halted : Halted ImportGraph} (h : build d root x now g files batch = .error halted)
    (hload : ∀ file, loadFact d root x now file ≠ .error halted.failure) : halted.left = g := by
  unfold build at h
  split at h
  · cases h
    rfl
  · split at h
    · cases h
      rfl
    · dsimp only at h
      split at h
      · next stopped hrun =>
        cases h
        rw [foldlM_extractInto] at hrun
        obtain ⟨_, file, _, -, -, hfile, -⟩ :=
          of_extractInto_error (fun _ _ => factOf_of_loadFact) hrun
        exact absurd hfile (hload file)
      · cases h

end Project

namespace Session

open Project (Admitted SameSettings placeOf)

/-! ### New sessions -/

/-- What the analysis of a file depends on, its text and the other files apart. -/
structure SameAnalysis (s t : Session) : Prop where
  root : t.root = s.root
  config : t.config = s.config
  framework : t.framework = s.framework

theorem SameAnalysis.refl (s : Session) : SameAnalysis s s := ⟨rfl, rfl, rfl⟩

theorem SameAnalysis.symm {s t : Session} (h : SameAnalysis s t) : SameAnalysis t s :=
  ⟨h.root.symm, h.config.symm, h.framework.symm⟩

theorem SameAnalysis.trans {s t u : Session} (hst : SameAnalysis s t) (htu : SameAnalysis t u) :
    SameAnalysis s u :=
  ⟨htu.root.trans hst.root, htu.config.trans hst.config, htu.framework.trans hst.framework⟩

/-- What a new session is made of.  Of the settings only the aliases can come from the
project. -/
theorem of_start {root : String} {config : Settings.Config} {host : Host} {now : Moment}
    {s : Session} (h : start root config host now = .ok s) :
    ∃ aliases, s = { root, config := { config with aliases }, host, now,
                     graph := { prune := config.pruneStaleEdges } } := by
  unfold start at h
  split at h
  · obtain ⟨aliases, _, h⟩ := bind_eq_ok.1 h
    cases h
    exact ⟨_, rfl⟩
  · cases h
    exact ⟨config.aliases, rfl⟩

/-- A new session as it was asked for, and its settings but for the aliases. -/
structure Started (root : String) (config : Settings.Config) (host : Host) (s : Session) :
    Prop where
  root : s.root = root
  host : s.host = host
  framework : s.framework = Project.unknownFramework
  initialized : s.initialized = false
  batchSize : s.config.batchSize = config.batchSize
  pruneStaleEdges : s.config.pruneStaleEdges = config.pruneStaleEdges
  prune : s.graph.prune = config.pruneStaleEdges

theorem started_of_start {root : String} {config : Settings.Config} {host : Host} {now : Moment}
    {s : Session} (h : start root config host now = .ok s) : Started root config host s := by
  obtain ⟨aliases, rfl⟩ := of_start h
  exact ⟨rfl, rfl, rfl, rfl, rfl, rfl, rfl⟩

/-- A new session on another disk with the same aliases differs in nothing else. -/
theorem start_of_aliases {root : String} {config : Settings.Config} {host host' : Host}
    {now : Moment} {s : Session} (h : start root config host now = .ok s)
    (haliases : Project.loadAliases host.disk root = Project.loadAliases host'.disk root)
    (now' : Moment) :
    start root config host' now' = .ok { s with host := host', now := now' } := by
  unfold start at h ⊢
  rw [← haliases]
  split at h
  · next hload =>
    rw [if_pos hload]
    obtain ⟨settings, hmerged, h⟩ := bind_eq_ok.1 h
    cases h
    exact bind_eq_ok.2 ⟨settings, hmerged, rfl⟩
  · next hload =>
    rw [if_neg hload]
    cases h
    rfl

/-- In particular one with the same settings. -/
theorem start_congr {root : String} {config : Settings.Config} {host host' : Host}
    {now : Moment} {s : Session} (h : start root config host now = .ok s)
    (hsettings : SameSettings root host.disk host'.disk) (now' : Moment) :
    start root config host' now' = .ok { s with host := host', now := now' } :=
  start_of_aliases h hsettings.loadAliases now'

/-! ### The files of a project -/

/-- The paths that belong to the project as it says now: those of source files that its
patterns leave in, whether there is a file or not. -/
def Admits (s : Session) (file : String) : Prop :=
  Admitted (Project.ignorePatterns s.disk s.root) file

/-- The files that a build would find now. -/
def Discoverable (s : Session) (file : String) : Prop :=
  ∃ files, Project.discover s.disk s.root (Project.ignorePatterns s.disk s.root) = .ok files ∧
    file ∈ files

theorem discoverable_iff {s : Session} (hd : s.disk.Sound) {file : String} :
    s.Discoverable file ↔
      s.Admits file ∧ (s.disk.bytes? (placeOf s.root file)).isSome = true := by
  constructor
  · rintro ⟨files, hfiles, hmem⟩
    exact (Project.mem_discover hd hfiles file).1 hmem
  · rintro ⟨hadmits, hfile⟩
    obtain ⟨files, hfiles⟩ := Project.discover_ok hadmits s.disk s.root
    exact ⟨files, hfiles, (Project.mem_discover hd hfiles file).2 ⟨hadmits, hfile⟩⟩

/-- A file of the project can be read, as far as its path goes. -/
theorem Discoverable.hasNul {s : Session} (hd : s.disk.Sound) {file : String}
    (h : s.Discoverable file) : Disk.hasNul (Path.append s.root file) = false := by
  obtain ⟨hadmits, hfile⟩ := (discoverable_iff hd).1 h
  obtain ⟨bytes, hbytes⟩ := Option.isSome_iff_exists.1 hfile
  have hat := Disk.bytes?_eq_some_iff.1 hbytes
  rw [← hadmits.components_append s.root] at hat
  exact hd.hasNul_of_at? hat

/-! ### The fact that a file would get -/

/-- The fact that a file would get now. -/
def factNow (s : Session) (file : String) : FileFact :=
  Project.factOf s.disk s.root s.extractor s.now file

/-- The extraction of the fact of a file as it is now. -/
def loadNow (s : Session) (file : String) : Except Failure FileFact :=
  Project.loadFact s.disk s.root s.extractor s.now file

/-- The imports of a file can be resolved now, if it can be read. -/
def Extractable (s : Session) (file : String) : Prop :=
  Project.Extractable s.disk s.root s.extractor file

theorem loadNow_eq_ok {s : Session} {file : String} {fact : FileFact} :
    s.loadNow file = .ok fact ↔ s.Extractable file ∧ s.factNow file = fact :=
  Project.loadFact_eq_ok

theorem exists_loadNow {s : Session} {file : String} :
    (∃ fact, s.loadNow file = .ok fact) ↔ s.Extractable file :=
  Project.exists_loadFact

/-- It can be told by extracting the fact. -/
theorem extractable_of_loadNow {s : Session} {file : String}
    (h : (s.loadNow file).toOption.isSome = true) : s.Extractable file := by
  rw [← exists_loadNow]
  cases hload : s.loadNow file with
  | error e =>
    rw [hload] at h
    cases h
  | ok fact => exact ⟨fact, rfl⟩

/-- The same text and the same imports make the same fact. -/
theorem undated_factNow {s t : Session} (h : SameAnalysis s t) {file : String}
    (hread : t.read file = s.read file)
    (himports : (t.factNow file).imports = (s.factNow file).imports) :
    (t.factNow file).undated = (s.factNow file).undated := by
  unfold factNow at himports ⊢
  rw [h.root] at himports ⊢
  refine Project.undated_factOf ?_ rfl h.framework himports
  have hread' : Project.readSource t.disk t.root file t.config.maxFileSize =
      Project.readSource s.disk s.root file s.config.maxFileSize := hread
  rw [h.root] at hread'
  exact hread'

/-- Where nothing differs but the time, facts are extracted alike. -/
theorem extractor_of_disk {s t : Session} (h : SameAnalysis s t) (hdisk : t.disk = s.disk) :
    t.extractor = s.extractor := by
  rw [extractor, extractor, resolver, resolver, hdisk, h.root, h.config, h.framework]

/-- In particular from the same files. -/
theorem extractable_congr {s t : Session} (h : SameAnalysis s t) (hdisk : t.disk = s.disk)
    (file : String) : t.Extractable file ↔ s.Extractable file := by
  rw [Extractable, Extractable, hdisk, h.root, extractor_of_disk h hdisk]

/-- A file would get the same fact. -/
theorem undated_factNow_of_disk {s t : Session} (h : SameAnalysis s t) (hdisk : t.disk = s.disk)
    (file : String) : (t.factNow file).undated = (s.factNow file).undated := by
  have hread : t.read file = s.read file := by
    rw [read, read, hdisk, h.root, h.config]
  have hextractor := extractor_of_disk h hdisk
  refine undated_factNow h hread ?_
  rw [factNow, factNow, hdisk, h.root, hextractor]
  exact Project.imports_factOf_congr rfl

/-- Of the same text the routes are the same, wherever its imports lead. -/
theorem routes_factNow_congr {s t : Session} (h : SameAnalysis s t) {file : String}
    (hread : t.read file = s.read file) : (t.factNow file).routes = (s.factNow file).routes := by
  have hread' : Project.readSource t.disk t.root file t.extractor.maxFileSize =
      Project.readSource s.disk s.root file s.extractor.maxFileSize := hread
  unfold factNow
  rw [h.root] at hread' ⊢
  exact Project.routes_factOf_congr hread' rfl h.framework

/-- Of the same text the hash is the same, wherever its imports lead. -/
theorem contentHash_factNow_congr {s t : Session} {file : String}
    (hread : t.read file = s.read file) :
    (t.factNow file).contentHash = (s.factNow file).contentHash :=
  Project.contentHash_factOf_congr hread

/-- The fact that a file has.  One without a fact counts as one that cannot be read. -/
def heldFact (s : Session) (file : String) : FileFact :=
  (s.graph.fact? file).getD (FileFact.none file s.now)

theorem heldFact_of_some {s : Session} {file : String} {fact : FileFact}
    (h : s.graph.fact? file = some fact) : s.heldFact file = fact := by
  rw [heldFact, h, Option.getD_some]

theorem heldFact_of_none {s : Session} {file : String} (h : s.graph.fact? file = none) :
    s.heldFact file = FileFact.none file s.now := by
  rw [heldFact, h, Option.getD_none]

theorem undated_heldFact_congr {s t : Session} {file : String}
    (h : t.graph.fact? file = s.graph.fact? file) :
    (t.heldFact file).undated = (s.heldFact file).undated := by
  cases hs : s.graph.fact? file with
  | none => rw [heldFact_of_none hs, heldFact_of_none (h.trans hs), Project.undated_none]
  | some fact => rw [heldFact_of_some hs, heldFact_of_some (h.trans hs)]

/-- How the fact of a file compares with the one that it would get now, dates apart. -/
def Stands (R : FileFact → FileFact → Prop) (s : Session) (file : String) : Prop :=
  R (s.heldFact file).undated (s.factNow file).undated

/-- Whether the fact of a file is the one that it would get now. -/
abbrev Settled (s : Session) (file : String) : Prop := s.Stands Eq file

/-! ### Files that stay when a graph is kept -/

/-- No file of the project bears the name of a persisted graph. -/
theorem getLast?_placeOf {patterns : List String} {root file : String}
    (h : Admitted patterns file) :
    ∀ name ∈ Snapshot.fileNames, (placeOf root file).getLast? ≠ some name := by
  intro name hname hlast
  have hlast' : Path.lastName file = name := by
    rw [placeOf, List.getLast?_append] at hlast
    cases hfile : (Path.components file).getLast? with
    | none => exact absurd (List.getLast?_eq_none_iff.1 hfile) h.ne_nil
    | some last =>
      rw [hfile, Option.some_or, Option.some.injEq] at hlast
      rw [Path.lastName, hfile, Option.getD_some, hlast]
  have hsupported := h.supported
  rw [hlast'] at hsupported
  have hunsupported : ∀ name ∈ Snapshot.fileNames, Source.isSupported name = false := by decide
  rw [hunsupported name hname] at hsupported
  cases hsupported

theorem placeOf_inside {patterns : List String} {root file : String}
    (hroot : ∀ n ∈ Path.components root, n ≠ "..") (h : Admitted patterns file) :
    ∀ n ∈ placeOf root file, n ≠ ".." := by
  intro n hn
  rcases List.mem_append.1 hn with hn | hn
  · exact hroot n hn
  · exact h.inside n hn

/-- Disks that agree but for persisted graphs have the same project files. -/
theorem read_of_agreeOff {s t : Session} (h : SameAnalysis s t)
    (hroot : ∀ n ∈ Path.components s.root, n ≠ "..") (hs : s.disk.Sound) (ht : t.disk.Sound)
    (hagree : Disk.AgreeOff Snapshot.fileNames s.disk t.disk) {file : String}
    (hadmits : s.Admits file) : t.read file = s.read file := by
  have hplace := hadmits.components_append s.root
  unfold read
  rw [h.root, h.config]
  refine (Project.readSource_congr hs ht ?_ ?_ _).symm
  · rw [hplace]
    exact placeOf_inside hroot hadmits
  · rw [hplace]
    exact hagree _ (getLast?_placeOf hadmits)

/-- Files of other names do not touch the settings of a project. -/
theorem sameSettings_of_agreeOff {root : String} {d d' : Disk} {names : List String}
    (hroot : ∀ n ∈ Path.components root, n ≠ "..") (hd : d.Sound) (hd' : d'.Sound)
    (hagree : Disk.AgreeOff names d d') (hother : ∀ name ∈ Project.settingsFiles, name ∉ names) :
    SameSettings root d d' := by
  intro name hname
  have hcases : Path.isAbsolute name = false ∧ Path.components name = [name] ∧ name ≠ ".." := by
    clear hother
    revert name
    decide
  obtain ⟨hrelative, hcomponents, hup⟩ := hcases
  have hkept := hother name hname
  have hplace : Path.components (Path.append root name) = Path.components root ++ [name] := by
    rw [Path.components_append hrelative, hcomponents]
  refine Disk.text?_congr hd hd' ?_ ?_
  · rw [hplace]
    intro n hn
    rcases List.mem_append.1 hn with hn | hn
    · exact hroot n hn
    · rw [List.mem_singleton.1 hn]
      exact hup
  · rw [hplace]
    refine hagree _ fun kept hmem hlast => ?_
    rw [List.getLast?_concat, Option.some.injEq] at hlast
    exact hkept (hlast ▸ hmem)

/-- Disks that agree but for persisted graphs have the same project files. -/
theorem discoverable_of_agreeOff {s t : Session}
    (hroot : ∀ n ∈ Path.components s.root, n ≠ "..") (hst : t.root = s.root)
    (hs : s.disk.Sound) (ht : t.disk.Sound)
    (hagree : Disk.AgreeOff Snapshot.fileNames s.disk t.disk) (file : String) :
    t.Discoverable file ↔ s.Discoverable file := by
  have hsettings := sameSettings_of_agreeOff hroot hs ht hagree (by decide)
  rw [discoverable_iff hs, discoverable_iff ht, Admits, Admits, hst, ← hsettings.ignorePatterns]
  refine and_congr_right fun hadmits => ?_
  rw [hagree _ (getLast?_placeOf hadmits)]

/-! ### The parts of a forced build -/

/-- The batches of settings without a fault are not empty. -/
theorem batchSize_pos {config : Settings.Config} (h : config.fault? = none) :
    0 < config.batchSize := by
  unfold Settings.Config.fault? at h
  split at h
  · cases h
  · split at h
    · cases h
    · omega

theorem Started.batchSize_pos {root : String} {config : Settings.Config} {host : Host}
    {s : Session} (h : Started root config host s) (hconfig : config.fault? = none) :
    0 < s.config.batchSize := by
  rw [h.batchSize]
  exact Session.batchSize_pos hconfig

/-- The session from which a forced build starts. -/
def cleared (s : Session) (framework : String) : Session := { s with framework }.clearCache

/-- The session after a build that found the given files. -/
def built (s : Session) (files : List String) (summary : Project.Summary) : Session :=
  { s.reset with
    graph := (Project.addFacts s.factNow s.reset.graph files).markEntryPoints
    lastBuild := some summary
    initialized := true }.persist.2

/-- The counts of a build that found the given files. -/
def countsOf (s : Session) (files : List String) : Project.Summary :=
  Project.countsOf (Project.addFacts s.factNow s.reset.graph files).markEntryPoints files

/-- A rebuild succeeds where discovery and the extraction of every fact do. -/
theorem rebuild_of_discover {s : Session} (hbatch : 0 < s.config.batchSize)
    {files : List String}
    (h : Project.discover s.disk s.root (Project.ignorePatterns s.disk s.root) = .ok files)
    (hall : ∀ file ∈ files, s.Extractable file) :
    s.rebuild = (.ok (s.countsOf files), s.built files (s.countsOf files)) := by
  obtain ⟨b, hb, hgraph, hsummary⟩ : ∃ b, Project.build s.reset.disk s.reset.root
      s.reset.extractor s.reset.now s.reset.graph none s.reset.config.batchSize = .ok b ∧
      b.graph = (Project.addFacts s.factNow s.reset.graph files).markEntryPoints ∧
      b.summary = Project.countsOf b.graph files :=
    Project.build_of_discover hbatch h hall
  rw [hgraph] at hsummary
  unfold rebuild
  dsimp only
  rw [hb]
  simp only [hgraph, hsummary]
  rfl

/-- A rebuild that has succeeded has found the files and could extract their facts. -/
theorem of_rebuild {s t : Session} (hbatch : 0 < s.config.batchSize)
    {summary : Project.Summary} (h : s.rebuild = (.ok summary, t)) :
    ∃ files,
      Project.discover s.disk s.root (Project.ignorePatterns s.disk s.root) = .ok files ∧
      (∀ file ∈ files, s.Extractable file) ∧ t = s.built files summary := by
  have hbatch' : 0 < s.reset.config.batchSize := hbatch
  unfold rebuild at h
  dsimp only at h
  split at h
  · cases h
  · next b hb =>
    obtain ⟨files, hfiles, hall, hgraph⟩ := Project.of_build hbatch' hb
    cases h
    refine ⟨files, hfiles, hall, ?_⟩
    simp only [hgraph]
    rfl

/-- One that fails leaves the facts of some files, and no entry points. -/
theorem of_rebuild_error {s t : Session} {e : Failure} (h : s.rebuild = (.error e, t)) :
    ∃ done, (∀ file ∈ done, s.Extractable file) ∧
      t = { s.reset with graph := Project.addFacts s.factNow s.reset.graph done } := by
  unfold rebuild at h
  dsimp only at h
  split at h
  · next halted hb =>
    obtain ⟨done, hdone, hleft⟩ := Project.of_build_error hb
    cases h
    refine ⟨done, hdone, ?_⟩
    rw [hleft]
    rfl
  · cases h

/-- **A forced build that succeeded** found the framework and the files, could extract their
facts, and put them into an empty graph. -/
theorem of_setUp_force {s t : Session} (hbatch : 0 < s.config.batchSize)
    (h : s.setUp true = (.ok (), t)) :
    ∃ framework files summary,
      Project.detectFramework s.disk s.root = .ok framework ∧
      Project.discover (s.cleared framework).disk s.root
        (Project.ignorePatterns (s.cleared framework).disk s.root) = .ok files ∧
      (∀ file ∈ files, (s.cleared framework).Extractable file) ∧
      t = (s.cleared framework).built files summary := by
  unfold setUp at h
  split at h
  · cases h
  · next framework hframework =>
    replace h : Outcome.map (fun _ => ()) (s.cleared framework).rebuild = (.ok (), t) := h
    obtain ⟨summary, hrebuild, -⟩ := Outcome.of_map h
    obtain ⟨files, hfiles, hall, rfl⟩ := of_rebuild (s := s.cleared framework) hbatch hrebuild
    exact ⟨framework, files, summary, hframework, hfiles, hall, rfl⟩

/-- A forced build succeeds where discovery and the extraction of every fact do. -/
theorem setUp_force_of_discover {s : Session} (hbatch : 0 < s.config.batchSize)
    {framework : String} {files : List String}
    (hframework : Project.detectFramework s.disk s.root = .ok framework)
    (hfiles : Project.discover (s.cleared framework).disk s.root
      (Project.ignorePatterns (s.cleared framework).disk s.root) = .ok files)
    (hall : ∀ file ∈ files, (s.cleared framework).Extractable file) :
    s.setUp true =
      (.ok (), (s.cleared framework).built files ((s.cleared framework).countsOf files)) := by
  have hrebuild := rebuild_of_discover (s := s.cleared framework) hbatch hfiles hall
  unfold setUp
  rw [hframework]
  show Outcome.map (fun _ => ()) (s.cleared framework).rebuild = _
  rw [hrebuild]
  rfl

/-! ### After a build -/

section Built

variable (s : Session) (framework : String) (files : List String) (summary : Project.Summary)

theorem sameAnalysis_built : SameAnalysis s (s.built files summary) := ⟨rfl, rfl, rfl⟩

theorem graph_built : (s.built files summary).graph =
    (Project.addFacts s.factNow { prune := s.graph.prune } files).markEntryPoints := rfl

theorem fact?_built (file : String) : (s.built files summary).graph.fact? file =
    if file ∈ files then some (s.factNow file) else none := by
  rw [graph_built, ImportGraph.fact?_markEntryPoints, Project.fact?_addFacts]
  rfl

/-- The graph of a build follows from its facts, and has no node without a reason. -/
theorem reflects_built : (s.built files summary).graph.Reflects ∧
    (s.built files summary).graph.Exact ∧ (s.built files summary).graph.Mentioned ∧
    (s.built files summary).graph.Marked := by
  rw [graph_built]
  obtain ⟨hreflects, hexact, hmentioned⟩ := Project.addFacts_fresh s.factNow s.graph.prune files
  exact ⟨hreflects.markEntryPoints, hexact.markEntryPoints, hmentioned.markEntryPoints,
    ImportGraph.Marked.markEntryPoints _⟩

/-- Clearing takes no file off the disk but the persisted graph. -/
theorem footprint_cleared (hd : s.disk.Sound) : (s.cleared framework).disk.Sound ∧
    Disk.AgreeOff Snapshot.fileNames s.disk (s.cleared framework).disk :=
  Host.delete_footprint hd s.config.cacheNamespace s.root

/-- The disk after a build is what the store makes of it. -/
theorem disk_built : (s.built files summary).disk =
    (s.host.upload s.key (Document.encode s.now (s.built files summary).graph).toUTF8).2.disk := by
  show (Snapshot.save s.host s.key s.now (s.built files summary).graph).2.disk = _
  unfold Snapshot.save Snapshot.put Snapshot.payload
  split
  · next h => rw [h]
  · next h => rw [h]

/-- Building writes no file but the persisted graph. -/
theorem footprint_built (hd : s.disk.Sound) : (s.built files summary).disk.Sound ∧
    Disk.AgreeOff Snapshot.fileNames s.disk (s.built files summary).disk := by
  rw [disk_built]
  exact Host.upload_footprint hd s.config.cacheNamespace s.root _

end Built

theorem frame_setUp {s t : Session} (hbatch : 0 < s.config.batchSize)
    (h : s.setUp true = (.ok (), t)) :
    t.root = s.root ∧ t.config = s.config ∧ t.initialized = true := by
  obtain ⟨framework, files, summary, -, -, -, rfl⟩ := of_setUp_force hbatch h
  exact ⟨rfl, rfl, rfl⟩

/-- **Starting once more**, on the files that a session has come to: the new session is like the
one before the build, and finds the framework again. -/
theorem start_again {root : String} {config : Settings.Config} {host host' : Host} {now : Moment}
    {s₀ s t : Session} (hstart : start root config host now = .ok s₀)
    (hbatch : 0 < s₀.config.batchSize) (hbuilt : s₀.setUp true = (.ok (), s))
    (hsettings : SameSettings s₀.root s₀.disk s.disk)
    (hframework : Project.detectFramework s₀.disk s₀.root = .ok s.framework)
    (hst : SameAnalysis s t) (hsettings' : SameSettings s.root s.disk t.disk)
    (hdisk : host'.disk = t.disk) (now' : Moment) :
    start root config host' now' = .ok { s₀ with host := host', now := now' } ∧
      s₀.root = t.root ∧ s₀.config = t.config ∧
      Project.detectFramework host'.disk s₀.root = .ok t.framework := by
  obtain ⟨hroot, hconfig, -⟩ := frame_setUp hbatch hbuilt
  obtain ⟨hroot₀, hhost₀, -⟩ := started_of_start hstart
  have hsame : SameSettings s₀.root s₀.disk host'.disk := by
    rw [hroot] at hsettings'
    rw [hdisk]
    exact hsettings.trans hsettings'
  refine ⟨start_congr hstart ?_ now', (hst.root.trans hroot).symm, (hst.config.trans hconfig).symm,
    ?_⟩
  · rw [← hroot₀, ← hhost₀]
    exact hsame
  · rw [hst.framework, ← hframework, hsame.detectFramework]

/-- **A forced build** touches no file but the persisted graph. -/
theorem footprint_setUp {s t : Session} (hbatch : 0 < s.config.batchSize) (hd : s.disk.Sound)
    (h : s.setUp true = (.ok (), t)) :
    t.disk.Sound ∧ Disk.AgreeOff Snapshot.fileNames s.disk t.disk := by
  obtain ⟨framework, files, summary, -, -, -, rfl⟩ := of_setUp_force hbatch h
  obtain ⟨hdc, hagree⟩ := footprint_cleared s framework hd
  obtain ⟨hdb, hagree'⟩ := footprint_built (s.cleared framework) files summary hdc
  exact ⟨hdb, hagree.trans hagree'⟩

theorem setUp_of_ok {s : Session} {force : Bool} (h : (s.setUp force).1 = .ok ()) :
    s.setUp force = (.ok (), (s.setUp force).2) := Prod.ext h rfl

/-- Setting up by force writes some bytes in the place of the graph that was kept. -/
theorem exists_disk_setUp {s t : Session} (hbatch : 0 < s.config.batchSize)
    (h : s.setUp true = (.ok (), t)) :
    ∃ bytes, t.disk = ((Snapshot.delete s.host s.key).upload s.key bytes).2.disk := by
  obtain ⟨framework, files, summary, -, -, -, rfl⟩ := of_setUp_force hbatch h
  exact ⟨_, disk_built ..⟩

/-- With a store in memory it touches nothing. -/
theorem disk_setUp_of_memory {s t : Session} (hbatch : 0 < s.config.batchSize)
    (h : s.setUp true = (.ok (), t)) {blobs : OrderedMap ByteArray}
    (hstore : s.host.store = .memory blobs) : t.disk = s.disk := by
  obtain ⟨bytes, hdisk⟩ := exists_disk_setUp hbatch h
  have hdeleted : Snapshot.delete s.host s.key =
      { store := .memory (blobs.erase s.key), disk := s.disk } := by
    unfold Snapshot.delete Host.delete
    rw [hstore]
    rfl
  rw [hdisk, hdeleted]
  unfold Host.upload
  dsimp only
  split <;> rfl

/-- A forced build succeeds where there is a file of the project and the imports of every file
can be resolved once the persisted graph is removed. -/
theorem setUp_force_ok {s : Session} (hbatch : 0 < s.config.batchSize)
    (hroot : ∀ n ∈ Path.components s.root, n ≠ "..") (hd : s.disk.Sound) {framework : String}
    (hframework : Project.detectFramework s.disk s.root = .ok framework) {file : String}
    (hfile : s.Discoverable file)
    (hall : ∀ f, s.Discoverable f → (s.cleared framework).Extractable f) :
    ∃ t, s.setUp true = (.ok (), t) := by
  obtain ⟨hdc, hagree⟩ := footprint_cleared s framework hd
  have hsame : (s.cleared framework).root = s.root := rfl
  have hfound := discoverable_of_agreeOff hroot hsame hd hdc hagree
  obtain ⟨files, hfiles, -⟩ := (hfound file).2 hfile
  exact ⟨_, setUp_force_of_discover hbatch hframework hfiles
    fun f hf => hall f ((hfound f).1 ⟨files, hfiles, hf⟩)⟩

/-- And leaves the project with the files that it had. -/
theorem discoverable_setUp {s t : Session} (hbatch : 0 < s.config.batchSize)
    (hroot : ∀ n ∈ Path.components s.root, n ≠ "..") (hd : s.disk.Sound)
    (h : s.setUp true = (.ok (), t)) (file : String) :
    t.Discoverable file ↔ s.Discoverable file := by
  obtain ⟨ht, hagree⟩ := footprint_setUp hbatch hd h
  exact discoverable_of_agreeOff hroot (frame_setUp hbatch h).1 hd ht hagree file

/-- **After a build** the facts are those that were extracted, and only the new persisted
graph can make a file get another one. -/
theorem stands_built {R : FileFact → FileFact → Prop} {s : Session}
    (hroot : ∀ n ∈ Path.components s.root, n ≠ "..") (hd : s.disk.Sound) {files : List String}
    {summary : Project.Summary}
    (hfiles : Project.discover s.disk s.root (Project.ignorePatterns s.disk s.root) = .ok files)
    {file : String} (hadmits : s.Admits file)
    (h : R (s.factNow file).undated ((s.built files summary).factNow file).undated) :
    (s.built files summary).Stands R file := by
  have hfact := fact?_built s files summary file
  unfold Stands
  by_cases hmem : file ∈ files
  · rw [if_pos hmem] at hfact
    rw [heldFact_of_some hfact]
    exact h
  · rw [if_neg hmem] at hfact
    rw [heldFact_of_none hfact]
    -- a path at which there is no file cannot be read
    have hnone : s.disk.bytes? (placeOf s.root file) = none := by
      cases hbytes : s.disk.bytes? (placeOf s.root file) with
      | none => rfl
      | some bytes =>
        exact absurd ((Project.mem_discover hd hfiles file).2 ⟨hadmits, by simp [hbytes]⟩) hmem
    have hplace := hadmits.components_append s.root
    have hnow : s.factNow file = FileFact.none file s.now := by
      refine Project.factOf_of_none (Project.readSource_of_bytes?_none hd ?_ ?_ _)
      · rw [hplace]
        exact placeOf_inside hroot hadmits
      · rw [hplace]
        exact hnone
    rw [hnow] at h
    exact h

end Session

end RouteImpact
