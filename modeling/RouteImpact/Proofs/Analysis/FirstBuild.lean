import RouteImpact.Proofs.Analysis.Interchange
import RouteImpact.Proofs.Analysis.Rebuild

namespace RouteImpact

open Route.Convention (pagesFrameworks pagesRoutes)

/-!
# Two ways to the first build

A new session gets its first graph from a rebuild, or from being set up by force.  Being set
up finds the framework of the project and removes the persisted graph; a rebuild does
neither.

* `Project.discover_erase` — the persisted graph is not among the files of a project;
* `Session.discover_cleared`, `Session.loadNow_cleared` — hence the two builds find the same
  files, and their facts differ by the framework only; `Session.result_setUp_force` — and the
  builds succeed or fail alike;
* `Session.building_cleared` — where the framework makes no difference to the pages of the
  project, the two builds are one; `Session.agree_rebuild_cleared` — where it makes none to any
  page, the two sessions are interchangeable;
* `Session.rebuild_eq_setUp` — what the two ways have in common, under any framework;
* `Session.rebuild_ne_setUp` — under a framework without pages they differ.
-/

/-! ### The files of a project without its persisted graph -/

/-- What is taken off the disk shows in no list that would not have held it. -/
theorem Disk.filter_placesBelow_erase {d : Disk} (hd : d.Sound) {place : Place}
    {bytes : ByteArray} (hat : d.at? place = some (.file bytes)) (directory : Place)
    {p : Entry → Bool} {q : Place → Bool}
    (hq : p (.file bytes) = true → ∀ names, place = directory ++ names → q names = false) :
    ((d.erase place).placesBelow directory p).filter q = (d.placesBelow directory p).filter q := by
  unfold placesBelow erase
  rw [List.filterMap_filter, List.filter_filterMap, List.filter_filterMap]
  refine List.filterMap_congr ?_
  rintro ⟨there, e⟩ hmem
  by_cases hthere : there = place
  · subst hthere
    have he : e = .file bytes := by
      have hthere := hd.at?_of_mem hmem
      rw [hat] at hthere
      exact (Option.some.inj hthere).symm
    subst he
    -- a file of this name is in neither list
    have hnone : ((if p (.file bytes) = true then (Path.below? directory there).filter (· ≠ [])
        else none) : Option Place).filter q = none := by
      rw [Option.filter_eq_none_iff]
      intro names hnames
      split at hnames
      · next hp =>
        have hbelow := (Option.filter_eq_some_iff.1 hnames).1
        simp [hq hp names (Project.below?_eq_some_iff.1 hbelow)]
      · cases hnames
    simp only [ne_eq, not_true_eq_false, decide_false, Bool.false_eq_true, if_false,
      Option.filter_none]
    exact hnone.symm
  · simp [hthere]

namespace Project

/-- **Discovery does not see a file that is no source file.** -/
theorem discover_erase {d : Disk} (hd : d.Sound) {place : Disk.Place} {bytes : ByteArray}
    (hat : d.at? place = some (.file bytes)) {name : String} (hlast : place.getLast? = some name)
    (hname : Source.isSupported name = false) (root : String) (patterns : List String) :
    discover (d.erase place) root patterns = discover d root patterns := by
  have hdirectories : (d.erase place).directoriesBelow (Path.components root) =
      d.directoriesBelow (Path.components root) := by
    have hall := Disk.filter_placesBelow_erase hd hat (Path.components root)
      (p := fun e => !e.isFile) (q := fun _ => true) (by simp [Disk.Entry.isFile])
    rwa [List.filter_true, List.filter_true] at hall
  have hfiles : ((d.erase place).filesBelow (Path.components root)).filter
      (fun names => Source.isSupported (names.getLast?.getD "")) =
      (d.filesBelow (Path.components root)).filter
        fun names => Source.isSupported (names.getLast?.getD "") := by
    refine Disk.filter_placesBelow_erase hd hat _ fun _ names hplace => ?_
    cases hnames : names.getLast? with
    | none => rfl
    | some last =>
      rw [hplace, List.getLast?_append, hnames, Option.some_or, Option.some.injEq] at hlast
      rw [Option.getD_some, hlast, hname]
  unfold discover
  dsimp only
  rw [hdirectories, hfiles]

variable {d : Disk} {root file : String} {x : Extractor} {now : Moment}

theorem lastSeenAt_factOf (d : Disk) (root : String) (x : Extractor) (now : Moment)
    (file : String) : (factOf d root x now file).lastSeenAt = now := by
  unfold factOf Extractor.factOf
  split
  · split <;> rfl
  · rfl

/-- What is extracted from a text under another framework. -/
theorem extract_under (hx : x.recognizers = Route.defaultRecognizers)
    (hpages : x.framework ∈ pagesFrameworks) (framework content : String) :
    ({ x with framework } : Extractor).extract now file content =
      (x.extract now file content).map (·.under framework) := by
  have hresolved : ({ x with framework } : Extractor).resolver.resolveEach file
      (({ x with framework } : Extractor).specifiersOf file content) =
      x.resolver.resolveEach file (x.specifiersOf file content) := rfl
  unfold Extractor.extract
  rw [hresolved, Extractor.factOf_under hx hpages]
  cases x.resolver.resolveEach file (x.specifiersOf file content) <;> rfl

/-- The fact of a file under another framework. -/
theorem loadFact_under (hx : x.recognizers = Route.defaultRecognizers)
    (hpages : x.framework ∈ pagesFrameworks) (framework : String) :
    loadFact d root { x with framework } now file =
      (loadFact d root x now file).map (·.under framework) := by
  have hread : readSource d root file ({ x with framework } : Extractor).maxFileSize =
      readSource d root file x.maxFileSize := rfl
  unfold loadFact
  rw [hread]
  split
  · exact extract_under hx hpages framework _
  · rw [Except.map, FileFact.none_under]

end Project

theorem FileFact.eq_of_undated {fact fact' : FileFact} (h : fact'.undated = fact.undated)
    (hdate : fact'.lastSeenAt = fact.lastSeenAt) : fact' = fact := by
  obtain ⟨path, imports, exports, routes, hash, date⟩ := fact
  cases hdate
  cases h
  rfl

namespace Session

variable {s : Session} {framework : String}

/-- Removing the persisted graph leaves the project its files. -/
theorem discover_cleared (hroot : ∀ n ∈ Path.components s.root, n ≠ "..") (hd : s.disk.Sound)
    (framework : String) :
    Project.discover (s.cleared framework).disk s.root
        (Project.ignorePatterns (s.cleared framework).disk s.root) =
      Project.discover s.disk s.root (Project.ignorePatterns s.disk s.root) := by
  obtain ⟨hdc, hagree⟩ := footprint_cleared s framework hd
  have hpatterns := (sameSettings_of_agreeOff hroot hd hdc hagree (by decide)).ignorePatterns
  rw [← hpatterns]
  show Project.discover (s.host.delete s.key).2.disk s.root _ = _
  rcases s.host.delete_cases s.key with hsame | ⟨blobs, -, hsame⟩ |
    ⟨path, place, bytes, -, hkey, hfind, hsame⟩
  · rw [hsame]
    rfl
  · rw [hsame]
    rfl
  · rw [hsame]
    exact Project.discover_erase hd (Disk.of_find hfind).2 (Host.getLast?_of_find hkey hfind)
      (by decide) ..

/-- **The fact of a file after clearing** is the one before, under the framework that was
found, if removing the persisted graph moves no import. -/
theorem loadNow_cleared (hroot : ∀ n ∈ Path.components s.root, n ≠ "..") (hd : s.disk.Sound)
    (hpages : s.framework ∈ pagesFrameworks)
    (hapart : s.ResolvesAlike (Snapshot.delete s.host s.key).disk) (framework : String)
    {file : String} (hfile : s.Discoverable file) :
    (s.cleared framework).loadNow file = (s.loadNow file).map (·.under framework) := by
  obtain ⟨hdc, hagree⟩ := footprint_cleared s framework hd
  -- first the disk changes, then the framework
  let t := s.apply (.edit (Snapshot.delete s.host s.key).disk)
  have hanalysis : SameAnalysis s t := ⟨rfl, rfl, rfl⟩
  have hread : t.read file = s.read file :=
    read_of_agreeOff hanalysis hroot hd hdc hagree ((discoverable_iff hd).1 hfile).1
  have hsame : t.loadNow file = s.loadNow file := by
    have himports : (t.loadNow file).map (·.imports) = (s.loadNow file).map (·.imports) :=
      hapart file hfile
    cases hold : s.loadNow file with
    | error e =>
      rw [hold] at himports
      cases hnew : t.loadNow file with
      | error e' =>
        rw [hnew] at himports
        cases himports
        rfl
      | ok fact =>
        rw [hnew] at himports
        cases himports
    | ok fact =>
      rw [hold] at himports
      cases hnew : t.loadNow file with
      | error e' =>
        rw [hnew] at himports
        cases himports
      | ok fact' =>
        rw [hnew] at himports
        obtain ⟨-, rfl⟩ := loadNow_eq_ok.1 hold
        obtain ⟨-, rfl⟩ := loadNow_eq_ok.1 hnew
        refine congrArg Except.ok (FileFact.eq_of_undated ?_ ?_)
        · exact undated_factNow hanalysis hread (Except.ok.inj himports)
        · rw [factNow, factNow, Project.lastSeenAt_factOf, Project.lastSeenAt_factOf]
          rfl
  rw [← hsame]
  exact Project.loadFact_under (x := t.extractor) rfl hpages framework

theorem extractable_cleared (hroot : ∀ n ∈ Path.components s.root, n ≠ "..") (hd : s.disk.Sound)
    (hpages : s.framework ∈ pagesFrameworks)
    (hapart : s.ResolvesAlike (Snapshot.delete s.host s.key).disk) (framework : String)
    {file : String} (hfile : s.Discoverable file) :
    (s.cleared framework).Extractable file ↔ s.Extractable file := by
  rw [← exists_loadNow, ← exists_loadNow,
    loadNow_cleared hroot hd hpages hapart framework hfile]
  cases s.loadNow file <;> simp [Except.map]

theorem factNow_cleared (hroot : ∀ n ∈ Path.components s.root, n ≠ "..") (hd : s.disk.Sound)
    (hpages : s.framework ∈ pagesFrameworks)
    (hapart : s.ResolvesAlike (Snapshot.delete s.host s.key).disk) (framework : String)
    {file : String} (hfile : s.Discoverable file) (hextractable : s.Extractable file) :
    (s.cleared framework).factNow file = (s.factNow file).under framework := by
  have hload := loadNow_cleared hroot hd hpages hapart framework hfile
  rw [loadNow_eq_ok.2 ⟨hextractable, rfl⟩] at hload
  exact (loadNow_eq_ok.1 hload).2

/-- A framework that says the same about a file does not show in its fact. -/
theorem under_loadNow (hpages : s.framework ∈ pagesFrameworks) {file : String}
    (h : pagesRoutes framework file = pagesRoutes s.framework file) :
    (s.loadNow file).map (·.under framework) = s.loadNow file := by
  have hunder : Project.loadFact s.disk s.root { s.extractor with framework } s.now file =
      (s.loadNow file).map (·.under framework) := Project.loadFact_under rfl hpages framework
  rw [← hunder]
  exact Project.loadFact_of_pages rfl h ..

/-- A build that finds a file whose imports cannot be resolved fails with a name that is too
long. -/
theorem rebuild_of_not_extractable {t : Session} (hbatch : 0 < t.config.batchSize)
    {files : List String}
    (hfound : Project.discover t.disk t.root (Project.ignorePatterns t.disk t.root) = .ok files)
    (hall : ¬ ∀ file ∈ files, t.Extractable file) : t.rebuild.1 = .error .nameTooLong := by
  rcases hrun : t.rebuild with ⟨result, u⟩
  cases result with
  | ok summary =>
    obtain ⟨files', hfiles', hall', -⟩ := of_rebuild hbatch hrun
    rw [hfound] at hfiles'
    cases hfiles'
    exact absurd hall' hall
  | error e =>
    unfold rebuild at hrun
    dsimp only at hrun
    split at hrun
    · next halted hbuild =>
      cases hrun
      obtain ⟨file, -, hfile⟩ := Project.of_build_error_of_discover hbatch hfound hbuild
      exact congrArg Except.error (@eq_nameTooLong_of_loadNow t.reset file _ hfile)
    · cases hrun

/-! ### Two ways -/

/-- The framework does not show in the edges. -/
theorem edges_of_under {g g' : ImportGraph} (hg : g.Reflects) (hg' : g'.Reflects)
    (hedges : g.Exact) (hedges' : g'.Exact)
    (hfacts : ∀ x, g'.fact? x = (g.fact? x).map (·.under framework)) (x : String) :
    g'.importsOf x = g.importsOf x ∧ g'.importersOf x = g.importersOf x := by
  have himports : ∀ x, g'.importsOf x = g.importsOf x := by
    intro x
    rw [hg'.imports, hg.imports, hfacts]
    cases g.fact? x with
    | none => rfl
    | some fact =>
      simp only [Option.map_some, Option.elim_some, ImportGraph.targets, FileFact.resolvedImports,
        FileFact.imports_under]
  refine ⟨himports x, ?_⟩
  ext y
  rw [hedges', hedges, himports]

theorem setUp_force_eq (hframework : Project.detectFramework s.disk s.root = .ok framework) :
    s.setUp true = Outcome.map (fun _ => ()) (s.cleared framework).rebuild := by
  unfold setUp
  rw [hframework]
  rfl

/-- **The two ways succeed or fail alike**, under any framework. -/
theorem result_setUp_force (hbatch : 0 < s.config.batchSize)
    (hroot : ∀ n ∈ Path.components s.root, n ≠ "..") (hd : s.disk.Sound)
    (hpages : s.framework ∈ pagesFrameworks)
    (hapart : s.ResolvesAlike (Snapshot.delete s.host s.key).disk)
    (hframework : Project.detectFramework s.disk s.root = .ok framework) :
    (s.setUp true).1 = s.rebuild.1.map (fun _ => ()) := by
  rw [setUp_force_eq hframework]
  have hfiles := discover_cleared hroot hd framework
  have hmap : ∀ t : Session,
      (Outcome.map (fun _ => ()) t.rebuild).1 = t.rebuild.1.map (fun _ => ()) := fun t => by
    rcases t.rebuild with ⟨result, u⟩
    cases result <;> rfl
  rw [hmap]
  cases hfound : Project.discover s.disk s.root (Project.ignorePatterns s.disk s.root) with
  | error e =>
    have ha : s.building = .error ⟨e, s.graph.clear⟩ :=
      Project.build_of_discover_error s.config.batchSize hfound
    have hb : (s.cleared framework).building = .error ⟨e, (s.cleared framework).graph.clear⟩ :=
      Project.build_of_discover_error (s.cleared framework).config.batchSize
        (hfiles.trans hfound)
    rw [rebuild_of_error ha, rebuild_of_error hb]
  | ok files =>
    have hextractable : ∀ file ∈ files, (s.cleared framework).Extractable file ↔
        s.Extractable file := fun file hfile =>
      extractable_cleared hroot hd hpages hapart framework ⟨files, hfound, hfile⟩
    by_cases hall : ∀ file ∈ files, s.Extractable file
    · have hall' : ∀ file ∈ files, (s.cleared framework).Extractable file :=
        fun file hfile => (hextractable file hfile).2 (hall file hfile)
      have ha := rebuild_of_discover hbatch hfound hall
      have hb := @rebuild_of_discover (s.cleared framework) hbatch _ (hfiles.trans hfound) hall'
      rw [ha, hb, Except.map, Except.map]
    · have hall' : ¬ ∀ file ∈ files, (s.cleared framework).Extractable file := fun h =>
        hall fun file hfile => (hextractable file hfile).1 (h file hfile)
      rw [rebuild_of_not_extractable hbatch hfound hall,
        @rebuild_of_not_extractable (s.cleared framework) hbatch _ (hfiles.trans hfound) hall']

/-- No import of the project's files asks for a name that is too long. -/
def Resolvable (s : Session) : Prop := ∀ file, s.Discoverable file → s.Extractable file

/-- **Under any framework** the facts that the two ways leave are those of the same files. -/
theorem fact?_setUp_force (hbatch : 0 < s.config.batchSize)
    (hroot : ∀ n ∈ Path.components s.root, n ≠ "..") (hd : s.disk.Sound)
    (hpages : s.framework ∈ pagesFrameworks)
    (hapart : s.ResolvesAlike (Snapshot.delete s.host s.key).disk)
    (hframework : Project.detectFramework s.disk s.root = .ok framework)
    (hresolvable : s.Resolvable) :
    (∀ file, (s.setUp true).2.graph.fact? file =
      (s.rebuild.2.graph.fact? file).map (·.under framework)) ∧
    s.rebuild.2.graph.Reflects ∧ s.rebuild.2.graph.Exact ∧
    (s.setUp true).2.graph.Reflects ∧ (s.setUp true).2.graph.Exact := by
  rw [setUp_force_eq hframework, Outcome.snd_map]
  have hfiles := discover_cleared hroot hd framework
  cases hfound : Project.discover s.disk s.root (Project.ignorePatterns s.disk s.root) with
  | error e =>
    have ha : s.building = .error ⟨e, s.graph.clear⟩ :=
      Project.build_of_discover_error s.config.batchSize hfound
    have hb : (s.cleared framework).building = .error ⟨e, (s.cleared framework).graph.clear⟩ :=
      Project.build_of_discover_error (s.cleared framework).config.batchSize
        (hfiles.trans hfound)
    rw [rebuild_of_error ha, rebuild_of_error hb]
    -- what is left is an empty graph
    exact ⟨fun _ => rfl, ImportGraph.reflects_empty _, ImportGraph.exact_empty _,
      ImportGraph.reflects_empty _, ImportGraph.exact_empty _⟩
  | ok files =>
    have hdiscoverable : ∀ file ∈ files, s.Discoverable file :=
      fun file hfile => ⟨files, hfound, hfile⟩
    have hall : ∀ file ∈ files, s.Extractable file :=
      fun file hfile => hresolvable file (hdiscoverable file hfile)
    have hall' : ∀ file ∈ files, (s.cleared framework).Extractable file := fun file hfile =>
      (extractable_cleared hroot hd hpages hapart framework (hdiscoverable file hfile)).2
        (hall file hfile)
    rw [rebuild_of_discover hbatch hfound hall,
      @rebuild_of_discover (s.cleared framework) hbatch _ (hfiles.trans hfound) hall']
    obtain ⟨hreflects, hexact, -, -⟩ := reflects_built s files (s.countsOf files)
    obtain ⟨hreflects', hexact', -, -⟩ :=
      reflects_built (s.cleared framework) files ((s.cleared framework).countsOf files)
    refine ⟨fun file => ?_, hreflects, hexact, hreflects', hexact'⟩
    show ((s.cleared framework).built files _).graph.fact? file = _
    rw [fact?_built, fact?_built]
    by_cases hfile : file ∈ files
    · rw [if_pos hfile, if_pos hfile, Option.map_some, factNow_cleared hroot hd hpages hapart
        framework (hdiscoverable file hfile) (hall file hfile)]
    · rw [if_neg hfile, if_neg hfile, Option.map_none]

/-- The store held no graph that a session would load, or takes the graph of a rebuild in its
place. -/
def Replaceable (s : Session) : Prop :=
  Snapshot.delete s.host s.key = s.host ∨
    s.rebuild.1.isOk = true ∧ (Snapshot.save s.host s.key s.now s.rebuild.2.graph).1 = true

/-- **Where the framework says the same about all files of the project**, the two builds are
one. -/
theorem building_cleared (hroot : ∀ n ∈ Path.components s.root, n ≠ "..") (hd : s.disk.Sound)
    (hpages : s.framework ∈ pagesFrameworks)
    (hapart : s.ResolvesAlike (Snapshot.delete s.host s.key).disk)
    (hsame : ∀ file, s.Discoverable file →
      pagesRoutes framework file = pagesRoutes s.framework file) :
    (s.cleared framework).building = s.building := by
  refine Project.build_congr (discover_cleared hroot hd framework) ?_ _ _
  intro files hfiles file hfile
  have hfound : s.Discoverable file := ⟨files, hfiles, hfile⟩
  have hload := loadNow_cleared hroot hd hpages hapart framework hfound
  rwa [under_loadNow hpages (hsame file hfound)] at hload

/-- One build makes one graph. -/
theorem graph_rebuild_cleared (h : (s.cleared framework).building = s.building) :
    (s.cleared framework).rebuild.2.graph = s.rebuild.2.graph := by
  cases hbuilt : s.building with
  | error halted =>
    rw [rebuild_of_error hbuilt, rebuild_of_error (h.trans hbuilt)]
    rfl
  | ok built =>
    rw [rebuild_of_ok hbuilt, rebuild_of_ok (h.trans hbuilt)]
    rfl

/-- **Where the framework has pages** the sessions are interchangeable after one build. -/
theorem agree_rebuild_cleared (hinitialized : s.initialized = false)
    (hsame : ∀ file, pagesRoutes framework file = pagesRoutes s.framework file)
    (hbuilding : (s.cleared framework).building = s.building) (hstore : s.Replaceable) :
    Agree s.rebuild (s.cleared framework).rebuild := by
  cases hbuilt : s.building with
  | error halted =>
    rw [rebuild_of_error hbuilt, rebuild_of_error (hbuilding.trans hbuilt)]
    rcases hstore with hkept | ⟨hok, -⟩
    · -- nothing was removed, and neither session is set up
      have hleaving : (s.cleared framework).leaving halted.left =
          { s.leaving halted.left with framework, host := Snapshot.delete s.host s.key } := by
        obtain ⟨root, config, host, now, framework', graph, impact, components, lastBuild,
          initialized⟩ := s
        cases hinitialized
        rfl
      rw [hleaving, hkept]
      exact ⟨rfl, .intro .refl hsame⟩
    · rw [rebuild_of_error hbuilt] at hok
      cases hok
  | ok built =>
    have hrebuild := rebuild_of_ok hbuilt
    have hgraph : s.rebuild.2.graph = built.graph := by rw [hrebuild]; rfl
    rw [hrebuild, rebuild_of_ok (hbuilding.trans hbuilt)]
    have halike : (Snapshot.save s.host s.key s.now built.graph).2.Alike
        (Snapshot.save (Snapshot.delete s.host s.key) s.key s.now built.graph).2 := by
      rcases hstore with hkept | ⟨-, htaken⟩
      · rw [hkept]
        exact .refl
      · rw [hgraph] at htaken
        exact Snapshot.alike_save_delete htaken
    exact ⟨rfl, .intro halike hsame⟩

/-- **Two ways to the first build.**  On a project whose manifest can be read, a new session
that is rebuilt and one that is set up by force succeed or fail alike.  If no import of the
project's files asks for a name that is too long, they succeed where there is a file, and then the
following holds.  Whatever the framework of the project, their graphs have the same edges, and
facts of the same files that differ in the routes of pages only: the forced build leaves these out
where the framework has no pages, and the rebuild, which does not look for the framework,
never does.  So the graphs are equal where the framework takes no route from any file of the
project.  Where the framework has pages, or none is known, the two sessions answer alike,
failures included, whatever is done to both and however the files change.  The persisted graph
must not move an import when it is removed. -/
theorem rebuild_eq_setUp {root : String} {config : Settings.Config} {host : Host} {now : Moment}
    (hconfig : config.fault? = none) (hroot : ∀ n ∈ Path.components root, n ≠ "..")
    (hsound : host.disk.Sound) (hstart : start root config host now = .ok s)
    (hframework : Project.detectFramework host.disk root = .ok framework)
    (hapart : s.ResolvesAlike (Snapshot.delete host s.key).disk) :
    (s.setUp true).1 = s.rebuild.1.map (fun _ => ()) ∧
    (s.Resolvable →
      ((∃ file, s.Discoverable file) → s.rebuild.1.isOk = true) ∧
      (∀ file, (s.setUp true).2.graph.fact? file =
        (s.rebuild.2.graph.fact? file).map (·.under framework)) ∧
      (∀ file, (s.setUp true).2.graph.importsOf file = s.rebuild.2.graph.importsOf file ∧
        (s.setUp true).2.graph.importersOf file = s.rebuild.2.graph.importersOf file) ∧
      ((∀ file, s.Discoverable file →
          pagesRoutes framework file = pagesRoutes Project.unknownFramework file) →
        (s.setUp true).2.graph = s.rebuild.2.graph) ∧
      (framework ∈ pagesFrameworks → s.Replaceable →
        ∀ ops, (s.setUp true).2.answers ops = s.rebuild.2.answers ops)) := by
  have hs := started_of_start hstart
  have hbatch := hs.batchSize_pos hconfig
  -- a new session has the host and the root that it was given, and no framework
  have hpages : s.framework ∈ pagesFrameworks := by
    rw [hs.framework]
    decide
  rw [← hs.root] at hroot hframework
  rw [← hs.host] at hsound hframework hapart
  refine ⟨result_setUp_force hbatch hroot hsound hpages hapart hframework, fun hresolvable => ?_⟩
  obtain ⟨hfacts, hreflects, hexact, hreflects', hexact'⟩ :=
    fact?_setUp_force hbatch hroot hsound hpages hapart hframework hresolvable
  refine ⟨?_, hfacts, edges_of_under hreflects hreflects' hexact hexact' hfacts, ?_, ?_⟩
  · rintro ⟨file, files, hfound, -⟩
    rw [rebuild_of_discover hbatch hfound fun f hf => hresolvable f ⟨files, hfound, hf⟩]
    rfl
  · intro hsame
    rw [setUp_force_eq hframework, Outcome.snd_map]
    rw [← hs.framework] at hsame
    exact graph_rebuild_cleared (building_cleared hroot hsound hpages hapart hsame)
  · intro hmem hstore
    have hsame : ∀ file, pagesRoutes framework file = pagesRoutes s.framework file :=
      fun file => Route.Convention.pagesRoutes_congr hpages hmem
    have hbuilding := building_cleared hroot hsound hpages hapart fun file _ => hsame file
    rw [setUp_force_eq hframework, Outcome.snd_map]
    exact answers_of_interchangeable
      (agree_rebuild_cleared hs.initialized hsame hbuilding hstore).after

/-! ### One page under two frameworks -/

/-- A project with one page, whose manifest asks for a package. -/
def askingDisk (package : String) : Disk :=
  ⟨[(["p"], .directory),
    (["p", "package.json"],
      .file ("\x7b\"dependencies\":\x7b\"" ++ package ++ "\":\"\"\x7d\x7d").toUTF8),
    (["p", "pages"], .directory),
    (["p", "pages", "a.js"], .file "".toUTF8)]⟩

/-- That project, and a store in which something was kept for it. -/
def askingHost (package : String) : Host where
  store := .memory (OrderedMap.ofList
    [(Snapshot.key plainConfig.cacheNamespace "/p", "".toUTF8), ("other", "".toUTF8)])
  disk := askingDisk package

/-- A new session there. -/
def askingSession (package : String) : Session where
  root := "/p"
  config := plainConfig
  host := askingHost package
  now := Number.Binary64.zero
  graph := { prune := plainConfig.pruneStaleEdges }

theorem start_askingSession (package : String) :
    start "/p" plainConfig (askingHost package) Number.Binary64.zero =
      .ok (askingSession package) := rfl

theorem root_askingSession : ∀ n ∈ Path.components "/p", n ≠ ".." := by decide

/-- A store in memory takes the page off no disk. -/
theorem resolvesAlike_askingSession (package : String) : (askingSession package).ResolvesAlike
    (Snapshot.delete (askingHost package) (askingSession package).key).disk := by
  show (askingSession package).ResolvesAlike (askingSession package).disk
  exact resolvesAlike_self _

/-- The page imports nothing. -/
theorem resolvable_askingSession : (askingSession "next").Resolvable := by
  rintro file ⟨files, hfiles, hfile⟩
  have hfound : Project.discover (askingSession "next").disk (askingSession "next").root
      (Project.ignorePatterns (askingSession "next").disk (askingSession "next").root) =
        .ok ["pages/a.js"] := by
    decide +kernel
  rw [hfound] at hfiles
  cases hfiles
  rw [List.mem_singleton.1 hfile]
  exact extractable_of_loadNow (by decide +kernel)

/-- The page has its route after both builds, though only one of them knows the framework;
what was kept for the project before makes no difference. -/
theorem rebuild_eq_setUp_askingSession :
    ((askingSession "next").rebuild.2.graph.fact? "pages/a.js").map FileFact.routePaths =
      some ["/a"] ∧
    (askingSession "next").rebuild.2.framework = "unknown" ∧
    Project.detectFramework (askingHost "next").disk "/p" = .ok "nextjs" ∧
    Snapshot.delete (askingHost "next") (askingSession "next").key ≠ askingHost "next" ∧
    ((askingSession "next").setUp true).2.graph = (askingSession "next").rebuild.2.graph ∧
    ∀ ops, ((askingSession "next").setUp true).2.answers ops =
      (askingSession "next").rebuild.2.answers ops := by
  obtain ⟨hroutes, hunknown, hframework, hok, htaken⟩ :
      ((askingSession "next").rebuild.2.graph.fact? "pages/a.js").map FileFact.routePaths =
        some ["/a"] ∧
      (askingSession "next").rebuild.2.framework = "unknown" ∧
      Project.detectFramework (askingHost "next").disk "/p" = .ok "nextjs" ∧
      (askingSession "next").rebuild.1.isOk = true ∧
      (Snapshot.save (askingHost "next") (askingSession "next").key (askingSession "next").now
        (askingSession "next").rebuild.2.graph).1 = true := by
    decide +kernel
  have hkept :
      Snapshot.delete (askingHost "next") (askingSession "next").key ≠ askingHost "next" := by
    intro heq
    have hfetched : ((askingHost "next").download (askingSession "next").key).isOk =
        ((Snapshot.delete (askingHost "next") (askingSession "next").key).download
          (askingSession "next").key).isOk := by
      rw [heq]
    revert hfetched
    decide
  obtain ⟨-, -, -, hgraph, hanswers⟩ := (rebuild_eq_setUp (by decide)
    root_askingSession (by decide) (start_askingSession "next") hframework
    (resolvesAlike_askingSession "next")).2 resolvable_askingSession
  have hmem : "nextjs" ∈ pagesFrameworks := by decide
  refine ⟨hroutes, hunknown, hframework, hkept, hgraph fun file _ => ?_,
    hanswers hmem (Or.inr ⟨hok, htaken⟩)⟩
  exact Route.Convention.pagesRoutes_congr (by decide) hmem

/-- Under a framework without pages the rebuilt session has a route that the other does not
have, and says so. -/
theorem rebuild_ne_setUp :
    ∃ s a b summary,
      start "/p" plainConfig (askingHost "react-router") Number.Binary64.zero = .ok s ∧
      s.rebuild = (.ok summary, a) ∧ s.setUp true = (.ok (), b) ∧
      (a.graph.fact? "pages/a.js").map FileFact.routePaths = some ["/a"] ∧
      (b.graph.fact? "pages/a.js").map FileFact.routePaths = some [] ∧
      (a.detectRoutes ["pages/a.js"] false).1.toOption.map (·.get? "pages/a.js") =
        some (some ["/a"]) ∧
      (b.detectRoutes ["pages/a.js"] false).1.toOption.map (·.get? "pages/a.js") = some none := by
  obtain ⟨hok, hforced, hroutes, hnone, hanswer, hanswer'⟩ :
      ((askingSession "react-router").rebuild.1.map Answer.built).isOk = true ∧
      (((askingSession "react-router").setUp true).1.map fun _ => Answer.done).isOk = true ∧
      ((askingSession "react-router").rebuild.2.graph.fact? "pages/a.js").map FileFact.routePaths =
        some ["/a"] ∧
      (((askingSession "react-router").setUp true).2.graph.fact? "pages/a.js").map
        FileFact.routePaths = some [] ∧
      ((askingSession "react-router").rebuild.2.detectRoutes ["pages/a.js"] false).1.toOption.map
        (·.get? "pages/a.js") = some (some ["/a"]) ∧
      (((askingSession "react-router").setUp true).2.detectRoutes ["pages/a.js"]
        false).1.toOption.map (·.get? "pages/a.js") = some none := by
    decide +kernel
  obtain ⟨summary, hrebuild⟩ := ok_of_answer hok
  obtain ⟨_, hsetUp⟩ := ok_of_answer hforced
  exact ⟨askingSession "react-router", (askingSession "react-router").rebuild.2,
    ((askingSession "react-router").setUp true).2, summary, start_askingSession "react-router",
    hrebuild, hsetUp, hroutes, hnone, hanswer, hanswer'⟩

end Session

end RouteImpact
