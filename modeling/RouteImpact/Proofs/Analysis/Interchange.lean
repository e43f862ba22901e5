import RouteImpact.Proofs.Analysis.Upkeep
import RouteImpact.Proofs.Route.Recognizers
import RouteImpact.Proofs.Store.Replacement

namespace RouteImpact

open Route.Convention (pagesRoutes)

/-!
# Sessions that are not told apart

Two sessions that differ in the framework, but agree about pages, and in the order in which a
store in memory has its keys, are interchangeable: whatever is done to both, they answer
alike, failures included.

* `Project.build_congr` — what a build makes depends on the files that it finds and on their
  facts; `ComponentMaps.prepare_under`, … — component maps do not depend on the framework;
* `Session.Interchangeable` — the relation between the two sessions;
* `Session.Agree` — outcomes with the same result that leave interchangeable sessions behind;
  `agree_setUp`, `agree_refresh`, … — so it is with every operation;
* `Session.answers_of_interchangeable` — hence with every history.
-/

/-! ### Builds -/

namespace Project

theorem mem_of_mem_batches {size : Nat} {files : List String} {file : String}
    (h : file ∈ (batches size files).flatten) : file ∈ files := by
  rcases Nat.eq_zero_or_pos size with rfl | hsize
  · rw [batches, dif_pos (Or.inl rfl)] at h
    cases h
  · rwa [flatten_batches hsize] at h

theorem extractInto_congr {fact fact' : String → Except Failure FileFact} {files : List String}
    (h : ∀ file ∈ files, fact' file = fact file) (g : ImportGraph) :
    extractInto fact' g files = extractInto fact g files := by
  induction files generalizing g with
  | nil => rfl
  | cons file rest ih =>
    rw [extractInto, extractInto, h file List.mem_cons_self]
    split
    · rfl
    · exact ih (fun f hf => h f (List.mem_cons_of_mem _ hf)) _

/-- Frameworks that agree about pages get the same fact out of a text, or fail alike. -/
theorem extract_of_pages {x : Extractor} (hx : x.recognizers = Route.defaultRecognizers)
    {framework file : String} (h : pagesRoutes framework file = pagesRoutes x.framework file)
    (now : Moment) (content : String) :
    ({ x with framework } : Extractor).extract now file content = x.extract now file content := by
  unfold Extractor.extract
  rw [Extractor.factOf_congr hx h]
  rfl

theorem loadFact_of_pages {x : Extractor} (hx : x.recognizers = Route.defaultRecognizers)
    {framework file : String} (h : pagesRoutes framework file = pagesRoutes x.framework file)
    (d : Disk) (root : String) (now : Moment) :
    loadFact d root { x with framework } now file = loadFact d root x now file := by
  unfold loadFact
  simp only [extract_of_pages hx h]

/-- **What a build makes** depends on the files that it finds and on their facts. -/
theorem build_congr {d d' : Disk} {root : String} {x x' : Extractor} {now : Moment}
    (hfiles : discover d' root (ignorePatterns d' root) =
      discover d root (ignorePatterns d root))
    (hfacts : ∀ files, discover d root (ignorePatterns d root) = .ok files →
      ∀ file ∈ files, loadFact d' root x' now file = loadFact d root x now file)
    (g : ImportGraph) (batch : Int) :
    build d' root x' now g none batch = build d root x now g none batch := by
  unfold build filesToBuild
  rw [hfiles]
  cases hfound : discover d root (ignorePatterns d root) with
  | error e => rfl
  | ok files =>
    have hextract : (batches batch.toNat files).foldlM (extractInto (loadFact d' root x' now)) g =
        (batches batch.toNat files).foldlM (extractInto (loadFact d root x now)) g := by
      rw [foldlM_extractInto, foldlM_extractInto]
      exact extractInto_congr
        (fun file hfile => hfacts files hfound file (mem_of_mem_batches hfile)) g
    simp only [hextract]

end Project

/-! ### Component maps -/

/-- The same source in a project with another framework. -/
def ComponentSource.under (src : ComponentSource) (framework : String) : ComponentSource :=
  { src with extractor := { src.extractor with framework } }

namespace ComponentMaps

variable (m : ComponentMaps) (src : ComponentSource) (framework : String)

theorem localNameOf_under (file component : String) :
    m.localNameOf (src.under framework) file component = m.localNameOf src file component := rfl

theorem mapRouteFile_under (file : String) :
    m.mapRouteFile (src.under framework) file = m.mapRouteFile src file := rfl

theorem load_under (file : String) (content : Option String) :
    m.load (src.under framework) file content = m.load src file content := rfl

theorem loadAll_under (texts : List (String × Option String)) :
    loadAll (src.under framework) texts m = loadAll src texts m := by
  induction texts generalizing m with
  | nil => rfl
  | cons text rest ih =>
    obtain ⟨file, content⟩ := text
    rw [loadAll, loadAll, load_under]
    simp only [ih]
    rfl

theorem prepare_under (files : List String) :
    m.prepare (src.under framework) files = m.prepare src files := by
  unfold prepare
  -- which maps are stale and what is read depends on the graph and the disk
  simp only [loadAll_under]
  rfl

end ComponentMaps

namespace Session

variable {s a b : Session}

/-! ### Interchangeable sessions -/

/-- Sessions that differ in the framework and in their host only, where the frameworks agree
about pages and the hosts are alike. -/
inductive Interchangeable (a : Session) : Session → Prop
  | intro {framework : String} {host : Host} (hhost : a.host.Alike host)
      (hpages : ∀ file, pagesRoutes framework file = pagesRoutes a.framework file) :
      Interchangeable a { a with framework, host }

namespace Interchangeable

variable (h : Interchangeable a b)

include h

theorem graph : b.graph = a.graph := by
  obtain ⟨-, -⟩ := h
  rfl

theorem components : b.components = a.components := by
  obtain ⟨-, -⟩ := h
  rfl

theorem normalize : b.normalize = a.normalize := by
  obtain ⟨-, -⟩ := h
  rfl

theorem disk : b.disk = a.disk := by
  obtain ⟨hhost, -⟩ := h
  exact hhost.disk

theorem read : b.read = a.read := by
  have hdisk := h.disk
  obtain ⟨-, -⟩ := h
  funext file
  rw [Session.read, Session.read, hdisk]

/-- Both resolve specifiers alike. -/
theorem extractor : b.extractor = { a.extractor with framework := b.framework } := by
  have hdisk := h.disk
  obtain ⟨-, -⟩ := h
  rw [Session.extractor, Session.extractor, resolver, resolver, hdisk]

theorem componentSource : b.componentSource = a.componentSource.under b.framework := by
  have hextractor := h.extractor
  have hread := h.read
  obtain ⟨-, -⟩ := h
  rw [Session.componentSource, hextractor, hread]
  rfl

theorem extract (file content : String) :
    b.extractor.extract b.now file content = a.extractor.extract a.now file content := by
  rw [h.extractor]
  obtain ⟨-, hpages⟩ := h
  exact Project.extract_of_pages rfl (hpages file) a.now content

/-- Both get the same fact out of a file, or fail alike. -/
theorem loadFact (file : String) : Project.loadFact a.disk a.root b.extractor a.now file =
    Project.loadFact a.disk a.root a.extractor a.now file := by
  rw [h.extractor]
  obtain ⟨-, hpages⟩ := h
  exact Project.loadFact_of_pages rfl (hpages file) ..

/-- Both find the same news in a file. -/
theorem freshFact? (file : String) : b.freshFact? file = a.freshFact? file := by
  have hnow : b.now = a.now := by
    obtain ⟨-, -⟩ := h
    rfl
  have hextract := h.extract file
  rw [hnow] at hextract
  unfold Session.freshFact?
  simp only [h.graph, h.read, hnow, hextract]

end Interchangeable

/-- The same result, and interchangeable sessions afterwards. -/
structure Agree {α : Type} (r r' : Outcome α) : Prop where
  result : r'.1 = r.1
  after : Interchangeable r.2 r'.2

section Agreement

variable {α β : Type}

theorem Interchangeable.agree (h : Interchangeable a b) (result : Except Failure α) :
    Agree (result, a) (result, b) := ⟨rfl, h⟩

theorem Agree.andThen {r r' : Outcome α} {f : α → Session → Outcome β} (h : Agree r r')
    (hf : ∀ x a b, Interchangeable a b → Agree (f x a) (f x b)) :
    Agree (r.andThen f) (r'.andThen f) := by
  obtain ⟨result, a⟩ := r
  obtain ⟨result', b⟩ := r'
  obtain ⟨hresult, hafter⟩ := h
  cases hresult
  cases result with
  | error e => exact hafter.agree _
  | ok x => exact hf x a b hafter

theorem Agree.map {r r' : Outcome α} (f : α → β) (h : Agree r r') :
    Agree (Outcome.map f r) (Outcome.map f r') :=
  h.andThen fun _ _ _ hafter => hafter.agree _

end Agreement

/-! ### Building and loading -/

theorem Interchangeable.reset (h : Interchangeable a b) : Interchangeable a.reset b.reset := by
  obtain ⟨hhost, hpages⟩ := h
  exact .intro hhost hpages

theorem Interchangeable.clearCache (h : Interchangeable a b) :
    Interchangeable a.clearCache b.clearCache := by
  obtain ⟨hhost, hpages⟩ := h
  exact .intro (hhost.delete _) hpages

theorem Interchangeable.persist (h : Interchangeable a b) :
    b.persist.1 = a.persist.1 ∧ Interchangeable a.persist.2 b.persist.2 := by
  obtain ⟨hhost, hpages⟩ := h
  obtain ⟨hresult, halike⟩ := Snapshot.save_congr hhost a.key a.now a.graph
  exact ⟨hresult, .intro halike hpages⟩

/-- What a session asks to be built. -/
def building (s : Session) : Except (Halted ImportGraph) Project.Built :=
  Project.build s.disk s.root s.extractor s.now s.graph.clear none s.config.batchSize

/-- The session that has taken over what was built. -/
def holding (s : Session) (built : Project.Built) : Session :=
  { s.reset with
    graph := built.graph
    lastBuild := some built.summary
    initialized := true }

/-- The session that is left with the part of a graph. -/
def leaving (s : Session) (graph : ImportGraph) : Session := { s.reset with graph }

theorem rebuild_of_error {halted : Halted ImportGraph} (h : s.building = .error halted) :
    s.rebuild = (.error halted.failure, s.leaving halted.left) := by
  have hbuild : Project.build s.reset.disk s.reset.root s.reset.extractor s.reset.now
      s.reset.graph none s.reset.config.batchSize = .error halted := h
  unfold rebuild
  dsimp only
  rw [hbuild]
  rfl

theorem rebuild_of_ok {built : Project.Built} (h : s.building = .ok built) :
    s.rebuild = (.ok built.summary, (s.holding built).persist.2) := by
  have hbuild : Project.build s.reset.disk s.reset.root s.reset.extractor s.reset.now
      s.reset.graph none s.reset.config.batchSize = .ok built := h
  unfold rebuild
  dsimp only
  rw [hbuild]
  rfl

theorem Interchangeable.holding (h : Interchangeable a b) (built : Project.Built) :
    Interchangeable (a.holding built) (b.holding built) := by
  obtain ⟨hhost, hpages⟩ := h
  exact .intro hhost hpages

theorem Interchangeable.leaving (h : Interchangeable a b) (graph : ImportGraph) :
    Interchangeable (a.leaving graph) (b.leaving graph) := by
  obtain ⟨hhost, hpages⟩ := h
  exact .intro hhost hpages

/-- Both find the same files and the same facts, so their builds are one. -/
theorem Interchangeable.building (h : Interchangeable a b) : b.building = a.building := by
  have hdisk := h.disk
  have hfacts := h.loadFact
  unfold Session.building
  rw [hdisk]
  obtain ⟨-, -⟩ := h
  exact Project.build_congr rfl (fun _ _ file _ => hfacts file) ..

theorem agree_rebuild (h : Interchangeable a b) : Agree a.rebuild b.rebuild := by
  have hbuilding := h.building
  cases hbuilt : a.building with
  | error halted =>
    rw [rebuild_of_error hbuilt, rebuild_of_error (hbuilding.trans hbuilt)]
    exact (h.leaving halted.left).agree _
  | ok built =>
    rw [rebuild_of_ok hbuilt, rebuild_of_ok (hbuilding.trans hbuilt)]
    exact (h.holding built).persist.2.agree _

theorem Interchangeable.adopt (h : Interchangeable a b) (g : ImportGraph) :
    Interchangeable (a.adopt g) (b.adopt g) := by
  obtain ⟨hhost, hpages⟩ := h
  exact .intro hhost hpages

theorem agree_setUp (h : Interchangeable a b) (force : Bool) :
    Agree (a.setUp force) (b.setUp force) := by
  have hdetect : Project.detectFramework b.disk b.root = Project.detectFramework a.disk a.root := by
    rw [h.disk]
    obtain ⟨-, -⟩ := h
    rfl
  unfold setUp
  rw [hdetect]
  split
  · exact h.agree _
  · next framework _ =>
    -- from here on both have the framework that was found
    have hfound : Interchangeable { a with framework } { b with framework } := by
      obtain ⟨hhost, -⟩ := h
      exact .intro hhost fun _ => rfl
    have hload : Snapshot.load b.host ({ b with framework } : Session).key b.config.pruneStaleEdges =
        Snapshot.load a.host ({ a with framework } : Session).key a.config.pruneStaleEdges := by
      obtain ⟨hhost, -⟩ := h
      exact Snapshot.load_congr (hhost.download _) _
    dsimp only
    split
    · exact (agree_rebuild hfound.clearCache).map _
    · rw [hload]
      split
      · exact hfound.agree _
      · exact (hfound.adopt _).agree _
      · exact hfound.reset.agree _
      · exact (agree_rebuild hfound).map _

theorem agree_ensureInitialized (h : Interchangeable a b) :
    Agree a.ensureInitialized b.ensureInitialized := by
  have hinitialized : b.initialized = a.initialized := by
    obtain ⟨-, -⟩ := h
    rfl
  unfold ensureInitialized
  rw [hinitialized]
  split
  · exact h.agree _
  · exact agree_setUp h false

/-! ### Refreshing -/

theorem Interchangeable.replaceFact (h : Interchangeable a b) (file : String) (fact : FileFact) :
    Interchangeable (a.replaceFact file fact) (b.replaceFact file fact) := by
  obtain ⟨hhost, hpages⟩ := h
  exact .intro hhost hpages

theorem Interchangeable.markEntryPoints (h : Interchangeable a b) :
    Interchangeable { a with graph := a.graph.markEntryPoints }
      { b with graph := b.graph.markEntryPoints } := by
  obtain ⟨hhost, hpages⟩ := h
  exact .intro hhost hpages

/-- **Step by step.** File after file is refreshed alike. -/
theorem agree_refreshEach (h : Interchangeable a b) (paths : List String) :
    Agree (refreshEach paths a) (refreshEach paths b) := by
  induction paths generalizing a b with
  | nil => exact h.agree _
  | cons path rest ih =>
    unfold refreshEach
    rw [h.normalize]
    cases a.normalize path with
    | none => exact ih h
    | some file =>
      dsimp only
      rw [h.freshFact?]
      -- the same fact is replaced in both, and the rest is refreshed in what they are then
      cases a.freshFact? file with
      | error e => exact h.agree _
      | ok fact? =>
        cases fact? with
        | none => exact ih h
        | some fact => exact (ih (h.replaceFact file fact)).map _

theorem agree_refresh (h : Interchangeable a b) (paths : List String) :
    Agree (a.refresh paths) (b.refresh paths) := by
  refine (agree_ensureInitialized h).andThen fun _ c d hcd => ?_
  refine (agree_refreshEach hcd paths).andThen fun changed c d hcd => ⟨rfl, ?_⟩
  dsimp only
  split
  · exact hcd
  · exact hcd.markEntryPoints

theorem agree_takeBatch (h : Interchangeable a b) (patterns changed : List String) :
    Agree (a.takeBatch patterns changed) (b.takeBatch patterns changed) := by
  have hrelevant : Project.relevant b.root patterns changed =
      Project.relevant a.root patterns changed := by
    obtain ⟨-, -⟩ := h
    rfl
  unfold takeBatch
  rw [hrelevant]
  split
  · exact h.agree _
  · exact h.agree _
  · exact (agree_refresh h _).map _

/-! ### Component maps -/

theorem Interchangeable.withComponents (h : Interchangeable a b) (components : ComponentMaps) :
    Interchangeable { a with components } { b with components } := by
  obtain ⟨hhost, hpages⟩ := h
  exact .intro hhost hpages

theorem agree_prepareOnce (h : Interchangeable a b) : Agree a.prepareOnce b.prepareOnce := by
  have hprepare : b.components.prepare b.componentSource b.graph.routeFiles =
      a.components.prepare a.componentSource a.graph.routeFiles := by
    rw [h.components, h.componentSource, h.graph, ComponentMaps.prepare_under]
  unfold prepareOnce
  rw [hprepare]
  split
  · exact (h.withComponents _).agree _
  · exact (h.withComponents _).agree _

theorem agree_prepareComponents (h : Interchangeable a b) :
    Agree a.prepareComponents b.prepareComponents := by
  refine (agree_prepareOnce h).andThen fun changed c d hcd => ?_
  split
  · exact hcd.agree _
  · exact (agree_refresh hcd changed).andThen fun _ _ _ hafter => (agree_prepareOnce hafter).map _

theorem agree_servingIn (h : Interchangeable a b) (file routeFile : String) :
    Agree (a.servingIn file routeFile) (b.servingIn file routeFile) := by
  unfold servingIn
  rw [h.components, h.componentSource, ComponentMaps.localNameOf_under]
  split
  · exact h.agree _
  · next found _ =>
    -- the map of the route file may have been made just now
    have hfound := h.withComponents found.maps
    dsimp only
    split
    · exact hfound.agree _
    · have hsource : componentSource { b with components := found.maps } =
          (componentSource { a with components := found.maps }).under b.framework :=
        hfound.componentSource
      rw [hsource, ComponentMaps.mapRouteFile_under]
      split
      · exact hfound.agree _
      · exact (h.withComponents _).agree _

theorem agree_servingAmong (h : Interchangeable a b) (file : String) (routeFiles : List String) :
    Agree (servingAmong file routeFiles a) (servingAmong file routeFiles b) := by
  induction routeFiles generalizing a b with
  | nil => exact h.agree _
  | cons routeFile rest ih =>
    exact (agree_servingIn h file routeFile).andThen fun _ _ _ hcd => (ih hcd).map _

theorem agree_serving (h : Interchangeable a b) (file : String) :
    Agree (a.serving file) (b.serving file) := by
  unfold serving
  rw [h.graph]
  exact agree_servingAmong h file _

/-! ### Questions -/

theorem Interchangeable.impactOf (h : Interchangeable a b) (file : String) :
    (b.impactOf file).1 = (a.impactOf file).1 ∧
      Interchangeable (a.impactOf file).2 (b.impactOf file).2 := by
  obtain ⟨hhost, hpages⟩ := h
  exact ⟨rfl, .intro hhost hpages⟩

theorem agree_affected (h : Interchangeable a b) (precise : Bool) (file : String) :
    Agree (a.affected precise file) (b.affected precise file) := by
  obtain ⟨hroutes, hafter⟩ := h.impactOf file
  unfold affected
  dsimp only
  rw [hroutes]
  split
  · exact (agree_serving hafter file).andThen fun _ _ _ hcd => hcd.agree _
  · exact hafter.agree _

theorem agree_affectedEach (h : Interchangeable a b) (precise : Bool) (paths : List String)
    (found : OrderedMap (List String)) :
    Agree (affectedEach precise paths found a) (affectedEach precise paths found b) := by
  induction paths generalizing a b found with
  | nil => exact h.agree _
  | cons path rest ih =>
    unfold affectedEach
    rw [h.normalize]
    cases a.normalize path with
    | none => exact ih h found
    | some file => exact (agree_affected h precise file).andThen fun _ _ _ hcd => ih hcd _

theorem agree_detectRoutes (h : Interchangeable a b) (paths : List String) (precise : Bool) :
    Agree (a.detectRoutes paths precise) (b.detectRoutes paths precise) := by
  refine (agree_refresh h paths).andThen fun _ c d hcd => ?_
  refine Agree.andThen ?_ fun _ _ _ hafter => agree_affectedEach hafter precise paths _
  split
  · exact agree_prepareComponents hcd
  · exact hcd.agree _

theorem agree_infoEach (h : Interchangeable a b) (paths : List String)
    (found : OrderedMap RouteInfo) :
    (infoEach paths found b).1 = (infoEach paths found a).1 ∧
      Interchangeable (infoEach paths found a).2 (infoEach paths found b).2 := by
  induction paths generalizing a b found with
  | nil => exact ⟨rfl, h⟩
  | cons path rest ih =>
    unfold infoEach
    rw [h.normalize]
    cases a.normalize path with
    | none => exact ih h _
    | some file =>
      obtain ⟨hroutes, hafter⟩ := h.impactOf file
      have hinfo : (b.infoOf file).1 = (a.infoOf file).1 := by
        unfold infoOf
        dsimp only
        rw [hroutes, h.graph]
      dsimp only
      rw [hinfo]
      exact ih hafter _

theorem agree_routeInfo (h : Interchangeable a b) (paths : List String) :
    Agree (a.routeInfo paths) (b.routeInfo paths) := by
  refine (agree_refresh h paths).andThen fun _ c d hcd => ?_
  obtain ⟨hinfos, hafter⟩ := agree_infoEach hcd paths OrderedMap.empty
  exact ⟨congrArg Except.ok hinfos, hafter⟩

theorem agree_metrics (h : Interchangeable a b) : Agree a.metrics b.metrics := by
  refine (agree_ensureInitialized h).andThen fun _ c d hcd => ⟨?_, hcd⟩
  rw [hcd.graph]

theorem agree_routesServing (h : Interchangeable a b) (path : String) :
    Agree (a.routesServing path) (b.routesServing path) := by
  refine (agree_ensureInitialized h).andThen fun _ c d hcd => ?_
  rw [hcd.normalize]
  split
  · exact hcd.agree _
  · next file _ =>
    exact (agree_prepareComponents hcd).andThen fun _ _ _ hafter => agree_serving hafter file

/-! ### Histories -/

theorem Agree.answer {α : Type} {r r' : Outcome α} (h : Agree r r') (f : α → Answer) :
    r'.1.map f = r.1.map f := by
  rw [h.result]

/-- **Step.** Interchangeable sessions answer one operation alike and stay so, also when it
fails. -/
theorem interchangeable_apply (h : Interchangeable a b) (op : Operation) :
    b.answer op = a.answer op ∧ Interchangeable (a.apply op) (b.apply op) := by
  cases op with
  | setUp force => exact ⟨(agree_setUp h force).answer _, (agree_setUp h force).after⟩
  | rebuild => exact ⟨(agree_rebuild h).answer _, (agree_rebuild h).after⟩
  | refresh paths => exact ⟨(agree_refresh h paths).answer _, (agree_refresh h paths).after⟩
  | detectRoutes paths precise =>
    have hstep := agree_detectRoutes h paths precise
    exact ⟨hstep.answer _, hstep.after⟩
  | routeInfo paths => exact ⟨(agree_routeInfo h paths).answer _, (agree_routeInfo h paths).after⟩
  | routesServing path =>
    have hstep := agree_routesServing h path
    exact ⟨hstep.answer _, hstep.after⟩
  | metrics => exact ⟨(agree_metrics h).answer _, (agree_metrics h).after⟩
  | persist =>
    obtain ⟨hsaved, hafter⟩ := h.persist
    exact ⟨congrArg (fun saved => Except.ok (Answer.saved saved)) hsaved, hafter⟩
  | clearCache => exact ⟨rfl, h.clearCache⟩
  | takeBatch patterns changed =>
    have hstep := agree_takeBatch h patterns changed
    exact ⟨hstep.answer _, hstep.after⟩
  | edit disk =>
    obtain ⟨hhost, hpages⟩ := h
    exact ⟨rfl, .intro (hhost.withDisk disk) hpages⟩
  | wait now =>
    obtain ⟨hhost, hpages⟩ := h
    exact ⟨rfl, .intro hhost hpages⟩

/-- **Run.** They answer every history alike. -/
theorem answers_of_interchangeable (h : Interchangeable a b) (ops : List Operation) :
    b.answers ops = a.answers ops := by
  induction ops generalizing a b with
  | nil => rfl
  | cons op ops ih =>
    obtain ⟨hanswer, hafter⟩ := interchangeable_apply h op
    rw [answers, answers, hanswer, ih hafter]

end Session

end RouteImpact
