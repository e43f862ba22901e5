import RouteImpact.Proofs.Analysis.QueryOrder
import RouteImpact.Proofs.Graph.RoundTrip
import RouteImpact.Proofs.Project.BuildOrder

namespace RouteImpact

/-!
# What successful operations keep

A session that was set up is `Steady` between two operations: the edges of its graph belong
together, its facts are filed under their own paths, and the marks of entry points are those
of the present edges.  A build or a refresh that fails half way leaves wrong marks behind; one
that succeeds does not.

* `Session.answer`, `Session.answers` — what an operation, and what a history of them, is
  answered with;
* `Session.steady_setUp` — setting up makes a session steady, whether it builds a graph or
  loads one;
* `Session.Looked` — a question changes nothing but what is remembered;
* `Session.kept_apply` — an operation that succeeds keeps a session steady and leaves the
  project, the settings and the framework alone; `Session.kept_run` says so of a history.
-/

namespace ImportGraph

/-- Exact edges belong together. -/
theorem Exact.consistent {g : ImportGraph} (h : g.Exact) : g.Consistent :=
  fun a b hb => (h b a).2 hb

theorem Filed.upsert {g : ImportGraph} (h : g.Filed) {file : String} {fact : FileFact}
    (hpath : fact.path = file) : (g.upsert file fact).Filed :=
  @filed_apply g h (.upsert file fact) hpath

end ImportGraph

namespace Project

/-- The graph of a build holds the facts of some files. -/
theorem graph_of_build {d : Disk} {root : String} {x : Extractor} {now : Moment}
    {g : ImportGraph} {batch : Int} {b : Built} (h : build d root x now g none batch = .ok b) :
    ∃ files, b.graph = (addFacts (factOf d root x now) g files).markEntryPoints := by
  unfold build at h
  split at h
  · cases h
  · split at h
    · cases h
    · dsimp only at h
      split at h
      · cases h
      · next graph hrun =>
        cases h
        rw [foldlM_extractInto] at hrun
        obtain ⟨-, rfl⟩ := (extractInto_eq_ok fun _ _ => factOf_of_loadFact).1 hrun
        exact ⟨_, rfl⟩

end Project

namespace Session

variable {s t u : Session}

/-! ### Answers -/

/-- What an operation is answered with. -/
inductive Answer where
  | done
  | built (summary : Project.Summary)
  | changed (files : List String)
  | affected (routes : OrderedMap (List String))
  | told (infos : OrderedMap RouteInfo)
  | serving (routes : List ServingRoute)
  | measured (metrics : GraphMetrics)
  | saved (taken : Bool)
  | counted (refreshed : Nat)

/-- The answer to an operation, which may be a failure. -/
def answer (s : Session) : Operation → Except Failure Answer
  | .setUp force => (s.setUp force).1.map fun _ => .done
  | .rebuild => s.rebuild.1.map .built
  | .refresh paths => (s.refresh paths).1.map .changed
  | .detectRoutes paths precise => (s.detectRoutes paths precise).1.map .affected
  | .routeInfo paths => (s.routeInfo paths).1.map .told
  | .routesServing path => (s.routesServing path).1.map .serving
  | .metrics => s.metrics.1.map .measured
  | .persist => .ok (.saved s.persist.1)
  | .clearCache => .ok .done
  | .takeBatch patterns changed => (s.takeBatch patterns changed).1.map .counted
  | .edit _ => .ok .done
  | .wait _ => .ok .done

/-- The answers to one operation after the other. -/
def answers : Session → List Operation → List (Except Failure Answer)
  | _, [] => []
  | s, op :: ops => s.answer op :: (s.apply op).answers ops

/-- An operation with an answer has succeeded. -/
theorem ok_of_answer {α : Type} {r : Outcome α} {f : α → Answer}
    (h : (r.1.map f).isOk = true) : ∃ a, r = (.ok a, r.2) := by
  obtain ⟨result, t⟩ := r
  cases result with
  | error e => cases h
  | ok a => exact ⟨a, rfl⟩

/-! ### Steady sessions -/

/-- What a session has between two operations once it was set up. -/
structure Steady (s : Session) : Prop where
  initialized : s.initialized = true
  consistent : s.graph.Consistent
  filed : s.graph.Filed
  marked : s.graph.Marked
  prune : s.graph.prune = s.config.pruneStaleEdges

/-- Nothing that the analysis depends on has changed, and the session is steady. -/
structure Kept (s t : Session) : Prop where
  analysis : SameAnalysis s t
  steady : t.Steady

theorem Steady.kept (h : s.Steady) : Kept s s := ⟨SameAnalysis.refl s, h⟩

/-- What else changes does not matter. -/
theorem Steady.kept_of_frame (h : s.Steady) (hanalysis : SameAnalysis s t)
    (hinit : t.initialized = s.initialized) (hgraph : t.graph = s.graph) : Kept s t where
  analysis := hanalysis
  steady :=
    { initialized := hinit.trans h.initialized
      consistent := hgraph ▸ h.consistent
      filed := hgraph ▸ h.filed
      marked := hgraph ▸ h.marked
      prune := by rw [hgraph, hanalysis.config, h.prune] }

theorem Kept.trans (hst : Kept s t) (htu : Kept t u) : Kept s u :=
  ⟨hst.analysis.trans htu.analysis, htu.steady⟩

/-! ### Building and loading -/

theorem steady_built (hprune : s.graph.prune = s.config.pruneStaleEdges) (files : List String)
    (summary : Project.Summary) : (s.built files summary).Steady where
  initialized := rfl
  consistent := (reflects_built s files summary).2.1.consistent
  filed := by
    intro x f hf
    rw [fact?_built] at hf
    split at hf
    · cases hf
      exact Project.path_factOf ..
    · cases hf
  marked := (reflects_built s files summary).2.2.2
  prune := by
    rw [graph_built]
    show (Project.addFacts s.factNow { prune := s.graph.prune } files).prune = _
    rw [Project.prune_addFacts]
    exact hprune

/-- A build that succeeded has put the facts of some files into an empty graph. -/
theorem built_of_rebuild {summary : Project.Summary} (h : s.rebuild = (.ok summary, t)) :
    ∃ files, t = s.built files summary := by
  unfold rebuild at h
  dsimp only at h
  split at h
  · cases h
  · next b hbuild =>
    obtain ⟨files, hgraph⟩ := Project.graph_of_build hbuild
    cases h
    refine ⟨files, ?_⟩
    rw [hgraph]
    rfl

theorem kept_rebuild (h : s.Steady) {summary : Project.Summary}
    (hrun : s.rebuild = (.ok summary, t)) : Kept s t := by
  obtain ⟨files, rfl⟩ := built_of_rebuild hrun
  exact ⟨sameAnalysis_built s files summary, steady_built h.prune files summary⟩

/-- Loading repairs the edges, files the facts and marks the entry points. -/
theorem steady_adopt (hprune : s.graph.prune = s.config.pruneStaleEdges) (g : ImportGraph) :
    (s.adopt g).Steady where
  initialized := rfl
  consistent := ImportGraph.consistent_markEntryPoints (ImportGraph.consistent_load _ _ _)
  filed := by
    have hempty : s.reset.graph.Filed := fun _ _ hf => by cases hf
    exact @ImportGraph.filed_apply _ hempty (.load g.nodes.entries g.facts.values) trivial
  marked := ImportGraph.Marked.markEntryPoints _
  prune := hprune

/-- **Setting up** makes a session steady and finds the framework of the project. -/
theorem steady_setUp (hprune : s.graph.prune = s.config.pruneStaleEdges) {force : Bool}
    (h : s.setUp force = (.ok (), t)) :
    t.Steady ∧ t.root = s.root ∧ t.config = s.config ∧
      Project.detectFramework s.disk s.root = .ok t.framework := by
  unfold setUp at h
  split at h
  · cases h
  · next framework hframework =>
    -- the framework is noted first, whatever comes then
    have hnoted : ({ s with framework } : Session).graph.prune =
        ({ s with framework } : Session).config.pruneStaleEdges := hprune
    dsimp only at h
    split at h
    · obtain ⟨summary, hrebuild, -⟩ := Outcome.of_map h
      obtain ⟨files, rfl⟩ := built_of_rebuild hrebuild
      exact ⟨steady_built (s := s.cleared framework) hnoted files summary, rfl, rfl, hframework⟩
    · split at h
      · cases h
      · cases h
        exact ⟨steady_adopt hnoted _, rfl, rfl, hframework⟩
      · cases h
      · obtain ⟨summary, hrebuild, -⟩ := Outcome.of_map h
        obtain ⟨files, rfl⟩ := built_of_rebuild hrebuild
        exact ⟨steady_built hnoted files summary, rfl, rfl, hframework⟩

/-! ### Refreshing -/

/-- A session that is set up is not set up again. -/
theorem ensureInitialized_eq (h : s.initialized = true) : s.ensureInitialized = (.ok (), s) := by
  unfold ensureInitialized
  rw [if_pos h]

/-- A refresh that succeeded has put facts that the files would get into the graph. -/
theorem of_refresh {paths changed : List String} (hinit : s.initialized = true)
    (h : s.refresh paths = (.ok changed, t)) :
    ∃ u, t = u.settled changed ∧ Remembers s u ∧
      u.graph = Project.addFacts s.factNow s.graph changed := by
  rw [refresh_eq (ensureInitialized_eq hinit)] at h
  obtain ⟨files, u, hrun, h⟩ := Outcome.of_andThen h
  cases h
  replace hrun := refreshes_iff.1 hrun
  exact ⟨u, rfl, hrun.remembers, hrun.graph⟩

theorem kept_refresh (h : s.Steady) {paths changed : List String}
    (hrun : s.refresh paths = (.ok changed, t)) : Kept s t := by
  obtain ⟨u, rfl, hu, hgraph⟩ := of_refresh h.initialized hrun
  -- the facts come in one by one, each under the path of its file
  have hstep : u.graph.Consistent ∧ u.graph.Filed := by
    rw [hgraph]
    refine Project.addFacts_induction (P := fun g => g.Consistent ∧ g.Filed)
      ⟨h.consistent, h.filed⟩ ?_
    rintro g file - ⟨hedges, hfiled⟩
    exact ⟨ImportGraph.consistent_upsert hedges file _,
      hfiled.upsert (Project.path_factOf ..)⟩
  have hprune : u.graph.prune = u.config.pruneStaleEdges := by
    rw [hgraph, Project.prune_addFacts, hu.sameAnalysis.config]
    exact h.prune
  have hinit : u.initialized = true := by
    rw [hu]
    exact h.initialized
  refine ⟨hu.sameAnalysis.trans (sameAnalysis_settled u changed), ?_⟩
  unfold settled
  cases changed with
  | nil =>
    -- no fact has come, so the marks are still right
    have hsame : u.graph = s.graph := hgraph
    exact ⟨hinit, hstep.1, hstep.2, hsame ▸ h.marked, hprune⟩
  | cons file rest =>
    exact ⟨hinit, ImportGraph.consistent_markEntryPoints hstep.1, hstep.2,
      ImportGraph.Marked.markEntryPoints _, hprune⟩

/-! ### Looking things up -/

/-- Nothing but the remembered answers and component maps has changed. -/
def Looked (s t : Session) : Prop := t = { s with impact := t.impact, components := t.components }

theorem Looked.refl (s : Session) : Looked s s := rfl

theorem Looked.trans (hst : Looked s t) (htu : Looked t u) : Looked s u := by
  rw [Looked, htu, hst]

theorem Looked.kept (h : s.Steady) (hst : Looked s t) : Kept s t := by
  rw [hst]
  exact h.kept_of_frame ⟨rfl, rfl, rfl⟩ rfl rfl

theorem looked_andThen {α β : Type} {r : Outcome α} {f : α → Session → Outcome β}
    (hr : Looked s r.2) (hf : ∀ a t, Looked t (f a t).2) : Looked s (r.andThen f).2 :=
  Outcome.andThen_induction hr fun a t _ ht => ht.trans (hf a t)

theorem looked_prepareOnce (s : Session) : Looked s s.prepareOnce.2 := by
  unfold prepareOnce
  split <;> rfl

theorem looked_servingIn (s : Session) (file routeFile : String) :
    Looked s (s.servingIn file routeFile).2 := by
  unfold servingIn
  split
  · rfl
  · dsimp only
    split
    · rfl
    · split <;> rfl

theorem looked_servingAmong (file : String) (routeFiles : List String) (s : Session) :
    Looked s (servingAmong file routeFiles s).2 := by
  induction routeFiles generalizing s with
  | nil => rfl
  | cons routeFile rest ih =>
    refine looked_andThen (looked_servingIn s file routeFile) fun _ t => ?_
    exact looked_andThen (ih t) fun _ u => Looked.refl u

theorem looked_affected (s : Session) (precise : Bool) (file : String) :
    Looked s (s.affected precise file).2 := by
  have hasked : Looked s (s.impactOf file).2 := rfl
  refine hasked.trans ?_
  unfold affected
  dsimp only
  split
  · exact looked_andThen (looked_servingAmong file _ _) fun _ t => Looked.refl t
  · rfl

theorem looked_affectedEach (precise : Bool) (paths : List String)
    (found : OrderedMap (List String)) (s : Session) :
    Looked s (affectedEach precise paths found s).2 := by
  induction paths generalizing found s with
  | nil => rfl
  | cons path rest ih =>
    unfold affectedEach
    split
    · exact ih found s
    · exact looked_andThen (looked_affected s precise _) fun _ t => ih _ t

theorem looked_infoEach (paths : List String) (found : OrderedMap RouteInfo) (s : Session) :
    Looked s (infoEach paths found s).2 := by
  induction paths generalizing found s with
  | nil => rfl
  | cons path rest ih =>
    unfold infoEach
    split
    · exact ih _ s
    · next file _ =>
      have hasked : Looked s (s.infoOf file).2 := rfl
      exact hasked.trans (ih _ _)

/-! ### Questions -/

/-- Route files with a new text are refreshed while the component maps are made. -/
theorem kept_prepareComponents (h : s.Steady) (hrun : s.prepareComponents = (.ok (), t)) :
    Kept s t := by
  obtain ⟨changed, u, honce, hrest⟩ := Outcome.of_andThen hrun
  have hlooked : Looked s u := by
    have := looked_prepareOnce s
    rwa [honce] at this
  have hu := hlooked.kept h
  split at hrest
  · cases hrest
    exact hu
  · obtain ⟨files, v, hrefresh, hagain⟩ := Outcome.of_andThen hrest
    have hv := hu.trans (kept_refresh hu.steady hrefresh)
    obtain ⟨_, hlast, -⟩ := Outcome.of_map hagain
    have hlooked' : Looked v t := by
      have := looked_prepareOnce v
      rwa [hlast] at this
    exact hv.trans (hlooked'.kept hv.steady)

theorem kept_detectRoutes (h : s.Steady) {paths : List String} {precise : Bool}
    {found : OrderedMap (List String)} (hrun : s.detectRoutes paths precise = (.ok found, t)) :
    Kept s t := by
  obtain ⟨changed, u, hrefresh, hrest⟩ := Outcome.of_andThen hrun
  have hu := kept_refresh h hrefresh
  obtain ⟨_, v, hprepared, heach⟩ := Outcome.of_andThen hrest
  have hv : Kept s v := by
    split at hprepared
    · exact hu.trans (kept_prepareComponents hu.steady hprepared)
    · cases hprepared
      exact hu
  have hlooked : Looked v t := by
    have := looked_affectedEach precise paths OrderedMap.empty v
    rwa [heach] at this
  exact hv.trans (hlooked.kept hv.steady)

theorem kept_routeInfo (h : s.Steady) {paths : List String} {infos : OrderedMap RouteInfo}
    (hrun : s.routeInfo paths = (.ok infos, t)) : Kept s t := by
  obtain ⟨changed, u, hrefresh, hrest⟩ := Outcome.of_andThen hrun
  have hu := kept_refresh h hrefresh
  have hlooked : Looked u t := by
    have := looked_infoEach paths OrderedMap.empty u
    rwa [show (infoEach paths OrderedMap.empty u).2 = t from congrArg Prod.snd hrest] at this
  exact hu.trans (hlooked.kept hu.steady)

theorem kept_routesServing (h : s.Steady) {path : String} {found : List ServingRoute}
    (hrun : s.routesServing path = (.ok found, t)) : Kept s t := by
  unfold routesServing at hrun
  rw [ensureInitialized_eq h.initialized] at hrun
  dsimp only [Outcome.andThen] at hrun
  split at hrun
  · cases hrun
    exact h.kept
  · next file _ =>
    obtain ⟨_, u, hprepared, hserving⟩ := Outcome.of_andThen hrun
    have hu := kept_prepareComponents h hprepared
    have hlooked : Looked u t := by
      have := looked_servingAmong file u.graph.routeFiles u
      rwa [show servingAmong file u.graph.routeFiles u = _ from hserving] at this
    exact hu.trans (hlooked.kept hu.steady)

/-! ### Persisting and watching -/

theorem kept_persist (h : s.Steady) : Kept s s.persist.2 :=
  h.kept_of_frame ⟨rfl, rfl, rfl⟩ rfl rfl

theorem kept_takeBatch (h : s.Steady) {patterns changed : List String} {count : Nat}
    (hrun : s.takeBatch patterns changed = (.ok count, t)) : Kept s t := by
  unfold takeBatch at hrun
  split at hrun
  · cases hrun
  · cases hrun
    exact h.kept
  · obtain ⟨refreshed, hrefresh, -⟩ := Outcome.of_map hrun
    exact kept_refresh h hrefresh

/-! ### All operations -/

/-- Operations on a session that stays set up: all but those that start over. -/
def Operation.Ordinary : Operation → Prop
  | .setUp _ | .clearCache => False
  | _ => True

/-- **Step.** An operation that succeeds keeps a session steady. -/
theorem kept_apply (h : s.Steady) {op : Operation} (hop : op.Ordinary)
    (hok : (s.answer op).isOk = true) : Kept s (s.apply op) := by
  cases op with
  | setUp | clearCache => exact hop.elim
  | rebuild =>
    obtain ⟨_, hrun⟩ := ok_of_answer hok
    exact kept_rebuild h hrun
  | refresh paths =>
    obtain ⟨_, hrun⟩ := ok_of_answer hok
    exact kept_refresh h hrun
  | detectRoutes paths precise =>
    obtain ⟨_, hrun⟩ := ok_of_answer hok
    exact kept_detectRoutes h hrun
  | routeInfo paths =>
    obtain ⟨_, hrun⟩ := ok_of_answer hok
    exact kept_routeInfo h hrun
  | routesServing path =>
    obtain ⟨_, hrun⟩ := ok_of_answer hok
    exact kept_routesServing h hrun
  | takeBatch patterns changed =>
    obtain ⟨_, hrun⟩ := ok_of_answer hok
    exact kept_takeBatch h hrun
  | metrics =>
    have hsame : s.metrics.2 = s := by
      unfold metrics
      rw [ensureInitialized_eq h.initialized]
      rfl
    show Kept s s.metrics.2
    rw [hsame]
    exact h.kept
  | persist => exact kept_persist h
  | edit disk => exact h.kept_of_frame ⟨rfl, rfl, rfl⟩ rfl rfl
  | wait now => exact h.kept_of_frame ⟨rfl, rfl, rfl⟩ rfl rfl

/-- **Run.** So does a history of them. -/
theorem kept_run (h : s.Steady) {ops : List Operation} (hops : ∀ op ∈ ops, op.Ordinary)
    (hok : ∀ r ∈ s.answers ops, r.isOk = true) : Kept s (s.run ops) := by
  induction ops generalizing s with
  | nil => exact h.kept
  | cons op ops ih =>
    have hstep := kept_apply h (hops op (by simp)) (hok _ List.mem_cons_self)
    exact hstep.trans (ih hstep.steady (fun o ho => hops o (by simp [ho]))
      fun r hr => hok r (List.mem_cons_of_mem _ hr))

end Session

end RouteImpact
