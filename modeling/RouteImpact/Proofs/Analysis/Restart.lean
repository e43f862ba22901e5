import RouteImpact.Proofs.Analysis.Upkeep
import RouteImpact.Proofs.Store.Retrieval

namespace RouteImpact

/-!
# A restart does not show

A session that has just persisted its graph can be given up for a new one that loads it: from
then on the two answer every plain question alike, however the files change.  The old session
remembers answers and component maps, the new one nothing, and the moments of the loaded
facts may be others; none of this shows.

* `Session.Twin` — two sessions on one project whose graphs are alike;
* `Session.Lockstep` — outcomes with the same result that leave twins behind;
  `lockstep_refresh`, `lockstep_detectRoutes`, … — one operation on twins is such a pair;
* `Session.answers_of_twin` — hence twins answer every history of plain questions alike;
* `Session.twin_of_persist` — the session that has persisted its graph and the one that has
  loaded it are twins;
* `Session.answers_of_restart` — the whole, from the first session's start on.
-/

namespace ImportGraph

/-- Marking again what is marked changes nothing. -/
theorem Marked.node?_markEntryPoints {g : ImportGraph} (h : g.Marked) (x : String) :
    g.markEntryPoints.node? x = g.node? x := by
  rw [ImportGraph.node?_markEntryPoints]
  cases hn : g.node? x with
  | none => rfl
  | some n =>
    rw [Option.map_some, ← h x n hn]

/-- **Reading and loading.** A graph that is written, read and loaded is alike to what it
was. -/
theorem alike_load {g g' start : ImportGraph} (hedges : g.Consistent) (hfiled : g.Filed)
    (hmarked : g.Marked) (hprune : start.prune = g.prune)
    (hnode : ∀ x, g'.node? x = g.node? x)
    (hfact : ∀ x, g'.fact? x = (g.fact? x).map Document.redated) :
    g.Alike (start.load g'.nodes.entries g'.facts.values).markEntryPoints where
  prune := hprune.symm
  node := by
    intro x
    have hedges' : g'.Consistent := by
      intro a b hb
      rw [importsOf, hnode] at hb
      rw [importersOf, hnode]
      exact hedges a b hb
    -- loading adds no reverse edge that is not there, and marking finds the marks right
    rw [node?_markEntryPoints, node?_load_of_perm hedges' start (List.Perm.refl _), hnode,
      ← node?_markEntryPoints, hmarked.node?_markEntryPoints]
  facts := by
    intro x
    have hfiled' : g'.Filed := by
      intro y f hf
      rw [hfact] at hf
      obtain ⟨old, hold, rfl⟩ := Option.map_eq_some_iff.1 hf
      exact hfiled y old hold
    rw [fact?_markEntryPoints, fact?_load_of_perm hfiled' _ _ (List.Perm.refl _), hfact,
      Option.map_map]
    rfl

end ImportGraph

namespace Session

variable {limit : Option Int} {s a b a' b' : Session}

/-! ### Twins -/

/-- Two sessions that are set up on one project, with graphs that are alike and remembered
answers that are right. -/
structure Twin (limit : Option Int) (a b : Session) : Prop where
  analysis : SameAnalysis a b
  disk : b.disk = a.disk
  initialized : a.initialized = true ∧ b.initialized = true
  graph : a.graph.Alike b.graph
  coherent : CoherentAt limit a ∧ CoherentAt limit b

theorem Twin.normalize (h : Twin limit a b) : b.normalize = a.normalize := by
  funext path
  rw [Session.normalize, Session.normalize, h.analysis.root]

theorem Twin.replaceFact (h : Twin limit a b) {file : String} {fact fact' : FileFact}
    (hfact : fact.undated = fact'.undated) :
    Twin limit (a.replaceFact file fact) (b.replaceFact file fact') where
  analysis := ⟨h.analysis.root, h.analysis.config, h.analysis.framework⟩
  disk := h.disk
  initialized := h.initialized
  graph := h.graph.upsert hfact
  coherent :=
    ⟨coherentAt_step _ _ (.replaceFact a file fact) h.coherent.1,
      coherentAt_step _ _ (.replaceFact b file fact') h.coherent.2⟩

theorem Twin.markEntryPoints (h : Twin limit a b) :
    Twin limit { a with graph := a.graph.markEntryPoints }
      { b with graph := b.graph.markEntryPoints } where
  analysis := ⟨h.analysis.root, h.analysis.config, h.analysis.framework⟩
  disk := h.disk
  initialized := h.initialized
  graph := h.graph.markEntryPoints
  coherent :=
    ⟨coherentAt_step _ _ (.markEntryPoints a) h.coherent.1,
      coherentAt_step _ _ (.markEntryPoints b) h.coherent.2⟩

/-- What twins remember is their own affair. -/
theorem Twin.asked (h : Twin limit a b) (ha : Asked limit a a') (hb : Asked limit b b') :
    Twin limit a' b' := by
  refine ⟨?_, ?_, ?_, ?_, ha.coherent, hb.coherent⟩
  · rw [ha.frame, hb.frame]
    exact ⟨h.analysis.root, h.analysis.config, h.analysis.framework⟩
  · rw [ha.frame, hb.frame]
    exact h.disk
  · rw [ha.frame, hb.frame]
    exact h.initialized
  · rw [ha.frame, hb.frame]
    exact h.graph

/-! ### Side by side -/

/-- The same result, and twins afterwards. -/
structure Lockstep {α : Type} (limit : Option Int) (r r' : Outcome α) : Prop where
  result : r.1 = r'.1
  twin : Twin limit r.2 r'.2

theorem Lockstep.andThen {α β : Type} {r r' : Outcome α} {f : α → Session → Outcome β}
    (h : Lockstep limit r r') (hf : ∀ x a b, Twin limit a b → Lockstep limit (f x a) (f x b)) :
    Lockstep limit (r.andThen f) (r'.andThen f) := by
  obtain ⟨result, a⟩ := r
  obtain ⟨result', b⟩ := r'
  obtain ⟨rfl, htwin⟩ := h
  cases result with
  | error e => exact ⟨rfl, htwin⟩
  | ok x => exact hf x a b htwin

theorem Lockstep.map {α β : Type} {r r' : Outcome α} (f : α → β) (h : Lockstep limit r r') :
    Lockstep limit (Outcome.map f r) (Outcome.map f r') :=
  h.andThen fun _ _ _ htwin => ⟨rfl, htwin⟩

/-! ### Refreshing -/

/-- Twins find news in the same files, or fail alike. -/
theorem isSome_freshFact? (h : Twin limit a b) (file : String) :
    (b.freshFact? file).map Option.isSome = (a.freshFact? file).map Option.isSome := by
  have hread : b.read file = a.read file := by
    rw [read, read, h.disk, h.analysis.root, h.analysis.config]
  -- a fact shows its hash, whatever its date
  have hheld : ∀ p : FileFact → Bool, (∀ fact, p fact.undated = p fact) →
      ((b.graph.fact? file).all p = (a.graph.fact? file).all p ∧
        (b.graph.fact? file).any p = (a.graph.fact? file).any p) := by
    intro p hp
    have hall : ∀ o : Option FileFact, o.all p = o.elim true p := fun o => by cases o <;> rfl
    have hany : ∀ o : Option FileFact, o.any p = o.elim false p := fun o => by cases o <;> rfl
    rw [hall, hall, hany, hany, h.graph.facts.elim true p hp, h.graph.facts.elim false p hp]
    exact ⟨rfl, rfl⟩
  unfold freshFact?
  rw [hread]
  cases a.read file with
  | error e => rfl
  | ok found =>
    cases found with
    | none =>
      simp only [bind, Except.bind, pure, Except.pure, Except.map,
        (hheld (·.contentHash == "") fun _ => rfl).1]
      split <;> rfl
    | some text =>
      simp only [bind, Except.bind, pure, Except.pure,
        (hheld (·.contentHash == Digest.contentHash text) fun _ => rfl).2]
      split
      · rfl
      · -- whether a fact can be extracted does not depend on the moment
        rw [extractor_of_disk h.analysis h.disk]
        unfold Extractor.extract
        cases a.extractor.resolver.resolveEach file (a.extractor.specifiersOf file text) <;> rfl

/-- **Step by step.** Twins refresh one file after the other alike, also when they fail half
way. -/
theorem lockstep_refreshEach (h : Twin limit a b) (paths : List String) :
    Lockstep limit (refreshEach paths a) (refreshEach paths b) := by
  induction paths generalizing a b with
  | nil => exact ⟨rfl, h⟩
  | cons path rest ih =>
    unfold refreshEach
    rw [h.normalize]
    cases a.normalize path with
    | none => exact ih h
    | some file =>
      have hkind := isSome_freshFact? h file
      dsimp only
      cases ha : a.freshFact? file with
      | error e =>
        cases hb : b.freshFact? file with
        | error e' =>
          rw [ha, hb] at hkind
          cases hkind
          exact ⟨rfl, h⟩
        | ok fact? =>
          rw [ha, hb] at hkind
          cases hkind
      | ok fact? =>
        cases hb : b.freshFact? file with
        | error e =>
          rw [ha, hb] at hkind
          cases hkind
        | ok fact?' =>
          rw [ha, hb] at hkind
          have hsome : fact?'.isSome = fact?.isSome := Except.ok.inj hkind
          cases fact? with
          | none =>
            rw [Option.isSome_none, Option.isSome_eq_false_iff, Option.isNone_iff_eq_none] at hsome
            rw [hsome]
            exact ih h
          | some fact =>
            obtain ⟨fact', rfl⟩ := Option.isSome_iff_exists.1 hsome
            -- both facts are those that the file would get, at different moments perhaps
            have hfact : fact.undated = fact'.undated := by
              rw [freshFact?_eq_some ha, freshFact?_eq_some hb,
                undated_factNow_of_disk h.analysis h.disk]
            exact (ih (h.replaceFact hfact)).map _

theorem lockstep_refresh (h : Twin limit a b) (paths : List String) :
    Lockstep limit (a.refresh paths) (b.refresh paths) := by
  rw [refresh_eq (ensureInitialized_eq h.initialized.1),
    refresh_eq (ensureInitialized_eq h.initialized.2)]
  refine (lockstep_refreshEach h paths).andThen fun changed c d hcd => ⟨rfl, ?_⟩
  dsimp only
  split
  · exact hcd
  · exact hcd.markEntryPoints

/-! ### Questions -/

theorem lockstep_detectRoutes (h : Twin limit a b) (paths : List String) :
    Lockstep limit (a.detectRoutes paths false) (b.detectRoutes paths false) := by
  refine (lockstep_refresh h paths).andThen fun _ c d hcd => ?_
  show Lockstep limit (affectedEach false paths OrderedMap.empty c)
    (affectedEach false paths OrderedMap.empty d)
  -- after the refresh the answers are read off the graph, so what is remembered does not matter
  obtain ⟨c', hc, hcc⟩ := affectedEach_plain hcd.coherent.1 paths OrderedMap.empty
  obtain ⟨d', hd, hdd⟩ := affectedEach_plain hcd.coherent.2 paths OrderedMap.empty
  have hroutes : c.routesFor = d.routesFor := by
    funext p
    exact routesFor_congr hcd.analysis.symm.root hcd.analysis.symm.config hcd.graph p
  rw [hc, hd]
  refine ⟨?_, hcd.asked hcc hdd⟩
  rw [reported, reported, hroutes]

theorem lockstep_routeInfo (h : Twin limit a b) (paths : List String) :
    Lockstep limit (a.routeInfo paths) (b.routeInfo paths) := by
  refine (lockstep_refresh h paths).andThen fun _ c d hcd => ?_
  obtain ⟨c', hc, hcc⟩ := infoEach_eq hcd.coherent.1 paths OrderedMap.empty
  obtain ⟨d', hd, hdd⟩ := infoEach_eq hcd.coherent.2 paths OrderedMap.empty
  have hinfos : c.infoFor = d.infoFor := by
    funext p
    exact infoFor_congr hcd.analysis.symm.root hcd.analysis.symm.config hcd.graph p
  simp only [hc, hd]
  refine ⟨?_, hcd.asked hcc hdd⟩
  rw [hinfos]

theorem lockstep_metrics (h : Twin limit a b) : Lockstep limit a.metrics b.metrics := by
  unfold metrics
  rw [ensureInitialized_eq h.initialized.1, ensureInitialized_eq h.initialized.2]
  refine ⟨?_, h⟩
  have hnodes := h.graph.toSameNodes
  dsimp only [Outcome.andThen]
  rw [hnodes.size, hnodes.routeFiles, hnodes.entryPoints, hnodes.edgeCount]

/-! ### Histories of plain questions -/

/-- What is asked of twins: plain questions, with changes of the files and time between. -/
def Operation.Plain : Operation → Prop
  | .refresh _ | .detectRoutes _ false | .routeInfo _ | .metrics | .edit _ | .wait _ => True
  | _ => False

theorem Lockstep.answer {α : Type} {r r' : Outcome α} (h : Lockstep limit r r')
    (f : α → Answer) : r.1.map f = r'.1.map f := by
  rw [h.result]

/-- **Step.** Twins answer one operation alike and stay twins, also when it fails. -/
theorem twin_apply (h : Twin limit a b) {op : Operation} (hop : op.Plain) :
    a.answer op = b.answer op ∧ Twin limit (a.apply op) (b.apply op) := by
  cases op with
  | refresh paths =>
    have hstep := lockstep_refresh h paths
    exact ⟨hstep.answer _, hstep.twin⟩
  | detectRoutes paths precise =>
    cases precise with
    | true => exact hop.elim
    | false =>
      have hstep := lockstep_detectRoutes h paths
      exact ⟨hstep.answer _, hstep.twin⟩
  | routeInfo paths =>
    have hstep := lockstep_routeInfo h paths
    exact ⟨hstep.answer _, hstep.twin⟩
  | metrics =>
    have hstep := lockstep_metrics h
    exact ⟨hstep.answer _, hstep.twin⟩
  | edit disk =>
    refine ⟨rfl, ⟨h.analysis.root, h.analysis.config, h.analysis.framework⟩, rfl,
      h.initialized, h.graph, ?_⟩
    exact ⟨coherentAt_steps h.coherent.1 (steps_apply a (.edit disk)),
      coherentAt_steps h.coherent.2 (steps_apply b (.edit disk))⟩
  | wait now =>
    refine ⟨rfl, ⟨h.analysis.root, h.analysis.config, h.analysis.framework⟩, h.disk,
      h.initialized, h.graph, ?_⟩
    exact ⟨coherentAt_steps h.coherent.1 (steps_apply a (.wait now)),
      coherentAt_steps h.coherent.2 (steps_apply b (.wait now))⟩
  | setUp | rebuild | routesServing | persist | clearCache | takeBatch => exact hop.elim

/-- **Run.** Twins answer every history alike. -/
theorem answers_of_twin (h : Twin limit a b) {ops : List Operation}
    (hops : ∀ op ∈ ops, op.Plain) : a.answers ops = b.answers ops := by
  induction ops generalizing a b with
  | nil => rfl
  | cons op ops ih =>
    obtain ⟨hanswer, htwin⟩ := twin_apply h (hops op (by simp))
    rw [answers, answers, hanswer, ih htwin fun o ho => hops o (by simp [ho])]

/-! ### Restarting -/

/-- A store that has taken a graph is all that persisting changes. -/
theorem of_persist (h : s.persist = (true, a)) :
    ∃ host, Snapshot.save s.host s.key s.now s.graph = (true, host) ∧ a = { s with host } := by
  rcases hsave : Snapshot.save s.host s.key s.now s.graph with ⟨taken, host⟩
  unfold persist at h
  rw [hsave] at h
  cases h
  exact ⟨host, rfl, rfl⟩

theorem persist_eq (h : s.persist.1 = true) : s.persist = (true, s.persist.2) := Prod.ext h rfl

/-- A graph that can be loaded is taken over. -/
theorem setUp_of_load {framework : String} {g : ImportGraph}
    (hframework : Project.detectFramework s.disk s.root = .ok framework)
    (hload : Snapshot.load s.host s.key s.config.pruneStaleEdges = .ok (some (.graph g))) :
    s.setUp false = (.ok (), { s with framework }.adopt g) := by
  have hload' : Snapshot.load s.host ({ s with framework } : Session).key
      s.config.pruneStaleEdges = .ok (some (.graph g)) := hload
  unfold setUp
  rw [hframework]
  dsimp only
  rw [if_neg Bool.false_ne_true, hload']

/-- **Persisting and loading.** A session that was set up persists its graph, and a new one
on the same project and store loads it: then the two are twins. -/
theorem twin_of_persist (h : s.Steady) (hs : CoherentAt limit s) (hsaved : s.persist = (true, a))
    (hlegible : ∀ f ∈ s.graph.facts.values, Document.Legible f) (hb : CoherentAt limit b)
    (hroot : b.root = s.root) (hconfig : b.config = s.config) (hhost : b.host = a.host)
    (hprune : b.graph.prune = b.config.pruneStaleEdges)
    (hframework : Project.detectFramework a.disk s.root = .ok s.framework) :
    ∃ b', b.setUp false = (.ok (), b') ∧ Twin limit a b' := by
  obtain ⟨g, hread, -, hnode, hfact⟩ := ImportGraph.exists_decodeBytes_redated h.consistent
    h.filed hlegible b.config.pruneStaleEdges s.now
  obtain ⟨host, hsave, rfl⟩ := of_persist hsaved
  -- the store gives back what it took, so the new session need not build
  have hload : Snapshot.load b.host b.key b.config.pruneStaleEdges = .ok (some (.graph g)) := by
    have hkey : b.key = s.key := by rw [key, key, hroot, hconfig]
    rw [hhost, hkey]
    exact Snapshot.load_of_save hsave hread
  have hdetected : Project.detectFramework b.disk b.root = .ok s.framework := by
    rw [disk, hhost, hroot]
    exact hframework
  have hsetUp := setUp_of_load hdetected hload
  refine ⟨_, hsetUp, ⟨hroot, hconfig, rfl⟩, congrArg Host.disk hhost, ⟨h.initialized, rfl⟩, ?_, ?_⟩
  · refine ImportGraph.alike_load h.consistent h.filed h.marked ?_ hnode hfact
    show b.graph.prune = s.graph.prune
    rw [hprune, hconfig, h.prune]
  · refine ⟨coherentAt_steps hs ?_, coherentAt_steps hb ?_⟩
    · exact steps_frame rfl rfl rfl
    · have hsteps := steps_setUp b false
      rwa [hsetUp] at hsteps

/-- **A restart does not show.**  Take a session that was set up, by force or not, and any
history of operations on it, of edits and of passing time, in which nothing fails and which
ends with persisting the graph.  A new session with the same settings, on the files and the
store as they are then, is set up without a build of its own, provided that the manifest and
the configuration files of the project say what they said at first and that no line number
has more digits than are read.  From then on the two sessions answer alike, failures
included, whatever plain questions are asked and however the files change. -/
theorem answers_of_restart {root : String} {config : Settings.Config} {host : Host}
    {now : Moment} {s₀ : Session} (hstart : start root config host now = .ok s₀)
    (force : Bool) {ops : List Operation} (hops : ∀ op ∈ ops, op.Ordinary)
    (hok : ∀ r ∈ s₀.answers (.setUp force :: ops), r.isOk = true)
    (hsaved : (s₀.run (.setUp force :: ops)).persist = (true, a))
    (hlegible : ∀ f ∈ a.graph.facts.values, Document.Legible f)
    (hsettings : ∀ name ∈ "package.json" :: Project.configurationFiles,
      host.disk.text? (Path.append root name) = a.disk.text? (Path.append root name))
    (now' : Moment) :
    ∃ b₀ b, start root config a.host now' = .ok b₀ ∧ b₀.setUp false = (.ok (), b) ∧
      ∀ further : List Operation, (∀ op ∈ further, op.Plain) →
        a.answers further = b.answers further := by
  have hcoherent : CoherentAt config.earlyStopDepth (s₀.run (.setUp force :: ops)) :=
    run_induction (fun s t => coherentAt_step s t) (coherentAt_start hstart) _
  -- the first session is steady from its setting up to the moment when it persists its graph
  obtain ⟨_, hsetUp⟩ := ok_of_answer (hok _ List.mem_cons_self)
  have hs₀ := started_of_start hstart
  have hprune : s₀.graph.prune = s₀.config.pruneStaleEdges :=
    hs₀.prune.trans hs₀.pruneStaleEdges.symm
  obtain ⟨hsteady, hroot, hconfig, hframework⟩ := steady_setUp hprune hsetUp
  have hkept : Kept (s₀.setUp force).2 (s₀.run (.setUp force :: ops)) :=
    kept_run hsteady hops fun r hr => hok r (List.mem_cons_of_mem _ hr)
  generalize s₀.run (.setUp force :: ops) = s at hcoherent hsaved hkept
  have hgraph : a.graph = s.graph := congrArg (·.2.graph) hsaved.symm
  have hroot' : s.root = s₀.root := hkept.analysis.root.trans hroot
  have hconfig' : s.config = s₀.config := hkept.analysis.config.trans hconfig
  -- the second one starts with the same aliases and finds the same framework
  have haliases : Project.loadAliases host.disk root = Project.loadAliases a.host.disk root :=
    Project.firstAliases_congr fun name hname => hsettings name (List.mem_cons_of_mem _ hname)
  have hstart' := start_of_aliases hstart haliases now'
  have hfound : Project.detectFramework a.disk s.root = .ok s.framework := by
    have hsame := Project.detectFramework_congr (hsettings "package.json" List.mem_cons_self)
    rw [← hs₀.host] at hsame
    rw [hkept.analysis.framework, ← hframework, hroot', hs₀.root]
    exact hsame.symm
  obtain ⟨b, hb, htwin⟩ := twin_of_persist hkept.steady hcoherent hsaved (hgraph ▸ hlegible)
    (coherentAt_start hstart') hroot'.symm hconfig'.symm rfl hprune hfound
  exact ⟨_, b, hstart', hb, fun further hfurther => answers_of_twin htwin hfurther⟩

/-- What is asked after the restart: the import of the lost page, and once more when the page
was refreshed. -/
def lostPageQuestions : List Operation :=
  [.detectRoutes ["b"] false, .wait (.finite false 1 0), .refresh ["a"], .routeInfo ["b"], .metrics]

/-- The route that the first session remembers is told by the new one as well, until both
find the page gone. -/
theorem answers_of_restart_lostPage :
    ∃ a b₀ b, (lostPageSession.run lostPageOperations).persist = (true, a) ∧
      (a.detectRoutes ["b"] false).1.toOption.map (·.get? "b") = some (some ["/"]) ∧
      start "/p" plainConfig a.host (.finite false 2 0) = .ok b₀ ∧
      b₀.setUp false = (.ok (), b) ∧
      a.answers lostPageQuestions = b.answers lostPageQuestions := by
  have hstart : start "/p" plainConfig lostPageHost Number.Binary64.zero = .ok lostPageSession :=
    rfl
  have hops : ∀ op ∈ [Operation.routeInfo ["b"]], op.Ordinary := by simp [Operation.Ordinary]
  obtain ⟨hok, hsaved, htold, hlines, hsettings⟩ :
      (∀ r ∈ lostPageSession.answers lostPageOperations, r.isOk = true) ∧
      (lostPageSession.run lostPageOperations).persist.1 = true ∧
      ((lostPageSession.run lostPageOperations).persist.2.detectRoutes ["b"]
        false).1.toOption.map (·.get? "b") = some (some ["/"]) ∧
      (∀ f ∈ (lostPageSession.run lostPageOperations).persist.2.graph.facts.values,
        (∀ e ∈ f.imports, (Nat.toDigits 10 e.line.natAbs).length ≤ Number.mostDigits) ∧
        ∀ r ∈ f.routes, (Nat.toDigits 10 r.line.natAbs).length ≤ Number.mostDigits) ∧
      ∀ name ∈ "package.json" :: Project.configurationFiles,
        lostPageHost.disk.text? (Path.append "/p" name) =
          (lostPageSession.run lostPageOperations).persist.2.disk.text? (Path.append "/p" name) := by
    decide +kernel
  have hpersist := persist_eq hsaved
  obtain ⟨b₀, b, hb₀, hb, hanswers⟩ := answers_of_restart hstart false hops hok hpersist
    (fun f hf => ⟨(hlines f hf).1, (hlines f hf).2⟩) hsettings (.finite false 2 0)
  exact ⟨_, b₀, b, hpersist, htold, hb₀, hb,
    hanswers _ (by simp [lostPageQuestions, Operation.Plain])⟩

end Session

end RouteImpact
