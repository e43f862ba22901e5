import RouteImpact.Proofs.Analysis.Returning

namespace RouteImpact

/-!
# Marks of entry points

Which files a program starts at is noted in the nodes.  The notes are made again after facts
were replaced, at the end of a refresh and of a build.  One that fails among the facts does not
come to its end, and the notes stay as they were before.  A kept graph with another value in
the place of a text is not loaded.

* `Session.Interrupted` — a refresh that has replaced a fact when it comes to a file that cannot
  be refreshed;
* `Session.Interrupts` — an operation that makes such a refresh, or a build that finds an import
  with a name too long to ask for; `Session.Uninterrupted` — a history without such operations;
* `Session.graph_of_rebuild_error`, `Session.graph_of_refreshEach_error` — whatever else fails
  leaves no fact behind;
* `Session.marked_apply`, `Session.marked_run` — every other operation, whether it succeeds or
  fails, leaves the marks of the present edges;
* `Session.isEntryPoint_iff_of_run` — what this says about nodes and metrics;
* `Session.marks_of_interrupted` — an interrupted refresh leaves marks behind.
-/

namespace Session

variable {s t : Session} {file : String}

/-! ### Builds that fail -/

/-- A build that fails for another reason than a name that is too long leaves nothing. -/
theorem graph_of_rebuild_error {e : Failure} (h : s.rebuild = (.error e, t))
    (hname : e ≠ .nameTooLong) : t.graph = s.reset.graph := by
  unfold rebuild at h
  dsimp only at h
  split at h
  · next halted hbuild =>
    cases h
    exact Project.left_of_build_error hbuild fun file hfile =>
      hname (@eq_nameTooLong_of_loadNow s.reset file _ hfile)
  · cases h

/-! ### Refreshes that are interrupted -/

/-- A refresh of these paths replaces a fact and then fails: after a path of a file with a new
text comes one of a file that cannot be refreshed. -/
def Interrupted (s : Session) (paths : List String) : Prop :=
  ∃ before bad after, paths = before ++ bad :: after ∧ s.Askable before ∧
    (∃ p ∈ before, ∃ file, s.normalize p = some file ∧ s.Changed file) ∧
    ∃ file, s.normalize bad = some file ∧ ¬ s.Refreshable file

/-- The refresh of one path is not. -/
theorem not_interrupted_singleton (path : String) : ¬ s.Interrupted [path] := by
  rintro ⟨before, bad, after, hpaths, -, ⟨p, hp, -⟩, -⟩
  cases before with
  | nil => cases hp
  | cons first rest => simp at hpaths

/-- A refresh that fails without being interrupted has left the graph alone. -/
theorem graph_of_refreshEach_error {paths : List String} {e : Failure}
    (hrun : refreshEach paths s = (.error e, t)) (h : ¬ s.Interrupted paths) :
    t.graph = s.graph := by
  obtain ⟨before, bad, after, files, file, rfl, hbefore, hbad, hfact⟩ := of_refreshEach_error hrun
  have hfailed : ¬ s.Refreshable file := by
    rw [← hbefore.refreshable]
    exact not_refreshable_of_error hfact
  have hnone : files = [] := by
    refine List.eq_nil_iff_forall_not_mem.2 fun f hf => h ?_
    obtain ⟨⟨p, hp, hpf⟩, hchanged⟩ := (hbefore.mem_iff f).1 hf
    exact ⟨before, bad, after, rfl, hbefore.askable, ⟨p, hp, f, hpf, hchanged⟩, file, hbad,
      hfailed⟩
  rw [hbefore.graph, hnone]
  rfl

/-! ### Operations that are interrupted -/

/-- Setting up fails among the facts of a build. -/
def SettingInterrupts (s : Session) : Prop := s.ensureInitialized.1 = .error .nameTooLong

/-- Setting up and refreshing paths fails after it has replaced a fact. -/
def RefreshInterrupts (s : Session) (paths : List String) : Prop :=
  s.SettingInterrupts ∨ ∃ t, s.ensureInitialized = (.ok (), t) ∧ t.Interrupted paths

/-- Once a session is set up, the refresh of one path cannot be interrupted. -/
theorem not_refreshInterrupts_singleton (h : s.initialized = true) (path : String) :
    ¬ s.RefreshInterrupts [path] := by
  have hinit := ensureInitialized_eq h
  rintro (hset | ⟨t, ht, hinterrupted⟩)
  · rw [SettingInterrupts, hinit] at hset
    cases hset
  · exact not_interrupted_singleton path hinterrupted

/-- The route files that are found changed when maps are made are refreshed, and that fails after
it has replaced a fact. -/
def PreparingInterrupts (s : Session) : Prop :=
  ∃ changed t, s.prepareOnce = (.ok changed, t) ∧ t.RefreshInterrupts changed

/-- An operation fails between replacing a fact and marking the entry points. -/
def Interrupts (s : Session) : Operation → Prop
  | .setUp force => (s.setUp force).1 = .error .nameTooLong
  | .rebuild => s.rebuild.1 = .error .nameTooLong
  | .refresh paths | .routeInfo paths => s.RefreshInterrupts paths
  | .detectRoutes paths precise => s.RefreshInterrupts paths ∨
      precise = true ∧ ∃ changed t, s.refresh paths = (.ok changed, t) ∧ t.PreparingInterrupts
  | .routesServing path => s.SettingInterrupts ∨
      ∃ t, s.ensureInitialized = (.ok (), t) ∧ (t.normalize path).isSome = true ∧
        t.PreparingInterrupts
  | .metrics => s.SettingInterrupts
  | .takeBatch patterns changed =>
    ∃ paths, Project.relevant s.root patterns changed = .ok paths ∧ paths ≠ [] ∧
      s.RefreshInterrupts paths
  | .persist | .clearCache | .edit _ | .wait _ => False

/-- No operation of a history does so. -/
def Uninterrupted : Session → List Operation → Prop
  | _, [] => True
  | s, op :: ops => ¬ s.Interrupts op ∧ (s.apply op).Uninterrupted ops

/-! ### Marks along one operation -/

theorem marked_andThen {α β : Type} {r : Outcome α} {f : α → Session → Outcome β}
    (hr : r.2.graph.Marked)
    (hf : ∀ a t, r = (.ok a, t) → t.graph.Marked → (f a t).2.graph.Marked) :
    (r.andThen f).2.graph.Marked :=
  Outcome.andThen_induction (P := fun t => t.graph.Marked) hr hf

theorem Looked.marked (hst : Looked s t) (h : s.graph.Marked) : t.graph.Marked := by
  rw [hst]
  exact h

/-- A graph without files has no marks that could be wrong. -/
theorem marked_reset (s : Session) : s.reset.graph.Marked := fun _ _ hn => by cases hn

/-- A build marks what it has built, or fails and leaves nothing. -/
theorem marked_rebuild (h : s.rebuild.1 ≠ .error .nameTooLong) : s.rebuild.2.graph.Marked := by
  rcases hrun : s.rebuild with ⟨result, t⟩
  rw [hrun] at h
  cases result with
  | error e =>
    rw [graph_of_rebuild_error hrun fun he => h (congrArg Except.error he)]
    exact marked_reset s
  | ok summary =>
    obtain ⟨files, rfl⟩ := built_of_rebuild hrun
    exact (reflects_built s files summary).2.2.2

theorem marked_setUp (h : s.graph.Marked) {force : Bool}
    (hset : (s.setUp force).1 ≠ .error .nameTooLong) : (s.setUp force).2.graph.Marked := by
  have hbuild : ∀ u : Session, (Outcome.map (fun _ => ()) u.rebuild).1 ≠ .error .nameTooLong →
      (Outcome.map (fun _ => ()) u.rebuild).2.graph.Marked := by
    intro u hu
    rw [Outcome.snd_map]
    refine marked_rebuild fun herror => hu ?_
    rcases hrun : u.rebuild with ⟨result, v⟩
    rw [hrun] at herror
    obtain rfl : result = .error .nameTooLong := herror
    rfl
  unfold setUp at hset ⊢
  split
  · exact h
  · next framework hframework =>
    simp only [hframework] at hset
    dsimp only
    split
    · next hforce =>
      rw [if_pos hforce] at hset
      exact hbuild _ hset
    · next hforce =>
      rw [if_neg hforce] at hset
      split
      · exact h
      · exact ImportGraph.Marked.markEntryPoints _
      · exact marked_reset _
      · next hload =>
        simp only [hload] at hset
        exact hbuild _ hset

theorem marked_ensureInitialized (h : s.graph.Marked) (hset : ¬ s.SettingInterrupts) :
    s.ensureInitialized.2.graph.Marked := by
  unfold SettingInterrupts ensureInitialized at *
  split
  · exact h
  · next hinit =>
    rw [if_neg hinit] at hset
    exact marked_setUp h hset

/-- **A refresh** marks the entry points when it has replaced facts and comes to its end. -/
theorem marked_refresh (h : s.graph.Marked) {paths : List String}
    (hpaths : ¬ s.RefreshInterrupts paths) : (s.refresh paths).2.graph.Marked := by
  rw [RefreshInterrupts, not_or] at hpaths
  refine marked_andThen (marked_ensureInitialized h hpaths.1) fun _ t hinit ht => ?_
  rcases hrun : refreshEach paths t with ⟨result, u⟩
  cases result with
  | error e =>
    show u.graph.Marked
    rw [graph_of_refreshEach_error hrun fun hinterrupted => hpaths.2 ⟨t, hinit, hinterrupted⟩]
    exact ht
  | ok changed =>
    show (u.settled changed).graph.Marked
    unfold settled
    cases changed with
    | nil =>
      -- no fact was replaced, so the graph is as it was
      exact (refreshes_iff.1 hrun).graph ▸ ht
    | cons first rest => exact ImportGraph.Marked.markEntryPoints _

theorem marked_prepareComponents (h : s.graph.Marked) (hprepare : ¬ s.PreparingInterrupts) :
    s.prepareComponents.2.graph.Marked := by
  refine marked_andThen ((looked_prepareOnce s).marked h) fun changed t honce ht => ?_
  split
  · exact ht
  · have hrefresh : (t.refresh changed).2.graph.Marked :=
      marked_refresh ht fun hinterrupts => hprepare ⟨changed, t, honce, hinterrupts⟩
    refine marked_andThen hrefresh fun _ u _ hu => ?_
    rw [Outcome.snd_map]
    exact (looked_prepareOnce u).marked hu

theorem marked_takeBatch (h : s.graph.Marked) {patterns changed : List String}
    (hbatch : ¬ s.Interrupts (.takeBatch patterns changed)) :
    (s.takeBatch patterns changed).2.graph.Marked := by
  unfold takeBatch
  split
  · exact h
  · exact h
  · next paths hsome hrelevant =>
    rw [Outcome.snd_map]
    exact marked_refresh h fun hinterrupts => hbatch ⟨paths, hrelevant, hsome, hinterrupts⟩

/-! ### Marks along histories -/

/-- **Step.** An operation that is not interrupted leaves the marks of the present edges,
whether it succeeds or fails. -/
theorem marked_apply (h : s.graph.Marked) {op : Operation} (hop : ¬ s.Interrupts op) :
    (s.apply op).graph.Marked := by
  cases op with
  | setUp force => exact marked_setUp h hop
  | rebuild => exact marked_rebuild hop
  | refresh paths => exact marked_refresh h hop
  | detectRoutes paths precise =>
    rw [Interrupts, not_or] at hop
    refine marked_andThen (marked_refresh h hop.1) fun changed t hrefresh ht => ?_
    refine marked_andThen ?_ fun _ u _ hu => (looked_affectedEach precise paths _ u).marked hu
    split
    · next hprecise =>
      exact marked_prepareComponents ht fun hinterrupts =>
        hop.2 ⟨hprecise, changed, t, hrefresh, hinterrupts⟩
    · exact ht
  | routeInfo paths =>
    exact marked_andThen (marked_refresh h hop) fun _ t _ ht =>
      (looked_infoEach paths _ t).marked ht
  | routesServing path =>
    rw [Interrupts, not_or] at hop
    refine marked_andThen (marked_ensureInitialized h hop.1) fun _ t hinit ht => ?_
    split
    · exact ht
    · next hfile =>
      have hprepared : t.prepareComponents.2.graph.Marked :=
        marked_prepareComponents ht fun hinterrupts =>
          hop.2 ⟨t, hinit, by simp [hfile], hinterrupts⟩
      exact marked_andThen hprepared fun _ u _ hu => (looked_servingAmong _ _ u).marked hu
  | metrics => exact marked_andThen (marked_ensureInitialized h hop) fun _ _ _ ht => ht
  | persist => exact h
  | clearCache => exact marked_reset s
  | takeBatch patterns changed => exact marked_takeBatch h hop
  | edit disk => exact h
  | wait now => exact h

/-- **Run.** So does a history. -/
theorem marked_run (h : s.graph.Marked) {ops : List Operation} (hops : s.Uninterrupted ops) :
    (s.run ops).graph.Marked := by
  induction ops generalizing s with
  | nil => exact h
  | cons op ops ih => exact ih (marked_apply h hops.1) hops.2

/-- A file at which a program starts, by its name and its importers. -/
theorem isEntry_iff {n : GraphNode} :
    ImportGraph.isEntry file n = true ↔ n.importedBy = NameSet.empty ∧
      (Path.splitExtension (Path.baseName file)).1 ∈ ["index", "main", "App"] := by
  have hempty : n.importedBy.isEmpty = true ↔ n.importedBy = NameSet.empty := by
    rw [NameSet.isEmpty_iff]
    constructor
    · intro h
      ext x
      simp [h x]
    · intro h x
      rw [h]
      exact NameSet.not_mem_empty x
  rw [ImportGraph.isEntry, Bool.and_eq_true, hempty, List.contains_iff_mem]
  rfl

/-- **Marks of entry points.**  Take a new session and any history of operations, edits and
passing time, in which operations may succeed or fail.  If none of them is interrupted among the
facts — a build by a file that imports a name too long to ask for, a refresh, after it has
replaced a fact, by such a file or by a path with the character that ends names — then a node is
marked exactly if nothing imports it and the name of its file, without the last ending, is
`index`, `main` or `App`, and the metrics count these nodes. -/
theorem isEntryPoint_iff_of_run {root : String} {config : Settings.Config} {host : Host}
    {now : Moment} {s₀ : Session} (hstart : start root config host now = .ok s₀)
    {ops : List Operation} (hops : s₀.Uninterrupted ops) :
    (∀ file n, (s₀.run ops).graph.node? file = some n →
      (n.isEntryPoint = true ↔ n.importedBy = NameSet.empty ∧
        (Path.splitExtension (Path.baseName file)).1 ∈ ["index", "main", "App"])) ∧
    ∀ m t, (s₀.run ops).metrics = (.ok m, t) →
      m.entryPoints = (t.graph.nodes.entries.filter fun (file, n) =>
        n.importedBy = NameSet.empty ∧
          (Path.splitExtension (Path.baseName file)).1 ∈ ["index", "main", "App"]).length := by
  have hempty : s₀.graph.Marked := by
    obtain ⟨aliases, rfl⟩ := of_start hstart
    exact fun _ _ hn => by cases hn
  have hmarked := marked_run hempty hops
  generalize s₀.run ops = s at hmarked
  refine ⟨fun file n hn => ?_, fun m t hmetrics => ?_⟩
  · rw [hmarked file n hn, isEntry_iff]
  · obtain ⟨_, u, hinit, hlast⟩ := Outcome.of_andThen hmetrics
    have hu : u.graph.Marked := by
      have hset : ¬ s.SettingInterrupts := fun hfail => by
        rw [SettingInterrupts, hinit] at hfail
        cases hfail
      have := marked_ensureInitialized hmarked hset
      rwa [hinit] at this
    cases hlast
    show t.graph.entryPoints.length = _
    rw [ImportGraph.entryPoints, Text.sort, List.length_mergeSort, List.length_map]
    congr 1
    refine List.filter_congr fun e he => ?_
    rw [hu e.1 e.2 (OrderedMap.get?_eq_some_iff.2 he), Bool.eq_iff_iff, isEntry_iff,
      decide_eq_true_iff]

/-! ### A file that is no longer imported -/

/-- Settings by which reverse edges go away with their forward edges. -/
def orphanConfig : Settings.Config := { plainConfig with pruneStaleEdges := true }

/-- A store that holds the graph of a file that is gone and of the entry point it imported. -/
def orphanHost : Host where
  store := .memory (OrderedMap.ofList [(Snapshot.key orphanConfig.cacheNamespace "/p",
    ("\x7b\"version\":\"1.0\"," ++
      "\"graph\":[\x7b\"file\":\"a.ts\",\"imports\":[\"main.ts\"]\x7d]," ++
      "\"fileCache\":[\x7b\"path\":\"a.ts\",\"contentHash\":\"x\"\x7d]\x7d").toUTF8)])
  disk := Disk.empty

/-- The session on that store before its first operation. -/
def orphanSession : Session where
  root := "/p"
  config := orphanConfig
  host := orphanHost
  now := Number.Binary64.zero
  graph := { prune := true }

/-- The file that is gone is refreshed. -/
def orphanOperations : List Operation := [.setUp false, .refresh ["a.ts"]]

/-- When the refresh comes to its end, the file that nothing imports any more is marked. -/
theorem isEntryPoint_iff_of_run_orphanSession :
    start "/p" orphanConfig orphanHost Number.Binary64.zero = .ok orphanSession ∧
    orphanSession.Uninterrupted orphanOperations ∧
    ∃ n, (orphanSession.run orphanOperations).graph.node? "main.ts" = some n ∧
      n.isEntryPoint = true := by
  have hstart : start "/p" orphanConfig orphanHost Number.Binary64.zero = .ok orphanSession := rfl
  have hnode : ((orphanSession.run orphanOperations).graph.node? "main.ts").map (·.importedBy) =
      some NameSet.empty := by decide +kernel
  obtain ⟨hset, hinit⟩ : (orphanSession.setUp false).1 = .ok () ∧
      (orphanSession.apply (.setUp false)).initialized = true := by decide +kernel
  have hops : orphanSession.Uninterrupted orphanOperations := by
    refine ⟨fun hinterrupts => ?_, ?_, trivial⟩
    · change (orphanSession.setUp false).1 = .error .nameTooLong at hinterrupts
      rw [hset] at hinterrupts
      cases hinterrupts
    · exact not_refreshInterrupts_singleton hinit "a.ts"
  obtain ⟨n, hn, himporters⟩ := Option.map_eq_some_iff.1 hnode
  exact ⟨hstart, hops, n, hn,
    ((isEntryPoint_iff_of_run hstart hops).1 "main.ts" n hn).2 ⟨himporters, by decide +kernel⟩⟩

/-- **An interrupted refresh** leaves it unmarked: the path that cannot be named comes after
the file that is gone.  A later refresh of that file finds no news and does not mark it
either, and the metrics count no entry point. -/
theorem marks_of_interrupted :
    ((orphanSession.run [.setUp false]).refresh ["a.ts", "x\x00y.ts"]).1 = .error .nulInPath ∧
    ((orphanSession.run [.setUp false, .refresh ["a.ts", "x\x00y.ts"]]).graph.node?
      "main.ts").map (fun n => (n.importedBy, n.isEntryPoint)) = some (NameSet.empty, false) ∧
    ((orphanSession.run [.setUp false, .refresh ["a.ts", "x\x00y.ts"]]).refresh ["a.ts"]).1 =
      .ok [] ∧
    ((orphanSession.run [.setUp false, .refresh ["a.ts", "x\x00y.ts"],
      .refresh ["a.ts"]]).metrics.1.map (·.entryPoints)) = .ok 0 := by
  decide +kernel

end Session

end RouteImpact
