import RouteImpact.Proofs.Analysis.Questions
import RouteImpact.Proofs.Path.Spelling

namespace RouteImpact.Session

/-!
# The order of a question

A question about several files refreshes them one after the other, so that each refresh can
change what is answered about the others.  Still it does not matter in which order the files
are named, how often, and under how many spellings.

* `Refreshes.mem_iff`, `Refreshes.nodup` — the facts that are replaced are those of the named
  files whose text has changed, each once;
* `refreshEach_perm` — so named in any order, the files leave the same graph;
* `refreshEach_of_hasNul` — a project whose directory cannot be named has no files to read,
  and a refresh fails at the first;
* `detectRoutes_any_order` — the answers, the graph and the facts do not depend on the order;
* `graphs_of_longStart` — but they do where one of the files cannot be refreshed.
-/

variable {s t : Session} {file : String} {paths files : List String} {limit : Option Int}

/-! ### Refreshing -/

/-- Once a session is set up, a refresh goes through the paths. -/
theorem refresh_eq (h : s.ensureInitialized = (.ok (), t)) (paths : List String) :
    s.refresh paths = (refreshEach paths t).andThen fun changed u =>
      (.ok changed, if changed.isEmpty then u else { u with graph := u.graph.markEntryPoints }) := by
  unfold refresh
  rw [h]
  rfl

/-! ### Facts that are replaced -/

/-- A file with a new text. -/
def Changed (s : Session) (file : String) : Prop := ∃ fact, s.freshFact? file = .ok (some fact)

theorem changed_replaceFact_of_ne {fact : FileFact} {x : String} (hx : file ≠ x) :
    (s.replaceFact file fact).Changed x ↔ s.Changed x := by
  unfold Changed
  rw [freshFact?_congr (remembers_replaceFact s file fact)]
  rw [graph_replaceFact, ImportGraph.fact?_upsert, if_neg hx]

/-- A file whose fact was replaced has no new text. -/
theorem not_changed_replaceFact {fact : FileFact} (h : s.freshFact? file = .ok (some fact)) :
    ¬ (s.replaceFact file fact).Changed file := by
  rintro ⟨again, hagain⟩
  rw [freshFact?_replaceFact h] at hagain
  cases hagain

/-- **Which facts are replaced.** Those of the named files with a new text. -/
theorem Refreshes.mem_iff (h : Refreshes paths s files t) (f : String) :
    f ∈ files ↔ (∃ p ∈ paths, s.normalize p = some f) ∧ s.Changed f := by
  induction h with
  | nil s => simp
  | outside hpath _ ih =>
    rw [ih, List.exists_mem_cons_iff, hpath]
    simp
  | kept hpath hfact _ ih =>
    -- the file at hand has no new text
    rw [ih, List.exists_mem_cons_iff, hpath, or_and_right, or_iff_right]
    rintro ⟨hf, fact, hchanged⟩
    cases hf
    rw [hfact] at hchanged
    cases hchanged
  | @replaced _ file _ _ fact _ _ hpath hfact _ ih =>
    rw [List.mem_cons, ih, List.exists_mem_cons_iff, hpath]
    by_cases hf : file = f
    · subst hf
      simp only [true_or, true_and, true_iff]
      exact ⟨fact, hfact⟩
    · rw [changed_replaceFact_of_ne hf, or_iff_right (Ne.symm hf), Option.some_inj, or_iff_right hf]
      exact Iff.rfl

/-- Each fact is replaced once. -/
theorem Refreshes.nodup (h : Refreshes paths s files t) : files.Nodup := by
  induction h with
  | nil s => exact List.nodup_nil
  | outside _ _ ih => exact ih
  | kept _ _ _ ih => exact ih
  | replaced _ hfact hrest ih =>
    refine List.nodup_cons.2 ⟨fun hagain => ?_, ih⟩
    exact not_changed_replaceFact hfact ((hrest.mem_iff _).1 hagain).2

theorem Askable.perm {paths paths' : List String} (hask : s.Askable paths)
    (hperm : paths.Perm paths') : s.Askable paths' :=
  fun p hp => hask p (hperm.mem_iff.2 hp)

/-- **Refreshes in any order** replace the same facts and leave the same graph, if every file can be
refreshed. -/
theorem refreshEach_perm {paths' : List String} (hask : s.Askable paths)
    (hperm : paths.Perm paths') :
    ∃ files files' t t', refreshEach paths s = (.ok files, t) ∧
      refreshEach paths' s = (.ok files', t') ∧ Remembers s t ∧ Remembers s t' ∧
      files.Perm files' ∧ t.graph.Same t'.graph := by
  obtain ⟨files, t, hrun⟩ := exists_refreshes paths s hask
  obtain ⟨files', t', hrun'⟩ := exists_refreshes paths' s (hask.perm hperm)
  have hfiles : files.Perm files' := by
    rw [List.perm_ext_iff_of_nodup hrun.nodup hrun'.nodup]
    intro f
    rw [hrun.mem_iff, hrun'.mem_iff]
    simp only [hperm.mem_iff]
  refine ⟨files, files', t, t', refreshes_iff.2 hrun, refreshes_iff.2 hrun', hrun.remembers,
    hrun'.remembers, hfiles, ?_⟩
  rw [hrun.graph, hrun'.graph]
  exact Project.addFacts_perm s.graph hfiles

/-! ### Directories that cannot be named -/

/-- Below a directory that cannot be named nothing is refreshed: the first path in the
project fails. -/
theorem refreshEach_of_hasNul {paths : List String} (hroot : Disk.hasNul s.root = true)
    (hnul : ∀ p ∈ paths, Disk.hasNul p = false) :
    refreshEach paths s =
      (if paths.any fun p => (s.normalize p).isSome then .error .nulInPath else .ok [], s) := by
  induction paths with
  | nil => rfl
  | cons path rest ih =>
    have hrest := ih fun p hp => hnul p (by simp [hp])
    unfold refreshEach
    cases hfile : s.normalize path with
    | none => simpa [hfile] using hrest
    | some file =>
      have hfull : Disk.hasNul (Path.append s.root file) = true := by
        rw [Project.hasNul_append hfile (hnul path (by simp))]
        exact hroot
      simp [freshFact?_of_hasNul hfull, hfile]

/-- Otherwise all files can be named. -/
theorem hasNul_of_paths {paths : List String} (hroot : Disk.hasNul s.root = false)
    (hnul : ∀ p ∈ paths, Disk.hasNul p = false) :
    ∀ p ∈ paths, ∀ file, s.normalize p = some file →
      Disk.hasNul (Path.append s.root file) = false := by
  intro p hp file hfile
  rw [Project.hasNul_append hfile (hnul p hp)]
  exact hroot

/-! ### Questions in any order -/

/-- The session after a refresh, given the files whose facts were replaced. -/
def settled (s : Session) (changed : List String) : Session :=
  if changed.isEmpty then s else { s with graph := s.graph.markEntryPoints }

theorem sameAnalysis_settled (s : Session) (changed : List String) :
    SameAnalysis s (s.settled changed) := by
  unfold settled
  split <;> exact ⟨rfl, rfl, rfl⟩

/-- Entry points are marked after both refreshes or after none. -/
theorem same_settled {changed changed' : List String} (hperm : changed.Perm changed')
    (hsame : s.graph.Same t.graph) :
    (s.settled changed).graph.Same (t.settled changed').graph := by
  have hempty : changed.isEmpty = changed'.isEmpty := by
    rw [Bool.eq_iff_iff, List.isEmpty_iff, List.isEmpty_iff]
    exact ⟨fun h => (h ▸ hperm).symm.eq_nil, fun h => (h ▸ hperm).eq_nil⟩
  unfold settled
  rw [hempty]
  split
  · exact hsame
  · exact hsame.markEntryPoints

theorem Askable.iff_of_perm {paths paths' : List String} (hperm : paths.Perm paths') :
    s.Askable paths ↔ s.Askable paths' :=
  ⟨fun h => h.perm hperm, fun h => h.perm hperm.symm⟩

/-- **Refreshes in any order.** They fail alike where nothing can be read; they fail where a file
imports what cannot be asked for; otherwise they leave the same graph. -/
theorem refresh_perm {paths paths' : List String} (hinit : s.ensureInitialized = (.ok (), t))
    (hperm : paths.Perm paths') (hnul : ∀ p ∈ paths, Disk.hasNul p = false) :
    (s.refresh paths = (.error .nulInPath, t) ∧ s.refresh paths' = (.error .nulInPath, t) ∧
      Disk.hasNul t.root = true) ∨
    (∃ u u', s.refresh paths = (.error .nameTooLong, u) ∧
      s.refresh paths' = (.error .nameTooLong, u') ∧ ¬ t.Askable paths) ∨
    ∃ changed changed' u u', s.refresh paths = (.ok changed, u) ∧
      s.refresh paths' = (.ok changed', u') ∧ SameAnalysis u u' ∧ u.graph.Same u'.graph := by
  rw [refresh_eq hinit, refresh_eq hinit]
  have hnul' : ∀ p ∈ paths', Disk.hasNul p = false := fun p hp => hnul p (hperm.mem_iff.2 hp)
  cases hroot : Disk.hasNul t.root with
  | true =>
    have hany : (paths'.any fun p => (t.normalize p).isSome) =
        paths.any fun p => (t.normalize p).isSome := by
      rw [Bool.eq_iff_iff, List.any_eq_true, List.any_eq_true]
      simp only [hperm.mem_iff]
    rw [refreshEach_of_hasNul hroot hnul, refreshEach_of_hasNul hroot hnul', hany]
    cases paths.any fun p => (t.normalize p).isSome with
    | true => exact .inl ⟨rfl, rfl, rfl⟩
    | false =>
      exact .inr (.inr ⟨[], [], t, t, rfl, rfl, SameAnalysis.refl t, ImportGraph.Same.refl _⟩)
  | false =>
    by_cases hask : t.Askable paths
    · obtain ⟨files, files', u, u', hrun, hrun', hu, hu', hfiles, hsame⟩ :=
        refreshEach_perm hask hperm
      rw [hrun, hrun']
      refine .inr (.inr ⟨files, files', u.settled files, u'.settled files', rfl, rfl, ?_,
        same_settled hfiles hsame⟩)
      have hleft := hu.sameAnalysis.trans (sameAnalysis_settled u files)
      have hright := hu'.sameAnalysis.trans (sameAnalysis_settled u' files')
      exact hleft.symm.trans hright
    · obtain ⟨u, hrun⟩ := exists_refreshEach_error hask (hasNul_of_paths hroot hnul)
      obtain ⟨u', hrun'⟩ := exists_refreshEach_error ((Askable.iff_of_perm hperm).not.1 hask)
        (hasNul_of_paths hroot hnul')
      rw [hrun, hrun']
      exact .inr (.inl ⟨u, u', rfl, rfl, hask⟩)

/-- A plain question whose refresh has succeeded answers from the graph after it. -/
theorem detectRoutes_of_refresh {paths changed : List String} (h : CoherentAt limit t)
    (hrefresh : s.refresh paths = (.ok changed, t)) :
    ∃ u, s.detectRoutes paths false = (.ok ((t.reported paths).foldl
        (fun m p => m.set p (t.routesFor p)) OrderedMap.empty), u) ∧ Asked limit t u := by
  obtain ⟨u, hrun, hu⟩ := affectedEach_plain h paths OrderedMap.empty
  refine ⟨u, ?_, hu⟩
  unfold detectRoutes
  rw [hrefresh]
  exact hrun

theorem routeInfo_of_refresh {paths changed : List String} (h : CoherentAt limit t)
    (hrefresh : s.refresh paths = (.ok changed, t)) :
    ∃ u, s.routeInfo paths = (.ok (paths.foldl (fun m p => m.set p (t.infoFor p))
        OrderedMap.empty), u) ∧ Asked limit t u := by
  obtain ⟨u, hrun, hu⟩ := infoEach_eq h paths OrderedMap.empty
  refine ⟨u, ?_, hu⟩
  unfold routeInfo
  rw [hrefresh]
  show (Except.ok (infoEach paths OrderedMap.empty t).1, (infoEach paths OrderedMap.empty t).2) = _
  rw [hrun]

/-- A question whose refresh fails fails with it. -/
theorem questions_of_refresh_error {paths : List String} {e : Failure}
    (hrefresh : s.refresh paths = (.error e, t)) :
    s.detectRoutes paths false = (.error e, t) ∧ s.routeInfo paths = (.error e, t) := by
  unfold detectRoutes routeInfo
  rw [hrefresh]
  exact ⟨rfl, rfl⟩

/-- Two questions whose refreshes have left the same graph. -/
theorem answers_of_same {s t t' : Session} {paths paths' changed changed' : List String}
    (h : CoherentAt limit t) (h' : CoherentAt limit t') (hst : SameAnalysis t t')
    (hsame : t.graph.Same t'.graph) (hperm : paths.Perm paths')
    (hrefresh : s.refresh paths = (.ok changed, t))
    (hrefresh' : s.refresh paths' = (.ok changed', t')) :
    ∃ found u found' u' infos w, s.detectRoutes paths false = (.ok found, u) ∧
      s.detectRoutes paths' false = (.ok found', u') ∧ s.routeInfo paths = (.ok infos, w) ∧
      (∀ p, found.get? p = found'.get? p) ∧ u.graph.Same u'.graph ∧ w.graph = u.graph ∧
      (∀ p routes, found.get? p = some routes ↔ p ∈ paths ∧ routes ≠ [] ∧
        ∃ file, u.normalize p = some file ∧
          routes = (ImpactCache.empty.impactOf u.graph limit file).1) ∧
      ∀ p ∈ paths, ∃ info, infos.get? p = some info ∧ info.routes = (found.get? p).getD [] ∧
        (info.routes = [] ↔ found.get? p = none) := by
  obtain ⟨u, hrun, hu⟩ := detectRoutes_of_refresh h hrefresh
  obtain ⟨u', hrun', hu'⟩ := detectRoutes_of_refresh h' hrefresh'
  obtain ⟨w, hinfo, hw⟩ := routeInfo_of_refresh h hrefresh
  have hgraph : u.graph = t.graph := by rw [hu.frame]
  have hgraph' : u'.graph = t'.graph := by rw [hu'.frame]
  have hgraphInfo : w.graph = t.graph := by rw [hw.frame]
  have hroutes : t'.routesFor = t.routesFor := by
    funext p
    exact routesFor_congr hst.root hst.config hsame.symm.alike p
  refine ⟨_, u, _, u', _, w, hrun, hrun', hinfo, ?_, ?_, ?_, ?_, ?_⟩
  · intro p
    rw [get?_reported, get?_reported, hroutes]
    simp only [hperm.mem_iff]
  · rw [hgraph, hgraph']
    exact hsame
  · rw [hgraph, hgraphInfo]
  · intro p routes
    rw [get?_reported, hu.normalize, hgraph]
    cases hfile : t.normalize p with
    | none => simp [routesFor_of_none hfile]
    | some file =>
      rw [routesFor_of_some hfile, h.depth]
      grind
  · intro p hp
    refine ⟨t.infoFor p, ?_, ?_, ?_⟩
    · rw [OrderedMap.get?_foldl_assign, if_pos hp]
    · rw [routes_infoFor, get?_reported]
      by_cases hempty : t.routesFor p = [] <;> simp [hp, hempty]
    · rw [routes_infoFor, get?_reported]
      by_cases hempty : t.routesFor p = [] <;> simp [hp, hempty]

/-- **The order of a question does not show** where all named files can be refreshed.  In every
session, after every history of operations, edits and passing time, for all paths that can be named,
spelled in any way and named any number of times: if the session cannot be set up, or its directory
cannot be named, the questions fail alike.  If one of the files cannot be refreshed, since it has a
new text that imports a name too long to ask for, all questions fail with that name, and what they
have refreshed before depends on the order.  Otherwise they are answered, the routes, the graph and
the facts are the same in every order, a path is reported exactly if a search in the graph after the
refresh finds routes, with these routes, and `routeInfo` names the same routes for every path, none
exactly for those that are left out.  A session that keeps a graph with another value in the place
of a text counts as one that cannot be set up. -/
theorem detectRoutes_any_order {root : String} {config : Settings.Config} {host : Host}
    {now : Moment} {s₀ : Session} (hstart : start root config host now = .ok s₀)
    (ops : List Operation) {paths paths' : List String} (hperm : paths.Perm paths')
    (hnul : ∀ p ∈ paths, Disk.hasNul p = false) :
    (∃ e t, (s₀.run ops).detectRoutes paths false = (.error e, t) ∧
      (s₀.run ops).detectRoutes paths' false = (.error e, t) ∧
      (s₀.run ops).routeInfo paths = (.error e, t) ∧
      ((s₀.run ops).ensureInitialized = (.error e, t) ∨ Disk.hasNul t.root = true)) ∨
    (∃ t u u', (s₀.run ops).ensureInitialized = (.ok (), t) ∧ ¬ t.Askable paths ∧
      (s₀.run ops).detectRoutes paths false = (.error .nameTooLong, u) ∧
      (s₀.run ops).detectRoutes paths' false = (.error .nameTooLong, u') ∧
      (s₀.run ops).routeInfo paths = (.error .nameTooLong, u)) ∨
    (∃ found t found' t' infos u, (s₀.run ops).detectRoutes paths false = (.ok found, t) ∧
      (s₀.run ops).detectRoutes paths' false = (.ok found', t') ∧
      (s₀.run ops).routeInfo paths = (.ok infos, u) ∧
      (∀ p, found.get? p = found'.get? p) ∧ t.graph.Same t'.graph ∧ u.graph = t.graph ∧
      (∀ p routes, found.get? p = some routes ↔ p ∈ paths ∧ routes ≠ [] ∧
        ∃ file, t.normalize p = some file ∧
          routes = (ImpactCache.empty.impactOf t.graph config.earlyStopDepth file).1) ∧
      ∀ p ∈ paths, ∃ info, infos.get? p = some info ∧ info.routes = (found.get? p).getD [] ∧
        (info.routes = [] ↔ found.get? p = none)) := by
  have hcoherent : CoherentAt config.earlyStopDepth (s₀.run ops) :=
    run_induction (fun s t => coherentAt_step s t) (coherentAt_start hstart) ops
  generalize s₀.run ops = s at hcoherent
  rcases hinit : s.ensureInitialized with ⟨result, t⟩
  cases result with
  | error e =>
    have hfail : ∀ ps, s.refresh ps = (.error e, t) := by
      intro ps
      unfold refresh
      rw [hinit]
      rfl
    have hasked := questions_of_refresh_error (hfail paths)
    have hasked' := questions_of_refresh_error (hfail paths')
    exact .inl ⟨e, t, hasked.1, hasked'.1, hasked.2, .inl rfl⟩
  | ok _ =>
    have hcoherent' : ∀ ps changed v, s.refresh ps = (.ok changed, v) →
        CoherentAt config.earlyStopDepth v := by
      intro ps changed v hv
      have hpath := steps_refresh s ps
      rw [hv] at hpath
      exact coherentAt_steps hcoherent hpath
    rcases refresh_perm hinit hperm hnul with ⟨hfail, hfail', hroot⟩ |
      ⟨u, u', hfail, hfail', hask⟩ | ⟨changed, changed', u, u', hrun, hrun', hst, hsame⟩
    · have hasked := questions_of_refresh_error hfail
      have hasked' := questions_of_refresh_error hfail'
      exact .inl ⟨_, t, hasked.1, hasked'.1, hasked.2, .inr hroot⟩
    · have hasked := questions_of_refresh_error hfail
      have hasked' := questions_of_refresh_error hfail'
      exact .inr (.inl ⟨t, u, u', rfl, hask, hasked.1, hasked'.1, hasked.2⟩)
    · exact .inr (.inr (answers_of_same (hcoherent' _ _ _ hrun) (hcoherent' _ _ _ hrun') hst hsame
        hperm hrun hrun'))

/-- A store that holds the graph of a route file whose text was known, and of its import. -/
def lostPageHost : Host where
  store := .memory (OrderedMap.ofList [(Snapshot.key plainConfig.cacheNamespace "/p",
    ("\x7b\"version\":\"1.0\"," ++
      "\"graph\":[\x7b\"file\":\"a\",\"imports\":[\"b\"],\"isRouteFile\":1\x7d]," ++
      "\"fileCache\":[\x7b\"path\":\"a\",\"routes\":[\x7b\"path\":\"/\"\x7d]," ++
      "\"contentHash\":\"x\"\x7d]\x7d").toUTF8)])
  disk := Disk.empty

/-- The session on that store before its first operation. -/
def lostPageSession : Session where
  root := "/p"
  config := plainConfig
  host := lostPageHost
  now := Number.Binary64.zero
  graph := {}

/-- What it was asked before: the route is remembered for the import. -/
def lostPageOperations : List Operation := [.setUp false, .routeInfo ["b"]]

/-- The route file is gone, so its import affects nothing, whichever of the two is named
first and however often. -/
theorem detectRoutes_any_order_lostPage :
    (lostPageSession.run lostPageOperations).impact.answers.get? "b" = some ["/"] ∧
    ∃ found t found' t',
      (lostPageSession.run lostPageOperations).detectRoutes ["b", "a", "./b"] false =
        (.ok found, t) ∧
      (lostPageSession.run lostPageOperations).detectRoutes ["a", "./b", "b"] false =
        (.ok found', t') ∧
      found.get? "b" = none ∧ (∀ p, found.get? p = found'.get? p) ∧ t.graph.Same t'.graph := by
  have hstart : start "/p" plainConfig lostPageHost Number.Binary64.zero = .ok lostPageSession :=
    rfl
  obtain ⟨hbefore, hanswer⟩ :
      (lostPageSession.run lostPageOperations).impact.answers.get? "b" = some ["/"] ∧
      ((lostPageSession.run lostPageOperations).detectRoutes ["b", "a", "./b"] false).1.toOption.map
        (·.get? "b") = some none := by decide +kernel
  refine ⟨hbefore, ?_⟩
  have horder := @detectRoutes_any_order _ _ _ _ _ hstart lostPageOperations
    ["b", "a", "./b"] ["a", "./b", "b"] (by decide) (by decide)
  rcases horder with ⟨e, t, hfail, -⟩ | ⟨-, t, -, -, -, hfail, -⟩ |
    ⟨found, t, found', t', infos, u, hrun, hrun', -, hfound, hsame, -⟩
  · rw [hfail] at hanswer
    cases hanswer
  · rw [hfail] at hanswer
    cases hanswer
  · rw [hrun] at hanswer
    exact ⟨found, t, found', t', hrun, hrun', Option.some.inj hanswer, hfound, hsame⟩

/-! ### A file that cannot be refreshed -/

/-- A name that is too long is asked for in a directory that is there. -/
theorem isFile_of_long {d : Disk} {name : String} (hdir : d.at? ["p"] = some .directory)
    (hproper : Path.Proper name) (hnul : Disk.hasNul name = false)
    (hlong : Disk.longestName < name.utf8ByteSize) :
    d.isFile (Path.append "/p" name) = .error .nameTooLong := by
  have hall : ∀ n ∈ [name], Path.Proper n := fun n hn => List.mem_singleton.1 hn ▸ hproper
  have hjoin : Text.join "/" [name] = name := rfl
  have hcomponents : Path.components (Path.append "/p" name) = ["p", name] := by
    rw [← hjoin, Path.components_append (Path.isAbsolute_join hall), Path.components_join hall]
    rfl
  have hclean : ["p", name].any Disk.hasNul = false := by
    simp [hnul, show Disk.hasNul "p" = false by decide]
  have hwalk : d.walk [] ["p", name] = .error .nameTooLong := by
    have hp : ¬ Disk.longestName < "p".utf8ByteSize := by decide
    have hroot : d.at? [] = some .directory := rfl
    simp [Disk.walk, hroot, hdir, hproper.ne_points, hlong, hp]
  unfold Disk.isFile Disk.find Disk.locate
  rw [hcomponents, hclean, if_neg (by decide), hwalk]

/-- Nor can a directory's own files be resolved where the only ending makes every name too long. -/
theorem resolve_of_long {ending : String} (hroot : s.root = "/p")
    (hendings : s.resolver.endings = [ending]) (hdir : s.disk.at? ["p"] = some .directory)
    (hbase : s.resolver.basePath? file "." = some ".") (hproper : Path.Proper ("." ++ ending))
    (hnul : Disk.hasNul ("." ++ ending) = false)
    (hlong : Disk.longestName < ("." ++ ending).utf8ByteSize) :
    s.resolver.resolve file "." = .error .nameTooLong := by
  have hfile : s.resolver.isFile ("." ++ ending) = .error .nameTooLong := by
    rw [isFile_resolver, hroot, isFile_of_long hdir hproper hnul hlong]
    rfl
  have hcandidates : s.resolver.candidates "." = ["." ++ ending, "index" ++ ending] := by
    rw [Resolver.candidates, hendings, if_pos rfl, if_pos rfl, List.map_singleton,
      List.map_singleton, List.nil_append, List.singleton_append]
  rw [Resolver.resolve_of_basePath? hbase, hcandidates, Resolver.firstFile, hfile]

/-- A file without a fact gets none from a text whose one import cannot be resolved. -/
theorem freshFact?_of_resolve_error {text specifier : String} {e : Failure}
    (hfact : s.graph.fact? file = none) (hread : s.read file = .ok (some text))
    (himport : s.extractor.specifiersOf file text = [specifier])
    (hresolve : s.resolver.resolve file specifier = .error e) :
    s.freshFact? file = .error e := by
  have heach : s.extractor.resolver.resolveEach file [specifier] = .error e := by
    show Resolver.tryEach (s.resolver.resolve file) [specifier] = _
    rw [Resolver.tryEach, hresolve]
  have hextract : s.extractor.extract s.now file text = .error e := by
    rw [Extractor.extract, himport, heach]
  unfold freshFact?
  rw [hfact, hread]
  simp [bind, Except.bind, hextract]

/-- An ending that makes every name too long to ask for. -/
def longEnding : String := String.ofList ('.' :: List.replicate 64 '𝔫')

/-- The session on an empty project in which this is the only ending, before its first operation. -/
def longStart : Session where
  root := "/p"
  config := { plainConfig with aliases := OrderedMap.empty, endings := [longEnding] }
  host := { store := .memory OrderedMap.empty, disk := ⟨[(["p"], .directory)]⟩ }
  now := Number.Binary64.zero
  graph := {}

/-- Two files come after it was set up, and the second one imports its directory. -/
def longOperations : List Operation :=
  [.setUp false, .edit ⟨[(["p"], .directory), (["p", "a.js"], .file "".toUTF8),
    (["p", "m.js"], .file "import\".\"".toUTF8)]⟩]

/-- Its import cannot be resolved, so the second one gets no fact. -/
theorem freshFact?_longStart :
    (longStart.run longOperations).initialized = true ∧
      (longStart.run longOperations).graph.fact? "a.js" = none ∧
      (∀ file, file = "a.js" ∨ file = "m.js" →
        (longStart.run longOperations).normalize file = some file) ∧
      (∃ fact, (longStart.run longOperations).freshFact? "a.js" = .ok (some fact)) ∧
      (longStart.run longOperations).freshFact? "m.js" = .error .nameTooLong := by
  obtain ⟨hinit, hnone, hmissing, hnormal, hnormal', hfirst, hroot, hendings, hdir, hread, himport,
      hbase, hproper, hnul, hlong⟩ : let s := longStart.run longOperations
      s.initialized = true ∧ (s.graph.fact? "a.js").isNone = true ∧
      (s.graph.fact? "m.js").isNone = true ∧
      s.normalize "a.js" = some "a.js" ∧ s.normalize "m.js" = some "m.js" ∧
      (s.freshFact? "a.js").toOption.join.isSome = true ∧
      s.root = "/p" ∧ s.resolver.endings = [longEnding] ∧ s.disk.at? ["p"] = some .directory ∧
      s.read "m.js" = .ok (some "import\".\"") ∧
      s.extractor.specifiersOf "m.js" "import\".\"" = ["."] ∧
      s.resolver.basePath? "m.js" "." = some "." ∧ Path.Proper ("." ++ longEnding) ∧
      Disk.hasNul ("." ++ longEnding) = false ∧
      Disk.longestName < ("." ++ longEnding).utf8ByteSize := by
    decide +kernel
  generalize longStart.run longOperations = s at *
  generalize longEnding = ending at *
  refine ⟨hinit, Option.isNone_iff_eq_none.1 hnone, ?_, ?_, ?_⟩
  · rintro file (rfl | rfl)
    · exact hnormal
    · exact hnormal'
  · cases hfresh : s.freshFact? "a.js" with
    | error e => simp [hfresh, Except.toOption] at hfirst
    | ok fact? =>
      cases fact? with
      | none => simp [hfresh, Except.toOption] at hfirst
      | some fact => exact ⟨fact, rfl⟩
  · exact freshFact?_of_resolve_error (Option.isNone_iff_eq_none.1 hmissing) hread himport
      (resolve_of_long hroot hendings hdir hbase hproper hnul hlong)

/-- Two files are named, one that has a new text and one that cannot be refreshed.  Only if the
first is named first, its fact has been replaced when the refresh fails. -/
theorem refresh_pair {p q other : String} {fact : FileFact} {e : Failure}
    (hset : s.ensureInitialized = (.ok (), s)) (hp : s.normalize p = some file)
    (hq : s.normalize q = some other) (hne : file ≠ other)
    (hfirst : s.freshFact? file = .ok (some fact)) (hsecond : s.freshFact? other = .error e) :
    s.refresh [p, q] = (.error e, s.replaceFact file fact) ∧
      s.refresh [q, p] = (.error e, s) := by
  have hq' : (s.replaceFact file fact).normalize q = some other := hq
  have hlast : (s.replaceFact file fact).freshFact? other = .error e := by
    rw [freshFact?_congr (remembers_replaceFact s file fact), hsecond]
    rw [graph_replaceFact, ImportGraph.fact?_upsert, if_neg hne]
  constructor
  · rw [refresh_eq hset, refreshEach, hp]
    simp only [hfirst, refreshEach, hq', hlast]
    rfl
  · rw [refresh_eq hset, refreshEach, hq]
    simp only [hsecond]
    rfl

/-- **The order shows where a file cannot be refreshed.**  Named in either order, the two files make
the question fail, but only in one of them the first has got a fact. -/
theorem graphs_of_longStart :
    ["a.js", "m.js"].Perm ["m.js", "a.js"] ∧
    ∃ t u, (longStart.run longOperations).detectRoutes ["a.js", "m.js"] false =
        (.error .nameTooLong, t) ∧
      (longStart.run longOperations).detectRoutes ["m.js", "a.js"] false =
        (.error .nameTooLong, u) ∧
      (t.graph.fact? "a.js").isSome = true ∧ u.graph.fact? "a.js" = none := by
  obtain ⟨hinit, hnone, hnormal, ⟨fact, hfirst⟩, hsecond⟩ := freshFact?_longStart
  obtain ⟨hab, hba⟩ := refresh_pair (if_pos hinit) (hnormal "a.js" (.inl rfl))
    (hnormal "m.js" (.inr rfl)) (by decide) hfirst hsecond
  have hheld : (((longStart.run longOperations).replaceFact "a.js" fact).graph.fact?
      "a.js").isSome = true := by
    rw [graph_replaceFact, ImportGraph.fact?_upsert, if_pos rfl, Option.isSome_some]
  exact ⟨.swap _ _ _, _, _, (questions_of_refresh_error hab).1,
    (questions_of_refresh_error hba).1, hheld, hnone⟩

end RouteImpact.Session
