import RouteImpact.Proofs.Analysis.Watching
import RouteImpact.Proofs.Component.Preparation
import RouteImpact.Proofs.Project.Spelling

namespace RouteImpact

/-!
# When questions return

A question may name any path: one outside the project, a directory, a file that is missing or
cannot be read.  Such paths are passed over.  What cannot be passed over is a path with the
character that ends names, and a file whose new text imports a name that is too long to ask for.

* `Session.refresh_ok_iff`, `Session.detectRoutes_ok_iff`, `Session.routeInfo_ok_iff`,
  `Session.routesServing_ok_iff` — each question returns exactly if the session can be set up
  and what has to be read can be named: the paths (`Askable`), and for components the route
  files whose map is out of date (`Renewable`);
* `Session.renewable_refreshEach` — a refresh does not change whether these can be named, and
  hence (`Session.prepareComponents_ok_iff`) preparing the maps succeeds as a whole if its
  first pass does;
* `Session.Unknown` — a path behind which nothing is known and nothing can be read;
  `Session.refresh_of_unknown` — it is as good as not named;
* `Session.affectedEach_precise` — the precise answers about several files;
* `Session.questions_of_any_paths` — what questions about any paths return;
* `Session.questions_of_nul` — a path with the character that ends names makes them fail.
-/

namespace ComponentMaps

variable {src : ComponentSource}

theorem mem_changedAmong {g : ImportGraph} {files : List String} {file : String} :
    file ∈ changedAmong g (textsNow src files) ↔
      file ∈ files ∧ agrees g file (textNow src file) = false := by
  simp [changedAmong, textsNow]

/-- Whether a map can be made is a matter of the file's fact and text. -/
theorem mappable_congr {src' : ComponentSource} {file : String}
    (hhash : factHash src'.graph file = factHash src.graph file)
    (hread : src'.read file = src.read file)
    (hresolver : src'.extractor.resolver = src.extractor.resolver) :
    (Mappable src' file ↔ Mappable src file) ∧
      agrees src'.graph file (textNow src' file) = agrees src.graph file (textNow src file) := by
  have htext : textNow src' file = textNow src file := by rw [textNow, textNow, hread]
  have hagrees : ∀ content, agrees src'.graph file content = agrees src.graph file content := by
    intro content
    cases content with
    | none => rfl
    | some text => rw [agrees, agrees, hhash]
  refine ⟨?_, by rw [htext, hagrees]⟩
  unfold Mappable Makeable
  simp only [hread, htext, hhash, hresolver, hagrees]

end ComponentMaps

namespace Session

open ComponentMaps (Mappable agrees textNow factHash)

variable {s t u : Session} {file : String} {limit : Option Int}

/-! ### The project's directory stays -/

theorem root_rebuild (s : Session) : s.rebuild.2.root = s.root := by
  unfold rebuild
  dsimp only
  split <;> rfl

theorem root_ensureInitialized (s : Session) : s.ensureInitialized.2.root = s.root := by
  unfold ensureInitialized setUp
  split
  · rfl
  · split
    · rfl
    · dsimp only
      split
      · rw [Outcome.snd_map, root_rebuild]
        rfl
      · split
        · rfl
        · rfl
        · rfl
        · rw [Outcome.snd_map, root_rebuild]

theorem root_andThen {α β : Type} {r : Outcome α} {f : α → Session → Outcome β}
    (hr : r.2.root = s.root) (hf : ∀ a t, (f a t).2.root = t.root) :
    (r.andThen f).2.root = s.root :=
  Outcome.andThen_induction (P := fun t => t.root = s.root) hr fun a t _ ht => (hf a t).trans ht

theorem root_refresh (s : Session) (paths : List String) :
    (s.refresh paths).2.root = s.root := by
  refine root_andThen (root_ensureInitialized s) fun _ t => ?_
  refine root_andThen (remembers_refreshEach paths t).sameAnalysis.root fun changed u => ?_
  exact (sameAnalysis_settled u changed).root

theorem root_prepareComponents (s : Session) : s.prepareComponents.2.root = s.root := by
  have honce : ∀ t : Session, t.prepareOnce.2.root = t.root := fun t => by
    rw [looked_prepareOnce t]
  refine root_andThen (honce s) fun changed t => ?_
  split
  · rfl
  · refine root_andThen (root_refresh t changed) fun _ u => ?_
    rw [Outcome.snd_map]
    exact honce u

/-! ### Setting up and refreshing -/

theorem initialized_setUp {force : Bool} (h : s.setUp force = (.ok (), t)) :
    t.initialized = true := by
  unfold setUp at h
  split at h
  · cases h
  · dsimp only at h
    split at h
    · obtain ⟨summary, hrebuild, -⟩ := Outcome.of_map h
      obtain ⟨files, rfl⟩ := built_of_rebuild hrebuild
      rfl
    · split at h
      · cases h
      · cases h
        rfl
      · cases h
      · obtain ⟨summary, hrebuild, -⟩ := Outcome.of_map h
        obtain ⟨files, rfl⟩ := built_of_rebuild hrebuild
        rfl

theorem initialized_of_ensureInitialized (h : s.ensureInitialized = (.ok (), t)) :
    t.initialized = true := by
  unfold ensureInitialized at h
  split at h
  · next hinit =>
    cases h
    exact hinit
  · exact initialized_setUp h

/-- **A refresh returns** exactly if the files that it names can be refreshed. -/
theorem refresh_ok_iff {paths : List String} :
    (∃ changed t, s.refresh paths = (.ok changed, t)) ↔
      ∃ u, s.ensureInitialized = (.ok (), u) ∧ u.Askable paths := by
  constructor
  · rintro ⟨changed, t, hrun⟩
    obtain ⟨_, u, hinit, hrest⟩ := Outcome.of_andThen hrun
    obtain ⟨files, v, heach, -⟩ := Outcome.of_andThen hrest
    exact ⟨u, hinit, (refreshes_iff.1 heach).askable⟩
  · rintro ⟨u, hinit, hask⟩
    obtain ⟨files, t, heach⟩ := exists_refreshes paths u hask
    refine ⟨files, t.settled files, ?_⟩
    rw [refresh_eq hinit, refreshes_iff.2 heach]
    rfl

theorem initialized_of_refresh {paths changed : List String}
    (h : s.refresh paths = (.ok changed, t)) : t.initialized = true := by
  obtain ⟨_, u, hinit, -⟩ := Outcome.of_andThen h
  have hu := initialized_of_ensureInitialized hinit
  have h' : u.refresh paths = (.ok changed, t) := by
    rw [refresh_eq (ensureInitialized_eq hu), ← refresh_eq hinit, h]
  obtain ⟨v, rfl, hv, -⟩ := of_refresh hu h'
  unfold settled
  rw [hv]
  split <;> exact hu

/-! ### Preparing component maps -/

/-- The map of a route file can be made: its text can be asked for, what the text binds can be
resolved if the file's fact is of this text, and the file can be refreshed if it is not. -/
def Mendable (s : Session) (routeFile : String) : Prop :=
  Mappable s.componentSource routeFile ∧
    (agrees s.graph routeFile (textNow s.componentSource routeFile) = false →
      s.Askable [routeFile])

/-- Every map of a route file that is out of date can be made. -/
def Renewable (s : Session) : Prop :=
  ∀ routeFile ∈ s.graph.routeFiles, s.components.isStale s.graph routeFile = true →
    s.Mendable routeFile

/-- Replacing the fact of a file does not matter to the others. -/
theorem mendable_replaceFact_of_ne {fact : FileFact} (hfact : s.freshFact? file = .ok (some fact))
    {x : String} (hx : file ≠ x) : (s.replaceFact file fact).Mendable x ↔ s.Mendable x := by
  have hhash : factHash (s.replaceFact file fact).graph x = factHash s.graph x := by
    rw [factHash, factHash, graph_replaceFact, ImportGraph.fact?_upsert, if_neg hx]
  have hsource := @ComponentMaps.mappable_congr s.componentSource
    (s.replaceFact file fact).componentSource x hhash rfl rfl
  refine and_congr hsource.1 (imp_congr ?_ (askable_replaceFact hfact))
  exact iff_of_eq (congrArg (· = false) hsource.2)

/-- The map of a file whose fact has just been extracted can be made. -/
theorem mendable_replaceFact_self {fact : FileFact}
    (hfact : s.freshFact? file = .ok (some fact)) : (s.replaceFact file fact).Mendable file := by
  have hst := remembers_replaceFact s file fact
  refine ⟨mappable_of_freshFact? hst hfact, fun hother => ?_⟩
  have hnew : (s.replaceFact file fact).graph.fact? file = some fact := by
    rw [graph_replaceFact, ImportGraph.fact?_upsert, if_pos rfl]
  have hhash : ((s.replaceFact file fact).heldFact file).contentHash =
      ((s.replaceFact file fact).factNow file).contentHash := by
    rw [heldFact_of_some hnew, hst.factNow, freshFact?_eq_some hfact]
  rw [agrees_of_contentHash hhash] at hother
  cases hother

/-- So can the map of one that gets a new fact. -/
theorem mendable_of_freshFact? {fact : FileFact} (hspelling : s.normalize file = some file)
    (hfact : s.freshFact? file = .ok (some fact)) : s.Mendable file := by
  refine ⟨mappable_of_freshFact? (Remembers.refl s) hfact, fun _ p hp f hf => ?_⟩
  rw [List.mem_singleton.1 hp, hspelling] at hf
  cases hf
  exact exists_freshFact?.1 ⟨_, hfact⟩

/-- Nor does it matter to the file itself, if it is known under its own spelling. -/
theorem renewable_replaceFact {fact : FileFact} (hspelling : s.normalize file = some file)
    (hfact : s.freshFact? file = .ok (some fact)) :
    (s.replaceFact file fact).Renewable ↔ s.Renewable := by
  refine forall_congr' fun x => ?_
  by_cases hx : file = x
  · subst hx
    exact ⟨fun _ _ _ => mendable_of_freshFact? hspelling hfact,
      fun _ _ _ => mendable_replaceFact_self hfact⟩
  · have hroute : x ∈ (s.replaceFact file fact).graph.routeFiles ↔ x ∈ s.graph.routeFiles :=
      ImportGraph.mem_routeFiles_upsert hx
    have hstale : (s.replaceFact file fact).components.isStale (s.replaceFact file fact).graph x =
        s.components.isStale s.graph x := @isStale_refreshed_of_ne s file (some fact) x hx
    rw [hroute, hstale, mendable_replaceFact_of_ne hfact hx]

theorem Refreshes.renewable {paths files : List String} (h : Refreshes paths s files t) :
    t.Renewable ↔ s.Renewable := by
  induction h with
  | nil s => exact Iff.rfl
  | outside _ _ ih => exact ih
  | kept _ _ _ ih => exact ih
  | replaced hpath hfact _ ih =>
    exact ih.trans (renewable_replaceFact (Project.normalize_spelling hpath) hfact)

theorem renewable_settled {changed : List String} :
    (s.settled changed).Renewable ↔ s.Renewable := by
  unfold settled
  split
  · exact Iff.rfl
  · refine forall_congr' fun x => ?_
    rw [ImportGraph.mem_routeFiles_markEntryPoints]
    exact Iff.rfl

/-- **A refresh** does not change whether the maps can be made. -/
theorem renewable_refresh {paths changed : List String} (hinit : s.ensureInitialized = (.ok (), u))
    (hrun : s.refresh paths = (.ok changed, t)) : t.Renewable ↔ u.Renewable := by
  rw [refresh_eq hinit] at hrun
  obtain ⟨files, v, heach, hlast⟩ := Outcome.of_andThen hrun
  cases hlast
  exact renewable_settled.trans (refreshes_iff.1 heach).renewable

theorem Renewable.preparable (h : s.Renewable) : s.Preparable :=
  fun routeFile hroute hstale => (h routeFile hroute hstale).1

theorem Prepared.renewable (h : s.Prepared) : s.Renewable := by
  intro routeFile hroute hstale
  rw [h routeFile hroute] at hstale
  cases hstale

theorem looked_of_prepareOnce {result : Except Failure (List String)}
    (h : s.prepareOnce = (result, t)) : Looked s t := by
  have hlooked := looked_prepareOnce s
  rwa [h] at hlooked

/-- The route files that are found changed are those without a map whose text is not the version
of their fact. -/
theorem mem_of_prepareOnce {changed : List String} (h : s.prepareOnce = (.ok changed, t)) :
    file ∈ changed ↔ (file ∈ s.graph.routeFiles ∧ s.components.isStale s.graph file = true) ∧
      agrees s.graph file (textNow s.componentSource file) = false := by
  unfold prepareOnce at h
  split at h
  · cases h
  · next found hfound =>
    obtain ⟨-, rfl⟩ := ComponentMaps.prepare_eq_ok.1 hfound
    cases h
    rw [ComponentMaps.mem_changedAmong, List.mem_filter]
    exact Iff.rfl

/-- **The maps can be made** if those that can be made at once are, and the route files that are
found changed by then can be refreshed. -/
theorem renewable_iff : s.Renewable ↔
    ∃ changed t, s.prepareOnce = (.ok changed, t) ∧ t.Askable changed := by
  constructor
  · intro h
    obtain ⟨changed, t, honce⟩ := exists_prepareOnce.2 h.preparable
    refine ⟨changed, t, honce, fun p hp f hf => ?_⟩
    obtain ⟨⟨hroute, hstale⟩, hother⟩ := (mem_of_prepareOnce honce).1 hp
    rw [looked_of_prepareOnce honce] at hf ⊢
    exact (h p hroute hstale).2 hother p (List.mem_singleton_self p) f hf
  · rintro ⟨changed, t, honce, hask⟩ routeFile hroute hstale
    refine ⟨(of_prepareOnce honce).1 routeFile hroute hstale, fun hother p hp f hf => ?_⟩
    rw [List.mem_singleton.1 hp] at hf
    rw [looked_of_prepareOnce honce] at hask
    exact hask routeFile ((mem_of_prepareOnce honce).2 ⟨⟨hroute, hstale⟩, hother⟩) f hf

/-- **Preparing succeeds** exactly if the maps can be made. -/
theorem prepareComponents_ok_iff (hinit : s.initialized = true) :
    (∃ t, s.prepareComponents = (.ok (), t)) ↔ s.Renewable := by
  rw [renewable_iff]
  constructor
  · rintro ⟨t, h⟩
    obtain ⟨changed, u, honce, hrest⟩ := Outcome.of_andThen h
    refine ⟨changed, u, honce, ?_⟩
    have hu : u.initialized = true := by
      rw [looked_of_prepareOnce honce]
      exact hinit
    split at hrest
    · next hnone =>
      rw [List.isEmpty_iff.1 hnone]
      exact fun p hp => absurd hp List.not_mem_nil
    · obtain ⟨files, v, hrefresh, -⟩ := Outcome.of_andThen hrest
      obtain ⟨w, hset, hask⟩ := refresh_ok_iff.1 ⟨files, v, hrefresh⟩
      rw [ensureInitialized_eq hu] at hset
      cases hset
      exact hask
  · rintro ⟨changed, u, honce, hask⟩
    have hu : u.initialized = true := by
      rw [looked_of_prepareOnce honce]
      exact hinit
    unfold prepareComponents
    rw [honce]
    show ∃ t, (if changed.isEmpty then ((.ok (), u) : Outcome Unit) else _) = (.ok (), t)
    split
    · exact ⟨u, rfl⟩
    · have hset := ensureInitialized_eq hu
      obtain ⟨files, v, hrefresh⟩ := refresh_ok_iff.2 ⟨u, hset, hask⟩
      have hrenewable : v.Renewable :=
        (renewable_refresh hset hrefresh).2 (prepared_of_prepareOnce honce).renewable
      obtain ⟨again, w, hagain⟩ := exists_prepareOnce.2 hrenewable.preparable
      refine ⟨w, ?_⟩
      rw [hrefresh]
      show Outcome.map (fun _ => ()) v.prepareOnce = _
      rw [hagain]
      rfl

/-! ### Answers in both modes -/

/-- The routes that are reported for a path: in precise mode those that render it, if there
are any, and else those that a search finds. -/
def reportFor (s : Session) (precise : Bool) (path : String) : List String :=
  let own := if precise then (s.normalize path).elim [] fun file =>
    Text.sortedSet ((s.served file).map (·.routePath)) else []
  if own.isEmpty then s.routesFor path else own

theorem reportFor_precise {path : String} (h : s.normalize path = some file) :
    s.reportFor true path =
      let own := Text.sortedSet ((s.served file).map (·.routePath))
      if own.isEmpty then s.routesFor path else own := by
  simp only [reportFor, h, if_true, Option.elim_some]

/-- Asking leaves the component maps alone. -/
theorem Asked.prepared (h : Asked limit s t) (hprepared : s.Prepared) : t.Prepared := by
  rw [h.frame]
  exact hprepared

theorem Asked.served (h : Asked limit s t) : t.served = s.served := by
  rw [h.frame]
  rfl

/-- **Many files in precise mode.** With all maps in place, every path with routes is reported
with its routes. -/
theorem affectedEach_precise (h : CoherentAt limit s) (hprepared : s.Prepared)
    (paths : List String) (found : OrderedMap (List String)) :
    ∃ t, affectedEach true paths found s =
        (.ok ((paths.filter fun p => !(s.reportFor true p).isEmpty).foldl
          (fun m p => m.set p (s.reportFor true p)) found), t) ∧ Asked limit s t := by
  refine affectedEach_eq h (fun p hp => ?_) (fun t ht p file hfile => ?_) paths found
  · simp [reportFor, hp, routesFor_of_none hp]
  · have hfile' : t.normalize p = some file := by rw [ht.normalize, hfile]
    obtain ⟨hroutes, hasked⟩ := asked_impactOf ht.coherent hfile'
    refine ⟨(t.impactOf file).2, ?_, hasked⟩
    have hserving : (t.impactOf file).2.serving file =
        (.ok (s.served file), (t.impactOf file).2) := by
      rw [serving_of_prepared ((ht.trans hasked).prepared hprepared), (ht.trans hasked).served]
    rw [reportFor_precise hfile, ← ht.routesFor, ← hroutes]
    unfold affected
    dsimp only
    rw [if_pos rfl]
    show Outcome.andThen ((t.impactOf file).2.serving file) _ = _
    rw [hserving]
    rfl

/-- The maps are prepared in precise mode only. -/
def readied (s : Session) (precise : Bool) : Outcome Unit :=
  if precise then s.prepareComponents else (.ok (), s)

theorem steps_readied (s : Session) (precise : Bool) : Steps s (s.readied precise).2 := by
  unfold readied
  split
  · exact steps_prepareComponents s
  · exact Relation.ReflTransGen.refl

theorem detectRoutes_eq (s : Session) (paths : List String) (precise : Bool) :
    s.detectRoutes paths precise = (s.refresh paths).andThen fun _ t =>
      (t.readied precise).andThen fun _ v => affectedEach precise paths OrderedMap.empty v := rfl

theorem readied_ok_iff (hinit : s.initialized = true) (precise : Bool) :
    (∃ t, s.readied precise = (.ok (), t)) ↔ (precise = true → s.Renewable) := by
  unfold readied
  cases precise with
  | false => simp
  | true =>
    rw [if_pos rfl, prepareComponents_ok_iff hinit]
    simp

/-- **Reporting** succeeds once all is prepared. -/
theorem affectedEach_of_readied {precise : Bool} (h : CoherentAt limit t)
    (hreadied : s.readied precise = (.ok (), t)) (paths : List String) :
    ∃ u, affectedEach precise paths OrderedMap.empty t =
        (.ok ((paths.filter fun p => !(t.reportFor precise p).isEmpty).foldl
          (fun m p => m.set p (t.reportFor precise p)) OrderedMap.empty), u) ∧
      Asked limit t u := by
  cases precise with
  | false => exact affectedEach_plain h paths OrderedMap.empty
  | true => exact affectedEach_precise h (prepared_of_prepareComponents hreadied) paths _

theorem coherentAt_readied {paths : List String} {precise : Bool}
    {refreshed : Except Failure (List String)} {result : Except Failure Unit}
    (h : CoherentAt limit s) (hrefresh : s.refresh paths = (refreshed, t))
    (hreadied : t.readied precise = (result, u)) : CoherentAt limit u := by
  have ht := steps_refresh s paths
  have hu := steps_readied t precise
  rw [hrefresh] at ht
  rw [hreadied] at hu
  exact coherentAt_steps h (ht.trans hu)

/-- **What a question about routes does when it returns.** -/
theorem of_detectRoutes {paths : List String} {precise : Bool} {found : OrderedMap (List String)}
    (h : CoherentAt limit s) (hrun : s.detectRoutes paths precise = (.ok found, u)) :
    ∃ changed v t, s.refresh paths = (.ok changed, v) ∧ v.readied precise = (.ok (), t) ∧
      Asked limit t u ∧ found = (paths.filter fun p => !(t.reportFor precise p).isEmpty).foldl
        (fun m p => m.set p (t.reportFor precise p)) OrderedMap.empty := by
  rw [detectRoutes_eq] at hrun
  obtain ⟨changed, v, hrefresh, hrest⟩ := Outcome.of_andThen hrun
  obtain ⟨_, t, hreadied, heach⟩ := Outcome.of_andThen hrest
  obtain ⟨w, hclosed, hasked⟩ :=
    affectedEach_of_readied (coherentAt_readied h hrefresh hreadied) hreadied paths
  rw [heach] at hclosed
  cases hclosed
  exact ⟨changed, v, t, hrefresh, hreadied, hasked, rfl⟩

/-- **A question about routes returns** exactly if the files that it names can be refreshed and,
in precise mode, the maps can be made. -/
theorem detectRoutes_ok_iff (h : CoherentAt limit s) {paths : List String} {precise : Bool} :
    (∃ found t, s.detectRoutes paths precise = (.ok found, t)) ↔
      ∃ u, s.ensureInitialized = (.ok (), u) ∧ u.Askable paths ∧
        (precise = true → u.Renewable) := by
  constructor
  · rintro ⟨found, t, hrun⟩
    obtain ⟨changed, v, w, hrefresh, hreadied, -⟩ := of_detectRoutes h hrun
    obtain ⟨u, hinit, hask⟩ := refresh_ok_iff.1 ⟨changed, v, hrefresh⟩
    refine ⟨u, hinit, hask, ?_⟩
    have hv := initialized_of_refresh hrefresh
    rw [← renewable_refresh hinit hrefresh]
    exact (readied_ok_iff hv precise).1 ⟨w, hreadied⟩
  · rintro ⟨u, hinit, hask, hrenewable⟩
    obtain ⟨changed, v, hrefresh⟩ := refresh_ok_iff.2 ⟨u, hinit, hask⟩
    have hv := initialized_of_refresh hrefresh
    rw [← renewable_refresh hinit hrefresh] at hrenewable
    obtain ⟨w, hreadied⟩ := (readied_ok_iff hv precise).2 hrenewable
    obtain ⟨x, heach, -⟩ :=
      affectedEach_of_readied (coherentAt_readied h hrefresh hreadied) hreadied paths
    have hrun : s.detectRoutes paths precise = affectedEach precise paths OrderedMap.empty w := by
      rw [detectRoutes_eq, hrefresh]
      show Outcome.andThen (v.readied precise) _ = _
      rw [hreadied]
      rfl
    exact ⟨_, x, hrun.trans heach⟩

theorem routeInfo_ok_iff {paths : List String} :
    (∃ infos t, s.routeInfo paths = (.ok infos, t)) ↔
      ∃ u, s.ensureInitialized = (.ok (), u) ∧ u.Askable paths := by
  rw [← refresh_ok_iff]
  constructor
  · rintro ⟨infos, t, hrun⟩
    obtain ⟨changed, v, hrefresh, -⟩ := Outcome.of_andThen hrun
    exact ⟨changed, v, hrefresh⟩
  · rintro ⟨changed, v, hrefresh⟩
    refine ⟨(infoEach paths OrderedMap.empty v).1, (infoEach paths OrderedMap.empty v).2, ?_⟩
    unfold routeInfo
    rw [hrefresh]
    rfl

/-- **A question about a component returns** exactly if it is outside the project or the maps
can be made; its own path is not read. -/
theorem routesServing_ok_iff {path : String} :
    (∃ found t, s.routesServing path = (.ok found, t)) ↔
      ∃ u, s.ensureInitialized = (.ok (), u) ∧
        ((u.normalize path).isSome = true → u.Renewable) := by
  constructor
  · rintro ⟨found, t, hrun⟩
    obtain ⟨_, u, hinit, hrest⟩ := Outcome.of_andThen hrun
    refine ⟨u, hinit, fun hinside => ?_⟩
    obtain ⟨file, hfile⟩ := Option.isSome_iff_exists.1 hinside
    rw [hfile] at hrest
    obtain ⟨_, v, hprepare, -⟩ := Outcome.of_andThen hrest
    exact (prepareComponents_ok_iff (initialized_of_ensureInitialized hinit)).1 ⟨v, hprepare⟩
  · rintro ⟨u, hinit, hrenewable⟩
    unfold routesServing
    rw [hinit, Outcome.andThen]
    cases hfile : u.normalize path with
    | none => exact ⟨[], u, rfl⟩
    | some file =>
      obtain ⟨v, hprepare⟩ := (prepareComponents_ok_iff
        (initialized_of_ensureInitialized hinit)).2 (hrenewable (by simp [hfile]))
      refine ⟨v.served file, v, ?_⟩
      rw [hprepare]
      exact serving_of_prepared (prepared_of_prepareComponents hprepare) file

/-! ### Paths behind which there is nothing -/

/-- A file that cannot be read can be refreshed. -/
theorem refreshable_of_unreadable (h : s.read file = .ok none) : s.Refreshable file := by
  refine exists_freshFact?.1 ?_
  unfold freshFact?
  rw [h]
  exact ⟨_, rfl⟩

/-- A path outside the project, or of a file that cannot be read and has no fact. -/
def Unknown (s : Session) (path : String) : Prop :=
  ∀ file, s.normalize path = some file → s.read file = .ok none ∧ s.graph.fact? file = none

theorem freshFact?_of_unknown {path : String} (h : s.Unknown path)
    (hfile : s.normalize path = some file) : s.freshFact? file = .ok none := by
  obtain ⟨hread, hfact⟩ := h file hfile
  unfold freshFact?
  rw [hread, hfact]
  rfl

/-- It stays so when the fact of another file is replaced. -/
theorem Unknown.replaceFact {path : String} (h : s.Unknown path) {fact : FileFact}
    (hother : s.normalize path ≠ some file) : (s.replaceFact file fact).Unknown path := by
  intro f hf
  obtain ⟨hread, hfact⟩ := h f hf
  refine ⟨hread, ?_⟩
  have hne : file ≠ f := fun heq => hother (heq ▸ hf)
  rw [graph_replaceFact, ImportGraph.fact?_upsert, if_neg hne]
  exact hfact

/-- Wherever it stands among others, it is passed over. -/
theorem refreshEach_of_unknown {path : String} (h : s.Unknown path) (before after : List String) :
    refreshEach (before ++ path :: after) s = refreshEach (before ++ after) s := by
  induction before generalizing s with
  | nil =>
    show refreshEach (path :: after) s = refreshEach after s
    rw [refreshEach]
    cases hfile : s.normalize path with
    | none => rfl
    | some file => simp only [freshFact?_of_unknown h hfile]
  | cons first rest ih =>
    rw [List.cons_append, List.cons_append, refreshEach, refreshEach]
    cases hfirst : s.normalize first with
    | none => exact ih h
    | some file =>
      dsimp only
      cases hfresh : s.freshFact? file with
      | error e => rfl
      | ok fact? =>
        cases fact? with
        | none => exact ih h
        | some fact =>
          -- the fact that is replaced is not that of the path: it has none to replace
          have hother : s.normalize path ≠ some file := by
            intro hfile
            rw [freshFact?_of_unknown h hfile] at hfresh
            cases hfresh
          simp only [ih (h.replaceFact hother)]

/-- **A path behind which there is nothing** is as good as not named. -/
theorem refresh_of_unknown {path : String} (hinit : s.ensureInitialized = (.ok (), u))
    (h : u.Unknown path) (before after : List String) :
    s.refresh (before ++ path :: after) = s.refresh (before ++ after) := by
  rw [refresh_eq hinit, refresh_eq hinit, refreshEach_of_unknown h]

/-- The graph has no node for a path. -/
def Placeless (s : Session) (path : String) : Prop :=
  ∀ file, s.normalize path = some file → s.graph.node? file = none

/-- A refresh gives it no node, unless a file with a new text imports it. -/
theorem Unknown.placeless_refresh {path : String} {paths changed : List String}
    (h : u.Unknown path) (hinit : s.ensureInitialized = (.ok (), u)) (hplace : u.Placeless path)
    (hrun : s.refresh paths = (.ok changed, t))
    (himports : ∀ f ∈ changed, ∀ file, u.normalize path = some file →
      file ∉ ImportGraph.targets f (u.factNow f)) : t.Placeless path := by
  rw [refresh_eq hinit] at hrun
  obtain ⟨files, v, heach, hlast⟩ := Outcome.of_andThen hrun
  cases hlast
  replace heach := refreshes_iff.1 heach
  have hplaced : ∀ file, u.normalize path = some file → v.graph.node? file = none := by
    intro file hfile
    rw [heach.graph]
    -- facts come in for files that have changed, and this one has not
    refine Project.addFacts_induction (P := fun g => g.node? file = none) (hplace file hfile) ?_
    intro g f hf hg
    have hne : file ≠ f := by
      rintro rfl
      obtain ⟨fact, hfact⟩ := ((heach.mem_iff file).1 hf).2
      rw [freshFact?_of_unknown h hfile] at hfact
      cases hfact
    rw [← Option.not_isSome_iff_eq_none, ImportGraph.isSome_node?_upsert]
    simp [hne, hg, himports f hf file hfile]
  intro file hfile
  have hroot : (v.settled changed).root = u.root :=
    (heach.remembers.sameAnalysis.trans (sameAnalysis_settled v changed)).root
  replace hfile : Project.normalize (v.settled changed).root path = some file := hfile
  rw [hroot] at hfile
  have hnode := hplaced file hfile
  show (v.settled changed).graph.node? file = none
  unfold settled
  split
  · exact hnode
  · rw [ImportGraph.node?_markEntryPoints, hnode]
    rfl

/-- Reporting leaves the graph alone. -/
theorem graph_detectRoutes (s : Session) (paths : List String) (precise : Bool) :
    (s.detectRoutes paths precise).2.graph =
      ((s.refresh paths).andThen fun _ t => t.readied precise).2.graph := by
  rw [detectRoutes_eq]
  rcases s.refresh paths with ⟨refreshed, t⟩
  cases refreshed with
  | error e => rfl
  | ok changed =>
    show ((t.readied precise).andThen _).2.graph = (t.readied precise).2.graph
    rcases t.readied precise with ⟨result, u⟩
    cases result with
    | error e => rfl
    | ok _ =>
      show (affectedEach precise paths OrderedMap.empty u).2.graph = u.graph
      rw [looked_affectedEach precise paths OrderedMap.empty u]

theorem graph_routeInfo (s : Session) (paths : List String) :
    (s.routeInfo paths).2.graph = (s.refresh paths).2.graph := by
  unfold routeInfo
  rcases s.refresh paths with ⟨refreshed, t⟩
  cases refreshed with
  | error e => rfl
  | ok changed =>
    show (infoEach paths OrderedMap.empty t).2.graph = t.graph
    rw [looked_infoEach paths OrderedMap.empty t]

/-! ### Files that get no routes -/

/-- No route file has a name for a path. -/
def Nameless (s : Session) (path : String) : Prop :=
  ∀ file, s.normalize path = some file →
    ∀ routeFile ∈ s.graph.routeFiles, s.nameIn file routeFile = none

theorem routesFor_of_placeless {path : String} (h : s.Placeless path) : s.routesFor path = [] := by
  cases hfile : s.normalize path with
  | none => exact routesFor_of_none hfile
  | some file =>
    rw [routesFor_of_some hfile]
    unfold ImpactCache.impactOf
    simp only [h file hfile]
    rfl

theorem infoFor_of_placeless {path : String} (h : s.Placeless path) : s.infoFor path = {} := by
  unfold infoFor
  rw [routesFor_of_placeless h]
  cases hfile : s.normalize path with
  | none => rfl
  | some file =>
    simp only [Option.elim_some, h file hfile]
    rfl

theorem served_of_nameless {path : String} (h : s.Nameless path)
    (hfile : s.normalize path = some file) : s.served file = [] := by
  rw [served, List.flatMap_eq_nil_iff]
  intro routeFile hroute
  rw [servedBy, h file hfile routeFile hroute]
  rfl

theorem reportFor_of_placeless {path : String} {precise : Bool} (h : s.Placeless path)
    (hname : precise = true → s.Nameless path) : s.reportFor precise path = [] := by
  cases precise with
  | false => exact routesFor_of_placeless h
  | true =>
    cases hfile : s.normalize path with
    | none => simp [reportFor, hfile, routesFor_of_none hfile]
    | some file =>
      have hnone : Text.sortedSet [] = [] := by simp [Text.sortedSet, Text.sort, Text.distinct]
      rw [reportFor_precise hfile, served_of_nameless (hname rfl) hfile]
      simp only [List.map_nil, hnone, List.isEmpty_nil, if_true]
      exact routesFor_of_placeless h

theorem Asked.placeless {path : String} (h : Asked limit s t) :
    t.Placeless path ↔ s.Placeless path := by
  rw [h.frame]
  rfl

theorem Asked.nameless {path : String} (h : Asked limit s t) :
    t.Nameless path ↔ s.Nameless path := by
  rw [h.frame]
  rfl

/-- **Plain and precise answers** leave out a path without a node, which in precise mode must
also have no name in a route file. -/
theorem get?_detectRoutes_of_placeless {paths : List String} {precise : Bool}
    {found : OrderedMap (List String)} (h : CoherentAt limit s)
    (hrun : s.detectRoutes paths precise = (.ok found, u)) {path : String}
    (hplace : u.Placeless path) (hname : precise = true → u.Nameless path) :
    found.get? path = none := by
  obtain ⟨changed, v, t, -, -, hasked, rfl⟩ := of_detectRoutes h hrun
  have hreport : t.reportFor precise path = [] :=
    reportFor_of_placeless (hasked.placeless.1 hplace) fun hp => hasked.nameless.1 (hname hp)
  rw [OrderedMap.get?_foldl_assign, OrderedMap.get?_empty, if_neg]
  simp [hreport]

theorem get?_routeInfo_of_placeless {paths : List String} {infos : OrderedMap RouteInfo}
    (h : CoherentAt limit s) (hrun : s.routeInfo paths = (.ok infos, u)) {path : String}
    (hmem : path ∈ paths) (hplace : u.Placeless path) : infos.get? path = some {} := by
  obtain ⟨changed, t, hrefresh, -⟩ := Outcome.of_andThen hrun
  have ht : CoherentAt limit t := by
    have hsteps := steps_refresh s paths
    rw [hrefresh] at hsteps
    exact coherentAt_steps h hsteps
  obtain ⟨w, hclosed, hasked⟩ := routeInfo_of_refresh ht hrefresh
  rw [hrun] at hclosed
  cases hclosed
  rw [OrderedMap.get?_foldl_assign, if_pos hmem, infoFor_of_placeless (hasked.placeless.1 hplace)]

theorem routesServing_of_nameless {path : String} {found : List ServingRoute}
    (hrun : s.routesServing path = (.ok found, t)) (hname : t.Nameless path) : found = [] := by
  obtain ⟨_, u, -, hrest⟩ := Outcome.of_andThen hrun
  cases hfile : u.normalize path with
  | none =>
    rw [hfile] at hrest
    cases hrest
    rfl
  | some file =>
    rw [hfile] at hrest
    obtain ⟨_, v, hprepare, hserving⟩ := Outcome.of_andThen hrest
    rw [serving_of_prepared (prepared_of_prepareComponents hprepare)] at hserving
    cases hserving
    have hroot := root_prepareComponents u
    rw [hprepare] at hroot
    refine served_of_nameless hname ?_
    rw [normalize, hroot]
    exact hfile

/-- **Questions about any paths.**  Take any session that comes about, and any paths: empty,
absolute, outside the project, of directories, of files that are missing or cannot be read,
with any characters that text is made of.  A refresh, a question about routes or about files
returns exactly if the session can be set up and each path that has a spelling in the project
leads to a file that can be refreshed: the character that ends names is not in it, and if the
file has a new text, no import of the text asks for a name that is too long.  Where components
are asked for, the maps of route files that are out of date have to be made as well
(`Renewable`), and nothing is asked of the component's own path.  A path behind which there is
nothing, with no fact and no readable file, is as good as not named: with it and without it a
refresh returns the same and a question leaves the same graph, in which the path gets a node
only if another path of the list has a new text that imports it.  Without a node it gets no
routes; in precise mode and as a component it gets none if no route file has a name for it.

A session that keeps a graph with another value in the place of a text counts as one that
cannot be set up. -/
theorem questions_of_any_paths {root : String} {config : Settings.Config} {host : Host}
    {now : Moment} {s₀ : Session} (hstart : start root config host now = .ok s₀)
    {ops : List Operation} (hs : s₀.run ops = s) :
    (∀ paths, (∃ changed t, s.refresh paths = (.ok changed, t)) ↔
      ∃ u, s.ensureInitialized = (.ok (), u) ∧ u.Askable paths) ∧
    (∀ paths precise, (∃ found t, s.detectRoutes paths precise = (.ok found, t)) ↔
      ∃ u, s.ensureInitialized = (.ok (), u) ∧ u.Askable paths ∧
        (precise = true → u.Renewable)) ∧
    (∀ paths, (∃ infos t, s.routeInfo paths = (.ok infos, t)) ↔
      ∃ u, s.ensureInitialized = (.ok (), u) ∧ u.Askable paths) ∧
    (∀ path, (∃ found t, s.routesServing path = (.ok found, t)) ↔
      ∃ u, s.ensureInitialized = (.ok (), u) ∧
        ((u.normalize path).isSome = true → u.Renewable)) ∧
    ∀ u path, s.ensureInitialized = (.ok (), u) → u.Unknown path →
      (∀ before after,
        s.refresh (before ++ path :: after) = s.refresh (before ++ after) ∧
        (∀ changed t, s.refresh (before ++ path :: after) = (.ok changed, t) → u.Placeless path →
          (∀ f ∈ changed, ∀ file, u.normalize path = some file →
            file ∉ ImportGraph.targets f (u.factNow f)) → t.Placeless path) ∧
        (∀ precise, (s.detectRoutes (before ++ path :: after) precise).2.graph =
          (s.detectRoutes (before ++ after) precise).2.graph) ∧
        (s.routeInfo (before ++ path :: after)).2.graph =
          (s.routeInfo (before ++ after)).2.graph ∧
        (∀ precise found t, s.detectRoutes (before ++ path :: after) precise = (.ok found, t) →
          t.Placeless path → (precise = true → t.Nameless path) → found.get? path = none) ∧
        ∀ infos t, s.routeInfo (before ++ path :: after) = (.ok infos, t) →
          t.Placeless path → infos.get? path = some {}) ∧
      ∀ found t, s.routesServing path = (.ok found, t) → t.Nameless path → found = [] := by
  have h : CoherentAt config.earlyStopDepth s := by
    rw [← hs]
    exact run_induction (fun s t => coherentAt_step s t) (coherentAt_start hstart) ops
  refine ⟨fun _ => refresh_ok_iff, fun _ _ => detectRoutes_ok_iff h, fun _ => routeInfo_ok_iff,
    fun _ => routesServing_ok_iff, fun u path hinit hunknown => ⟨fun before after => ?_, ?_⟩⟩
  · have hrefresh := refresh_of_unknown hinit hunknown before after
    refine ⟨hrefresh, ?_, fun precise => ?_, ?_, ?_, ?_⟩
    · exact fun changed t hrun hplace => hunknown.placeless_refresh hinit hplace hrun
    · rw [graph_detectRoutes, graph_detectRoutes, hrefresh]
    · rw [graph_routeInfo, graph_routeInfo, hrefresh]
    · exact fun precise found t hrun => get?_detectRoutes_of_placeless h hrun
    · exact fun infos t hrun => get?_routeInfo_of_placeless h hrun (by simp)
  · exact fun found t hrun => routesServing_of_nameless hrun

/-- A session that has loaded the graph of a route file and of its import, both of which are
gone. -/
def lostPageLoaded : Session := lostPageSession.run [.setUp false]

/-- Paths of all kinds, none of which leads to a file. -/
def deadEnds : List String := ["", "/etc", "../x", "b/..", "lost/page.ts", "a", "b"]

/-- What the session says of these paths, and what it answers. -/
theorem outcome_lostPageLoaded : lostPageLoaded.initialized = true ∧
    (∀ p ∈ deadEnds, (lostPageLoaded.normalize p).all
      fun file => (lostPageLoaded.read file).toOption == some none) ∧
    lostPageLoaded.normalize "lost/page.ts" = some "lost/page.ts" ∧
    (lostPageLoaded.graph.fact? "lost/page.ts").isNone = true ∧
    (lostPageLoaded.detectRoutes ["b", "lost/page.ts"] false).1.toOption.map (·.get? "b") =
      some (some ["/"]) ∧
    let t := (lostPageLoaded.detectRoutes ["b", "lost/page.ts"] false).2
    t.normalize "lost/page.ts" = some "lost/page.ts" ∧
      (t.graph.node? "lost/page.ts").isNone = true := by
  decide +kernel

theorem read_lostPageLoaded : ∀ p ∈ deadEnds, ∀ file, lostPageLoaded.normalize p = some file →
    lostPageLoaded.read file = .ok none := by
  obtain ⟨-, hgone, -⟩ := outcome_lostPageLoaded
  intro p hp file hfile
  have hnone := hgone p hp
  rw [hfile, Option.all_some, beq_iff_eq] at hnone
  cases hread : lostPageLoaded.read file with
  | error e =>
    rw [hread] at hnone
    cases hnone
  | ok content =>
    rw [hread] at hnone
    exact congrArg Except.ok (Option.some.inj hnone)

theorem askable_lostPageLoaded {paths : List String} (h : paths ⊆ deadEnds) :
    lostPageLoaded.Askable paths :=
  fun p hp file hfile => refreshable_of_unreadable (read_lostPageLoaded p (h hp) file hfile)

theorem unknown_lostPageLoaded : lostPageLoaded.Unknown "lost/page.ts" := by
  obtain ⟨-, -, hnormal, hfact, -⟩ := outcome_lostPageLoaded
  intro file hfile
  have hnone := read_lostPageLoaded "lost/page.ts" (by decide) file hfile
  rw [hnormal] at hfile
  cases hfile
  exact ⟨hnone, Option.isNone_iff_eq_none.1 hfact⟩

/-- Asked about the import and about a file that was never there, it returns the route which
that import affects and none for the other file; paths of all kinds can be refreshed. -/
theorem questions_of_any_paths_lostPageSession :
    start "/p" plainConfig lostPageHost Number.Binary64.zero = .ok lostPageSession ∧
    lostPageLoaded.ensureInitialized = (.ok (), lostPageLoaded) ∧
    lostPageLoaded.Unknown "lost/page.ts" ∧
    (∃ changed t, lostPageLoaded.refresh ["", "/etc", "../x", "b/..", "lost/page.ts", "a", "b"] =
      (.ok changed, t)) ∧
    ∃ found t, lostPageLoaded.detectRoutes ["b", "lost/page.ts"] false = (.ok found, t) ∧
      found.get? "b" = some ["/"] ∧ found.get? "lost/page.ts" = none := by
  have hstart : start "/p" plainConfig lostPageHost Number.Binary64.zero = .ok lostPageSession :=
    rfl
  obtain ⟨hset, -, -, -, hanswer, hnormal, hplaceless⟩ := outcome_lostPageLoaded
  have hinit := ensureInitialized_eq hset
  obtain ⟨hrefresh, hdetect, -, -, hunknowns⟩ := questions_of_any_paths hstart
    (show lostPageSession.run [.setUp false] = lostPageLoaded from rfl)
  obtain ⟨found, t, hrun⟩ := (hdetect ["b", "lost/page.ts"] false).2
    ⟨_, hinit, askable_lostPageLoaded (by decide), nofun⟩
  refine ⟨hstart, hinit, unknown_lostPageLoaded,
    (hrefresh _).2 ⟨_, hinit, askable_lostPageLoaded (List.Subset.refl _)⟩, found, t, hrun, ?_, ?_⟩
  · rw [hrun] at hanswer
    exact Option.some.inj hanswer
  obtain ⟨-, -, -, -, hnone, -⟩ := (hunknowns _ _ hinit unknown_lostPageLoaded).1 ["b"] []
  rw [hrun] at hnormal hplaceless
  refine hnone false found t hrun (fun file hfile => ?_) nofun
  rw [hnormal] at hfile
  cases hfile
  exact Option.isNone_iff_eq_none.1 hplaceless

/-- **A path with the character that ends names** makes a refresh and both questions fail,
also when it comes after other paths. -/
theorem questions_of_nul :
    (lostPageLoaded.refresh ["b", "x\x00y.ts"]).1 = .error .nulInPath ∧
    (lostPageLoaded.detectRoutes ["b", "x\x00y.ts"] false).1.map (·.entries) =
      .error .nulInPath ∧
    (lostPageLoaded.routeInfo ["b", "x\x00y.ts"]).1.map (·.entries) = .error .nulInPath ∧
    (lostPageLoaded.routesServing "x\x00y.ts").1 = .ok [] := by
  decide +kernel

end Session

end RouteImpact
