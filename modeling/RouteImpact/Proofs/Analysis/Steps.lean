import Mathlib.Logic.Relation
import RouteImpact.Analysis.Query
import RouteImpact.Analysis.Watch

namespace RouteImpact

open Relation (ReflTransGen)

/-!
# What an operation does to a session

However long an operation, what it does to the graph and the remembered answers is a
sequence of a few kinds of change, whether it succeeds or fails.

* `Outcome.of_andThen`, `Outcome.of_map` — an operation in two parts that has succeeded;
* `Outcome.andThen_induction`, `refreshEach_induction` — what an operation in two parts keeps,
  from what each of them keeps, and a refresh, from what a fact that is replaced keeps;
* `Operation`, `apply`, `run` — the operations on a session with what may happen between
  them, and a history of these;
* `Step` — the kinds of change;
* `steps_refresh`, `steps_detectRoutes`, … — every operation is a sequence of such changes;
* `run_induction` — hence what every change keeps is kept by every history.
-/

/-- An operation in two parts succeeds when both do. -/
theorem Outcome.of_andThen {α β : Type} {r : Outcome α} {f : α → Session → Outcome β} {b : β}
    {t : Session} (h : r.andThen f = (.ok b, t)) : ∃ a u, r = (.ok a, u) ∧ f a u = (.ok b, t) := by
  obtain ⟨result, u⟩ := r
  cases result with
  | error e => cases h
  | ok a => exact ⟨a, u, rfl, h⟩

/-- The result of an operation is changed only when there is one. -/
theorem Outcome.of_map {α β : Type} {r : Outcome α} {f : α → β} {b : β} {t : Session}
    (h : Outcome.map f r = (.ok b, t)) : ∃ a, r = (.ok a, t) ∧ f a = b := by
  obtain ⟨a, u, hr, hf⟩ := Outcome.of_andThen h
  cases hf
  exact ⟨a, hr, rfl⟩

theorem Outcome.of_map_error {α β : Type} {r : Outcome α} {f : α → β} {e : Failure} {t : Session}
    (h : Outcome.map f r = (.error e, t)) : r = (.error e, t) := by
  obtain ⟨result, u⟩ := r
  cases result with
  | error _ =>
    cases h
    rfl
  | ok a => cases h

/-- What both parts of an operation keep is kept by the whole, also where the first one fails. -/
theorem Outcome.andThen_induction {α β : Type} {P : Session → Prop} {r : Outcome α}
    {f : α → Session → Outcome β} (hr : P r.2)
    (hf : ∀ a t, r = (.ok a, t) → P t → P (f a t).2) : P (r.andThen f).2 := by
  obtain ⟨result, t⟩ := r
  cases result with
  | error e => exact hr
  | ok a => exact hf a t rfl hr

/-- The session after an operation does not depend on what is made of its result. -/
theorem Outcome.snd_map {α β : Type} (f : α → β) (r : Outcome α) : (Outcome.map f r).2 = r.2 := by
  obtain ⟨result, t⟩ := r
  cases result <;> rfl

namespace Session

/-! ### Histories -/

/-- An operation on a session, or something that happens outside between two of them. -/
inductive Operation where
  | setUp (force : Bool)
  | rebuild
  | refresh (paths : List String)
  | detectRoutes (paths : List String) (precise : Bool)
  | routeInfo (paths : List String)
  | routesServing (path : String)
  | metrics
  | persist
  | clearCache
  | takeBatch (patterns changed : List String)
  /-- The files become others. -/
  | edit (disk : Disk)
  /-- Time goes by. -/
  | wait (now : Moment)

/-- The session after an operation, failed or not. -/
def apply (s : Session) : Operation → Session
  | .setUp force => (s.setUp force).2
  | .rebuild => s.rebuild.2
  | .refresh paths => (s.refresh paths).2
  | .detectRoutes paths precise => (s.detectRoutes paths precise).2
  | .routeInfo paths => (s.routeInfo paths).2
  | .routesServing path => (s.routesServing path).2
  | .metrics => s.metrics.2
  | .persist => s.persist.2
  | .clearCache => s.clearCache
  | .takeBatch patterns changed => (s.takeBatch patterns changed).2
  | .edit disk => { s with host := { s.host with disk } }
  | .wait now => { s with now }

/-- The session after one operation after the other. -/
def run (s : Session) (ops : List Operation) : Session := ops.foldl apply s

/-! ### Kinds of change -/

/-- A change of the graph and of what is remembered about it.  The settings stay. -/
inductive Step : Session → Session → Prop
  /-- Something else changes. -/
  | frame {s t : Session} (graph : t.graph = s.graph) (impact : t.impact = s.impact)
      (config : t.config = s.config) : Step s t
  /-- All answers are forgotten; the graph may be any other. -/
  | restart {s t : Session} (impact : t.impact = ImpactCache.empty)
      (config : t.config = s.config) : Step s t
  | replaceFact (s : Session) (file : String) (fact : FileFact) : Step s (s.replaceFact file fact)
  | markEntryPoints (s : Session) : Step s { s with graph := s.graph.markEntryPoints }
  | impactOf (s : Session) (file : String) : Step s (s.impactOf file).2

/-- Any number of changes. -/
abbrev Steps : Session → Session → Prop := ReflTransGen Step

theorem steps_frame {s t : Session} (graph : t.graph = s.graph) (impact : t.impact = s.impact)
    (config : t.config = s.config) : Steps s t :=
  ReflTransGen.single (.frame graph impact config)

theorem steps_restart {s t : Session} (impact : t.impact = ImpactCache.empty)
    (config : t.config = s.config) : Steps s t :=
  ReflTransGen.single (.restart impact config)

/-- An operation in two parts makes the changes of both, or of the first when it fails. -/
theorem steps_andThen {α β : Type} {s : Session} {r : Outcome α} {f : α → Session → Outcome β}
    (hr : Steps s r.2) (hf : ∀ a t, Steps t (f a t).2) : Steps s (r.andThen f).2 :=
  Outcome.andThen_induction hr fun a t _ ht => ht.trans (hf a t)

theorem steps_map {α β : Type} {s : Session} {r : Outcome α} (f : α → β) (hr : Steps s r.2) :
    Steps s (Outcome.map f r).2 :=
  steps_andThen hr fun _ _ => ReflTransGen.refl

/-! ### Building and loading -/

theorem steps_persist (s : Session) : Steps s s.persist.2 :=
  steps_frame rfl rfl rfl

theorem steps_clearCache (s : Session) : Steps s s.clearCache :=
  steps_restart rfl rfl

theorem steps_rebuild (s : Session) : Steps s s.rebuild.2 := by
  unfold rebuild
  dsimp only
  split
  · exact steps_restart rfl rfl
  · exact steps_restart rfl rfl

theorem steps_setUp (s : Session) (force : Bool) : Steps s (s.setUp force).2 := by
  unfold setUp
  split
  · exact ReflTransGen.refl
  · next framework _ =>
    have hframework : Steps s { s with framework } := steps_frame rfl rfl rfl
    refine hframework.trans ?_
    dsimp only
    -- by force everything is built anew; otherwise a kept graph is taken over if there is one
    split
    · exact steps_map _ ((steps_clearCache _).trans (steps_rebuild _))
    · split
      · exact ReflTransGen.refl
      · exact steps_restart rfl rfl
      · exact steps_restart rfl rfl
      · exact steps_map _ (steps_rebuild _)

theorem steps_ensureInitialized (s : Session) : Steps s s.ensureInitialized.2 := by
  unfold ensureInitialized
  split
  · exact ReflTransGen.refl
  · exact steps_setUp s false

/-! ### Refreshing -/

/-- What every fact that is replaced keeps is kept by a refresh, failed or not. -/
theorem refreshEach_induction {P : Session → Prop}
    (hreplace : ∀ {t : Session} {file : String} {fact : FileFact},
      t.freshFact? file = .ok (some fact) → P t → P (t.replaceFact file fact))
    (paths : List String) {s : Session} (hs : P s) : P (refreshEach paths s).2 := by
  induction paths generalizing s with
  | nil => exact hs
  | cons path rest ih =>
    unfold refreshEach
    -- a path outside the project and a file without news are passed over
    split
    · exact ih hs
    · split
      · exact hs
      · exact ih hs
      · next hfact =>
        rw [Outcome.snd_map]
        exact ih (hreplace hfact hs)

theorem steps_refreshEach (paths : List String) (s : Session) :
    Steps s (refreshEach paths s).2 :=
  refreshEach_induction (fun _ hst => hst.tail (.replaceFact ..)) paths ReflTransGen.refl

theorem steps_refresh (s : Session) (paths : List String) : Steps s (s.refresh paths).2 := by
  refine steps_andThen (steps_ensureInitialized s) fun _ t => ?_
  refine steps_andThen (steps_refreshEach paths t) fun changed u => ?_
  -- entry points are marked again only when a fact was replaced
  dsimp only
  split
  · exact ReflTransGen.refl
  · exact ReflTransGen.single (.markEntryPoints u)

theorem steps_takeBatch (s : Session) (patterns changed : List String) :
    Steps s (s.takeBatch patterns changed).2 := by
  unfold takeBatch
  split
  · exact ReflTransGen.refl
  · exact ReflTransGen.refl
  · exact steps_map _ (steps_refresh s _)

/-! ### Component maps

Preparing and using the component maps leaves graph and answers alone, but for the route
files that are refreshed first.
-/

theorem steps_prepareOnce (s : Session) : Steps s s.prepareOnce.2 := by
  unfold prepareOnce
  split
  · exact steps_frame rfl rfl rfl
  · exact steps_frame rfl rfl rfl

theorem steps_prepareComponents (s : Session) : Steps s s.prepareComponents.2 := by
  refine steps_andThen (steps_prepareOnce s) fun changed t => ?_
  split
  · exact ReflTransGen.refl
  · exact steps_andThen (steps_refresh t changed) fun _ u => steps_map _ (steps_prepareOnce u)

theorem steps_servingIn (s : Session) (file routeFile : String) :
    Steps s (s.servingIn file routeFile).2 := by
  unfold servingIn
  split
  · exact ReflTransGen.refl
  · dsimp only
    split
    · exact steps_frame rfl rfl rfl
    · split
      · exact steps_frame rfl rfl rfl
      · exact steps_frame rfl rfl rfl

theorem steps_servingAmong (file : String) (routeFiles : List String) (s : Session) :
    Steps s (servingAmong file routeFiles s).2 := by
  induction routeFiles generalizing s with
  | nil => exact ReflTransGen.refl
  | cons routeFile rest ih =>
    exact steps_andThen (steps_servingIn s file routeFile) fun _ t => steps_map _ (ih t)

/-! ### Questions -/

theorem steps_impactOf (s : Session) (file : String) : Steps s (s.impactOf file).2 :=
  ReflTransGen.single (.impactOf s file)

theorem steps_affected (s : Session) (precise : Bool) (file : String) :
    Steps s (s.affected precise file).2 := by
  -- the cache is asked first, also when the components then decide
  refine (steps_impactOf s file).trans ?_
  unfold affected
  dsimp only
  split
  · exact steps_andThen (steps_servingAmong file _ _) fun _ _ => ReflTransGen.refl
  · exact ReflTransGen.refl

theorem steps_affectedEach (precise : Bool) (paths : List String)
    (found : OrderedMap (List String)) (s : Session) :
    Steps s (affectedEach precise paths found s).2 := by
  induction paths generalizing found s with
  | nil => exact ReflTransGen.refl
  | cons path rest ih =>
    unfold affectedEach
    split
    · exact ih found s
    · exact steps_andThen (steps_affected s precise _) fun _ t => ih _ t

theorem steps_detectRoutes (s : Session) (paths : List String) (precise : Bool) :
    Steps s (s.detectRoutes paths precise).2 := by
  refine steps_andThen (steps_refresh s paths) fun _ t => ?_
  refine steps_andThen ?_ fun _ u => steps_affectedEach precise paths _ u
  split
  · exact steps_prepareComponents t
  · exact ReflTransGen.refl

theorem steps_infoEach (paths : List String) (found : OrderedMap RouteInfo) (s : Session) :
    Steps s (infoEach paths found s).2 := by
  induction paths generalizing found s with
  | nil => exact ReflTransGen.refl
  | cons path rest ih =>
    unfold infoEach
    split
    · exact ih _ s
    · next file _ => exact (steps_impactOf s file).trans (ih _ _)

theorem steps_routeInfo (s : Session) (paths : List String) :
    Steps s (s.routeInfo paths).2 :=
  steps_andThen (steps_refresh s paths) fun _ t => steps_infoEach paths _ t

theorem steps_metrics (s : Session) : Steps s s.metrics.2 :=
  steps_andThen (steps_ensureInitialized s) fun _ _ => ReflTransGen.refl

theorem steps_routesServing (s : Session) (path : String) :
    Steps s (s.routesServing path).2 := by
  refine steps_andThen (steps_ensureInitialized s) fun _ t => ?_
  split
  · exact ReflTransGen.refl
  · exact steps_andThen (steps_prepareComponents t) fun _ u => steps_servingAmong _ _ u

/-! ### All operations -/

/-- **Every operation is a sequence of changes**, and so is what happens between. -/
theorem steps_apply (s : Session) (op : Operation) : Steps s (s.apply op) := by
  cases op with
  | setUp force => exact steps_setUp s force
  | rebuild => exact steps_rebuild s
  | refresh paths => exact steps_refresh s paths
  | detectRoutes paths precise => exact steps_detectRoutes s paths precise
  | routeInfo paths => exact steps_routeInfo s paths
  | routesServing path => exact steps_routesServing s path
  | metrics => exact steps_metrics s
  | persist => exact steps_persist s
  | clearCache => exact steps_clearCache s
  | takeBatch patterns changed => exact steps_takeBatch s patterns changed
  | edit disk => exact steps_frame rfl rfl rfl
  | wait now => exact steps_frame rfl rfl rfl

theorem steps_run (s : Session) (ops : List Operation) : Steps s (s.run ops) := by
  induction ops generalizing s with
  | nil => exact ReflTransGen.refl
  | cons op ops ih => exact (steps_apply s op).trans (ih (s.apply op))

/-- **Run principle.** What every change keeps is kept by every history. -/
theorem run_induction {P : Session → Prop} (step : ∀ s t, Step s t → P s → P t) {s : Session}
    (start : P s) (ops : List Operation) : P (s.run ops) := by
  have hsteps : ∀ t, Steps s t → P t := by
    intro t ht
    induction ht with
    | refl => exact start
    | tail _ h ih => exact step _ _ h ih
  exact hsteps _ (steps_run s ops)

end Session

end RouteImpact
