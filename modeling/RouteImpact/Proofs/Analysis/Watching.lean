import RouteImpact.Proofs.Analysis.Restart

namespace RouteImpact

/-!
# What is persisted while a project is watched

Batches of changed files are worked off while questions are asked and files change.  A batch
refreshes its files, and when this has replaced a fact it writes the graph and hands what is
written to the store, which takes it while other tasks go on.  Questions replace facts as well
and persist nothing, and a batch that comes after a question about the same edit finds nothing
to do.

* `Session.Holds` — the store holds a graph for a session; `Session.Persisted` — it holds the
  present one;
* `Session.Stays` — all that a question or a refresh does, failed or not: the store is left alone
  and the graph can still be persisted;
* `Watched.Event`, `Watched.run` — what the watcher and other tasks do, in any order;
* `Watched.run_of_watchBatch` — a batch that is worked off at once takes such steps;
* `Watched.lastWritten` — the graph that the last batch to replace a fact has written;
* `Watched.Following`, `Watched.following_step`, `Watched.following_run` — along every run the
  store holds the graph whose bytes it has taken last, and that is the one written last when no
  upload is under way;
* `Watched.persisted_iff_lastWritten` — hence after a batch the store holds the present graph
  exactly if that is the graph written last, and the batch itself writes the graph exactly if it
  names a file with a new text;
* `Watched.not_persisted_seenFirst` — a question that sees an edit first keeps it from the
  store.
-/

namespace Session

variable {s t u : Session} {g : ImportGraph}

/-! ### Sessions that can be persisted -/

/-- A session that is set up and whose graph can be written and read back.  Unlike a steady
one it may have marks that are out of date, as a refresh that failed leaves them. -/
structure Ready (s : Session) : Prop where
  initialized : s.initialized = true
  consistent : s.graph.Consistent
  filed : s.graph.Filed
  prune : s.graph.prune = s.config.pruneStaleEdges

theorem Steady.ready (h : s.Steady) : s.Ready :=
  ⟨h.initialized, h.consistent, h.filed, h.prune⟩

/-- Only the graph and what is remembered have changed, and the graph can be persisted. -/
structure Stays (s t : Session) : Prop where
  frame : Remembers s t
  ready : t.Ready

theorem Ready.stays (h : s.Ready) : Stays s s := ⟨Remembers.refl s, h⟩

theorem Stays.trans (hst : Stays s t) (htu : Stays t u) : Stays s u :=
  ⟨hst.frame.trans htu.frame, htu.ready⟩

/-- Changes of the files do not matter. -/
theorem Ready.edit (h : s.Ready) (disk : Disk) : (s.apply (.edit disk)).Ready :=
  ⟨h.initialized, h.consistent, h.filed, h.prune⟩

theorem Looked.stays (h : s.Ready) (hst : Looked s t) : Stays s t := by
  rw [hst]
  exact ⟨rfl, h.initialized, h.consistent, h.filed, h.prune⟩

theorem stays_andThen {α β : Type} {r : Outcome α} {f : α → Session → Outcome β}
    (hr : Stays s r.2) (hf : ∀ a t, t.Ready → Stays t (f a t).2) : Stays s (r.andThen f).2 :=
  Outcome.andThen_induction hr fun a t _ ht => ht.trans (hf a t ht.ready)

/-! ### Refreshing -/

/-- A fresh fact is filed under its own path. -/
theorem stays_replaceFact (h : s.Ready) {file : String} {fact : FileFact}
    (hfresh : s.freshFact? file = .ok (some fact)) : Stays s (s.replaceFact file fact) where
  frame := remembers_replaceFact s file fact
  ready :=
    { initialized := h.initialized
      consistent := ImportGraph.consistent_upsert h.consistent file fact
      filed := by
        refine h.filed.upsert ?_
        rw [freshFact?_eq_some hfresh]
        exact Project.path_factOf ..
      prune := h.prune }

theorem stays_refreshEach (h : s.Ready) (paths : List String) :
    Stays s (refreshEach paths s).2 :=
  refreshEach_induction (fun hfresh hst => hst.trans (stays_replaceFact hst.ready hfresh)) paths
    h.stays

/-- Where no file has changed, nothing has. -/
theorem Refreshes.eq_of_nil {paths : List String} (h : Refreshes paths s [] t) : t = s := by
  generalize hfiles : ([] : List String) = files at h
  induction h with
  | nil s => rfl
  | outside _ _ ih => exact ih hfiles
  | kept _ _ _ ih => exact ih hfiles
  | replaced => cases hfiles

theorem stays_refresh (h : s.Ready) (paths : List String) : Stays s (s.refresh paths).2 := by
  rw [refresh_eq (ensureInitialized_eq h.initialized)]
  refine stays_andThen (stays_refreshEach h paths) fun changed t ht => ?_
  dsimp only
  split
  · exact ht.stays
  · exact ⟨rfl, ht.initialized, ImportGraph.consistent_markEntryPoints ht.consistent, ht.filed,
      ht.prune⟩

/-! ### Questions -/

theorem stays_prepareComponents (h : s.Ready) : Stays s s.prepareComponents.2 := by
  refine stays_andThen ((looked_prepareOnce s).stays h) fun changed t ht => ?_
  split
  · exact ht.stays
  · refine stays_andThen (stays_refresh ht changed) fun _ u hu => ?_
    rw [Outcome.snd_map]
    exact (looked_prepareOnce u).stays hu

theorem stays_detectRoutes (h : s.Ready) (paths : List String) (precise : Bool) :
    Stays s (s.detectRoutes paths precise).2 := by
  refine stays_andThen (stays_refresh h paths) fun _ t ht => ?_
  refine stays_andThen ?_ fun _ u hu => (looked_affectedEach precise paths _ u).stays hu
  split
  · exact stays_prepareComponents ht
  · exact ht.stays

theorem stays_routeInfo (h : s.Ready) (paths : List String) :
    Stays s (s.routeInfo paths).2 :=
  stays_andThen (stays_refresh h paths) fun _ t ht => (looked_infoEach paths _ t).stays ht

theorem stays_routesServing (h : s.Ready) (path : String) :
    Stays s (s.routesServing path).2 := by
  unfold routesServing
  rw [ensureInitialized_eq h.initialized]
  refine stays_andThen h.stays fun _ t ht => ?_
  split
  · exact ht.stays
  · exact stays_andThen (stays_prepareComponents ht) fun _ u hu =>
      (looked_servingAmong _ _ u).stays hu

theorem stays_metrics (h : s.Ready) : Stays s s.metrics.2 := by
  unfold metrics
  rw [ensureInitialized_eq h.initialized]
  exact h.stays

/-- A question about files without a new text leaves the graph alone. -/
theorem looked_routeInfo (h : s.Ready) {paths : List String}
    (hseen : (s.refresh paths).1 = .ok []) : Looked s (s.routeInfo paths).2 := by
  have hrefresh : s.refresh paths = (.ok [], s) := by
    rw [refresh_eq (ensureInitialized_eq h.initialized)] at hseen ⊢
    generalize heach : refreshEach paths s = r at hseen
    obtain ⟨result, t⟩ := r
    cases result with
    | error e => cases hseen
    | ok files =>
      obtain rfl : files = [] := Except.ok.inj hseen
      rw [(refreshes_iff.1 heach).eq_of_nil]
      rfl
  unfold routeInfo
  rw [hrefresh]
  exact looked_infoEach _ _ s

/-! ### Batches -/

theorem stays_takeBatch (h : s.Ready) (patterns changed : List String) :
    Stays s (s.takeBatch patterns changed).2 := by
  unfold takeBatch
  split
  · exact h.stays
  · exact h.stays
  · rw [Outcome.snd_map]
    exact stays_refresh h _

/-- A batch counts the facts that it replaces: those of the named files with a new text. -/
theorem count_takeBatch (h : s.Ready) {patterns changed paths : List String} {count : Nat}
    (hrelevant : Project.relevant s.root patterns changed = .ok paths)
    (hrun : s.takeBatch patterns changed = (.ok count, t)) :
    count ≠ 0 ↔ ∃ p ∈ paths, ∃ file, s.normalize p = some file ∧ s.Changed file := by
  unfold takeBatch at hrun
  rw [hrelevant] at hrun
  cases paths with
  | nil =>
    cases hrun
    simp
  | cons path rest =>
    obtain ⟨refreshed, hrefresh, rfl⟩ := Outcome.of_map hrun
    rw [refresh_eq (ensureInitialized_eq h.initialized)] at hrefresh
    obtain ⟨files, v, heach, hlast⟩ := Outcome.of_andThen hrefresh
    cases hlast
    have hmem := (refreshes_iff.1 heach).mem_iff
    rw [← Nat.pos_iff_ne_zero, List.length_pos_iff_exists_mem]
    constructor
    · rintro ⟨file, hfile⟩
      obtain ⟨⟨p, hp, hnormal⟩, hchanged⟩ := (hmem file).1 hfile
      exact ⟨p, hp, file, hnormal, hchanged⟩
    · rintro ⟨p, hp, file, hnormal, hchanged⟩
      exact ⟨file, (hmem file).2 ⟨⟨p, hp, hnormal⟩, hchanged⟩⟩

/-! ### What the store holds -/

/-- The store holds a graph with the nodes and facts of this one. -/
def Holds (s : Session) (g : ImportGraph) : Prop :=
  ∃ kept, Snapshot.load s.host s.key s.config.pruneStaleEdges = .ok (some (.graph kept)) ∧
    kept.Same g

/-- The store holds the graph of the session as it is. -/
def Persisted (s : Session) : Prop := s.Holds s.graph

/-- A store that is left alone holds what it held. -/
theorem Stays.holds_iff (h : Stays s t) : t.Holds g ↔ s.Holds g := by
  rw [h.frame]
  rfl

/-- Bytes that are read back as a graph. -/
def Spells (s : Session) (bytes : ByteArray) (g : ImportGraph) : Prop :=
  ∃ kept, Document.decodeBytes s.config.pruneStaleEdges bytes = .ok kept ∧ kept.Same g

/-- A graph whose numbers can be written is read back from what is written of it. -/
theorem Ready.spells (h : s.Ready) (hstorable : ∀ f ∈ s.graph.facts.values, Document.Storable f) :
    s.Spells (Snapshot.payload s.now s.graph) s.graph := by
  obtain ⟨kept, hread, hprune, hnode, hfact⟩ := ImportGraph.exists_decodeBytes_encode
    h.consistent h.filed hstorable s.config.pruneStaleEdges s.now
  exact ⟨kept, hread, ⟨hprune.trans h.prune.symm, hnode⟩, hfact⟩

/-- A graph whose bytes the store has taken is held. -/
theorem holds_of_put {bytes : ByteArray} {host : Host} (h : s.Spells bytes g)
    (hput : Snapshot.put s.host s.key bytes = (true, host)) : { s with host }.Holds g := by
  obtain ⟨kept, hread, hsame⟩ := h
  exact ⟨kept, Snapshot.load_of_put hput hread, hsame⟩

/-- The store holds the present graph exactly if that is the graph it holds. -/
theorem Holds.persisted_iff (h : s.Holds g) : s.Persisted ↔ g.Same s.graph := by
  obtain ⟨kept, hload, hsame⟩ := h
  constructor
  · rintro ⟨kept', hload', hsame'⟩
    rw [hload] at hload'
    cases hload'
    exact hsame.symm.trans hsame'
  · exact fun hgraph => ⟨kept, hload, hsame.trans hgraph⟩

/-! ### Other tasks -/

/-- What other tasks do while a project is watched: they ask questions and edit files, and time
passes. -/
def Operation.Aside : Operation → Prop
  | .refresh _ | .detectRoutes _ _ | .routeInfo _ | .routesServing _ | .metrics | .edit _
  | .wait _ => True
  | .setUp _ | .rebuild | .persist | .clearCache | .takeBatch _ _ => False

/-- Questions leave the session ready and the store alone. -/
theorem stays_aside (h : s.Ready) {op : Operation} (hop : op.Aside) :
    Stays s (s.apply op) ∨ (∃ disk, op = .edit disk) ∨ ∃ now, op = .wait now := by
  cases op with
  | setUp | rebuild | persist | clearCache | takeBatch => exact hop.elim
  | refresh paths => exact .inl (stays_refresh h paths)
  | detectRoutes paths precise => exact .inl (stays_detectRoutes h paths precise)
  | routeInfo paths => exact .inl (stays_routeInfo h paths)
  | routesServing path => exact .inl (stays_routesServing h path)
  | metrics => exact .inl (stays_metrics h)
  | edit disk => exact .inr (.inl ⟨disk, rfl⟩)
  | wait now => exact .inr (.inr ⟨now, rfl⟩)

/-- Other tasks leave what the store holds, if an edit leaves the persisted bytes alone. -/
theorem holds_aside (h : s.Ready) {op : Operation} (hop : op.Aside)
    (hleaves : ∀ disk, op = .edit disk →
      Host.download { s.host with disk } s.key = s.host.download s.key) :
    (s.apply op).Ready ∧ (s.apply op).config = s.config ∧
      ((s.apply op).Holds g ↔ s.Holds g) := by
  rcases stays_aside h hop with ht | ⟨disk, rfl⟩ | ⟨now, rfl⟩
  · exact ⟨ht.ready, ht.frame.sameAnalysis.config, ht.holds_iff⟩
  · refine ⟨h.edit disk, rfl, exists_congr fun kept => and_congr_left fun _ => ?_⟩
    have hload := Snapshot.load_congr (hleaves disk rfl) s.config.pruneStaleEdges
    exact ⟨fun hk => hload.symm.trans hk, fun hk => hload.trans hk⟩
  · exact ⟨⟨h.initialized, h.consistent, h.filed, h.prune⟩, rfl, Iff.rfl⟩

end Session

namespace Watched

open Session (Operation)

variable {s : Session} {g : ImportGraph} {w w' : Watched}

/-! ### Runs -/

/-- What happens while a project is watched: another task does something, or the watcher goes on
by one step. -/
inductive Event where
  | aside (op : Operation)
  | take (patterns changed : List String)
  | write
  | store

/-- What comes of an event, if the watcher is where the event can happen. -/
def step (w : Watched) : Event → Option Watched
  | .aside op => some { w with session := w.session.apply op }
  | .take patterns changed => w.take patterns changed
  | .write => w.write
  | .store => w.store

/-- What comes of one event after the other. -/
def run : Watched → List Event → Option Watched
  | w, [] => some w
  | w, e :: events => (w.step e).bind fun w' => w'.run events

theorem step_take {patterns changed : List String} {count : Nat} {t : Session}
    (hwaiting : w.watcher = .waiting)
    (hbatch : w.session.takeBatch patterns changed = (.ok count, t)) :
    w.step (.take patterns changed) =
      some { w with session := t, watcher := if count = 0 then .waiting else .replaced } := by
  change w.take patterns changed = _
  unfold take
  simp only [hwaiting, hbatch]

/-- A batch that has replaced a fact is on the way to the store. -/
theorem step_take_succ {patterns changed : List String} {count : Nat} {t : Session}
    (hwaiting : w.watcher = .waiting)
    (hbatch : w.session.takeBatch patterns changed = (.ok (count + 1), t)) :
    w.step (.take patterns changed) = some { w with session := t, watcher := .replaced } := by
  rw [step_take hwaiting hbatch, if_neg (Nat.succ_ne_zero count)]

/-- A batch without news is worked off. -/
theorem step_take_zero {patterns changed : List String} {t : Session}
    (hwaiting : w.watcher = .waiting)
    (hbatch : w.session.takeBatch patterns changed = (.ok 0, t)) :
    w.step (.take patterns changed) = some { w with session := t } := by
  rw [step_take hwaiting hbatch, if_pos rfl, hwaiting]

theorem step_store {bytes : ByteArray} {g : ImportGraph} (h : w.watcher = .uploading bytes g) :
    w.step .store = some {
      session :=
        { w.session with host := (Snapshot.put w.session.host w.session.key bytes).2 }
      stored := if (Snapshot.put w.session.host w.session.key bytes).1 then g else w.stored } := by
  change w.store = _
  unfold store
  rw [h]

theorem run_cons {e : Event} {events : List Event} :
    w.run (e :: events) = some w' ↔ ∃ next, w.step e = some next ∧ next.run events = some w' :=
  Option.bind_eq_some_iff

theorem run_append {before after : List Event} :
    w.run (before ++ after) = some w' ↔
      ∃ next, w.run before = some next ∧ next.run after = some w' := by
  induction before generalizing w with
  | nil => simp [run]
  | cons e before ih =>
    rw [List.cons_append, run_cons]
    simp only [ih, run_cons]
    constructor
    · rintro ⟨a, ha, b, hb, hlast⟩
      exact ⟨b, ⟨a, ha, hb⟩, hlast⟩
    · rintro ⟨b, ⟨a, ha, hb⟩, hlast⟩
      exact ⟨a, ha, b, hb, hlast⟩

/-- A batch that is worked off with nothing in between takes these steps. -/
theorem run_of_watchBatch {patterns changed : List String} {count : Nat} {t : Session}
    (hwaiting : w.watcher = .waiting)
    (hbatch : w.session.watchBatch patterns changed = (.ok count, t)) :
    ∃ stored, w.run (.take patterns changed :: if count = 0 then [] else [.write, .store]) =
      some { session := t, stored } := by
  obtain ⟨n, u, htake, hrest⟩ := Outcome.of_andThen hbatch
  cases hrest
  cases count with
  | zero => exact ⟨w.stored, run_cons.2 ⟨_, step_take_zero hwaiting htake, by rw [← hwaiting]; rfl⟩⟩
  | succ n =>
    exact ⟨_, run_cons.2 ⟨_, step_take_succ hwaiting htake, run_cons.2 ⟨_, rfl,
      run_cons.2 ⟨_, step_store rfl, rfl⟩⟩⟩⟩

/-- A session that begins to be watched, when the store holds its graph. -/
def ofSession (s : Session) : Watched := { session := s, stored := s.graph }

/-- Nothing gets in the way of an event: other tasks do not start over, an edit leaves the
persisted bytes alone, the numbers of facts that are written can be written, and the store takes
every upload. -/
structure Undisturbed (w : Watched) (e : Event) : Prop where
  aside : ∀ op, e = .aside op → op.Aside
  leaves : ∀ disk, e = .aside (.edit disk) →
    Host.download { w.session.host with disk } w.session.key =
      w.session.host.download w.session.key
  storable : e = .write → ∀ f ∈ w.session.graph.facts.values, Document.Storable f
  takes : e = .store → ∀ data, (w.session.host.upload w.session.key data).1 = .ok ()

/-- Nothing gets in the way of one event after the other. -/
def UndisturbedRun : Watched → List Event → Prop
  | _, [] => True
  | w, e :: events => w.Undisturbed e ∧ ∀ w', w.step e = some w' → w'.UndisturbedRun events

theorem UndisturbedRun.of_append {before after : List Event}
    (h : w.UndisturbedRun (before ++ after)) : w.UndisturbedRun before := by
  induction before generalizing w with
  | nil => trivial
  | cons e before ih => exact ⟨h.1, fun w' hstep => ih (h.2 w' hstep)⟩

/-- The graph that is written last with an event, if it was this one before. -/
def written (w : Watched) (g : ImportGraph) : Event → ImportGraph
  | .write => w.session.graph
  | _ => g

/-- The graph as it was when it was written last, at first the given one. -/
def lastWritten (g : ImportGraph) : Watched → List Event → ImportGraph
  | _, [] => g
  | w, e :: events =>
    (w.step e).elim (w.written g e) fun w' => lastWritten (w.written g e) w' events

/-! ### What the store has taken -/

/-- The graph that was written last. -/
def latest (w : Watched) : ImportGraph :=
  match w.watcher with
  | .uploading _ g => g
  | _ => w.stored

/-- The store holds the graph that is noted, and what it is about to take can be read back. -/
structure Following (w : Watched) : Prop where
  ready : w.session.Ready
  holds : w.session.Holds w.stored
  spells : ∀ bytes g, w.watcher = .uploading bytes g → w.session.Spells bytes g

theorem following_ofSession (h : s.Ready) (hpersisted : s.Persisted) : (ofSession s).Following :=
  ⟨h, hpersisted, nofun⟩

theorem put_of_takes {h : Host} {key : String} (bytes : ByteArray)
    (htakes : ∀ data, (h.upload key data).1 = .ok ()) :
    ∃ host, Snapshot.put h key bytes = (true, host) := by
  have hupload := htakes bytes
  unfold Snapshot.put
  generalize h.upload key bytes = r at hupload
  obtain ⟨result, host⟩ := r
  cases hupload
  exact ⟨host, rfl⟩

/-- What another task does. -/
theorem Following.aside (h : w.Following) {op : Operation} (hop : w.Undisturbed (.aside op)) :
    Following { w with session := w.session.apply op } := by
  have haside := fun g => Session.holds_aside (g := g) h.ready (hop.aside op rfl)
    fun disk hdisk => hop.leaves disk (hdisk ▸ rfl)
  refine ⟨(haside w.stored).1, (haside w.stored).2.2.2 h.holds, fun bytes g hbytes => ?_⟩
  obtain ⟨kept, hread, hsame⟩ := h.spells bytes g hbytes
  rw [← (haside g).2.1] at hread
  exact ⟨kept, hread, hsame⟩

/-- The refresh of a batch. -/
theorem Following.take (h : w.Following) {patterns changed : List String}
    (hstep : w.take patterns changed = some w') : w'.Following ∧ w'.latest = w.latest := by
  have hstays := Session.stays_takeBatch h.ready patterns changed
  unfold Watched.take at hstep
  split at hstep
  · next hwaiting =>
    split at hstep
    · next hbatch =>
      rw [hbatch] at hstays
      cases hstep
      exact ⟨⟨hstays.ready, hstays.holds_iff.2 h.holds, nofun⟩, by simp [latest, hwaiting]⟩
    · next count _ hbatch =>
      rw [hbatch] at hstays
      cases hstep
      by_cases hcount : count = 0
      · rw [if_pos hcount]
        exact ⟨⟨hstays.ready, hstays.holds_iff.2 h.holds, nofun⟩, by simp [latest, hwaiting]⟩
      · rw [if_neg hcount]
        exact ⟨⟨hstays.ready, hstays.holds_iff.2 h.holds, nofun⟩, by simp [latest, hwaiting]⟩
  · cases hstep

/-- The writing of the graph. -/
theorem Following.write (h : w.Following) (hop : w.Undisturbed .write)
    (hstep : w.write = some w') : w'.Following ∧ w'.latest = w.session.graph := by
  unfold Watched.write at hstep
  split at hstep
  · cases hstep
    refine ⟨⟨h.ready, h.holds, fun bytes g hbytes => ?_⟩, rfl⟩
    cases hbytes
    exact h.ready.spells (hop.storable rfl)
  · cases hstep

/-- The end of an upload. -/
theorem Following.store (h : w.Following) (hop : w.Undisturbed .store)
    (hstep : w.store = some w') : w'.Following ∧ w'.latest = w.latest := by
  unfold Watched.store at hstep
  split at hstep
  · next bytes g hwatcher =>
    obtain ⟨host, hput⟩ := put_of_takes bytes (hop.takes rfl)
    rw [hput] at hstep
    cases hstep
    have hspells := h.spells bytes g hwatcher
    refine ⟨⟨?_, Session.holds_of_put hspells hput, nofun⟩, ?_⟩
    · exact ⟨h.ready.initialized, h.ready.consistent, h.ready.filed, h.ready.prune⟩
    · simp [latest, hwatcher]
  · cases hstep

/-- **Step.** The store follows what is written, and only writing changes what was written last. -/
theorem following_step (h : w.Following) {e : Event} (hop : w.Undisturbed e)
    (hstep : w.step e = some w') :
    w'.Following ∧ w'.latest = w.written w.latest e := by
  cases e with
  | aside op =>
    cases hstep
    exact ⟨h.aside hop, rfl⟩
  | take patterns changed => exact h.take hstep
  | write => exact h.write hop hstep
  | store => exact h.store hop hstep

/-- **Run.** Along every run the store follows what is written. -/
theorem following_run (h : w.Following) {events : List Event} (hops : w.UndisturbedRun events)
    (hrun : w.run events = some w') :
    w'.Following ∧ w'.latest = lastWritten w.latest w events := by
  induction events generalizing w with
  | nil =>
    cases hrun
    exact ⟨h, rfl⟩
  | cons e events ih =>
    obtain ⟨next, hstep, hrest⟩ := run_cons.1 hrun
    obtain ⟨hnext, hlatest⟩ := following_step h hops.1 hstep
    obtain ⟨hlast, hwritten⟩ := ih hnext (hops.2 next hstep) hrest
    rw [hlatest] at hwritten
    rw [lastWritten, hstep]
    exact ⟨hlast, hwritten⟩

/-! ### One batch -/

/-- An event that takes in no batch. -/
def Event.goesOn : Event → Bool
  | .take _ _ => false
  | _ => true

/-- Without a batch to work off nothing is written. -/
theorem notMem_write_of_idle {events : List Event} (hidle : w.watcher = .waiting)
    (hon : ∀ e ∈ events, e.goesOn = true) (hrun : w.run events = some w') : .write ∉ events := by
  induction events generalizing w with
  | nil => exact List.not_mem_nil
  | cons e events ih =>
    obtain ⟨next, hstep, hrest⟩ := run_cons.1 hrun
    have honRest : ∀ e ∈ events, e.goesOn = true := fun e he => hon e (by simp [he])
    cases e with
    | aside op =>
      cases hstep
      rw [List.mem_cons, or_iff_right nofun]
      refine ih ?_ honRest hrest
      exact hidle
    | take patterns changed => cases hon _ List.mem_cons_self
    | write => simp [step, write, hidle] at hstep
    | store => simp [step, store, hidle] at hstep

/-- A batch that has replaced facts is not worked off before the graph is written. -/
theorem mem_write_of_replaced {events : List Event} (hreplaced : w.watcher = .replaced)
    (hrun : w.run events = some w') (hworked : w'.watcher = .waiting) : .write ∈ events := by
  induction events generalizing w with
  | nil =>
    cases hrun
    rw [hreplaced] at hworked
    cases hworked
  | cons e events ih =>
    obtain ⟨next, hstep, hrest⟩ := run_cons.1 hrun
    cases e with
    | aside op =>
      cases hstep
      refine List.mem_cons_of_mem _ (ih ?_ hrest)
      exact hreplaced
    | take patterns changed => simp [step, take, hreplaced] at hstep
    | write => exact List.mem_cons_self
    | store => simp [step, store, hreplaced] at hstep

/-- After a batch that has failed the watcher does nothing more. -/
theorem watcher_of_ended {events : List Event} (hended : w.watcher = .ended)
    (hrun : w.run events = some w') : w'.watcher = .ended := by
  induction events generalizing w with
  | nil =>
    cases hrun
    exact hended
  | cons e events ih =>
    obtain ⟨next, hstep, hrest⟩ := run_cons.1 hrun
    cases e with
    | aside op =>
      cases hstep
      refine ih ?_ hrest
      exact hended
    | take patterns changed => simp [step, take, hended] at hstep
    | write => simp [step, write, hended] at hstep
    | store => simp [step, store, hended] at hstep

/-- **A batch writes the graph** exactly if it names a file with a new text. -/
theorem mem_write_iff (h : w.Following) {patterns changed paths : List String}
    {after : List Event} (hrelevant : Project.relevant w.session.root patterns changed = .ok paths)
    (hon : ∀ e ∈ after, e.goesOn = true)
    (hrun : w.run (.take patterns changed :: after) = some w') (hworked : w'.watcher = .waiting) :
    .write ∈ after ↔
      ∃ p ∈ paths, ∃ file, w.session.normalize p = some file ∧ w.session.Changed file := by
  obtain ⟨next, hstep, hrest⟩ := run_cons.1 hrun
  change w.take patterns changed = some next at hstep
  unfold take at hstep
  split at hstep
  · split at hstep
    · cases hstep
      rw [watcher_of_ended rfl hrest] at hworked
      cases hworked
    · next count t hbatch =>
      rw [← Session.count_takeBatch h.ready hrelevant hbatch]
      cases hstep
      by_cases hcount : count = 0
      · exact iff_of_false (notMem_write_of_idle (if_pos hcount) hon hrest)
          (not_not_intro hcount)
      · exact iff_of_true (mem_write_of_replaced (if_neg hcount) hrest hworked) hcount
  · cases hstep

/-- **After a batch.**  Take a session that is set up and has persisted its graph, and any run of
batches, questions, edits and passing time, one step at a time: a batch refreshes its files, writes
the graph if it has replaced a fact, and goes on when the store has taken what was written, and
other tasks may do something before each of these steps.  The store takes every upload, edits leave
the persisted bytes alone and persisted numbers can be written; questions may fail.  When the last
batch of the run is worked off, the store holds the nodes and facts of the present graph exactly if
this is still the graph as it was when it was written last; and the last batch has written it
exactly if it names a file whose text is not that of its fact. -/
theorem persisted_iff_lastWritten (h : s.Ready) (hpersisted : s.Persisted)
    {before after : List Event} {patterns changed paths : List String} {w₁ w : Watched}
    (hops : (ofSession s).UndisturbedRun (before ++ .take patterns changed :: after))
    (hbefore : (ofSession s).run before = some w₁)
    (hafter : w₁.run (.take patterns changed :: after) = some w)
    (hon : ∀ e ∈ after, e.goesOn = true) (hworked : w.watcher = .waiting)
    (hrelevant : Project.relevant w₁.session.root patterns changed = .ok paths) :
    (w.session.Persisted ↔
      (lastWritten s.graph (ofSession s) (before ++ .take patterns changed :: after)).Same
        w.session.graph) ∧
    (.write ∈ after ↔
      ∃ p ∈ paths, ∃ file, w₁.session.normalize p = some file ∧ w₁.session.Changed file) := by
  have hstart := following_ofSession h hpersisted
  have hrun := run_append.2 ⟨w₁, hbefore, hafter⟩
  obtain ⟨hfollowing, hlatest⟩ := following_run hstart hops hrun
  constructor
  · have hstored : w.stored = w.latest := by rw [latest, hworked]
    rw [hfollowing.holds.persisted_iff, hstored, hlatest]
    rfl
  · have hfollowed := (following_run hstart hops.of_append hbefore).1
    exact mem_write_iff hfollowed hrelevant hon hafter hworked

end Watched

namespace Session

variable {s t : Session}

/-! ### A store in memory -/

/-- The session keeps its graph in memory, under a key that is taken. -/
structure InMemory (s : Session) : Prop where
  store : ∃ blobs, s.host.store = .memory blobs
  key : Store.isKey s.key = true

theorem InMemory.takes (hmem : s.InMemory) (data : ByteArray) :
    (s.host.upload s.key data).1 = .ok () := by
  obtain ⟨blobs, hblobs⟩ := hmem.store
  rw [Host.upload]
  simp only [hblobs, if_pos hmem.key]

theorem InMemory.persist (hmem : s.InMemory) : s.persist.2.InMemory := by
  obtain ⟨blobs, hblobs⟩ := hmem.store
  refine ⟨⟨blobs.set s.key (Snapshot.payload s.now s.graph), ?_⟩, hmem.key⟩
  unfold Session.persist Snapshot.save Snapshot.put Host.upload
  simp only [hblobs, if_pos hmem.key]

/-- No edit reaches a store in memory. -/
theorem InMemory.download_edit (hmem : s.InMemory) (disk : Disk) :
    Host.download { s.host with disk } s.key = s.host.download s.key := by
  obtain ⟨blobs, hblobs⟩ := hmem.store
  rw [Host.download, Host.download]
  simp only [hblobs]

theorem Stays.inMemory (h : Stays s t) (hmem : s.InMemory) : t.InMemory := by
  rw [h.frame]
  exact ⟨hmem.store, hmem.key⟩

theorem InMemory.edit (hmem : s.InMemory) (disk : Disk) : (s.apply (.edit disk)).InMemory :=
  ⟨hmem.store, hmem.key⟩

/-- A session in memory that has just persisted its graph. -/
theorem persisted_persist (h : s.Ready) (hmem : s.InMemory)
    (hstorable : ∀ f ∈ s.graph.facts.values, Document.Storable f) : s.persist.2.Persisted := by
  obtain ⟨host, hput⟩ := Watched.put_of_takes (Snapshot.payload s.now s.graph) hmem.takes
  have hpersist : s.persist.2 = { s with host } := by
    unfold persist Snapshot.save
    rw [hput]
  rw [hpersist]
  exact holds_of_put (h.spells hstorable) hput

end Session

namespace Watched

open Session (Operation)

variable {w : Watched}

theorem undisturbed_aside (hmem : w.session.InMemory) {op : Operation} (hop : op.Aside) :
    w.Undisturbed (.aside op) where
  aside := fun op' h => by cases h; exact hop
  leaves := fun disk _ => hmem.download_edit disk
  storable := nofun
  takes := nofun

theorem undisturbed_take (patterns changed : List String) :
    w.Undisturbed (.take patterns changed) := ⟨nofun, nofun, nofun, nofun⟩

theorem undisturbed_write (h : ∀ f ∈ w.session.graph.facts.values, Document.Storable f) :
    w.Undisturbed .write := ⟨nofun, nofun, fun _ => h, nofun⟩

theorem undisturbed_store (hmem : w.session.InMemory) : w.Undisturbed .store :=
  ⟨nofun, nofun, nofun, fun _ => hmem.takes⟩

theorem undisturbedRun_cons {w' : Watched} {e : Event} {events : List Event}
    (he : w.Undisturbed e) (hstep : w.step e = some w') (hrest : w'.UndisturbedRun events) :
    w.UndisturbedRun (e :: events) :=
  ⟨he, fun _ hstep' => Option.some.inj (hstep.symm.trans hstep') ▸ hrest⟩

theorem lastWritten_cons {w' : Watched} {e : Event} (g : ImportGraph) (events : List Event)
    (hstep : w.step e = some w') :
    lastWritten g w (e :: events) = lastWritten (w.written g e) w' events := by
  rw [lastWritten, hstep]
  rfl

/-! ### Who sees an edit first -/

/-- The fact of a file that is empty, with the hash of the empty text. -/
def emptyFileFact : FileFact :=
  { path := "a.ts", contentHash := "d41d8cd98f00b204e9800998ecf8427e"
    lastSeenAt := Number.Binary64.zero }

/-- A session on a project of one empty file, whose graph is the one that a build gives. -/
def oneFileSession : Session where
  root := "/p"
  config := Session.plainConfig
  host :=
    { store := .memory OrderedMap.empty
      disk := ⟨[(["p"], .directory), (["p", "a.ts"], .file "".toUTF8)]⟩ }
  now := Number.Binary64.zero
  graph := (ImportGraph.upsert {} "a.ts" emptyFileFact).markEntryPoints
  initialized := true

/-- The session when it has persisted its graph. -/
def watchedSession : Session := oneFileSession.persist.2

/-- The project without its file. -/
def emptiedDisk : Disk := ⟨[(["p"], .directory)]⟩

/-- The edit by which the file goes. -/
def removal : Operation := .edit emptiedDisk

/-- A question about the file. -/
def question : Operation := .routeInfo ["a.ts"]

/-- The batch that tells about the file. -/
def fileBatch : Event := .take [] ["/p/a.ts"]

/-- A fact of the first moment without imports and routes can be written. -/
theorem storable_of_bare {f : FileFact}
    (h : f.lastSeenAt = Number.Binary64.zero ∧ f.imports = [] ∧ f.routes = []) :
    Document.Storable f := by
  obtain ⟨hseen, himports, hroutes⟩ := h
  refine ⟨?_, by simp [himports], by simp [hroutes]⟩
  have hliteral : Json.floatLiteral Number.Binary64.zero = "0.0" := by decide
  rw [hseen, hliteral]
  rfl

theorem ready_oneFileSession : oneFileSession.Ready where
  initialized := rfl
  consistent := ImportGraph.consistent_markEntryPoints
    (ImportGraph.consistent_upsert (ImportGraph.consistent_empty false) "a.ts" emptyFileFact)
  filed := ImportGraph.Filed.upsert (fun _ _ hf => by cases hf) rfl
  prune := rfl

theorem inMemory_oneFileSession : oneFileSession.InMemory := ⟨⟨_, rfl⟩, by decide⟩

theorem ready_watchedSession : watchedSession.Ready :=
  let h := ready_oneFileSession
  ⟨h.initialized, h.consistent, h.filed, h.prune⟩

theorem inMemory_watchedSession : watchedSession.InMemory := inMemory_oneFileSession.persist

theorem persisted_watchedSession : watchedSession.Persisted := by
  have hbare : ∀ f ∈ oneFileSession.graph.facts.values,
      f.lastSeenAt = Number.Binary64.zero ∧ f.imports = [] ∧ f.routes = [] := by
    decide
  exact Session.persisted_persist ready_oneFileSession inMemory_oneFileSession fun f hf =>
    storable_of_bare (hbare f hf)

/-- An edit, the batch that tells about it, and a question before the store has taken what the
batch has written. -/
theorem exists_run_overlapping {s : Session} (h : s.Ready) (hmem : s.InMemory) {disk : Disk}
    {patterns changed paths : List String} {count : Nat}
    (hcount : ((s.apply (.edit disk)).takeBatch patterns changed).1 = .ok (count + 1))
    (hstorable : ∀ f ∈ ((s.apply (.edit disk)).takeBatch patterns changed).2.graph.facts.values,
      Document.Storable f)
    (hseen : (((s.apply (.edit disk)).takeBatch patterns changed).2.refresh paths).1 = .ok []) :
    (ofSession s).UndisturbedRun ([.aside (.edit disk)] ++
        .take patterns changed :: [.write, .aside (.routeInfo paths), .store]) ∧
      ∃ w₁ w, (ofSession s).run [.aside (.edit disk)] = some w₁ ∧
        w₁.run (.take patterns changed :: [.write, .aside (.routeInfo paths), .store]) = some w ∧
        w₁.session = s.apply (.edit disk) ∧ w.watcher = .waiting ∧
        lastWritten s.graph (ofSession s) ([.aside (.edit disk)] ++
          .take patterns changed :: [.write, .aside (.routeInfo paths), .store]) =
            w.session.graph := by
  have hstays := Session.stays_takeBatch (h.edit disk) patterns changed
  generalize hbatch : (s.apply (.edit disk)).takeBatch patterns changed = r at *
  obtain ⟨result, t⟩ := r
  obtain rfl : result = .ok (count + 1) := hcount
  have hasked : Session.Looked t (t.apply (.routeInfo paths)) :=
    Session.looked_routeInfo hstays.ready hseen
  have hmem₂ : t.InMemory := hstays.inMemory (hmem.edit disk)
  have hmem₄ : (t.apply (.routeInfo paths)).InMemory :=
    (hasked.stays hstays.ready).inMemory hmem₂
  have hgraph : (t.apply (.routeInfo paths)).graph = t.graph := by rw [hasked]
  -- one state after the other
  let w₁ : Watched := { ofSession s with session := s.apply (.edit disk) }
  let w₂ : Watched := { w₁ with session := t, watcher := .replaced }
  let w₃ : Watched := { w₂ with watcher := .uploading (Snapshot.payload t.now t.graph) t.graph }
  let w₄ : Watched := { w₃ with session := t.apply (.routeInfo paths) }
  have hedit : (ofSession s).step (.aside (.edit disk)) = some w₁ := rfl
  have htake : w₁.step (.take patterns changed) = some w₂ := step_take_succ rfl hbatch
  have hwrite : w₂.step .write = some w₃ := rfl
  have hask : w₃.step (.aside (.routeInfo paths)) = some w₄ := rfl
  have huploading : w₄.watcher = .uploading (Snapshot.payload t.now t.graph) t.graph := rfl
  have hstore := step_store huploading
  refine ⟨?_, w₁, _, ?_, run_cons.2 ⟨w₂, htake, run_cons.2 ⟨w₃, hwrite, run_cons.2 ⟨w₄, hask,
    run_cons.2 ⟨_, hstore, rfl⟩⟩⟩⟩, rfl, rfl, ?_⟩
  · refine undisturbedRun_cons (undisturbed_aside hmem trivial) hedit ?_
    refine undisturbedRun_cons (undisturbed_take ..) htake ?_
    refine undisturbedRun_cons (undisturbed_write hstorable) hwrite ?_
    refine undisturbedRun_cons (undisturbed_aside hmem₂ trivial) hask ?_
    exact undisturbedRun_cons (undisturbed_store hmem₄) hstore trivial
  · exact run_cons.2 ⟨w₁, hedit, rfl⟩
  · rw [List.singleton_append, lastWritten_cons _ _ hedit, lastWritten_cons _ _ htake,
      lastWritten_cons _ _ hwrite, lastWritten_cons _ _ hask, lastWritten_cons _ _ hstore]
    exact hgraph.symm

/-- An edit, a question about it, and the batch that tells about it and finds no news. -/
theorem exists_run_seenFirst {s : Session} (hmem : s.InMemory) {disk : Disk}
    {patterns changed paths : List String}
    (hcount : (((s.apply (.edit disk)).apply (.routeInfo paths)).takeBatch patterns changed).1 =
      .ok 0) :
    (ofSession s).UndisturbedRun
        [.aside (.edit disk), .aside (.routeInfo paths), .take patterns changed] ∧
      ∃ w, (ofSession s).run
          [.aside (.edit disk), .aside (.routeInfo paths), .take patterns changed] = some w ∧
        w.watcher = .waiting ∧ w.session =
          (((s.apply (.edit disk)).apply (.routeInfo paths)).takeBatch patterns changed).2 ∧
        lastWritten s.graph (ofSession s)
          [.aside (.edit disk), .aside (.routeInfo paths), .take patterns changed] = s.graph := by
  generalize hbatch :
    ((s.apply (.edit disk)).apply (.routeInfo paths)).takeBatch patterns changed = r at *
  obtain ⟨result, t⟩ := r
  obtain rfl : result = .ok 0 := hcount
  let w₁ : Watched := { ofSession s with session := s.apply (.edit disk) }
  let w₂ : Watched := { w₁ with session := (s.apply (.edit disk)).apply (.routeInfo paths) }
  have hedit : (ofSession s).step (.aside (.edit disk)) = some w₁ := rfl
  have hask : w₁.step (.aside (.routeInfo paths)) = some w₂ := rfl
  have htake : w₂.step (.take patterns changed) = some { w₂ with session := t } :=
    step_take_zero rfl hbatch
  refine ⟨?_, _, run_cons.2 ⟨w₁, hedit, run_cons.2 ⟨w₂, hask, run_cons.2 ⟨_, htake, rfl⟩⟩⟩, rfl,
    rfl, ?_⟩
  · refine undisturbedRun_cons (undisturbed_aside hmem trivial) hedit ?_
    refine undisturbedRun_cons (undisturbed_aside (hmem.edit disk) trivial) hask ?_
    exact undisturbedRun_cons (undisturbed_take ..) htake trivial
  · rw [lastWritten_cons _ _ hedit, lastWritten_cons _ _ hask, lastWritten_cons _ _ htake]
    rfl

/-- When the batch comes first, the removal reaches the store, though a question comes before
the store has taken what was written. -/
theorem persisted_iff_lastWritten_removal :
    watchedSession.Ready ∧ watchedSession.Persisted ∧
      (ofSession watchedSession).UndisturbedRun
        ([.aside removal] ++ fileBatch :: [.write, .aside question, .store]) ∧
      ∃ w₁ w, (ofSession watchedSession).run [.aside removal] = some w₁ ∧
        w₁.run (fileBatch :: [.write, .aside question, .store]) = some w ∧
        w.watcher = .waiting ∧
        Project.relevant w₁.session.root [] ["/p/a.ts"] = .ok ["a.ts"] ∧
        w.session.Persisted ∧
        ∃ file, w₁.session.normalize "a.ts" = some file ∧ w₁.session.Changed file := by
  obtain ⟨hrelevant, hcount, hbare, hseen⟩ :
      Project.relevant (watchedSession.apply removal).root [] ["/p/a.ts"] = .ok ["a.ts"] ∧
      ((watchedSession.apply removal).takeBatch [] ["/p/a.ts"]).1 = .ok 1 ∧
      (∀ f ∈ ((watchedSession.apply removal).takeBatch [] ["/p/a.ts"]).2.graph.facts.values,
        f.lastSeenAt = Number.Binary64.zero ∧ f.imports = [] ∧ f.routes = []) ∧
      (((watchedSession.apply removal).takeBatch [] ["/p/a.ts"]).2.refresh ["a.ts"]).1 =
        .ok [] := by
    decide
  have hready := ready_watchedSession
  have hpersisted := persisted_watchedSession
  obtain ⟨hops, w₁, w, hbefore, hafter, hfirst, hworked, hwritten⟩ :=
    exists_run_overlapping hready inMemory_watchedSession hcount
      (fun f hf => storable_of_bare (hbare f hf)) hseen
  change w₁.session = watchedSession.apply removal at hfirst
  rw [← hfirst] at hrelevant
  obtain ⟨hstored, hwrites⟩ := persisted_iff_lastWritten hready hpersisted hops hbefore hafter
    (by simp [Event.goesOn]) hworked hrelevant
  refine ⟨hready, hpersisted, hops, w₁, w, hbefore, hafter, hworked, hrelevant, ?_, ?_⟩
  · rw [hstored, hwritten]
    exact ImportGraph.Same.refl _
  · obtain ⟨p, hp, hchanged⟩ := hwrites.1 List.mem_cons_self
    rwa [List.mem_singleton.1 hp] at hchanged

/-- **Seen first by a question**, the removal never reaches the store: the batch that tells
about it finds no news and writes nothing. -/
theorem not_persisted_seenFirst :
    watchedSession.Ready ∧ watchedSession.Persisted ∧
      (ofSession watchedSession).UndisturbedRun [.aside removal, .aside question, fileBatch] ∧
      Project.relevant watchedSession.root [] ["/p/a.ts"] = .ok ["a.ts"] ∧
      ∃ w, (ofSession watchedSession).run [.aside removal, .aside question, fileBatch] = some w ∧
        w.watcher = .waiting ∧ ¬ w.session.Persisted := by
  obtain ⟨hrelevant, hcount, hbefore, hafter⟩ :
      Project.relevant watchedSession.root [] ["/p/a.ts"] = .ok ["a.ts"] ∧
      (((watchedSession.apply removal).apply question).takeBatch [] ["/p/a.ts"]).1 = .ok 0 ∧
      (watchedSession.graph.fact? "a.ts").all (·.contentHash == "") = false ∧
      ((((watchedSession.apply removal).apply question).takeBatch [] ["/p/a.ts"]).2.graph.fact?
        "a.ts").all (·.contentHash == "") = true := by
    decide
  have hready := ready_watchedSession
  have hpersisted := persisted_watchedSession
  obtain ⟨hops, w, hrun, hworked, hlast, hwritten⟩ :=
    exists_run_seenFirst inMemory_watchedSession hcount
  refine ⟨hready, hpersisted, hops, hrelevant, w, hrun, hworked, ?_⟩
  -- nothing was written, so the store still holds the graph of the beginning
  obtain ⟨hfollowing, hlatest⟩ := following_run (following_ofSession hready hpersisted) hops hrun
  have hstored : w.stored = w.latest := by rw [latest, hworked]
  have hfirst : (ofSession watchedSession).latest = watchedSession.graph := rfl
  rw [hfollowing.holds.persisted_iff, hstored, hlatest, hfirst, hwritten, hlast]
  intro hsame
  rw [hsame.fact] at hbefore
  exact Bool.false_ne_true (hbefore.symm.trans hafter)

end Watched

end RouteImpact
