import RouteImpact.Proofs.Analysis.EntryPoints
import RouteImpact.Proofs.Graph.Upserts

namespace RouteImpact

open Relation (ReflTransGen)
open ImportGraph (Upserts Carried History targets)

/-!
# Pruning a graph that was loaded

A persisted graph is shared by sessions that prune and sessions that do not.  One that prunes
takes over what the others have left behind.

* `Session.Advance` — the kinds of change of a session that stays set up: a fact is replaced
  by a fresh one, entry points are marked, or something else changes;
* `Session.advances_apply`, `Session.advances_run` — all that operations do which do not start
  over, whether they succeed or fail;
* `Session.exists_upserts_of_advances` — hence the graph is what a history of facts makes of
  the graph before;
* `Session.importers_of_loaded` — the files that list a file as their importer, in a graph
  that prunes and was loaded;
* `Session.importer_left_behind` — a reverse edge that a session without pruning has left
  stays.
-/

namespace Session

variable {s t u : Session}

/-! ### Sessions that stay set up -/

/-- A change of a session that stays set up. -/
inductive Advance : Session → Session → Prop
  /-- Something else changes: the files, the time, the store or what is remembered. -/
  | frame {s t : Session} (analysis : SameAnalysis s t)
      (initialized : t.initialized = s.initialized) (graph : t.graph = s.graph) : Advance s t
  | replaceFact {s : Session} {file : String} {fact : FileFact}
      (fresh : s.freshFact? file = .ok (some fact)) : Advance s (s.replaceFact file fact)
  | markEntryPoints (s : Session) : Advance s { s with graph := s.graph.markEntryPoints }

/-- Any number of such changes. -/
abbrev Advances : Session → Session → Prop := ReflTransGen Advance

theorem initialized_of_advances (h : Advances s t) : t.initialized = s.initialized := by
  induction h with
  | refl => rfl
  | tail _ hstep ih =>
    cases hstep with
    | frame _ initialized _ => exact initialized.trans ih
    | replaceFact _ => exact ih
    | markEntryPoints => exact ih

theorem Looked.advances (h : Looked s t) : Advances s t := by
  rw [h]
  exact ReflTransGen.single (.frame ⟨rfl, rfl, rfl⟩ rfl rfl)

/-- An operation in two parts makes the changes of both, or of the first when it fails. -/
theorem advances_andThen {α β : Type} {r : Outcome α} {f : α → Session → Outcome β}
    (hr : Advances s r.2) (hf : ∀ a t, t.initialized = s.initialized → Advances t (f a t).2) :
    Advances s (r.andThen f).2 :=
  Outcome.andThen_induction hr fun a t _ ht => ht.trans (hf a t (initialized_of_advances ht))

/-! ### Operations -/

theorem advances_refreshEach (paths : List String) (s : Session) :
    Advances s (refreshEach paths s).2 :=
  refreshEach_induction (fun hfresh hst => hst.tail (.replaceFact hfresh)) paths ReflTransGen.refl

theorem advances_refresh (hinit : s.initialized = true) (paths : List String) :
    Advances s (s.refresh paths).2 := by
  rw [refresh_eq (ensureInitialized_eq hinit)]
  refine advances_andThen (advances_refreshEach paths s) fun changed t _ => ?_
  dsimp only
  split
  · exact ReflTransGen.refl
  · exact ReflTransGen.single (.markEntryPoints t)

theorem advances_prepareComponents (hinit : s.initialized = true) :
    Advances s s.prepareComponents.2 := by
  refine advances_andThen (looked_prepareOnce s).advances fun changed t ht => ?_
  split
  · exact ReflTransGen.refl
  · refine advances_andThen (advances_refresh (ht.trans hinit) changed) fun _ u _ => ?_
    rw [Outcome.snd_map]
    exact (looked_prepareOnce u).advances

theorem advances_readied (hinit : s.initialized = true) (precise : Bool) :
    Advances s (s.readied precise).2 := by
  unfold readied
  split
  · exact advances_prepareComponents hinit
  · exact ReflTransGen.refl

theorem advances_persist (s : Session) : Advances s s.persist.2 :=
  ReflTransGen.single (.frame ⟨rfl, rfl, rfl⟩ rfl rfl)

theorem advances_takeBatch (hinit : s.initialized = true) (patterns changed : List String) :
    Advances s (s.takeBatch patterns changed).2 := by
  unfold takeBatch
  split
  · exact ReflTransGen.refl
  · exact ReflTransGen.refl
  · rw [Outcome.snd_map]
    exact advances_refresh hinit _

/-- Operations that do not start over. -/
def Operation.Lasting : Operation → Prop
  | .setUp _ | .rebuild | .clearCache => False
  | _ => True

/-- **Step.** What an operation does that does not start over, whether it succeeds or fails. -/
theorem advances_apply (hinit : s.initialized = true) {op : Operation} (hop : op.Lasting) :
    Advances s (s.apply op) := by
  have hset := ensureInitialized_eq hinit
  cases op with
  | setUp | rebuild | clearCache => exact hop.elim
  | refresh paths => exact advances_refresh hinit paths
  | detectRoutes paths precise =>
    show Advances s (s.detectRoutes paths precise).2
    rw [detectRoutes_eq]
    refine advances_andThen (advances_refresh hinit paths) fun _ t ht => ?_
    refine advances_andThen (advances_readied (ht.trans hinit) precise) fun _ u _ => ?_
    exact (looked_affectedEach precise paths _ u).advances
  | routeInfo paths =>
    exact advances_andThen (advances_refresh hinit paths) fun _ t _ =>
      (looked_infoEach paths _ t).advances
  | routesServing path =>
    show Advances s (s.routesServing path).2
    unfold routesServing
    rw [hset]
    refine advances_andThen ReflTransGen.refl fun _ t ht => ?_
    split
    · exact ReflTransGen.refl
    · exact advances_andThen (advances_prepareComponents (ht.trans hinit)) fun _ u _ =>
        (looked_servingAmong _ _ u).advances
  | metrics =>
    show Advances s s.metrics.2
    unfold metrics
    rw [hset]
    exact ReflTransGen.refl
  | persist => exact advances_persist s
  | takeBatch patterns changed => exact advances_takeBatch hinit patterns changed
  | edit disk => exact ReflTransGen.single (.frame ⟨rfl, rfl, rfl⟩ rfl rfl)
  | wait now => exact ReflTransGen.single (.frame ⟨rfl, rfl, rfl⟩ rfl rfl)

/-- **Run.** And a history of them. -/
theorem advances_run (hinit : s.initialized = true) {ops : List Operation}
    (hops : ∀ op ∈ ops, op.Lasting) : Advances s (s.run ops) := by
  induction ops generalizing s with
  | nil => exact ReflTransGen.refl
  | cons op ops ih =>
    have hstep := advances_apply hinit (hops op (by simp))
    exact hstep.trans (ih ((initialized_of_advances hstep).trans hinit) fun o ho =>
      hops o (by simp [ho]))

/-- The graph is what a history of facts makes of the graph before. -/
theorem exists_upserts_of_advances (h : Advances s t) : ∃ k, Upserts s.graph k t.graph := by
  induction h with
  | refl => exact ⟨[], .refl⟩
  | tail _ hstep ih =>
    obtain ⟨k, run⟩ := ih
    cases hstep with
    | frame _ _ graph =>
      rw [graph]
      exact ⟨k, run⟩
    | @replaceFact file fact _ => exact ⟨k ++ [(file, fact)], .upsert run file fact⟩
    | markEntryPoints => exact ⟨k, .markEntryPoints run⟩

/-! ### A graph that was loaded -/

/-- A session that loads persisted bytes starts with the edges that were persisted. -/
theorem edges_of_setUp {g kept : ImportGraph} {bytes : ByteArray}
    (hdownload : s.host.download s.key = .ok bytes)
    (hread : Document.decodeBytes s.config.pruneStaleEdges bytes = .ok kept)
    (hedges : g.Consistent) (hnode : ∀ x, kept.node? x = g.node? x)
    (hset : s.setUp false = (.ok (), t)) :
    t.initialized = true ∧ t.graph.prune = s.graph.prune ∧ t.graph.Consistent ∧
      (∀ x, t.graph.importsOf x = g.importsOf x) ∧
      ∀ x, t.graph.importersOf x = g.importersOf x := by
  cases hframework : Project.detectFramework s.disk s.root with
  | error e =>
    unfold setUp at hset
    rw [hframework] at hset
    cases hset
  | ok framework =>
    have hload : Snapshot.load s.host s.key s.config.pruneStaleEdges = .ok (some (.graph kept)) := by
      unfold Snapshot.load
      rw [hdownload]
      dsimp only
      rw [hread]
    rw [setUp_of_load hframework hload] at hset
    cases hset
    have hkept : kept.Consistent := by
      intro a b hb
      rw [ImportGraph.importsOf, hnode] at hb
      rw [ImportGraph.importersOf, hnode]
      exact hedges a b hb
    -- the edges are consistent, so loading adds none
    have hloaded : ∀ x, (ImportGraph.load ({ s with framework } : Session).reset.graph
        kept.nodes.entries kept.facts.values).node? x = g.node? x := fun x =>
      (ImportGraph.node?_load_of_perm hkept _ (List.Perm.refl _) _ x).trans (hnode x)
    refine ⟨rfl, rfl, ?_, fun x => ?_, fun x => ?_⟩
    · exact ImportGraph.consistent_markEntryPoints (ImportGraph.consistent_load _ _ _)
    · show ImportGraph.importsOf (ImportGraph.markEntryPoints _) x = _
      rw [ImportGraph.importsOf_markEntryPoints, ImportGraph.importsOf, hloaded]
      rfl
    · show ImportGraph.importersOf (ImportGraph.markEntryPoints _) x = _
      rw [ImportGraph.importersOf_markEntryPoints, ImportGraph.importersOf, hloaded]
      rfl

/-- **Pruning across persisted graphs.**  Take the graph of any history of facts, made with or
without pruning, persist it and read it back as a graph that prunes.  Put any facts into it:
then the files that list a file as their importer are exactly what the last fact of that file
imports, and what the persisted graph listed it for without an import and no fact put in since
has made it import.  The same holds in a session that prunes and was set up from the persisted
graph, after any operations, edits and passing time that do not start over, for the facts that
they have replaced.  What was persisted by a graph that prunes carries nothing along. -/
theorem importers_of_loaded (prune : Bool) (h₀ : History)
    (hlegible : ∀ f ∈ (h₀.graph prune).facts.values, Document.Legible f) (moment : Moment) :
    (∃ g, Document.decodeBytes true (Document.encode moment (h₀.graph prune)).toUTF8 = .ok g ∧
      ∀ (h : History) (file : String) (fact : FileFact), h.last? file = some fact → ∀ x,
        file ∈ (h.foldl (fun g e => g.upsert e.1 e.2) g).importersOf x ↔
          x ∈ targets file fact ∨ Carried (h₀.graph prune) h file x) ∧
    (∀ root config host now s t, start root config host now = .ok s →
      config.pruneStaleEdges = true →
      host.download s.key = .ok (Document.encode moment (h₀.graph prune)).toUTF8 →
      s.setUp false = (.ok (), t) →
      ∀ ops : List Operation, (∀ op ∈ ops, op.Lasting) →
        ∃ h : History, Upserts t.graph h (t.run ops).graph ∧
          ∀ file fact, h.last? file = some fact → ∀ x,
            file ∈ (t.run ops).graph.importersOf x ↔
              x ∈ targets file fact ∨ Carried (h₀.graph prune) h file x) ∧
    (prune = true → ∀ h file x, ¬ Carried (h₀.graph prune) h file x) := by
  have hedges : (h₀.graph prune).Consistent := ImportGraph.consistent_run prune _
  obtain ⟨g, hread, hprune, hnode⟩ :=
    ImportGraph.exists_decodeBytes_nodes hedges hlegible true moment
  -- whichever graph the facts are put into, all that counts are its edges
  have hlisted : ∀ (start after : ImportGraph) (h : History) (file : String) (fact : FileFact),
      start.Consistent → start.prune = true →
      (∀ x, start.importsOf x = (h₀.graph prune).importsOf x) →
      (∀ x, start.importersOf x = (h₀.graph prune).importersOf x) → Upserts start h after →
      h.last? file = some fact → ∀ x, file ∈ after.importersOf x ↔
        x ∈ targets file fact ∨ Carried (h₀.graph prune) h file x := by
    intro start after h file fact hconsistent hprunes himports himporters run hlast x
    rw [ImportGraph.mem_importersOf_of_upserts hconsistent hprunes run,
      ImportGraph.importsOf_of_upserts run, hlast, Carried, Carried, himports, himporters]
    rfl
  refine ⟨⟨g, hread, fun h file fact hlast => ?_⟩, ?_, ?_⟩
  · have himports : ∀ x, g.importsOf x = (h₀.graph prune).importsOf x := fun x => by
      rw [ImportGraph.importsOf, hnode]
      rfl
    have himporters : ∀ x, g.importersOf x = (h₀.graph prune).importersOf x := fun x => by
      rw [ImportGraph.importersOf, hnode]
      rfl
    refine hlisted g _ h file fact ?_ hprune himports himporters
      (ImportGraph.upserts_foldl g h) hlast
    intro a b hb
    rw [himports] at hb
    rw [himporters]
    exact hedges a b hb
  · intro root config host now s t hstart hconfig hdownload hset ops hops
    have hs := started_of_start hstart
    have hgraph : s.graph.prune = true := hs.prune.trans hconfig
    rw [← hs.host] at hdownload
    rw [← hconfig, ← hs.pruneStaleEdges] at hread
    obtain ⟨hinit, hsame, hconsistent, himports, himporters⟩ :=
      edges_of_setUp hdownload hread hedges hnode hset
    obtain ⟨h, run⟩ := exists_upserts_of_advances (advances_run hinit hops)
    exact ⟨h, run, fun file fact hlast =>
      hlisted t.graph _ h file fact hconsistent (hsame.trans hgraph) himports himporters run
        hlast⟩
  · rintro rfl h file x
    exact (ImportGraph.exact_graph h₀).not_carried file x

/-! ### A reverse edge that was left behind -/

/-- A fact of `a.ts` with the given imports. -/
def importing (files : List String) : FileFact where
  path := "a.ts"
  imports := files.map fun file => { source := some file, line := 1, specifier := file }
  contentHash := "x"
  lastSeenAt := Number.Binary64.zero

/-- The file imports `b.ts` and then no longer does. -/
def droppedHistory : History := [("a.ts", importing ["b.ts"]), ("a.ts", importing [])]

theorem legible_droppedHistory :
    ∀ f ∈ (droppedHistory.graph false).facts.values, Document.Legible f := by
  have hbare : ∀ f ∈ (droppedHistory.graph false).facts.values, f.imports = [] ∧ f.routes = [] := by
    decide
  intro f hf
  obtain ⟨himports, hroutes⟩ := hbare f hf
  exact ⟨by simp [himports], by simp [hroutes]⟩

/-- A store that holds bytes for a project, which has no files. -/
def keeping (bytes : ByteArray) : Host where
  store := .memory (OrderedMap.ofList [(Snapshot.key orphanConfig.cacheNamespace "/p", bytes)])
  disk := Disk.empty

/-- A session on that store which prunes. -/
def takingOver (bytes : ByteArray) : Session where
  root := "/p"
  config := orphanConfig
  host := keeping bytes
  now := Number.Binary64.zero
  graph := { prune := true }

theorem download_keeping (bytes : ByteArray) :
    (keeping bytes).download (takingOver bytes).key = .ok bytes := by
  have hget : ∀ key : String, (OrderedMap.ofList [(key, bytes)]).get? key = some bytes := by
    intro key
    rw [OrderedMap.get?_ofList]
    simp [OrderedMap.lookup]
  have hkey : (takingOver bytes).key = Snapshot.key orphanConfig.cacheNamespace "/p" := rfl
  rw [hkey, keeping, Host.download]
  dsimp only
  rw [hget]
  rfl

theorem setUp_takingOver {bytes : ByteArray} {g : ImportGraph}
    (hread : Document.decodeBytes true bytes = .ok g) :
    ∃ t, (takingOver bytes).setUp false = (.ok (), t) := by
  have hframework : Project.detectFramework Disk.empty "/p" = .ok "unknown" := by decide
  have hload : Snapshot.load (takingOver bytes).host (takingOver bytes).key
      (takingOver bytes).config.pruneStaleEdges = .ok (some (.graph g)) := by
    have hhost : (takingOver bytes).host = keeping bytes := rfl
    have hprune : (takingOver bytes).config.pruneStaleEdges = true := rfl
    unfold Snapshot.load
    rw [hhost, hprune, download_keeping]
    dsimp only
    rw [hread]
  exact ⟨_, setUp_of_load hframework hload⟩

/-- The file turns to `c.ts`, and `b.ts` still lists it: that edge is carried along, and so it
is in a session that loads the graph and finds the file gone. -/
theorem importers_of_loaded_droppedHistory :
    (∃ g, Document.decodeBytes true
        (Document.encode Number.Binary64.zero (droppedHistory.graph false)).toUTF8 = .ok g ∧
      "a.ts" ∈ (g.upsert "a.ts" (importing ["c.ts"])).importersOf "c.ts" ∧
      "a.ts" ∈ (g.upsert "a.ts" (importing ["c.ts"])).importersOf "b.ts") ∧
    ∃ t h, (takingOver (Document.encode Number.Binary64.zero
        (droppedHistory.graph false)).toUTF8).setUp false = (.ok (), t) ∧
      Upserts t.graph h (t.run [.refresh ["a.ts"]]).graph := by
  obtain ⟨⟨g, hread, hlisted⟩, hsession, -⟩ := importers_of_loaded false droppedHistory
    legible_droppedHistory Number.Binary64.zero
  have hcarried : Carried (droppedHistory.graph false) [("a.ts", importing ["c.ts"])] "a.ts"
      "b.ts" := by
    refine ⟨by decide, by decide, fun fact hfact => ?_⟩
    obtain ⟨-, rfl⟩ := Prod.mk.inj (List.mem_singleton.1 hfact)
    decide
  have hlast : History.last? [("a.ts", importing ["c.ts"])] "a.ts" = some (importing ["c.ts"]) :=
    History.last?_concat [] "a.ts" _ "a.ts"
  refine ⟨⟨g, hread, ?_, ?_⟩, ?_⟩
  · exact (hlisted [("a.ts", importing ["c.ts"])] "a.ts" _ hlast "c.ts").2
      (Or.inl (by decide))
  · exact (hlisted [("a.ts", importing ["c.ts"])] "a.ts" _ hlast "b.ts").2 (Or.inr hcarried)
  · generalize (Document.encode Number.Binary64.zero (droppedHistory.graph false)).toUTF8 =
      bytes at hread hsession ⊢
    obtain ⟨t, hset⟩ := setUp_takingOver hread
    obtain ⟨h, run, -⟩ := hsession "/p" orphanConfig (keeping bytes) Number.Binary64.zero
      (takingOver bytes) t rfl rfl (download_keeping bytes) hset [.refresh ["a.ts"]]
      (by simp [Operation.Lasting])
    exact ⟨t, h, hset, run⟩

/-- **A reverse edge that was left behind stays.**  After the file has turned to `c.ts`, in a
graph that prunes, `b.ts` lists it as an importer although it is not imported. -/
theorem importer_left_behind :
    ∃ g, Document.decodeBytes true
        (Document.encode Number.Binary64.zero (droppedHistory.graph false)).toUTF8 = .ok g ∧
      "a.ts" ∈ (g.upsert "a.ts" (importing ["c.ts"])).importersOf "b.ts" ∧
      "b.ts" ∉ targets "a.ts" (importing ["c.ts"]) := by
  obtain ⟨g, hread, -, hnode⟩ := ImportGraph.exists_decodeBytes_nodes
    (ImportGraph.consistent_run false _) legible_droppedHistory true Number.Binary64.zero
  obtain ⟨hin, hout⟩ : "a.ts" ∈ (droppedHistory.graph false).importersOf "b.ts" ∧
      "b.ts" ∉ (droppedHistory.graph false).importsOf "a.ts" := by
    decide
  refine ⟨g, hread, ?_, by decide⟩
  rw [ImportGraph.mem_importersOf_upsert, ImportGraph.importersOf, ImportGraph.importsOf, hnode,
    hnode]
  exact Or.inr ⟨hin, fun hgone => hout hgone.2.2⟩

end Session

end RouteImpact
