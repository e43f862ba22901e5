import RouteImpact.Proofs.Component.Origins

namespace RouteImpact

open Component (localName?)
open ComponentMaps (routesWith Mappable factHash bindingsFor textNow)

/-!
# Questions to prepared maps

A question reads a file if the map of the file is not kept beside the hash of its present fact.
Whatever is found there is kept beside that hash: the bindings of the text, or none if the file has
no fact, or no text, or another text.  So a file that was prepared is not read again.

* `ComponentMaps.isStale_of_importMap` and its like — a question reads stale files only;
* `ComponentMaps.isStale_of_prepare` — no prepared file is stale;
* `Mapper.ask` — what an operation answers, and the files that it reads for that;
* `Mapper.Standing` — some files have the maps that they had, and these are not stale;
  `Standing.perform`, `Standing.run` — so it is after questions about any files;
* `Mapper.ask_of_prepared` — prepared maps answer without reading, and always the same.
-/

namespace ComponentMaps

variable {m : ComponentMaps} {src : ComponentSource} {file : String}

/-! ### What is read -/

theorem isStale_of_importMap {found : Mapped ImportMap} (h : m.importMap src file = .ok found) :
    ∀ f ∈ found.reads, m.isStale src.graph f = true := by
  intro f hf
  rw [reads_importMap h] at hf
  split at hf
  · next hstale =>
    rw [List.mem_singleton.1 hf]
    exact hstale
  · cases hf

theorem isStale_of_mapRouteFile {found : Mapped (List RouteComponent)}
    (h : m.mapRouteFile src file = .ok found) :
    ∀ f ∈ found.reads, m.isStale src.graph f = true := by
  intro f hf
  unfold mapRouteFile at h
  split at h
  · cases h
    cases hf
  · split at h
    · cases h
      cases hf
    · split at h
      · cases h
      · next asked hasked =>
        cases h
        exact isStale_of_importMap hasked f hf

theorem isStale_of_localNameOf {component : String} {found : Mapped (Option String)}
    (h : m.localNameOf src file component = .ok found) :
    ∀ f ∈ found.reads, m.isStale src.graph f = true := by
  unfold localNameOf at h
  split at h
  · cases h
  · next asked hasked =>
    cases h
    exact isStale_of_importMap hasked

variable {files : List String}

/-- **No prepared file is stale.**  Of a stale one the map has just been made, whatever its text
was. -/
theorem isStale_of_prepare {found : Mapped (List String)}
    (h : m.prepare src files = .ok found) :
    ∀ f ∈ files, found.maps.isStale src.graph f = false := by
  intro f hf
  have hget := get?_of_prepare h f
  by_cases hstale : m.isStale src.graph f = true
  · rw [if_pos ⟨hf, hstale⟩] at hget
    exact isStale_of_get? hget
  · rw [if_neg fun hboth => hstale hboth.2] at hget
    rw [isStale_congr src.graph hget]
    exact Bool.eq_false_iff.2 hstale

theorem prepare_of_fresh (h : ∀ f ∈ files, m.isStale src.graph f = false) :
    m.prepare src files = .ok ⟨[], [], m⟩ := by
  have hstale : files.filter (m.isStale src.graph ·) = [] :=
    List.filter_eq_nil_iff.2 fun f hf => by simp [h f hf]
  unfold prepare
  dsimp only
  rw [hstale]
  rfl

/-- Preparing makes maps of stale files only. -/
theorem of_mem_made {f : String} (hf : f ∈ m.made src files) :
    f ∈ files ∧ m.isStale src.graph f = true := by
  unfold made at hf
  dsimp only at hf
  split at hf
  · exact List.mem_filter.1 ((List.takeWhile_sublist _).subset hf)
  · cases hf

/-- Preparing gives an answer if every map that it has to make can be made. -/
theorem exists_prepare : (∃ found, m.prepare src files = .ok found) ↔
    ∀ f ∈ files, m.isStale src.graph f = true → Mappable src f := by
  simp [prepare_eq_ok]

end ComponentMaps

namespace Mapper

/-! ### Answers -/

deriving instance DecidableEq for OrderedMap

/-- What an operation answers. -/
inductive Reply where
  | bindings (found : ImportMap)
  | components (found : List RouteComponent)
  | name (found : Option String)
  /-- The files whose text is not the version of their fact. -/
  | changed (files : List String)
  /-- Whether a text is the version of a file's fact. -/
  | agreed (found : Bool)
  | done
deriving DecidableEq

/-- An answer, and the files that were read for it. -/
def replied {α : Type} (reply : α → Reply) :
    Except Failure (Mapped α) → Except Failure (Reply × List String)
  | .error e => .error e
  | .ok found => .ok (reply found.value, found.reads)

/-- What an operation answers, and the files that it reads.  A change answers nothing, whether it
is made or not. -/
def ask (m : Mapper) : Operation → Except Failure (Reply × List String)
  | .importMap file => replied .bindings (m.maps.importMap m.source file)
  | .mapRouteFile file => replied .components (m.maps.mapRouteFile m.source file)
  | .localNameOf file component => replied .name (m.maps.localNameOf m.source file component)
  | .prepare files =>
    replied .changed ((m.maps.prepare m.source files).mapError (·.failure))
  | .load file content =>
    (m.maps.load m.source file content).map fun _ =>
      (.agreed (ComponentMaps.agrees m.source.graph file content), [])
  | .invalidate _ | .clear | .upsert _ _ | .edit _ => .ok (.done, [])

/-- What the maps that are there answer about their files, as they are. -/
def held (m : Mapper) : Operation → Reply
  | .importMap file => .bindings (m.maps.current file)
  | .mapRouteFile file => .components (routesWith m.source.graph (m.maps.current file) file)
  | .localNameOf file component =>
    .name (localName? m.source.aliases (m.maps.current file) component)
  | .prepare _ => .changed []
  | .load file content => .agreed (ComponentMaps.agrees m.source.graph file content)
  | .invalidate _ | .clear | .upsert _ _ | .edit _ => .done

/-- A question, or a change of the texts: no fact changes, and no map is dropped or given. -/
def Operation.Asks : Operation → Prop
  | .importMap _ | .mapRouteFile _ | .localNameOf _ _ | .prepare _ | .edit _ => True
  | .load _ _ | .invalidate _ | .clear | .upsert _ _ => False

/-- A question about nothing but the given files. -/
def Operation.About (files : List String) : Operation → Prop
  | .importMap file | .mapRouteFile file | .localNameOf file _ => file ∈ files
  | .prepare asked => ∀ f ∈ asked, f ∈ files
  | .load _ _ | .invalidate _ | .clear | .upsert _ _ | .edit _ => False

/-! ### Maps that stay -/

variable {m now : Mapper} {files : List String} {op : Operation}

/-- The given files have the maps that they had, and these belong to their facts. -/
structure Standing (files : List String) (m now : Mapper) : Prop where
  graph : now.source.graph = m.source.graph
  aliases : now.source.aliases = m.source.aliases
  map : ∀ f ∈ files, now.maps.maps.get? f = m.maps.maps.get? f
  fresh : ∀ f ∈ files, now.maps.isStale now.source.graph f = false

/-- Making the maps of stale files only leaves those of the others. -/
theorem Standing.mapped (h : Standing files m now) {maps : ComponentMaps} {made : List String}
    (hmaps : ∀ x, maps.maps.get? x =
      if x ∈ made then
        some (factHash now.source.graph x, bindingsFor now.source x (textNow now.source x))
      else now.maps.maps.get? x)
    (hmade : ∀ f ∈ made, now.maps.isStale now.source.graph f = true) :
    Standing files m { now with maps } := by
  have hkept : ∀ f ∈ files, maps.maps.get? f = now.maps.maps.get? f := by
    intro f hf
    rw [hmaps f, if_neg]
    intro hread
    have hstale := hmade f hread
    rw [h.fresh f hf] at hstale
    cases hstale
  exact {
    graph := h.graph
    aliases := h.aliases
    map := fun f hf => (hkept f hf).trans (h.map f hf)
    fresh := fun f hf =>
      (ComponentMaps.isStale_congr now.source.graph (hkept f hf)).trans (h.fresh f hf) }

/-- In particular a question that reads stale files only. -/
theorem Standing.asked {α : Type} (h : Standing files m now) {r : Except Failure (Mapped α)}
    (hr : ∀ found, r = .ok found → now.maps.Answered now.source found)
    (hreads : ∀ found, r = .ok found →
      ∀ f ∈ found.reads, now.maps.isStale now.source.graph f = true) :
    Standing files m (now.asked r).1 := by
  cases r with
  | error e => exact h
  | ok found => exact h.mapped (hr found rfl) (hreads found rfl)

/-- **Step.** A question about any files, or a change of the texts, leaves the maps. -/
theorem Standing.perform (h : Standing files m now) (hop : op.Asks) :
    Standing files m (now.perform op).1 := by
  cases op with
  | importMap f =>
    exact h.asked (fun found hfound => ComponentMaps.answered_importMap hfound)
      fun found hfound => ComponentMaps.isStale_of_importMap hfound
  | mapRouteFile f =>
    exact h.asked (fun found hfound => ComponentMaps.answered_mapRouteFile hfound)
      fun found hfound => ComponentMaps.isStale_of_mapRouteFile hfound
  | localNameOf f component =>
    exact h.asked (fun found hfound => ComponentMaps.answered_localNameOf hfound)
      fun found hfound => ComponentMaps.isStale_of_localNameOf hfound
  | prepare asked =>
    exact h.mapped (ComponentMaps.get?_prepared asked) fun f hf =>
      (ComponentMaps.of_mem_made hf).2
  | edit read => exact ⟨h.graph, h.aliases, h.map, h.fresh⟩
  | load | invalidate | clear | upsert => exact hop.elim

/-- **Run.** -/
theorem Standing.run (h : Standing files m now) {ops : List Operation}
    (hops : ∀ op ∈ ops, op.Asks) : Standing files m (now.run ops) := by
  induction ops generalizing now with
  | nil => exact h
  | cons op ops ih =>
    have hstep := h.perform (hops op List.mem_cons_self)
    exact ih hstep fun later hlater => hops later (List.mem_cons_of_mem op hlater)

theorem standing_of_prepare {found : Mapped (List String)}
    (h : m.maps.prepare m.source files = .ok found) :
    Standing files { m with maps := found.maps } { m with maps := found.maps } where
  graph := rfl
  aliases := rfl
  map := fun _ _ => rfl
  fresh := ComponentMaps.isStale_of_prepare h

/-- What comes of an answer that leaves the maps alone. -/
theorem answered_without_reading {α : Type} {r : Except Failure (Mapped α)} {value : α}
    (h : r = .ok ⟨value, [], now.maps⟩) (reply : α → Reply) :
    replied reply r = .ok (reply value, []) ∧ now.asked r = (now, []) := by
  rw [h]
  exact ⟨rfl, rfl⟩

/-- A question about these files is answered from their maps, reads nothing and changes
nothing. -/
theorem Standing.ask (h : Standing files m now) (hop : op.About files) :
    now.ask op = .ok (m.held op, []) ∧ now.perform op = (now, []) := by
  have hcurrent : ∀ f ∈ files, m.maps.current f = now.maps.current f :=
    fun f hf => (ComponentMaps.current_congr (h.map f hf)).symm
  cases op with
  | importMap f =>
    rw [held, hcurrent f hop]
    exact answered_without_reading (ComponentMaps.importMap_of_fresh (h.fresh f hop)) .bindings
  | mapRouteFile f =>
    rw [held, hcurrent f hop, ← h.graph]
    exact answered_without_reading (ComponentMaps.mapRouteFile_of_fresh (h.fresh f hop))
      .components
  | localNameOf f component =>
    rw [held, hcurrent f hop, ← h.aliases]
    exact answered_without_reading
      (ComponentMaps.localNameOf_of_fresh (h.fresh f hop) component) .name
  | prepare asked =>
    have hprepare : now.maps.prepare now.source asked = .ok ⟨[], [], now.maps⟩ :=
      ComponentMaps.prepare_of_fresh fun f hf => h.fresh f (hop f hf)
    have hmade : now.maps.made now.source asked = [] :=
      List.eq_nil_iff_forall_not_mem.2 fun f hf => by
        obtain ⟨hmem, hstale⟩ := ComponentMaps.of_mem_made hf
        rw [h.fresh f (hop f hmem)] at hstale
        cases hstale
    refine ⟨?_, ?_⟩
    · rw [Mapper.ask, hprepare]
      rfl
    · rw [Mapper.perform, ComponentMaps.prepared, hprepare, hmade]
      rfl
  | load | invalidate | clear | upsert | edit => exact hop.elim

/-- **Prepared maps answer without reading.**  Preparing files, listed once or more often, gives an
answer if the maps of those that are stale can be made: they can be asked for, whether they have a
fact or a text or not, and what they import can be resolved where their text is that of their fact.
From then on, as long as no fact changes and no map is dropped or given, every question about the
files is answered from the maps that they have got, nothing is read for it, and the mapper stays as
it is; so it is though the texts change, and though other files are asked for in between.
Preparing the files again reads nothing and finds no file changed. -/
theorem ask_of_prepared (m : Mapper) (files : List String) :
    ((∃ reply, m.ask (.prepare files) = .ok reply) ↔
      ∀ f ∈ files, m.maps.isStale m.source.graph f = true → Mappable m.source f) ∧
    ∀ reply, m.ask (.prepare files) = .ok reply →
      ∀ ops : List Operation, (∀ op ∈ ops, op.Asks) →
        (((m.perform (.prepare files)).1.run ops).ask (.prepare files) =
          .ok (.changed [], [])) ∧
        ∀ op : Operation, op.About files →
          ((m.perform (.prepare files)).1.run ops).ask op =
            .ok ((m.perform (.prepare files)).1.held op, []) ∧
          ((m.perform (.prepare files)).1.run ops).perform op =
            ((m.perform (.prepare files)).1.run ops, []) := by
  refine ⟨?_, fun reply hreply ops hops => ?_⟩
  · rw [← ComponentMaps.exists_prepare, ask]
    cases m.maps.prepare m.source files with
    | error halted => simp [replied, Except.mapError]
    | ok found => simp [replied, Except.mapError]
  · rw [ask] at hreply
    cases hfound : m.maps.prepare m.source files with
    | error halted =>
      rw [hfound] at hreply
      cases hreply
    | ok found =>
      have hperform : (m.perform (.prepare files)).1 = { m with maps := found.maps } := by
        rw [perform, ComponentMaps.prepared, hfound]
      rw [hperform]
      have hstanding := (standing_of_prepare hfound).run hops
      have habout : Operation.About files (.prepare files) := fun f hf => hf
      exact ⟨(hstanding.ask habout).1, fun op hop => hstanding.ask hop⟩

/-! ### Files of every kind -/

/-- The route files of a project, one of them listed twice. -/
def mixedFiles : List String := ["r.js", "r.js", "gone.js", "plain.js", "old.js"]

/-- One has the text of its fact, one has no text, one has no fact, and one has another text. -/
def mixedMapper : Mapper := (start pageExtractor [] false).run
  [setFact pageImport, .upsert "gone.js" ⟨"gone.js", pageImport, Number.Binary64.zero⟩,
    .upsert "old.js" ⟨"old.js", "", Number.Binary64.zero⟩,
    .edit fun file => .ok (if file = "gone.js" then none else some pageImport)]

/-- Every text is gone, and is asked for all the same. -/
def askedAgain : List Operation :=
  [.edit fun _ => .ok none, .importMap "new.js", .mapRouteFile "gone.js",
    .localNameOf "plain.js" "x.js", .prepare ["old.js", "new.js"]]

/-- The first time all are read, and one has changed. -/
theorem ask_mixedMapper :
    mixedMapper.ask (.prepare mixedFiles) = .ok (.changed ["old.js"], mixedFiles) ∧
      (mixedMapper.perform (.prepare mixedFiles)).1.held (.localNameOf "r.js" "x.js") =
        .name (some "A") := by
  decide +kernel

/-- Later none is read, and the name is still known. -/
theorem ask_of_prepared_mixedMapper :
    ((mixedMapper.perform (.prepare mixedFiles)).1.run askedAgain).ask (.prepare mixedFiles) =
        .ok (.changed [], []) ∧
      ((mixedMapper.perform (.prepare mixedFiles)).1.run askedAgain).ask
        (.localNameOf "r.js" "x.js") = .ok (.name (some "A"), []) := by
  obtain ⟨hfirst, hname⟩ := ask_mixedMapper
  have hasks : ∀ op ∈ askedAgain, op.Asks := by
    simp [askedAgain, Operation.Asks]
  have hlater := (ask_of_prepared mixedMapper mixedFiles).2 _ hfirst askedAgain hasks
  refine ⟨hlater.1, ?_⟩
  have habout : (Operation.localNameOf "r.js" "x.js").About mixedFiles := List.mem_cons_self
  rw [← hname]
  exact (hlater.2 _ habout).1

end Mapper

end RouteImpact
