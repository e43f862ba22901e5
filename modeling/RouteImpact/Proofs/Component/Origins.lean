import Mathlib.Data.Set.Function
import RouteImpact.Proofs.Component.Preparation
import RouteImpact.Proofs.Fact.Bindings

namespace RouteImpact

open ComponentMaps (factHash bindingsFor agrees textNow)

/-!
# Which text a component map is of

The map of a file is made from a text that is read when the map is asked for, and kept beside the
hash of the file's fact.  The fact may be of an older or a newer text, the file may be gone, and
what is made then is kept as well.

* `ComponentMaps.Answered` — a question makes the maps of the files that it reads, from their
  present texts, and leaves the others alone;
* `Mapper`, `Mapper.Operation`, `Mapper.run` — maps, facts and texts that change in any order;
* `Making`, `Mapper.making?` — how the map of a file was last made: a record for the proofs, that
  no operation looks at;
* `Mapper.Recorded` — every map and every fact is what its record says, after every history;
* `Mapper.importMap_of_extraction` — hence a map that binds a name is of the very text that the
  file's fact was extracted from;
* `Mapper.importMap_of_making` — and a map is of the present text, if it was last made from it;
* `Mapper.importMap_restored` — but not if another text was found when it was made.
-/

namespace ComponentMaps

variable {m : ComponentMaps} {src : ComponentSource} {file : String} {α : Type}

/-! ### Questions -/

/-- A question has made the maps of the files that it read, and has left the others alone. -/
def Answered (m : ComponentMaps) (src : ComponentSource) (found : Mapped α) : Prop :=
  ∀ x, found.maps.maps.get? x =
    if x ∈ found.reads then some (factHash src.graph x, bindingsFor src x (textNow src x))
    else m.maps.get? x

theorem answered_importMap {found : Mapped ImportMap} (h : m.importMap src file = .ok found) :
    m.Answered src found := by
  intro x
  unfold importMap at h
  split at h
  · split at h
    · cases h
    · next content hread =>
      split at h
      · cases h
      · next m' hload =>
        cases h
        obtain ⟨-, rfl⟩ := load_eq_ok.1 hload
        have htext : textNow src file = content := by
          rw [textNow, hread]
          rfl
        dsimp only
        rw [get?_loaded]
        by_cases hx : file = x
        · subst hx
          simp [htext]
        · simp [hx, Ne.symm hx]
  · cases h
    simp

theorem answered_mapRouteFile {found : Mapped (List RouteComponent)}
    (h : m.mapRouteFile src file = .ok found) : m.Answered src found := by
  unfold mapRouteFile at h
  split at h
  · cases h
    intro x
    simp
  · split at h
    · cases h
      intro x
      simp
    · split at h
      · cases h
      · next asked hasked =>
        cases h
        exact answered_importMap hasked

theorem answered_localNameOf {component : String} {found : Mapped (Option String)}
    (h : m.localNameOf src file component = .ok found) : m.Answered src found := by
  unfold localNameOf at h
  split at h
  · cases h
  · next asked hasked =>
    cases h
    exact answered_importMap hasked

theorem get?_invalidate (m : ComponentMaps) (files : List String) (x : String) :
    (m.invalidate files).maps.get? x = if x ∈ files then none else m.maps.get? x := by
  show (files.foldl OrderedMap.erase m.maps).get? x = _
  generalize m.maps = maps
  induction files generalizing maps with
  | nil => simp
  | cons file rest ih =>
    rw [List.foldl_cons, ih, OrderedMap.get?_erase]
    by_cases hrest : x ∈ rest
    · simp [hrest]
    · by_cases hx : file = x
      · simp [hx]
      · simp [hrest, hx, Ne.symm hx]

theorem reads_importMap {found : Mapped ImportMap} (h : m.importMap src file = .ok found) :
    found.reads = if m.isStale src.graph file then [file] else [] := by
  unfold importMap at h
  split at h
  · next hstale =>
    split at h
    · cases h
    · split at h
      · cases h
      · cases h
        rw [if_pos hstale]
  · next hfresh =>
    cases h
    rw [if_neg hfresh]

/-- The map that is answered is the one that is kept, beside the hash of the file's fact. -/
theorem get?_of_importMap {found : Mapped ImportMap} (h : m.importMap src file = .ok found) :
    found.maps.maps.get? file = some (factHash src.graph file, found.value) := by
  unfold importMap at h
  split at h
  · split at h
    · cases h
    · split at h
      · cases h
      · next m' hload =>
        cases h
        obtain ⟨-, rfl⟩ := load_eq_ok.1 hload
        dsimp only
        rw [current, get?_loaded, if_pos rfl]
        rfl
  · next hfresh =>
    cases h
    -- a map that is not stale has the hash of the fact
    rw [isStale] at hfresh
    cases hget : m.maps.get? file with
    | none => simp [hget] at hfresh
    | some entry =>
      obtain ⟨hash, bindings⟩ := entry
      rw [current_of_get? hget]
      have hhash : hash = factHash src.graph file := by simpa [hget] using hfresh
      rw [hhash]

end ComponentMaps

/-! ### How maps are made -/

/-- How the map of a file was made: beside which hash, and from which text, if there was one. -/
structure Making where
  hash : String
  content : Option String
deriving DecidableEq

/-- The bindings that were made.  A text that is not the version of the hash has given none. -/
def Making.bindings (r : Resolver) (file : String) (k : Making) : ImportMap :=
  match k.content with
  | none => OrderedMap.empty
  | some text =>
    if Digest.contentHash text = k.hash then ImportMap.ofText r file text else OrderedMap.empty

/-- What is kept of it. -/
def Making.entry (r : Resolver) (file : String) (k : Making) : String × ImportMap :=
  (k.hash, k.bindings r file)

/-- A file without a fact has the empty hash, which is that of no text. -/
theorem ComponentMaps.bindingsFor_eq (src : ComponentSource) (file : String)
    (content : Option String) :
    bindingsFor src file content =
      Making.bindings src.extractor.resolver file ⟨factHash src.graph file, content⟩ := by
  cases content with
  | none => rfl
  | some text =>
    unfold bindingsFor Making.bindings
    by_cases hhash : Digest.contentHash text = factHash src.graph file
    · have hne : factHash src.graph file ≠ "" := by
        rw [← hhash]
        exact Digest.contentHash_ne_empty text
      simp [agrees, hhash, hne]
    · simp [agrees, hhash]

/-- Component maps and what they are made from. -/
structure Mapper where
  source : ComponentSource
  maps : ComponentMaps := ComponentMaps.empty

namespace Mapper

/-- The making of a fact: the text, and the path and the moment that are noted with it. -/
structure Extraction where
  path : String
  text : String
  now : Moment

/-- The fact that is made, if the imports of the text can be resolved. -/
def Extraction.fact (x : Extractor) (e : Extraction) : FileFact := x.factOf e.now e.path e.text

/-- A question about components, or a change of what they are made from. -/
inductive Operation where
  | importMap (file : String)
  | mapRouteFile (file : String)
  | localNameOf (file component : String)
  | prepare (files : List String)
  /-- A text that may have been read some time ago is taken for that of a file, if its map can be
  made. -/
  | load (file : String) (content : Option String)
  | invalidate (files : List String)
  | clear
  /-- A file gets a new fact, if it is extracted. -/
  | upsert (file : String) (e : Extraction)
  /-- Files say something else, come or go. -/
  | edit (read : String → Except Failure (Option String))

/-- A mapper that knows nothing yet. -/
def start (x : Extractor) (aliases : List (String × String)) (prune : Bool) : Mapper where
  source := { graph := { prune }, extractor := x, aliases, read := fun _ => .ok none }

/-- The mapper after a question, and the texts of which it made maps.  A question that fails
changes nothing. -/
def asked {α : Type} (m : Mapper) :
    Except Failure (Mapped α) → Mapper × List (String × Option String)
  | .error _ => (m, [])
  | .ok found =>
    ({ m with maps := found.maps }, found.reads.map fun file => (file, textNow m.source file))

/-- The mapper after an operation, and the texts of which it made maps. -/
def perform (m : Mapper) : Operation → Mapper × List (String × Option String)
  | .importMap file => m.asked (m.maps.importMap m.source file)
  | .mapRouteFile file => m.asked (m.maps.mapRouteFile m.source file)
  | .localNameOf file component => m.asked (m.maps.localNameOf m.source file component)
  | .prepare files =>
    -- where this fails, the maps before the first that cannot be made stay
    ({ m with maps := m.maps.prepared m.source files },
      (m.maps.made m.source files).map fun file => (file, textNow m.source file))
  | .load file content =>
    match m.maps.load m.source file content with
    | .error _ => (m, [])
    | .ok maps => ({ m with maps }, [(file, content)])
  | .invalidate files => ({ m with maps := m.maps.invalidate files }, [])
  | .clear => ({ m with maps := ComponentMaps.empty }, [])
  | .upsert file e =>
    match m.source.extractor.extract e.now e.path e.text with
    | .error _ => (m, [])
    | .ok fact => ({ m with source.graph := m.source.graph.upsert file fact }, [])
  | .edit read => ({ m with source.read := read }, [])

/-- The mapper after one operation after the other. -/
def run (m : Mapper) (ops : List Operation) : Mapper := ops.foldl (fun m op => (m.perform op).1) m

/-! ### The record of a file -/

/-- Whether an operation drops the map of a file. -/
def Operation.forgets (file : String) : Operation → Bool
  | .invalidate files => files.contains file
  | .clear => true
  | _ => false

/-- How the map of a file was last made, after one more operation. -/
def noted (m : Mapper) (file : String) (last : Option Making) (op : Operation) : Option Making :=
  if op.forgets file then none
  else
    ((m.perform op).2.lookup file).elim last fun content =>
      some ⟨factHash m.source.graph file, content⟩

/-- How the map of a file was last made, unless it was dropped since. -/
def making? (file : String) : Mapper → Option Making → List Operation → Option Making
  | _, last, [] => last
  | m, last, op :: ops => making? file (m.perform op).1 (m.noted file last op) ops

/-- What the fact of a file was last made from, after one more operation.  A text whose imports
cannot be resolved gives no fact. -/
def Operation.extracted (x : Extractor) (file : String) (last : Option Extraction) :
    Operation → Option Extraction
  | .upsert f e =>
    if f = file ∧ (x.extract e.now e.path e.text).toOption.isSome then some e else last
  | _ => last

/-- What the fact of a file was last made from. -/
def extraction? (x : Extractor) (file : String) (ops : List Operation) : Option Extraction :=
  ops.foldl (Operation.extracted x file) none

variable {x : Extractor} {m : Mapper} {file : String} {last : Option Making}
  {fact : Option Extraction}

/-- What is known of a file, as the record has it. -/
structure Recorded (x : Extractor) (file : String) (m : Mapper) (last : Option Making)
    (fact : Option Extraction) : Prop where
  extractor : m.source.extractor = x
  map : m.maps.maps.get? file = last.map (Making.entry x.resolver file)
  extracted : ∀ e, fact = some e → x.extract e.now e.path e.text = .ok (e.fact x)
  fact : m.source.graph.fact? file = fact.map (Extraction.fact x)

theorem recorded_start (x : Extractor) (aliases : List (String × String)) (prune : Bool)
    (file : String) : Recorded x file (start x aliases prune) none none where
  extractor := rfl
  map := rfl
  extracted := by
    intro e h
    cases h
  fact := rfl

theorem lookup_texts (m : Mapper) (files : List String) (file : String) :
    (files.map fun f => (f, textNow m.source f)).lookup file =
      if file ∈ files then some (textNow m.source file) else none := by
  induction files with
  | nil => rfl
  | cons f rest ih =>
    rw [List.map_cons, List.lookup_cons, ih]
    by_cases hf : file = f
    · simp [hf]
    · simp [hf, beq_false_of_ne hf]

/-- Making maps from present texts keeps the record. -/
theorem Recorded.mapped (h : Recorded x file m last fact) {maps : ComponentMaps}
    {files : List String}
    (hmaps : maps.maps.get? file =
      if file ∈ files then
        some (factHash m.source.graph file, bindingsFor m.source file (textNow m.source file))
      else m.maps.maps.get? file) :
    Recorded x file { m with maps }
      (((files.map fun f => (f, textNow m.source f)).lookup file).elim last fun content =>
        some ⟨factHash m.source.graph file, content⟩) fact := by
  refine ⟨h.extractor, ?_, h.extracted, h.fact⟩
  show maps.maps.get? file = _
  rw [hmaps, lookup_texts]
  by_cases hmade : file ∈ files
  · simp [hmade, ComponentMaps.bindingsFor_eq, h.extractor, Making.entry]
  · simp [hmade, h.map]

/-- In particular a question does. -/
theorem Recorded.asked {α : Type} (h : Recorded x file m last fact)
    {r : Except Failure (Mapped α)}
    (hr : ∀ found, r = .ok found → m.maps.Answered m.source found) :
    Recorded x file (m.asked r).1
      (((m.asked r).2.lookup file).elim last fun content =>
        some ⟨factHash m.source.graph file, content⟩) fact := by
  cases r with
  | error e => exact h
  | ok found => exact h.mapped (hr found rfl file)

theorem Recorded.load (h : Recorded x file m last fact) (f : String) (content : Option String) :
    Recorded x file (m.perform (.load f content)).1 (m.noted file last (.load f content)) fact := by
  rw [noted, if_neg (by simp [Operation.forgets])]
  unfold Mapper.perform
  dsimp only
  split
  · exact h
  · next maps hload =>
    obtain ⟨-, rfl⟩ := ComponentMaps.load_eq_ok.1 hload
    refine ⟨h.extractor, ?_, h.extracted, h.fact⟩
    dsimp only
    rw [ComponentMaps.get?_loaded, List.lookup_cons]
    by_cases hf : f = file
    · subst hf
      simp [ComponentMaps.bindingsFor_eq, h.extractor, Making.entry]
    · simp [hf, beq_false_of_ne (Ne.symm hf), h.map]

theorem Recorded.upsert (h : Recorded x file m last fact) (f : String) (e : Extraction) :
    Recorded x file (m.perform (.upsert f e)).1 last
      ((Operation.upsert f e).extracted x file fact) := by
  obtain rfl := h.extractor
  unfold Mapper.perform Operation.extracted
  dsimp only
  cases hextract : m.source.extractor.extract e.now e.path e.text with
  | error _ =>
    rw [if_neg (by simp [Except.toOption])]
    exact h
  | ok made =>
    obtain rfl : e.fact m.source.extractor = made := (Extractor.extract_eq_ok.1 hextract).2
    by_cases hf : f = file
    · rw [if_pos ⟨hf, rfl⟩]
      refine ⟨rfl, h.map, ?_, ?_⟩
      · rintro _ ⟨⟩
        exact hextract
      · dsimp only
        rw [ImportGraph.fact?_upsert, if_pos hf]
        rfl
    · rw [if_neg fun h => hf h.1]
      refine ⟨rfl, h.map, h.extracted, ?_⟩
      dsimp only
      rw [ImportGraph.fact?_upsert, if_neg hf, h.fact]

/-- **Step.** Every operation keeps the record. -/
theorem Recorded.perform (h : Recorded x file m last fact) (op : Operation) :
    Recorded x file (m.perform op).1 (m.noted file last op) (op.extracted x file fact) := by
  cases op with
  | importMap f => exact h.asked fun found hfound => ComponentMaps.answered_importMap hfound
  | mapRouteFile f => exact h.asked fun found hfound => ComponentMaps.answered_mapRouteFile hfound
  | localNameOf f component =>
    exact h.asked fun found hfound => ComponentMaps.answered_localNameOf hfound
  | prepare files => exact h.mapped (ComponentMaps.get?_prepared files file)
  | load f content => exact h.load f content
  | invalidate files =>
    refine ⟨h.extractor, ?_, h.extracted, h.fact⟩
    show (m.maps.invalidate files).maps.get? file = Option.map _ (if _ then _ else _)
    rw [ComponentMaps.get?_invalidate]
    by_cases hf : file ∈ files
    · simp [Operation.forgets, hf]
    · simp [Operation.forgets, hf, h.map, Mapper.perform]
  | clear => exact ⟨h.extractor, rfl, h.extracted, h.fact⟩
  | upsert f e =>
    rw [noted, if_neg (by simp [Operation.forgets])]
    have hnone : (m.perform (.upsert f e)).2 = [] := by
      unfold Mapper.perform
      dsimp only
      split <;> rfl
    rw [hnone]
    exact h.upsert f e
  | edit read => exact ⟨h.extractor, h.map, h.extracted, h.fact⟩

/-- **Run.** So does every history. -/
theorem Recorded.run (h : Recorded x file m last fact) (ops : List Operation) :
    Recorded x file (m.run ops) (making? file m last ops)
      (ops.foldl (Operation.extracted x file) fact) := by
  induction ops generalizing m last fact with
  | nil => exact h
  | cons op ops ih => exact ih (h.perform op)

/-! ### The texts of a file -/

/-- A text that an operation brings up for a file: its fact is extracted from it, its map is made
from it, or the file says it from now on. -/
def Operation.Brings (file text : String) : Operation → Prop
  | .upsert f e => f = file ∧ e.text = text
  | .load f content => f = file ∧ content = some text
  | .edit read => read file = .ok (some text)
  | _ => False

/-- The texts that a history brings up for a file. -/
def textsOf (file : String) (ops : List Operation) : Set String :=
  { text | ∃ op ∈ ops, op.Brings file text }

variable {texts : Set String}

/-- All texts of a file are among the given ones: the present one, the one its map was made from
and the one its fact was extracted from. -/
structure Within (texts : Set String) (file : String) (m : Mapper) (last : Option Making)
    (fact : Option Extraction) : Prop where
  read : ∀ text, textNow m.source file = some text → text ∈ texts
  made : ∀ k text, last = some k → k.content = some text → text ∈ texts
  extracted : ∀ e, fact = some e → e.text ∈ texts

theorem within_start (x : Extractor) (aliases : List (String × String)) (prune : Bool)
    (texts : Set String) (file : String) : Within texts file (start x aliases prune) none none where
  read := by
    intro text h
    cases h
  made := by
    intro k text h
    cases h
  extracted := by
    intro e h
    cases h

/-- Making maps from present texts brings up no other text. -/
theorem Within.mapped (h : Within texts file m last fact) (maps : ComponentMaps)
    (files : List String) :
    Within texts file { m with maps }
      (((files.map fun f => (f, textNow m.source f)).lookup file).elim last fun content =>
        some ⟨factHash m.source.graph file, content⟩) fact := by
  refine ⟨h.read, fun k text hk hcontent => ?_, h.extracted⟩
  rw [lookup_texts] at hk
  by_cases hmade : file ∈ files
  · rw [if_pos hmade] at hk
    cases hk
    exact h.read text hcontent
  · rw [if_neg hmade] at hk
    exact h.made k text hk hcontent

theorem Within.asked {α : Type} (h : Within texts file m last fact)
    (r : Except Failure (Mapped α)) :
    Within texts file (m.asked r).1
      (((m.asked r).2.lookup file).elim last fun content =>
        some ⟨factHash m.source.graph file, content⟩) fact := by
  cases r with
  | error e => exact h
  | ok found => exact h.mapped found.maps found.reads

theorem Within.load (h : Within texts file m last fact) {f : String} {content : Option String}
    (hload : ∀ text, (Operation.load f content).Brings file text → text ∈ texts) :
    Within texts file (m.perform (.load f content)).1 (m.noted file last (.load f content))
      fact := by
  rw [noted, if_neg (by simp [Operation.forgets])]
  unfold Mapper.perform
  dsimp only
  split
  · exact h
  · refine ⟨h.read, fun k text hk hcontent => ?_, h.extracted⟩
    rw [List.lookup_cons] at hk
    by_cases hf : f = file
    · subst hf
      simp only [beq_self_eq_true, Option.elim_some, Option.some.injEq] at hk
      subst hk
      exact hload text ⟨rfl, hcontent⟩
    · simp only [beq_false_of_ne (Ne.symm hf), List.lookup_nil, Option.elim_none] at hk
      exact h.made k text hk hcontent

theorem Within.upsert (x : Extractor) (h : Within texts file m last fact) {f : String}
    {e : Extraction}
    (hupsert : ∀ text, (Operation.upsert f e).Brings file text → text ∈ texts) :
    Within texts file (m.perform (.upsert f e)).1 (m.noted file last (.upsert f e))
      ((Operation.upsert f e).extracted x file fact) := by
  have hextracted : ∀ e', (Operation.upsert f e).extracted x file fact = some e' →
      e'.text ∈ texts := by
    intro e' he
    rw [Operation.extracted] at he
    split at he
    · next hf =>
      cases he
      exact hupsert e.text ⟨hf.1, rfl⟩
    · exact h.extracted e' he
  rw [noted, if_neg (by simp [Operation.forgets])]
  unfold Mapper.perform
  dsimp only
  split
  · exact ⟨h.read, h.made, hextracted⟩
  · exact ⟨h.read, h.made, hextracted⟩

/-- **Step.** Whatever an operation does with a file, it does with texts that were brought up. -/
theorem Within.perform (x : Extractor) (h : Within texts file m last fact) (op : Operation)
    (hop : ∀ text, op.Brings file text → text ∈ texts) :
    Within texts file (m.perform op).1 (m.noted file last op) (op.extracted x file fact) := by
  cases op with
  | importMap f => exact h.asked _
  | mapRouteFile f => exact h.asked _
  | localNameOf f component => exact h.asked _
  | prepare files => exact h.mapped _ _
  | load f content => exact h.load hop
  | invalidate files =>
    refine ⟨h.read, fun k text hk hcontent => ?_, h.extracted⟩
    unfold noted at hk
    split at hk
    · cases hk
    · exact h.made k text hk hcontent
  | clear =>
    refine ⟨h.read, fun k text hk hcontent => ?_, h.extracted⟩
    cases hk
  | upsert f e => exact h.upsert x hop
  | edit read =>
    refine ⟨fun text htext => ?_, h.made, h.extracted⟩
    exact hop text (ComponentMaps.read_of_textNow htext)

/-- **Run.** -/
theorem Within.run (x : Extractor) (h : Within texts file m last fact) {ops : List Operation}
    (hops : ∀ op ∈ ops, ∀ text, op.Brings file text → text ∈ texts) :
    Within texts file (m.run ops) (making? file m last ops)
      (ops.foldl (Operation.extracted x file) fact) := by
  induction ops generalizing m last fact with
  | nil => exact h
  | cons op ops ih =>
    refine ih (h.perform x op (hops op List.mem_cons_self)) fun later hlater => ?_
    exact hops later (List.mem_cons_of_mem _ hlater)

/-! ### What is answered -/

/-- The names that a file binds, as they are answered now. -/
def importMap (m : Mapper) (file : String) : Except Failure (Mapped ImportMap) :=
  m.maps.importMap m.source file

/-- A file with a hash has a fact that was extracted from a text of that hash. -/
theorem Recorded.exists_extraction (h : Recorded x file m last fact) {hash : String}
    (hhash : factHash m.source.graph file = hash) (hne : hash ≠ "") :
    ∃ e, fact = some e ∧ Digest.contentHash e.text = hash := by
  rw [factHash, h.fact] at hhash
  cases fact with
  | none =>
    rw [Option.map_none, Option.elim_none] at hhash
    exact absurd hhash.symm hne
  | some e =>
    refine ⟨e, rfl, ?_⟩
    rw [Option.map_some, Option.elim_some, Extraction.fact, Extractor.factOf] at hhash
    -- a text that was skipped leaves no hash
    split at hhash
    · exact absurd hhash.symm hne
    · exact hhash

theorem Recorded.isStale (h : Recorded x file m last fact) :
    m.maps.isStale m.source.graph file = last.all (·.hash != factHash m.source.graph file) := by
  rw [ComponentMaps.isStale, h.map]
  cases last <;> rfl

theorem noted_importMap {found : Mapped ImportMap} (hfound : m.importMap file = .ok found) :
    m.noted file last (.importMap file) =
      if m.maps.isStale m.source.graph file then
        some ⟨factHash m.source.graph file, textNow m.source file⟩
      else last := by
  have hread : (m.perform (.importMap file)).2 =
      found.reads.map fun f => (f, textNow m.source f) := by
    show (m.asked (m.importMap file)).2 = _
    rw [hfound]
    rfl
  have hreads : found.reads = _ := ComponentMaps.reads_importMap hfound
  rw [noted, if_neg (by simp [Operation.forgets]), hread, lookup_texts, hreads]
  split
  · simp
  · simp

/-- The map that is answered was made beside the hash of the present fact, now or before. -/
theorem Recorded.exists_making (h : Recorded x file m last fact) {found : Mapped ImportMap}
    (hfound : m.importMap file = .ok found) :
    ∃ k, m.noted file last (.importMap file) = some k ∧ k.hash = factHash m.source.graph file ∧
      found.value = k.bindings x.resolver file := by
  have hkept := ComponentMaps.get?_of_importMap hfound
  have hmap := (h.perform (.importMap file)).map
  have hperform : (m.perform (.importMap file)).1.maps = found.maps := by
    show (m.asked (m.importMap file)).1.maps = _
    rw [hfound]
    rfl
  rw [hperform, hkept] at hmap
  obtain ⟨k, hk, hentry⟩ := Option.map_eq_some_iff.1 hmap.symm
  exact ⟨k, hk, congrArg Prod.fst hentry, (congrArg Prod.snd hentry).symm⟩

/-- **Routes and bindings come from one text.**  After every history of questions, changes of
facts and changes of texts, where no two texts that were brought up for a file have the same hash:
a map that is answered for the file and binds a name is the map of the text that the file's
present fact was extracted from. -/
theorem importMap_of_extraction (x : Extractor) (aliases : List (String × String)) (prune : Bool)
    (ops : List Operation) {file : String}
    (hhash : Set.InjOn Digest.contentHash (textsOf file ops)) {found : Mapped ImportMap}
    (hfound : ((start x aliases prune).run ops).importMap file = .ok found)
    (hne : found.value ≠ OrderedMap.empty) :
    ∃ e, extraction? x file ops = some e ∧
      ((start x aliases prune).run ops).source.graph.fact? file = some (e.fact x) ∧
      found.value = ImportMap.ofText x.resolver file e.text := by
  have hrecord := (recorded_start x aliases prune file).run ops
  have hwithin := (within_start x aliases prune (textsOf file ops) file).run x
    fun op hop text htext => ⟨op, hop, htext⟩
  obtain ⟨k, hk, hkhash, hvalue⟩ := hrecord.exists_making hfound
  -- only a text of the fact's hash can have given a name
  unfold Making.bindings at hvalue
  split at hvalue
  · exact absurd hvalue hne
  · next text hcontent =>
    split at hvalue
    · next hversion =>
      obtain ⟨e, he, hextracted⟩ := hrecord.exists_extraction (hkhash.symm.trans hversion.symm)
        (Digest.contentHash_ne_empty text)
      have htext : text ∈ textsOf file ops :=
        (hwithin.perform x (.importMap file) fun _ h => h.elim).made k text hk hcontent
      have heq : e.text = text := hhash (hwithin.extracted e he) htext hextracted
      refine ⟨e, he, ?_, ?_⟩
      · rw [hrecord.fact, he]
        rfl
      · rw [hvalue, heq]
    · exact absurd hvalue hne

/-- The text that the fact of a file was extracted from has a map. -/
theorem Recorded.resolves (h : Recorded x file m last fact) {text : String}
    (hhash : Digest.contentHash text = factHash m.source.graph file) {e : Extraction}
    (he : fact = some e) (hpath : e.path = file) (htext : e.text = text) :
    ImportMap.Resolves x.resolver file text := by
  have hextract := h.extracted e he
  rw [hpath, htext] at hextract
  refine ImportMap.resolves_of_extract hextract ?_
  -- a text that was skipped would have left no hash
  rw [factHash, h.fact, he, Option.map_some, Option.elim_some, Extraction.fact,
    Extractor.factOf, htext] at hhash
  cases hskip : x.isSkippable text with
  | false => rfl
  | true =>
    rw [if_pos hskip] at hhash
    exact absurd hhash (Digest.contentHash_ne_empty text)

/-- A map is answered if it is not stale, or can be made from the present text. -/
theorem Recorded.exists_importMap (h : Recorded x file m last fact) {text : String}
    (hread : m.source.read file = .ok (some text))
    (hresolves : ImportMap.Resolves x.resolver file text) :
    ∃ found, m.importMap file = .ok found := by
  unfold importMap ComponentMaps.importMap
  split
  · have hmake : ComponentMaps.Makeable m.source file (some text) := by
      rintro _ ⟨⟩ - -
      rw [h.extractor]
      exact hresolves
    rw [hread]
    dsimp only
    rw [ComponentMaps.load_eq_ok.2 ⟨hmake, rfl⟩]
    exact ⟨_, rfl⟩
  · exact ⟨_, rfl⟩

/-- **A map is as good as the text it was last made from.**  After every history, at a moment when
a file can be read and its text has the hash of its fact: its map is answered, if the imports of
the text can be resolved, as they can where its fact was extracted from it.  The map is that of the
text, unless it was last made, for a fact of this hash and not dropped since, from another text or
from none.  Where that was a text of another hash, no names are answered. -/
theorem importMap_of_making (x : Extractor) (aliases : List (String × String)) (prune : Bool)
    (ops : List Operation) {file text : String}
    (hread : ((start x aliases prune).run ops).source.read file = .ok (some text))
    (hhash : Digest.contentHash text =
      factHash ((start x aliases prune).run ops).source.graph file) :
    (ImportMap.Resolves x.resolver file text ∨
        (∃ e, extraction? x file ops = some e ∧ e.path = file ∧ e.text = text) →
      ∃ found, ((start x aliases prune).run ops).importMap file = .ok found) ∧
    ∀ found, ((start x aliases prune).run ops).importMap file = .ok found →
      ((∀ content, making? file (start x aliases prune) none ops =
          some ⟨Digest.contentHash text, content⟩ → content = some text) →
        found.value = ImportMap.ofText x.resolver file text) ∧
      ∀ other, making? file (start x aliases prune) none ops =
          some ⟨Digest.contentHash text, some other⟩ →
        Digest.contentHash other ≠ Digest.contentHash text →
          found.value = OrderedMap.empty := by
  have hrecord := (recorded_start x aliases prune file).run ops
  unfold extraction?
  generalize (start x aliases prune).run ops = m at *
  generalize making? file (start x aliases prune) none ops = last at *
  generalize ops.foldl (Operation.extracted x file) none = fact at *
  refine ⟨fun h => ?_, fun found hfound => ?_⟩
  · rcases h with hresolves | ⟨e, he, hpath, htext⟩
    · exact hrecord.exists_importMap hread hresolves
    · exact hrecord.exists_importMap hread (hrecord.resolves hhash he hpath htext)
  · obtain ⟨⟨hash, content⟩, hk, hkhash, hvalue⟩ := hrecord.exists_making hfound
    rw [noted_importMap hfound] at hk
    change hash = factHash m.source.graph file at hkhash
    rw [← hhash] at hkhash
    subst hkhash
    have hown : content = some text → found.value = ImportMap.ofText x.resolver file text := by
      rintro rfl
      rw [hvalue, Making.bindings]
      exact if_pos rfl
    refine ⟨fun hmade => ?_, fun other hmade hother => ?_⟩
    · apply hown
      split at hk
      · -- there was no map for this hash, so it has been made from the present text
        rw [textNow, hread] at hk
        exact (congrArg Making.content (Option.some.inj hk)).symm
      · exact hmade content hk
    · -- the map of the other text is still there, and it is empty
      rw [hmade, if_neg (by simp [hrecord.isStale, hmade, hhash])] at hk
      cases hk
      rw [hvalue, Making.bindings]
      exact if_neg hother

/-! ### A file that comes back -/

/-- A text that binds one name. -/
def pageImport : String := "import A from\"./x\""

/-- The name that it binds. -/
def pageBinding : ImportBinding := ⟨"A", "./x", some "x.js", "default", "default", 1⟩

/-- An extractor in a project with one file to import. -/
def pageExtractor : Extractor where
  resolver := Resolver.make OrderedMap.empty [".js"] fun file => .ok (file == "x.js")

/-- The route file says something from now on. -/
def setText (text : String) : Operation :=
  .edit fun file => .ok (if file = "r.js" then some text else none)

/-- It gets the fact of a text. -/
def setFact (text : String) : Operation := .upsert "r.js" ⟨"r.js", text, Number.Binary64.zero⟩

/-- The file is known and asked for, says nothing for a while, is asked for again and comes
back. -/
def awayAndBack : List Operation :=
  [setText pageImport, setFact pageImport, .prepare ["r.js"], setText "", .mapRouteFile "r.js",
    .importMap "r.js", setText pageImport]

/-- The file is asked for only while it says nothing. -/
def askedWhileAway : List Operation :=
  [setText pageImport, setFact pageImport, setText "", .importMap "r.js", setText pageImport]

/-- What becomes of the map of the file, and that its texts can be told apart. -/
theorem outcome_awayAndBack :
    (((start pageExtractor [] false).run awayAndBack).importMap "r.js").toOption.map
        (·.value.values) = some [pageBinding] ∧
      making? "r.js" (start pageExtractor [] false) none awayAndBack =
        some ⟨Digest.contentHash pageImport, some pageImport⟩ ∧
      Digest.contentHash pageImport =
        factHash ((start pageExtractor [] false).run awayAndBack).source.graph "r.js" ∧
      Digest.contentHash pageImport ≠ Digest.contentHash "" := by
  decide +kernel

theorem extraction?_awayAndBack :
    ∃ e, extraction? pageExtractor "r.js" awayAndBack = some e ∧ e.path = "r.js" ∧
      e.text = pageImport := by
  have hextracted : (extraction? pageExtractor "r.js" awayAndBack).map
      (fun e => (e.path, e.text)) = some ("r.js", pageImport) := by
    decide +kernel
  obtain ⟨e, he, hpair⟩ := Option.map_eq_some_iff.1 hextracted
  exact ⟨e, he, congrArg Prod.fst hpair, congrArg Prod.snd hpair⟩

theorem injOn_awayAndBack : Set.InjOn Digest.contentHash (textsOf "r.js" awayAndBack) := by
  have htexts : ∀ text ∈ textsOf "r.js" awayAndBack, text = pageImport ∨ text = "" := by
    rintro text ⟨op, hop, hbrings⟩
    simp only [awayAndBack, List.mem_cons, List.not_mem_nil, or_false] at hop
    rcases hop with rfl | rfl | rfl | rfl | rfl | rfl | rfl
    all_goals simp_all [setText, setFact, Operation.Brings]
  have hne := outcome_awayAndBack.2.2.2
  intro a ha b hb hab
  rcases htexts a ha with rfl | rfl <;> rcases htexts b hb with rfl | rfl
  · rfl
  · exact absurd hab hne
  · exact absurd hab.symm hne
  · rfl

/-- The name is answered, as the text of the file's fact has it. -/
theorem importMap_of_extraction_awayAndBack :
    ∃ found, ((start pageExtractor [] false).run awayAndBack).importMap "r.js" = .ok found ∧
      found.value.values = [pageBinding] ∧
      ∃ e, extraction? pageExtractor "r.js" awayAndBack = some e ∧
        found.value = ImportMap.ofText pageExtractor.resolver "r.js" e.text := by
  have hvalues := outcome_awayAndBack.1
  rcases hfound : ((start pageExtractor [] false).run awayAndBack).importMap "r.js" with e | found
  · rw [hfound] at hvalues
    cases hvalues
  · rw [hfound] at hvalues
    replace hvalues : found.value.values = [pageBinding] := Option.some.inj hvalues
    have hne : found.value ≠ OrderedMap.empty := by
      intro hempty
      rw [hempty] at hvalues
      cases hvalues
    obtain ⟨e, he, -, hvalue⟩ :=
      importMap_of_extraction pageExtractor [] false awayAndBack injOn_awayAndBack hfound hne
    exact ⟨found, rfl, hvalues, e, he, hvalue⟩

/-- The map was made before the file said nothing, and is that of the text again. -/
theorem importMap_of_making_awayAndBack :
    ∃ found, ((start pageExtractor [] false).run awayAndBack).importMap "r.js" = .ok found ∧
      found.value = ImportMap.ofText pageExtractor.resolver "r.js" pageImport := by
  obtain ⟨-, hmade, hhash, -⟩ := outcome_awayAndBack
  have hread : ((start pageExtractor [] false).run awayAndBack).source.read "r.js" =
      .ok (some pageImport) := rfl
  obtain ⟨hanswered, hsame⟩ :=
    importMap_of_making pageExtractor [] false awayAndBack hread hhash
  obtain ⟨found, hfound⟩ := hanswered (.inr extraction?_awayAndBack)
  refine ⟨found, hfound, (hsame found hfound).1 fun content hcontent => ?_⟩
  rw [hmade] at hcontent
  exact (congrArg Making.content (Option.some.inj hcontent)).symm

/-- A file that was asked for while it said something else binds no names, though it says again
what its fact was extracted from. -/
theorem importMap_restored :
    ((start pageExtractor [] false).run askedWhileAway).source.read "r.js" =
        .ok (some pageImport) ∧
      factHash ((start pageExtractor [] false).run askedWhileAway).source.graph "r.js" =
        Digest.contentHash pageImport ∧
      (((start pageExtractor [] false).run askedWhileAway).importMap "r.js").toOption.map
        (·.value.values) = some [] ∧
      (ImportMap.ofText pageExtractor.resolver "r.js" pageImport).values = [pageBinding] := by
  decide +kernel

end Mapper

end RouteImpact
