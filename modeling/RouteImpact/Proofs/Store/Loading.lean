import RouteImpact.Analysis.Session
import RouteImpact.Proofs.Data.Containers

namespace RouteImpact

open Number (Binary64)

/-!
# Loading whatever was kept

A store may hold any bytes under the key of a project.  Loading answers a graph or nothing,
except for two kinds of value that go past every check: a number that is out of range where
a line or a moment is asked for, and a list or a record where the name of a file is.

* `Document.harmless` — a data value without these;
* `Document.Caught` — a result of reading that loading has an answer for, closed under
  doing one thing after another; `caught_toNode`, `caught_toFact`, `caught_toGraph` — reading
  a harmless value ends so;
* `Session.load_of_harmless` — hence loading a harmless value, or none, never fails, and
  setting up a session goes on to build where nothing was found;
* `Snapshot.load_harmful` — each of the two kinds makes loading fail.
-/

namespace Document

/-! ### Values that do no harm -/

/-- The items of a field that holds a list. -/
def parts (v : Json) (name : String) : List Json :=
  match v.get? name with
  | some (.list xs) => xs
  | _ => []

/-- Whether no list or record names the file of a node. -/
def simplyNamed (node : Json) : Bool := (node.get? "file").all (!isCompound ·)

/-- Whether the line of an import or a route is no infinite number. -/
def finiteLine (part : Json) : Bool :=
  match part.get? "line" with
  | some (.float (.infinite _)) => false
  | _ => true

/-- Whether the moment of a fact is no integer that is out of range. -/
def datable (fact : Json) : Bool :=
  match fact.get? "lastSeenAt" with
  | some (.int n) => (Binary64.ofInt? n).isSome
  | _ => true

/-- Whether the numbers of a fact are in range. -/
def inRange (fact : Json) : Bool :=
  (parts fact "imports").all finiteLine && (parts fact "routes").all finiteLine && datable fact

/-- Whether a data value can do no harm when a graph is read from it: a value of another
version is not looked into. -/
def harmless (v : Json) : Bool :=
  isCurrent ((v.get? "version").getD .null) →
    (parts v "graph").all simplyNamed ∧ (parts v "fileCache").all inRange

/-! ### Results that loading has an answer for -/

/-- A result that is no failure of loading. -/
def Caught {α : Type} (r : Decoded α) : Prop :=
  r ≠ .error .outOfRange ∧ r ≠ .error .compoundName

variable {α β : Type}

theorem caught_ok (a : α) : Caught (.ok a : Decoded α) := ⟨nofun, nofun⟩

theorem caught_malformed (cause : Malformed) : Caught (.error (.malformed cause) : Decoded α) :=
  ⟨nofun, nofun⟩

theorem Caught.bind {r : Decoded α} {f : α → Decoded β} (hr : Caught r)
    (hf : ∀ a, r = .ok a → Caught (f a)) : Caught (r >>= f) := by
  cases r with
  | ok a => exact hf a rfl
  | error e =>
    have h : e ≠ .outOfRange ∧ e ≠ .compoundName :=
      ⟨fun he => hr.1 (he ▸ rfl), fun he => hr.2 (he ▸ rfl)⟩
    exact ⟨fun he => h.1 (Except.error.inj he), fun he => h.2 (Except.error.inj he)⟩

theorem Caught.mapM {f : α → Decoded β} {xs : List α} (h : ∀ x ∈ xs, Caught (f x)) :
    Caught (xs.mapM f) := by
  induction xs with
  | nil => exact caught_ok []
  | cons x xs ih =>
    rw [List.mapM_cons]
    refine (h x (by simp)).bind fun _ _ => ?_
    exact (ih fun y hy => h y (by simp [hy])).bind fun _ _ => caught_ok _

/-! ### Fields -/

theorem caught_items (v : Json) : Caught (items v) := by
  cases v <;> first | exact caught_ok _ | exact caught_malformed _

theorem caught_simple (v : Json) : Caught (simple v) := by
  unfold simple
  split
  · exact caught_malformed _
  · exact caught_ok _

theorem caught_members (v : Json) : Caught (members v) :=
  (caught_items v).bind fun _ _ => Caught.mapM fun x _ => caught_simple x

theorem caught_required (v : Json) (name : String) : Caught (required v name) := by
  unfold required
  split
  · cases Json.field? _ name with
    | none => exact caught_malformed _
    | some x => exact caught_ok x
  · exact caught_malformed _

theorem caught_optional (v : Json) (name : String) (default : Json) :
    Caught (optional v name default) := by
  unfold optional
  split
  · exact caught_ok _
  · exact caught_malformed _

/-- A field that was asked for is there. -/
theorem get?_of_required {v x : Json} {name : String} (h : required v name = .ok x) :
    v.get? name = some x := by
  cases v with
  | record fs =>
    unfold required at h
    show Json.field? fs name = some x
    cases hfield : Json.field? fs name with
    | none => simp [hfield] at h
    | some y => simpa [hfield] using h
  | _ => cases h

/-- A field that was found is there or has its default value. -/
theorem of_optional {v x default : Json} {name : String} (h : optional v name default = .ok x) :
    v.get? name = some x ∨ x = default := by
  cases v with
  | record fs =>
    cases h
    show Json.field? fs name = some _ ∨ _
    cases Json.field? fs name with
    | none => exact Or.inr rfl
    | some y => exact Or.inl rfl
  | _ => cases h

/-- What a field is gone through for: the items of its list, or texts. -/
theorem mem_parts_or_text {v field x : Json} {name : String} {xs : List Json}
    (hfield : optional v name (.list []) = .ok field) (hitems : items field = .ok xs)
    (hx : x ∈ xs) : x ∈ parts v name ∨ ∃ s, x = .text s := by
  cases field with
  | list ys =>
    cases hitems
    rcases of_optional hfield with hget | hdefault
    · exact Or.inl (by rw [parts, hget]; exact hx)
    · cases hdefault
      cases hx
  | text s =>
    cases hitems
    obtain ⟨c, -, rfl⟩ := List.mem_map.1 hx
    exact Or.inr ⟨_, rfl⟩
  | record fs =>
    cases hitems
    obtain ⟨f, -, rfl⟩ := List.mem_map.1 hx
    exact Or.inr ⟨_, rfl⟩
  | _ => cases hitems

/-! ### Numbers -/

theorem caught_integer {v : Json} (h : ∀ negative, v ≠ .float (.infinite negative)) :
    Caught (integer v) := by
  cases v with
  | int n => exact caught_ok n
  | bool b => exact caught_ok _
  | text s =>
    show Caught ((Number.integer? s).elim (.error .notNumber) .ok)
    cases Number.integer? s with
    | none => exact ⟨nofun, nofun⟩
    | some n => exact caught_ok n
  | float x =>
    cases x with
    | finite => exact caught_ok _
    | infinite negative => exact absurd rfl (h negative)
    | undefined => exact ⟨nofun, nofun⟩
  | null | list | record => exact caught_malformed _

/-- Only an integer can be out of range for a moment. -/
theorem caught_moment {v : Json} (h : ∀ n, v = .int n → (Binary64.ofInt? n).isSome = true) :
    Caught (moment v) := by
  cases v with
  | float x => exact caught_ok x
  | bool b => exact caught_ok _
  | int n =>
    obtain ⟨x, hx⟩ := Option.isSome_iff_exists.1 (h n rfl)
    show Caught ((Binary64.ofInt? n).elim (.error .outOfRange) .ok)
    rw [hx]
    exact caught_ok x
  | text s =>
    show Caught ((Binary64.ofText? s).elim (.error .notNumber) .ok)
    cases Binary64.ofText? s with
    | none => exact ⟨nofun, nofun⟩
    | some x => exact caught_ok x
  | null | list | record => exact caught_malformed _

theorem caught_line {v : Json} (h : finiteLine v = true) :
    Caught (optional v "line" (.int 0) >>= integer) := by
  refine (caught_optional v "line" (.int 0)).bind fun line hline => caught_integer ?_
  rintro negative rfl
  rcases of_optional hline with hget | hdefault
  · rw [finiteLine, hget] at h
    cases h
  · cases hdefault

/-! ### Parts of a document -/

theorem caught_toNode (v : Json) : Caught (toNode v) := by
  refine (caught_required v "file").bind fun _ _ => ?_
  refine Caught.bind ((caught_optional v "importedBy" _).bind fun x _ => caught_members x)
    fun _ _ => ?_
  refine Caught.bind ((caught_optional v "imports" _).bind fun x _ => caught_members x)
    fun _ _ => ?_
  refine (caught_optional v "isRouteFile" _).bind fun _ _ => ?_
  exact (caught_optional v "isEntryPoint" _).bind fun _ _ => caught_ok _

theorem caught_toEdge {v : Json} (h : finiteLine v = true) : Caught (toEdge v) := by
  refine (caught_optional v "source" _).bind fun _ _ => ?_
  refine (caught_line h).bind fun _ _ => ?_
  refine (caught_optional v "specifier" _).bind fun _ _ => ?_
  exact (caught_optional v "kind" _).bind fun _ _ => caught_ok _

theorem caught_toRoute {v : Json} (h : finiteLine v = true) (file : Json) :
    Caught (toRoute file v) := by
  refine (caught_required v "path").bind fun _ _ => ?_
  refine (caught_optional v "component" _).bind fun _ _ => ?_
  refine (caught_optional v "declaringFile" _).bind fun _ _ => ?_
  refine (caught_line h).bind fun _ _ => ?_
  exact (caught_optional v "recognizer" _).bind fun _ _ => caught_ok _

theorem caught_field (v : Json) (name : String) :
    Caught (optional v name (.list []) >>= items) :=
  (caught_optional v name _).bind fun x _ => caught_items x

/-- The parts of a field are read one by one; a text among them is no part of the kind. -/
theorem caught_parts {read : Json → Decoded β} {v : Json} {name : String} {xs : List Json}
    (hxs : (optional v name (.list []) >>= items) = .ok xs)
    (hpart : ∀ x ∈ parts v name, Caught (read x)) (htext : ∀ s, Caught (read (.text s))) :
    Caught (xs.mapM read) := by
  obtain ⟨field, hfield, hitems⟩ := bind_eq_ok.1 hxs
  refine Caught.mapM fun x hx => ?_
  rcases mem_parts_or_text hfield hitems hx with hmem | ⟨s, rfl⟩
  · exact hpart x hmem
  · exact htext s

theorem caught_toFact {v : Json} (h : inRange v = true) : Caught (toFact v) := by
  simp only [inRange, Bool.and_eq_true, List.all_eq_true] at h
  obtain ⟨⟨himports, hroutes⟩, hdate⟩ := h
  refine (caught_required v "path").bind fun path _ => ?_
  refine (caught_field v "imports").bind fun edges hedges => ?_
  refine (caught_parts hedges (fun x hx => caught_toEdge (himports x hx))
    fun _ => caught_toEdge rfl).bind fun _ _ => ?_
  refine (caught_field v "exports").bind fun _ _ => ?_
  refine (caught_field v "routes").bind fun decls hdecls => ?_
  refine (caught_parts hdecls (fun x hx => caught_toRoute (hroutes x hx) path)
    fun _ => caught_toRoute rfl path).bind fun _ _ => ?_
  refine (caught_optional v "contentHash" _).bind fun _ _ => ?_
  refine Caught.bind ((caught_optional v "lastSeenAt" _).bind fun x hx => caught_moment ?_)
    fun _ _ => (caught_simple path).bind fun _ _ => caught_ok _
  rintro n rfl
  rcases of_optional hx with hget | hdefault
  · rwa [datable, hget] at hdate
  · cases hdefault

/-- The names of nodes that were read are those of the document. -/
theorem simple_of_mapM_toNode {v : Json} {xs : List Json} {nodes : List (Json × Option GraphNode)}
    (h : ∀ x ∈ parts v "graph", simplyNamed x = true)
    (hxs : (optional v "graph" (.list []) >>= items) = .ok xs)
    (hnodes : xs.mapM toNode = .ok nodes) : nodes.any (isCompound ·.1) = false := by
  rw [List.any_eq_false]
  intro node hnode
  obtain ⟨x, hx, hread⟩ := exists_of_mapM hnodes hnode
  -- the name of a node is read first and comes out as it was given
  obtain ⟨file, hfile, hrest⟩ := bind_eq_ok.1 hread
  have hname : node.1 = file := by
    obtain ⟨_, -, hrest⟩ := bind_eq_ok.1 hrest
    obtain ⟨_, -, hrest⟩ := bind_eq_ok.1 hrest
    obtain ⟨_, -, hrest⟩ := bind_eq_ok.1 hrest
    obtain ⟨_, -, hrest⟩ := bind_eq_ok.1 hrest
    cases hrest
    rfl
  obtain ⟨field, hfield, hitems⟩ := bind_eq_ok.1 hxs
  rcases mem_parts_or_text hfield hitems hx with hmem | ⟨s, rfl⟩
  · have hsimple := h x hmem
    rw [simplyNamed, get?_of_required hfile, Option.all_some] at hsimple
    simpa [hname] using hsimple
  · cases hfile

theorem caught_assemble {nodes : List (Json × Option GraphNode)}
    (h : nodes.any (isCompound ·.1) = false) (prune : Bool) (facts : List (Option FileFact)) :
    Caught (assemble prune nodes facts) := by
  unfold assemble
  rw [h, if_neg Bool.false_ne_true]
  split
  · exact caught_ok _
  · exact ⟨nofun, nofun⟩

/-- **A harmless value** is read as a graph, or refused for a reason that loading knows. -/
theorem caught_toGraph {v : Json} (h : harmless v = true) (prune : Bool) :
    Caught (toGraph prune v) := by
  simp only [harmless, decide_eq_true_eq, List.all_eq_true] at h
  unfold toGraph
  split
  · dsimp only
    split
    · exact ⟨nofun, nofun⟩
    · next hcurrent =>
      obtain ⟨hnames, hfacts⟩ := h (by simpa using hcurrent)
      refine (caught_field _ "graph").bind fun xs hxs => ?_
      refine (Caught.mapM fun x _ => caught_toNode x).bind fun nodes hnodes => ?_
      refine (caught_field _ "fileCache").bind fun ys hys => ?_
      refine (caught_parts hys (fun x hx => caught_toFact (hfacts x hx))
        fun _ => caught_toFact rfl).bind fun facts _ => ?_
      exact caught_assemble (simple_of_mapM_toNode hnames hxs hnodes) prune facts
  · exact ⟨nofun, nofun⟩

end Document

namespace Snapshot

/-! ### Loading -/

/-- The data value that a store holds under a key, if it holds one. -/
def value? (h : Host) (key : String) : Option Json := do
  let bytes ← (h.download key).toOption
  let text ← String.fromUTF8? bytes
  (Json.parse text).toOption

variable {h : Host} {key : String}

/-- Where there is no data value nothing was kept. -/
theorem load_of_value?_none (hnone : value? h key = none) (prune : Bool) :
    load h key prune = .ok none := by
  unfold load
  cases hbytes : h.download key with
  | error e => rfl
  | ok bytes =>
    simp only [value?, hbytes, Except.toOption, Option.bind_eq_bind, Option.bind_some] at hnone
    dsimp only [Document.decodeBytes]
    cases htext : String.fromUTF8? bytes with
    | none => rfl
    | some text =>
      dsimp only [Document.decode]
      cases hparse : Json.parse text with
      | error e => cases e <;> rfl
      | ok v => simp [htext, hparse] at hnone

/-- The bytes of a data value are read as the graph of the value. -/
theorem decodeBytes_of_value? {v : Json} (hv : value? h key = some v) (prune : Bool) :
    ∃ bytes, h.download key = .ok bytes ∧
      Document.decodeBytes prune bytes = Document.toGraph prune v := by
  cases hbytes : h.download key with
  | error e => simp [value?, hbytes, Except.toOption] at hv
  | ok bytes =>
    refine ⟨bytes, rfl, ?_⟩
    simp only [value?, hbytes, Except.toOption, Option.bind_eq_bind, Option.bind_some] at hv
    cases htext : String.fromUTF8? bytes with
    | none => simp [htext] at hv
    | some text =>
      cases hparse : Json.parse text with
      | error e => simp [htext, hparse] at hv
      | ok w =>
        simp only [htext, hparse, Option.bind_some] at hv
        cases hv
        simp only [Document.decodeBytes, htext, Document.decode, hparse]

/-- Loading a harmless value does not fail. -/
theorem load_of_value? {v : Json} (hv : value? h key = some v)
    (hharmless : Document.harmless v = true) (prune : Bool) :
    ∃ kept, load h key prune = .ok kept := by
  obtain ⟨bytes, hbytes, hread⟩ := decodeBytes_of_value? hv prune
  have hcaught := Document.caught_toGraph hharmless prune
  unfold load
  simp only [hbytes, hread]
  split
  · exact ⟨_, rfl⟩
  · exact ⟨_, rfl⟩
  · next hfailed => exact absurd hfailed hcaught.1
  · next hfailed => exact absurd hfailed hcaught.2
  · exact ⟨_, rfl⟩

end Snapshot

namespace Session

/-- **Loading does no harm.**  Whatever a store answers for the key of a project, be it a
refusal, bytes that are no text, a text that is no data value or a data value of any shape,
loading ends with a graph or with nothing, and with nothing where there is no data value;
setting up then builds the graph.  Only the values that `Document.harmless` excludes are left
out. -/
theorem load_of_harmless (s : Session)
    (hvalue : ∀ v, Snapshot.value? s.host s.key = some v → Document.harmless v = true) :
    (∀ prune, ∃ kept, Snapshot.load s.host s.key prune = .ok kept ∧
      (Snapshot.value? s.host s.key = none → kept = none)) ∧
    (Snapshot.load s.host s.key s.config.pruneStaleEdges = .ok none →
      ∀ framework, Project.detectFramework s.disk s.root = .ok framework →
        s.setUp false = Outcome.map (fun _ => ()) { s with framework }.rebuild) := by
  constructor
  · intro prune
    cases hkept : Snapshot.value? s.host s.key with
    | none => exact ⟨none, Snapshot.load_of_value?_none hkept prune, fun _ => rfl⟩
    | some v =>
      obtain ⟨kept, hload⟩ := Snapshot.load_of_value? hkept (hvalue v hkept) prune
      exact ⟨kept, hload, nofun⟩
  · intro hload framework hframework
    have hload' : Snapshot.load s.host ({ s with framework } : Session).key
        s.config.pruneStaleEdges = .ok none := hload
    unfold setUp
    rw [hframework]
    dsimp only
    rw [if_neg Bool.false_ne_true, hload']

/-- A session whose store holds a text under the key of its project. -/
def onKept (text : String) : Session where
  root := "/p"
  config := {}
  host :=
    { store := .memory (OrderedMap.ofList [(Snapshot.key ({} : Settings.Config).cacheNamespace
        "/p", text.toUTF8)])
      disk := Disk.empty }
  now := Number.Binary64.zero
  graph := {}

/-- A graph of the current version in which a list stands among the names of imports, and a
number for the path of a fact. -/
def oddText : String :=
  "\x7b\"version\":\"1.0\",\"graph\":[\x7b\"file\":\"a\",\"imports\":[[]]\x7d]," ++
    "\"fileCache\":[\x7b\"path\":7,\"lastSeenAt\":true\x7d]\x7d"

/-- Such a graph is not taken over, and a new one is built. -/
theorem load_of_harmless_oddText :
    (Snapshot.value? (onKept oddText).host (onKept oddText).key).isSome = true ∧
      Snapshot.load (onKept oddText).host (onKept oddText).key false = .ok none ∧
      (onKept oddText).setUp false = Outcome.map (fun _ => ()) (onKept oddText).rebuild := by
  obtain ⟨hsome, hharmless, hnothing, hframework⟩ :
      (Snapshot.value? (onKept oddText).host (onKept oddText).key).isSome = true ∧
      (Snapshot.value? (onKept oddText).host (onKept oddText).key).all Document.harmless = true ∧
      (Snapshot.load (onKept oddText).host (onKept oddText).key false).toOption.map
        Option.isNone = some true ∧
      (Project.detectFramework (onKept oddText).disk "/p").toOption =
        some Project.unknownFramework := by
    decide +kernel
  have hharm := load_of_harmless (onKept oddText) fun v hv => by simpa [hv] using hharmless
  obtain ⟨kept, hload, -⟩ := hharm.1 false
  obtain rfl : kept = none := by simpa [hload, Except.toOption] using hnothing
  refine ⟨hsome, hload, hharm.2 hload Project.unknownFramework ?_⟩
  cases hfound : Project.detectFramework (onKept oddText).disk "/p" with
  | error e => simp [hfound, Except.toOption] at hframework
  | ok framework =>
    obtain rfl : framework = _ := by simpa [hfound, Except.toOption] using hframework
    exact hfound

end Session

namespace Snapshot

/-- A failure of loading can be recognized, although graphs cannot be compared. -/
instance (loaded : Except Failure (Option Kept)) (e : Failure) : Decidable (loaded = .error e) :=
  match loaded with
  | .ok _ => isFalse nofun
  | .error e' => decidable_of_iff (e' = e) ⟨congrArg _, Except.error.inj⟩

/-- A graph of the current version with a fact that imports on an infinite line. -/
def endlessText : String :=
  "\x7b\"version\":\"1.0\"," ++
    "\"fileCache\":[\x7b\"path\":\"a\",\"imports\":[\x7b\"line\":Infinity\x7d]\x7d]\x7d"

/-- A graph of the current version with a node whose file is named by a list. -/
def listNamedText : String := "\x7b\"version\":\"1.0\",\"graph\":[\x7b\"file\":[]\x7d]\x7d"

/-- The fact of a moment that is too large. -/
def farFact : Json := .record [("path", .text "a"), ("lastSeenAt", .int (Int.ofNat (Nat.pow 10 309)))]

/-- Each of the values that are not harmless makes loading fail, and with it setting up. -/
theorem load_harmful :
    load (Session.onKept endlessText).host (Session.onKept endlessText).key false =
      .error .outOfRange ∧
    ((Session.onKept endlessText).setUp false).1.toBool = false ∧
    load (Session.onKept listNamedText).host (Session.onKept listNamedText).key false =
      .error .compoundName ∧
    (Document.toFact farFact matches .error .outOfRange) = true := by
  decide +kernel

end Snapshot

end RouteImpact
