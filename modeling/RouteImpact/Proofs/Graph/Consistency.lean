import RouteImpact.Graph.Document
import RouteImpact.Proofs.Graph.Operations

namespace RouteImpact.ImportGraph

/-!
# Forward edges have reverse edges

A search for the files that a change reaches follows reverse edges only, so a forward
edge without its reverse edge would go unseen.

* `Consistent` — every forward edge has its reverse edge; `fault?_eq_none_iff` says that
  this is what the check for faults looks for;
* `consistent_upsert`, `consistent_load`, … — every change keeps it, and loading brings
  it about whatever nodes it is given;
* `fault?_run` — hence no history of changes leads to a fault, and neither does reading a
  persisted graph.
-/

/-- Every forward edge has its reverse edge. -/
def Consistent (g : ImportGraph) : Prop :=
  ∀ a b, b ∈ g.importsOf a → a ∈ g.importersOf b

theorem consistent_iff_forall_node {g : ImportGraph} :
    g.Consistent ↔ ∀ a n, g.node? a = some n → ∀ b ∈ n.imports,
      ∃ m, g.node? b = some m ∧ a ∈ m.importedBy := by
  constructor
  · intro h a n hn b hb
    exact exists_node_of_mem_importersOf (h a b (importsOf_of_node? hn ▸ hb))
  · intro h a b hb
    cases hn : g.node? a with
    | none => simp [importsOf, hn] at hb
    | some n =>
      rw [importsOf_of_node? hn] at hb
      obtain ⟨m, hm, ha⟩ := h a n hn b hb
      rw [importersOf_of_node? hm]
      exact ha

/-! ### The check for faults -/

theorem edgeFault?_eq_none_iff {g : ImportGraph} {a b : String} :
    g.edgeFault? a b = none ↔ a ∈ g.importersOf b := by
  unfold edgeFault? importersOf
  cases g.node? b <;> simp

/-- The check finds no fault exactly in consistent graphs. -/
theorem fault?_eq_none_iff {g : ImportGraph} : g.fault? = none ↔ g.Consistent := by
  simp only [fault?, List.findSome?_eq_none_iff, edgeFault?_eq_none_iff]
  constructor
  · intro h a b hb
    cases hn : g.node? a with
    | none => simp [importsOf, hn] at hb
    | some n =>
      rw [importsOf_of_node? hn] at hb
      exact h (a, n) (OrderedMap.get?_eq_some_iff.1 hn) b hb
  · intro h e he b hb
    have hn : g.node? e.1 = some e.2 := OrderedMap.get?_eq_some_iff.2 he
    exact h e.1 b (importsOf_of_node? hn ▸ hb)

/-! ### Every change keeps the edges together -/

theorem consistent_empty (prune : Bool) : ({ prune } : ImportGraph).Consistent := by
  intro a b hb
  exact absurd hb (NameSet.not_mem_empty b)

theorem consistent_upsert {g : ImportGraph} (h : g.Consistent) (file : String)
    (fact : FileFact) : (g.upsert file fact).Consistent := by
  intro a b hb
  rw [importsOf_upsert] at hb
  rw [mem_importersOf_upsert]
  -- an edge of the file itself is new; of the others none goes away
  by_cases ha : file = a
  · rw [if_pos ha] at hb
    exact Or.inl ⟨ha.symm, hb⟩
  · rw [if_neg ha] at hb
    exact Or.inr ⟨h a b hb, fun hc => ha hc.1.symm⟩

/-- A new node has no edges. -/
theorem consistent_ensure {g : ImportGraph} (h : g.Consistent) (file : String) :
    (g.ensure file).Consistent := by
  intro a b hb
  rw [importsOf_ensure] at hb
  rw [importersOf_ensure]
  exact h a b hb

/-- Loading makes the reverse edges itself, so it needs none in the nodes it is given. -/
theorem consistent_load (g : ImportGraph) (nodes : List (String × GraphNode))
    (facts : List FileFact) : (g.load nodes facts).Consistent := by
  intro a b hb
  rw [importsOf_load] at hb
  rw [mem_importersOf_load]
  cases hn : (OrderedMap.ofList nodes).get? a with
  | none => simp [hn] at hb
  | some n =>
    rw [hn, Option.elim_some] at hb
    exact Or.inl ⟨n, OrderedMap.mem_of_get?_ofList hn, hb⟩

theorem consistent_markEntryPoints {g : ImportGraph} (h : g.Consistent) :
    g.markEntryPoints.Consistent := by
  intro a b hb
  rw [importsOf_markEntryPoints] at hb
  rw [importersOf_markEntryPoints]
  exact h a b hb

/-- **Step.** Every change keeps forward and reverse edges together. -/
theorem consistent_apply {g : ImportGraph} (h : g.Consistent) (op : Operation) :
    (g.apply op).Consistent := by
  cases op with
  | upsert file fact => exact consistent_upsert h file fact
  | ensure file => exact consistent_ensure h file
  | load nodes facts => exact consistent_load g nodes facts
  | markEntryPoints => exact consistent_markEntryPoints h
  | clear => exact consistent_empty g.prune

/-- **Run.** Forward and reverse edges belong together after every history. -/
theorem consistent_run (prune : Bool) (ops : List Operation) : (run prune ops).Consistent :=
  run_induction (Q := fun _ => True) prune (consistent_empty prune)
    (fun _ op _ h => consistent_apply h op) ops (fun _ _ => trivial)

/-! ### Graphs that were read -/

/-- What was read is loaded into an empty graph. -/
theorem exists_load_of_assemble {prune : Bool} {nodes : List (Json × Option GraphNode)}
    {facts : List (Option FileFact)} {g : ImportGraph}
    (h : Document.assemble prune nodes facts = .ok g) :
    ∃ nodes facts, g = run prune [.load nodes facts] := by
  unfold Document.assemble at h
  split at h
  · cases h
  · split at h
    · next nodes facts _ _ =>
      cases h
      exact ⟨nodes, facts, rfl⟩
    · cases h

/-- A graph that was read from a data value was loaded into an empty graph. -/
theorem exists_load_of_toGraph {prune : Bool} {v : Json} {g : ImportGraph}
    (h : Document.toGraph prune v = .ok g) :
    ∃ nodes facts, g = run prune [.load nodes facts] := by
  unfold Document.toGraph at h
  -- a value that is no record, or of another version, is not read
  split at h
  · dsimp only at h
    split at h
    · cases h
    · obtain ⟨items, _, h⟩ := bind_eq_ok.1 h
      obtain ⟨nodes, _, h⟩ := bind_eq_ok.1 h
      obtain ⟨items', _, h⟩ := bind_eq_ok.1 h
      obtain ⟨facts, _, h⟩ := bind_eq_ok.1 h
      exact exists_load_of_assemble h
  · cases h

/-- A graph that was read from bytes was loaded into an empty graph. -/
theorem exists_load_of_decodeBytes {prune : Bool} {bytes : ByteArray} {g : ImportGraph}
    (h : Document.decodeBytes prune bytes = .ok g) :
    ∃ nodes facts, g = run prune [.load nodes facts] := by
  unfold Document.decodeBytes at h
  split at h
  · unfold Document.decode at h
    split at h
    · cases h
    · cases h
    · exact exists_load_of_toGraph h
  · cases h

/-- Reading the bytes of a text is reading the text. -/
theorem decodeBytes_toUTF8 (prune : Bool) (s : String) :
    Document.decodeBytes prune s.toUTF8 = Document.decode prune s := by
  have hvalid : s.toUTF8.IsValidUTF8 := s.isValidUTF8
  have hread : String.fromUTF8? s.toUTF8 = some s := by
    unfold String.fromUTF8?
    rw [dif_pos hvalid]
    rfl
  rw [Document.decodeBytes, hread]

/-- **Structural invariant.** After every history of changes the check finds no fault:
whatever a file imports has a node that names the file among its importers.  The same
holds of every graph that was read from bytes. -/
theorem fault?_run :
    (∀ (prune : Bool) (ops : List Operation),
      (run prune ops).fault? = none ∧
        ∀ a n, (run prune ops).node? a = some n → ∀ b ∈ n.imports,
          ∃ m, (run prune ops).node? b = some m ∧ a ∈ m.importedBy) ∧
    (∀ (prune : Bool) (bytes : ByteArray) (g : ImportGraph),
      Document.decodeBytes prune bytes = .ok g →
        g.fault? = none ∧
          ∀ a n, g.node? a = some n → ∀ b ∈ n.imports,
            ∃ m, g.node? b = some m ∧ a ∈ m.importedBy) := by
  refine ⟨?_, ?_⟩
  · intro prune ops
    have h := consistent_run prune ops
    exact ⟨fault?_eq_none_iff.2 h, consistent_iff_forall_node.1 h⟩
  · intro prune bytes g hg
    obtain ⟨nodes, facts, rfl⟩ := exists_load_of_decodeBytes hg
    have h := consistent_run prune [.load nodes facts]
    exact ⟨fault?_eq_none_iff.2 h, consistent_iff_forall_node.1 h⟩

/-- The persisted text of a file that imports itself and a file without a record. -/
def danglingText : String :=
  "\x7b\"version\":\"1.0\",\"graph\":[\x7b\"file\":\"a\",\"imports\":[\"a\",\"b\"]\x7d]\x7d"

/-- Both imports of the file get their reverse edges, one of them on a new node. -/
theorem fault?_run_danglingText :
    let g := run true [.load [("a", { imports := NameSet.ofList ["a", "b"] })] []]
    Document.decodeBytes true danglingText.toUTF8 = .ok g ∧
      g.fault? = none ∧ ∃ m, g.node? "b" = some m ∧ "a" ∈ m.importedBy := by
  intro g
  have hparse : Json.parse danglingText = .ok (.record
      [("version", .text "1.0"), ("graph", .list [.record
        [("file", .text "a"), ("imports", .list [.text "a", .text "b"])]])]) := by cbv
  have hread : Document.decodeBytes true danglingText.toUTF8 = .ok g := by
    rw [decodeBytes_toUTF8, Document.decode, hparse]
    rfl
  have hnode : g.node? "a" = some
      { importedBy := NameSet.ofList ["a"], imports := NameSet.ofList ["a", "b"] } := by rfl
  have hmem : "b" ∈ NameSet.ofList ["a", "b"] := by decide
  exact ⟨hread, (fault?_run.2 true _ g hread).1, (fault?_run.1 true _).2 "a" _ hnode "b" hmem⟩

end RouteImpact.ImportGraph
