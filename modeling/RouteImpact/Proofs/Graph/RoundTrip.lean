import RouteImpact.Proofs.Graph.Consistency
import RouteImpact.Proofs.Json.RoundTrip
import RouteImpact.Proofs.Number.Range

namespace RouteImpact.Document

open Number (mostDigits)

/-!
# Persisted graphs read back

Writing a graph and reading it again gives the same graph: the same node and the same
fact for every file, whatever characters the texts are made of.

* `toNode_ofNode`, `toFact_ofFact` — the record of a node or a fact is read as what it was
  made of, missing sources, orders and flags included;
* `reread_document` — of the numbers in a document, only the moments of facts can change
  when it is written and read (`redated`), and they do not if their texts read back
  (`Storable`);
* `node?_load_of_perm` — the nodes of a graph, loaded in any order, make up the same graph:
  the reverse edges that loading adds are there already, because the graph is consistent;
* `exists_decodeBytes_redated` — hence a graph is read back up to the moments of its facts;
* `decodeBytes_encode_run` — and with any history as it was, if these can be written.
-/

/-! ### Records -/

/-- What is written item by item is read item by item, in any monad. -/
theorem mapM_map_eq_pure {m : Type → Type} [Monad m] [LawfulMonad m] {α β γ : Type}
    {write : α → β} {read : β → m γ} {f : α → γ} {xs : List α}
    (h : ∀ x ∈ xs, read (write x) = pure (f x)) :
    (xs.map write).mapM read = pure (xs.map f) := by
  induction xs with
  | nil => rfl
  | cons x xs ih =>
    rw [List.map_cons, List.mapM_cons, h x (by simp), ih fun y hy => h y (by simp [hy])]
    simp

/-- Items that are all there are read as they are. -/
theorem mapM_id_map_some {α : Type} (xs : List α) : (xs.map some).mapM id = some xs := by
  have h : (xs.map some).mapM id = pure (xs.map id) := mapM_map_eq_pure fun _ _ => rfl
  rwa [List.map_id] at h

theorem mapM_text?_names (xs : List String) : (xs.map Json.text).mapM text? = some xs := by
  have h : (xs.map Json.text).mapM text? = pure (xs.map id) := mapM_map_eq_pure fun _ _ => rfl
  rwa [List.map_id] at h

/-- Texts can stand in a set. -/
theorem members_names (xs : List String) : members (names xs) = .ok (xs.map .text) :=
  mapM_map_eq_pure fun _ _ => rfl

theorem toNode_ofNode (file : String) (n : GraphNode) :
    toNode (ofNode file n) = .ok (.text file, some n) := by
  show (members (names n.importedBy.toList) >>= fun importedBy =>
    members (names n.imports.toList) >>= fun imports =>
      .ok (Json.text file, importedBy.mapM text? >>= fun importedBy =>
        imports.mapM text? >>= fun imports =>
          some (GraphNode.mk (NameSet.ofList importedBy) (NameSet.ofList imports)
            n.isRouteFile n.isEntryPoint))) = _
  -- a set is written as the list of its members, and that list makes the set again
  rw [members_names, members_names]
  show Except.ok (Json.text file, (n.importedBy.toList.map Json.text).mapM text? >>= fun _ =>
    (n.imports.toList.map Json.text).mapM text? >>= fun _ => some _) = _
  rw [mapM_text?_names, mapM_text?_names]
  show Except.ok (Json.text file, some (GraphNode.mk (NameSet.ofList _) (NameSet.ofList _) _ _)) = _
  rw [NameSet.ofList_toList, NameSet.ofList_toList]

theorem toEdge_ofEdge (e : ImportEdge) : toEdge (ofEdge e) = .ok (some e) := by
  cases e with
  | mk source line specifier kind => cases source <;> rfl

theorem toRoute_ofRoute (file : Json) (r : RouteDecl) :
    toRoute file (ofRoute r) = .ok (some r) := rfl

theorem toFact_ofFact (f : FileFact) : toFact (ofFact f) = .ok (some f) := by
  have himports : (f.imports.map ofEdge).mapM toEdge = .ok (f.imports.map some) :=
    mapM_map_eq_pure fun e _ => toEdge_ofEdge e
  have hroutes : (f.routes.map ofRoute).mapM (toRoute (.text f.path)) = .ok (f.routes.map some) :=
    mapM_map_eq_pure fun r _ => toRoute_ofRoute (.text f.path) r
  show ((f.imports.map ofEdge).mapM toEdge >>= fun imports =>
    (f.routes.map ofRoute).mapM (toRoute (.text f.path)) >>= fun routes =>
      .ok (imports.mapM id >>= fun imports =>
        (f.exports.map Json.text).mapM text? >>= fun exports =>
          routes.mapM id >>= fun routes =>
            some (FileFact.mk f.path imports exports routes f.contentHash f.lastSeenAt))) = _
  rw [himports, hroutes]
  show Except.ok ((f.imports.map some).mapM id >>= fun imports =>
    (f.exports.map Json.text).mapM text? >>= fun exports =>
      (f.routes.map some).mapM id >>= fun routes =>
        some (FileFact.mk f.path imports exports routes f.contentHash f.lastSeenAt)) = _
  rw [mapM_id_map_some, mapM_text?_names, mapM_id_map_some]
  rfl

/-! ### Documents -/

/-- The data value of nodes and facts. -/
def document (milliseconds : Int) (nodes : List (String × GraphNode)) (facts : List FileFact) :
    Json :=
  .record [
    ("version", .text formatVersion),
    ("timestamp", .int milliseconds),
    ("graph", .list (nodes.map fun e => ofNode e.1 e.2)),
    ("fileCache", .list (facts.map ofFact))]

theorem ofGraph_eq (now : Moment) (g : ImportGraph) :
    ofGraph now g = document now.milliseconds (sortedNodes g) (sortedFacts g) := rfl

/-- Nodes that are named by texts are loaded. -/
theorem assemble_texts (prune : Bool) (nodes : List (String × GraphNode))
    (facts : List FileFact) :
    assemble prune (nodes.map fun e => (.text e.1, some e.2)) (facts.map some) =
      .ok (({ prune } : ImportGraph).load nodes facts) := by
  have hsimple : (nodes.map fun e => (Json.text e.1, some e.2)).any (isCompound ·.1) = false := by
    simp [isCompound]
  have hnamed : (nodes.map fun e => (Json.text e.1, some e.2)).mapM named = some nodes := by
    have h : (nodes.map fun e => (Json.text e.1, some e.2)).mapM named = pure (nodes.map id) :=
      mapM_map_eq_pure fun _ _ => rfl
    rwa [List.map_id] at h
  rw [assemble, hsimple, hnamed, mapM_id_map_some]
  rfl

/-- The data value of nodes and facts is read by loading them. -/
theorem toGraph_document (prune : Bool) (milliseconds : Int) (nodes : List (String × GraphNode))
    (facts : List FileFact) :
    toGraph prune (document milliseconds nodes facts) =
      .ok (({ prune } : ImportGraph).load nodes facts) := by
  have hnodes : (nodes.map fun e => ofNode e.1 e.2).mapM toNode =
      .ok (nodes.map fun e => (.text e.1, some e.2)) :=
    mapM_map_eq_pure fun e _ => toNode_ofNode e.1 e.2
  have hfacts : (facts.map ofFact).mapM toFact = .ok (facts.map some) :=
    mapM_map_eq_pure fun f _ => toFact_ofFact f
  show ((nodes.map fun e => ofNode e.1 e.2).mapM toNode >>= fun nodes =>
    (facts.map ofFact).mapM toFact >>= fun facts => assemble prune nodes facts) = _
  rw [hnodes, hfacts]
  exact assemble_texts prune nodes facts

/-! ### What can be read -/

/-- No line number of a fact has more digits than are read. -/
structure Legible (f : FileFact) : Prop where
  importLines : ∀ e ∈ f.imports, (Nat.toDigits 10 e.line.natAbs).length ≤ mostDigits
  routeLines : ∀ r ∈ f.routes, (Nat.toDigits 10 r.line.natAbs).length ≤ mostDigits

theorem readable_list_map {α : Type} {write : α → Json} {xs : List α}
    (h : ∀ x ∈ xs, (write x).Readable) : (Json.list (xs.map write)).Readable := by
  refine .list fun v hv => ?_
  obtain ⟨x, hx, rfl⟩ := List.mem_map.1 hv
  exact h x hx

theorem readable_names (xs : List String) : (names xs).Readable :=
  readable_list_map fun s _ => .text s

theorem readable_ofNode (file : String) (n : GraphNode) : (ofNode file n).Readable := by
  refine .record (by simp) ?_
  simp only [List.forall_mem_cons]
  exact ⟨.text _, readable_names _, readable_names _, .bool _, .bool _, by simp⟩

theorem readable_ofEdge {e : ImportEdge}
    (h : (Nat.toDigits 10 e.line.natAbs).length ≤ mostDigits) : (ofEdge e).Readable := by
  have hsource : (e.source.elim Json.null .text).Readable := by
    cases e.source with
    | none => exact .null
    | some s => exact .text s
  refine .record (by simp) ?_
  simp only [List.forall_mem_cons]
  exact ⟨hsource, .int h, .text _, .text _, by simp⟩

theorem readable_ofRoute {r : RouteDecl}
    (h : (Nat.toDigits 10 r.line.natAbs).length ≤ mostDigits) : (ofRoute r).Readable := by
  refine .record (by simp) ?_
  simp only [List.forall_mem_cons]
  exact ⟨.text _, .text _, .text _, .int h, .text _, by simp⟩

theorem readable_ofFact {f : FileFact} (h : Legible f) : (ofFact f).Readable := by
  have himports : (Json.list (f.imports.map ofEdge)).Readable :=
    readable_list_map fun e he => readable_ofEdge (h.importLines e he)
  have hroutes : (Json.list (f.routes.map ofRoute)).Readable :=
    readable_list_map fun r hr => readable_ofRoute (h.routeLines r hr)
  refine .record (by simp) ?_
  simp only [List.forall_mem_cons]
  exact ⟨.text _, himports, readable_names _, hroutes, .text _, .float _, by simp⟩

theorem mem_sortedFacts {g : ImportGraph} {f : FileFact} :
    f ∈ sortedFacts g ↔ f ∈ g.facts.values :=
  (List.mergeSort_perm _ _).mem_iff

/-- The data value of a graph can be read when the line numbers of its facts can. -/
theorem readable_ofGraph {g : ImportGraph} (h : ∀ f ∈ g.facts.values, Legible f)
    (now : Moment) : (ofGraph now g).Readable := by
  have hnodes : (Json.list ((sortedNodes g).map fun e => ofNode e.1 e.2)).Readable :=
    readable_list_map fun e _ => readable_ofNode e.1 e.2
  have hfacts : (Json.list ((sortedFacts g).map ofFact)).Readable :=
    readable_list_map fun f hf => readable_ofFact (h f (mem_sortedFacts.1 hf))
  refine .record (by simp) ?_
  simp only [List.forall_mem_cons]
  exact ⟨.text _, .int now.length_toDigits_milliseconds, hnodes, hfacts, by simp⟩

/-! ### What is read -/

/-- A fact as it is read: its moment is what the text of it stands for. -/
def redated (f : FileFact) : FileFact := { f with lastSeenAt := Json.rereadFloat f.lastSeenAt }

theorem reread_list_map {α : Type} {write : α → Json} (change : α → α)
    (h : ∀ x, (write x).reread = write (change x)) (xs : List α) :
    (Json.list (xs.map write)).reread = .list ((xs.map change).map write) := by
  rw [Json.reread, Json.rereadItems_eq_map, List.map_map, List.map_map]
  congr 1
  exact List.map_congr_left fun x _ => h x

theorem reread_names (xs : List String) : (names xs).reread = names xs := by
  rw [names, reread_list_map id fun _ => rfl, List.map_id]

theorem reread_ofNode (file : String) (n : GraphNode) : (ofNode file n).reread = ofNode file n := by
  simp only [ofNode, Json.reread, Json.rereadFields, reread_names]

theorem reread_ofEdge (e : ImportEdge) : (ofEdge e).reread = ofEdge e := by
  cases e with
  | mk source line specifier kind => cases source <;> rfl

theorem reread_ofFact (f : FileFact) : (ofFact f).reread = ofFact (redated f) := by
  have himports : (Json.list (f.imports.map ofEdge)).reread = .list (f.imports.map ofEdge) := by
    rw [reread_list_map id reread_ofEdge, List.map_id]
  have hroutes : (Json.list (f.routes.map ofRoute)).reread = .list (f.routes.map ofRoute) := by
    rw [reread_list_map id fun _ => rfl, List.map_id]
  simp only [ofFact, Json.reread_record, Json.rereadFields, himports, hroutes, reread_names]
  rfl

/-- **Documents** are read as they were written, up to the moments of facts. -/
theorem reread_document (milliseconds : Int) (nodes : List (String × GraphNode))
    (facts : List FileFact) :
    (document milliseconds nodes facts).reread =
      document milliseconds nodes (facts.map redated) := by
  have hnodes : (Json.list (nodes.map fun e => ofNode e.1 e.2)).reread =
      .list (nodes.map fun e => ofNode e.1 e.2) := by
    rw [reread_list_map id fun e => reread_ofNode e.1 e.2, List.map_id]
  simp only [document, Json.reread_record, Json.rereadFields, hnodes,
    reread_list_map redated reread_ofFact]
  rfl

/-- The numbers of a fact can be written and read back: the decimal text of the moment
stands for the same number, and no line number has more digits than are read. -/
structure Storable (f : FileFact) : Prop where
  lastSeenAt : Json.parse (Json.floatLiteral f.lastSeenAt) = .ok (.float f.lastSeenAt)
  importLines : ∀ e ∈ f.imports, (Nat.toDigits 10 e.line.natAbs).length ≤ mostDigits
  routeLines : ∀ r ∈ f.routes, (Nat.toDigits 10 r.line.natAbs).length ≤ mostDigits

theorem Storable.legible {f : FileFact} (h : Storable f) : Legible f :=
  ⟨h.importLines, h.routeLines⟩

theorem Storable.redated {f : FileFact} (h : Storable f) : redated f = f := by
  rw [Document.redated, Json.rereadFloat, h.lastSeenAt]

end RouteImpact.Document

namespace RouteImpact.ImportGraph

/-! ### Loading what a graph holds -/

/-- **Nodes.** The nodes of a consistent graph, loaded in any order, are the nodes again:
every reverse edge that loading adds is there already. -/
theorem node?_load_of_perm {g : ImportGraph} (h : g.Consistent) (start : ImportGraph)
    {nodes : List (String × GraphNode)} (hperm : nodes.Perm g.nodes.entries)
    (facts : List FileFact) (x : String) : (start.load nodes facts).node? x = g.node? x := by
  have hnd : (nodes.map Prod.fst).Nodup := (hperm.map Prod.fst).nodup_iff.2 g.nodes.nodup
  have hsame : (OrderedMap.ofList nodes).get? x = g.node? x := by
    rw [OrderedMap.get?_ofList_of_nodup hnd]
    exact OrderedMap.lookup_perm hperm hnd x
  -- this is where consistency is needed: no importer is new
  have hthere : ∀ y ∈ importersAmong nodes x, y ∈ g.importersOf x := by
    intro y hy
    obtain ⟨n, hn, hx⟩ := mem_importersAmong.1 hy
    have hnode : g.node? y = some n := OrderedMap.get?_eq_some_iff.2 (hperm.mem_iff.1 hn)
    exact h y x (importsOf_of_node? hnode ▸ hx)
  rw [node?_load, hsame]
  split
  · rfl
  · next hsome =>
    obtain ⟨y, hy⟩ := List.exists_mem_of_ne_nil _ hsome
    obtain ⟨n, hn, _⟩ := exists_node_of_mem_importersOf (hthere y hy)
    have hkept : (importersAmong nodes x).foldl NameSet.insert n.importedBy = n.importedBy := by
      ext z
      rw [NameSet.mem_foldl_insert, ← importersOf_of_node? hn]
      exact ⟨fun hz => hz.elim (hthere z) id, Or.inr⟩
    rw [hn, Option.getD_some, hkept]

/-- Every fact is filed under its own path. -/
def Filed (g : ImportGraph) : Prop := ∀ x f, g.fact? x = some f → f.path = x

/-- **Facts.** Facts that are filed under their own paths, loaded in any order, are the
facts again. -/
theorem fact?_load_of_perm {g : ImportGraph} (h : g.Filed) (start : ImportGraph)
    (nodes : List (String × GraphNode)) {facts : List FileFact}
    (hperm : facts.Perm g.facts.values) (x : String) :
    (start.load nodes facts).fact? x = g.fact? x := by
  have hentries : g.facts.values.map (fun f => (f.path, f)) = g.facts.entries := by
    rw [OrderedMap.values, List.map_map]
    refine List.map_congr_left (g := id) ?_ |>.trans (List.map_id _)
    intro e he
    have hpath : e.2.path = e.1 := h e.1 e.2 (OrderedMap.get?_eq_some_iff.2 he)
    show (e.2.path, e.2) = e
    rw [hpath]
  -- so filing the facts by path gives back the entries, in some order
  have hkeyed : (facts.map fun f => (f.path, f)).Perm g.facts.entries :=
    hentries ▸ hperm.map fun f => (f.path, f)
  have hnd : ((facts.map fun f => (f.path, f)).map Prod.fst).Nodup :=
    (hkeyed.map Prod.fst).nodup_iff.2 g.facts.nodup
  rw [fact?_load, OrderedMap.get?_ofList_of_nodup hnd]
  exact OrderedMap.lookup_perm hkeyed hnd x

/-- Facts that are changed under their own paths are the changed facts. -/
theorem fact?_load_map {change : FileFact → FileFact} (hpath : ∀ f, (change f).path = f.path)
    (start : ImportGraph) (nodes : List (String × GraphNode)) (facts : List FileFact)
    (x : String) :
    (start.load nodes (facts.map change)).fact? x =
      ((start.load nodes facts).fact? x).map change := by
  -- the facts are filed under the same paths in the same order
  have hkeyed : ((facts.map change).map fun f => (f.path, f)).reverse =
      ((facts.map fun f => (f.path, f)).reverse).map fun e => (e.1, change e.2) := by
    rw [List.map_map, ← List.map_reverse, ← List.map_reverse, List.map_map]
    exact List.map_congr_left fun f _ => by simp [hpath]
  rw [fact?_load, fact?_load, OrderedMap.get?_ofList, OrderedMap.get?_ofList, hkeyed]
  exact OrderedMap.lookup_map (fun _ => change) x _

/-! ### Every history -/

/-- A change that files a fact files it under its own path. -/
def Operation.Files : Operation → Prop
  | .upsert file fact => fact.path = file
  | _ => True

/-- **Step.** Every such change keeps facts filed under their own paths; loading files them
so itself. -/
theorem filed_apply {g : ImportGraph} (h : g.Filed) {op : Operation} (hop : op.Files) :
    (g.apply op).Filed := by
  intro x f hf
  cases op with
  | upsert file fact =>
    have hfact : (g.upsert file fact).fact? x = some f := hf
    rw [fact?_upsert] at hfact
    split at hfact
    · next hx =>
      cases hfact
      exact hop.trans hx
    · exact h x f hfact
  | ensure file => exact h x f hf
  | load nodes facts =>
    obtain ⟨f', _, heq⟩ := List.mem_map.1 (OrderedMap.mem_of_get?_ofList hf)
    cases heq
    rfl
  | markEntryPoints => exact h x f hf
  | clear => cases hf

/-- **Run.** Facts are filed under their own paths after every history of such changes. -/
theorem filed_run (prune : Bool) {ops : List Operation} (hops : ∀ op ∈ ops, op.Files) :
    (run prune ops).Filed :=
  run_induction (P := Filed) (Q := Operation.Files) prune (fun _ _ hf => by cases hf)
    (fun _ _ hop h => filed_apply h hop) ops hops

/-- What is read back is loaded from the sorted nodes and the redated facts. -/
theorem decodeBytes_encode {g : ImportGraph}
    (hlegible : ∀ f ∈ g.facts.values, Document.Legible f) (prune : Bool) (now : Moment) :
    Document.decodeBytes prune (Document.encode now g).toUTF8 =
      .ok (({ prune } : ImportGraph).load (Document.sortedNodes g)
        ((Document.sortedFacts g).map Document.redated)) := by
  have hparse : Json.parse (Document.encode now g) = .ok (Document.ofGraph now g).reread :=
    Json.parse_readable (Document.readable_ofGraph hlegible now)
  rw [decodeBytes_toUTF8, Document.decode, hparse, Document.ofGraph_eq, Document.reread_document]
  exact Document.toGraph_document ..

/-- Consistent edges are read back as they were. -/
theorem exists_decodeBytes_nodes {g : ImportGraph} (hedges : g.Consistent)
    (hlegible : ∀ f ∈ g.facts.values, Document.Legible f) (prune : Bool) (now : Moment) :
    ∃ g', Document.decodeBytes prune (Document.encode now g).toUTF8 = .ok g' ∧
      g'.prune = prune ∧ ∀ x, g'.node? x = g.node? x :=
  ⟨_, decodeBytes_encode hlegible prune now, rfl,
    node?_load_of_perm hedges _ (List.mergeSort_perm _ _) _⟩

/-- A graph whose edges belong together and whose facts are filed under their own paths is
read back as it was, up to the moments of its facts. -/
theorem exists_decodeBytes_redated {g : ImportGraph} (hedges : g.Consistent) (hfiled : g.Filed)
    (hlegible : ∀ f ∈ g.facts.values, Document.Legible f) (prune : Bool) (now : Moment) :
    ∃ g', Document.decodeBytes prune (Document.encode now g).toUTF8 = .ok g' ∧
      g'.prune = prune ∧ (∀ x, g'.node? x = g.node? x) ∧
        ∀ x, g'.fact? x = (g.fact? x).map Document.redated := by
  refine ⟨_, decodeBytes_encode hlegible prune now, rfl, ?_, fun x => ?_⟩
  · exact node?_load_of_perm hedges _ (List.mergeSort_perm _ _) _
  · have hpath : ∀ f, (Document.redated f).path = f.path := fun _ => rfl
    have hsorted : (Document.sortedFacts g).Perm g.facts.values := List.mergeSort_perm _ _
    rw [fact?_load_map hpath, fact?_load_of_perm hfiled _ _ hsorted]

/-- It is read back as it was if the numbers of its facts can be written. -/
theorem exists_decodeBytes_encode {g : ImportGraph} (hedges : g.Consistent) (hfiled : g.Filed)
    (hstorable : ∀ f ∈ g.facts.values, Document.Storable f) (prune : Bool) (now : Moment) :
    ∃ g', Document.decodeBytes prune (Document.encode now g).toUTF8 = .ok g' ∧
      g'.prune = prune ∧ (∀ x, g'.node? x = g.node? x) ∧ ∀ x, g'.fact? x = g.fact? x := by
  obtain ⟨g', hread, hprune, hnode, hfact⟩ := exists_decodeBytes_redated hedges hfiled
    (fun f hf => (hstorable f hf).legible) prune now
  refine ⟨g', hread, hprune, hnode, fun x => ?_⟩
  rw [hfact]
  cases hf : g.fact? x with
  | none => rfl
  | some f =>
    have hmem : f ∈ g.facts.values :=
      List.mem_map.2 ⟨(x, f), OrderedMap.get?_eq_some_iff.1 hf, rfl⟩
    rw [Option.map_some, (hstorable f hmem).redated]

/-- **Persistence round trip.** A graph with any history of changes is read back from its
persisted bytes with the same node and the same fact for every file, whichever way either
graph treats reverse edges.  Facts are replaced under their own paths, and the numbers of
those that the graph holds can be written; their texts may hold any characters. -/
theorem decodeBytes_encode_run (prune prune' : Bool) (ops : List Operation)
    (hfiles : ∀ op ∈ ops, op.Files)
    (hstorable : ∀ f ∈ (run prune ops).facts.values, Document.Storable f) (now : Moment) :
    ∃ g, Document.decodeBytes prune' (Document.encode now (run prune ops)).toUTF8 = .ok g ∧
      g.prune = prune' ∧ (∀ x, g.node? x = (run prune ops).node? x) ∧
        ∀ x, g.fact? x = (run prune ops).fact? x :=
  exists_decodeBytes_encode (consistent_run prune ops) (filed_run prune hfiles) hstorable
    prune' now

/-- A fact whose texts hold quotes, a backslash, control characters and characters beyond
the sixteen-bit units, with an import that resolves to nothing. -/
def quotedFact : FileFact where
  path := "src/\"q\"\\\n\x01é😀.tsx"
  imports := [{ source := none, line := 1, specifier := "react" },
    { source := some "src/😀\t.ts", line := 2, specifier := "./😀" }]
  exports := ["é", "default", "é"]
  routes := [{ path := "/\"x\"", component := "C", declaringFile := "é", line := 3 }]
  contentHash := "\x7f"
  lastSeenAt := .finite false 7130316802097152 (-22)

/-- A node that was kept elsewhere without its reverse edge, then the fact. -/
def quotedOperations : List Operation :=
  [.load [("a", { imports := NameSet.ofList ["b"] })] [], .upsert quotedFact.path quotedFact,
    .markEntryPoints]

/-- The fact is read back with every character, and the reverse edge that loading added is
there as well. -/
theorem decodeBytes_encode_run_quotedOperations :
    ∃ g, Document.decodeBytes true
        (Document.encode quotedFact.lastSeenAt (run false quotedOperations)).toUTF8 = .ok g ∧
      g.fact? quotedFact.path = some quotedFact ∧ "a" ∈ g.importersOf "b" := by
  have hfiles : ∀ op ∈ quotedOperations, op.Files := by
    simp [quotedOperations, Operation.Files]
  have hvalues : (run false quotedOperations).facts.values = [quotedFact] := by
    decide
  have hseen : Json.parse (Json.floatLiteral quotedFact.lastSeenAt) =
      .ok (.float quotedFact.lastSeenAt) := by
    have hliteral : Json.floatLiteral quotedFact.lastSeenAt = "1700000000.5" := by decide
    rw [hliteral]
    rfl
  have hstorable : ∀ f ∈ (run false quotedOperations).facts.values, Document.Storable f := by
    rw [hvalues]
    intro f hf
    rw [List.mem_singleton.1 hf]
    exact ⟨hseen, by decide, by decide⟩
  obtain ⟨g, hread, _, hnode, hfact⟩ :=
    decodeBytes_encode_run false true quotedOperations hfiles hstorable quotedFact.lastSeenAt
  refine ⟨g, hread, (hfact _).trans (by decide), ?_⟩
  rw [importersOf, hnode]
  decide

end RouteImpact.ImportGraph
