import RouteImpact.Graph.Basic
import RouteImpact.Proofs.Data.Containers

namespace RouteImpact.ImportGraph

/-!
# What a change does to a graph

Every change of an import graph, described node by node and edge by edge.

* `Operation` and `run` — the changes that a graph can go through, and a history of
  them;
* `importsOf`, `importersOf` — the two ends of the edges of a file, empty for a file
  without a node;
* `node?_upsert` — the node of every file after the fact of one file was replaced;
* `importsOf_upsert`, `mem_importersOf_upsert` — the same for edges: replacing a fact
  replaces the forward edges of its file, and only the importer at hand comes or goes
  in the reverse edges of other files;
* `node?_load` — loading takes the last node given for a file, and the forward edges of
  all the nodes given leave reverse edges (`importsOf_load`, `mem_importersOf_load`).
-/

/-! ### Histories -/

/-- A change of a graph. -/
inductive Operation where
  | upsert (file : String) (fact : FileFact)
  | ensure (file : String)
  | load (nodes : List (String × GraphNode)) (facts : List FileFact)
  | markEntryPoints
  | clear
deriving Repr

/-- The graph after a change. -/
def apply (g : ImportGraph) : Operation → ImportGraph
  | .upsert file fact => g.upsert file fact
  | .ensure file => g.ensure file
  | .load nodes facts => g.load nodes facts
  | .markEntryPoints => g.markEntryPoints
  | .clear => g.clear

/-- The graph after one change after the other, from an empty graph. -/
def run (prune : Bool) (ops : List Operation) : ImportGraph :=
  ops.foldl apply { prune }

/-- **Run principle.** What holds of the empty graph and is kept by every change that
occurs holds after every history. -/
theorem run_induction {P : ImportGraph → Prop} {Q : Operation → Prop} (prune : Bool)
    (start : P { prune }) (step : ∀ g op, Q op → P g → P (g.apply op))
    (ops : List Operation) (hops : ∀ op ∈ ops, Q op) : P (run prune ops) := by
  have hfold : ∀ (ops : List Operation) (g : ImportGraph), (∀ op ∈ ops, Q op) → P g →
      P (ops.foldl apply g) := by
    intro ops
    induction ops with
    | nil => intro g _ hg; exact hg
    | cons op ops ih =>
      intro g hQ hg
      exact ih (g.apply op) (fun o ho => hQ o (by simp [ho])) (step g op (hQ op (by simp)) hg)
  exact hfold ops _ hops start

/-! ### The ends of edges -/

/-- The files that a file imports. -/
def importsOf (g : ImportGraph) (file : String) : NameSet :=
  (g.node? file).elim NameSet.empty (·.imports)

theorem importsOf_of_node? {g : ImportGraph} {file : String} {n : GraphNode}
    (h : g.node? file = some n) : g.importsOf file = n.imports := by
  simp [importsOf, h]

theorem importersOf_of_node? {g : ImportGraph} {file : String} {n : GraphNode}
    (h : g.node? file = some n) : g.importersOf file = n.importedBy := by
  simp [importersOf, h]

/-- A file with an importer has a node. -/
theorem exists_node_of_mem_importersOf {g : ImportGraph} {file x : String}
    (h : x ∈ g.importersOf file) : ∃ n, g.node? file = some n ∧ x ∈ n.importedBy := by
  cases hn : g.node? file with
  | none => simp [importersOf, hn] at h
  | some n => exact ⟨n, rfl, importersOf_of_node? hn ▸ h⟩

/-! ### Changes of single nodes -/

theorem get?_update (nodes : OrderedMap GraphNode) (file : String) (f : GraphNode → GraphNode)
    (x : String) :
    (update nodes file f).get? x =
      if file = x then some (f ((nodes.get? file).getD {})) else nodes.get? x := by
  rw [update, OrderedMap.get?_set]

/-- A node with one more importer. -/
def withImporter (importer : String) (n : GraphNode) : GraphNode :=
  { n with importedBy := n.importedBy.insert importer }

/-- A node with one importer less. -/
def withoutImporter (importer : String) (n : GraphNode) : GraphNode :=
  { n with importedBy := n.importedBy.erase importer }

/-- An importer that is there is not added again. -/
theorem withImporter_of_mem {importer : String} {n : GraphNode} (h : importer ∈ n.importedBy) :
    withImporter importer n = n := by
  rw [withImporter, NameSet.insert_of_mem h]

theorem withImporter_idem (importer : String) (n : GraphNode) :
    withImporter importer (withImporter importer n) = withImporter importer n :=
  withImporter_of_mem (by simp [withImporter])

theorem withoutImporter_idem (importer : String) (n : GraphNode) :
    withoutImporter importer (withoutImporter importer n) = withoutImporter importer n := by
  have h : (n.importedBy.erase importer).erase importer = n.importedBy.erase importer := by
    ext x
    simp only [NameSet.mem_erase]
    exact ⟨fun hx => hx.1, fun hx => ⟨hx, hx.2⟩⟩
  simp only [withoutImporter, h]

/-- Adding an importer to several files gives each of them a node that has it. -/
theorem get?_foldl_addImporter (importer : String) (files : List String)
    (nodes : OrderedMap GraphNode) (x : String) :
    (files.foldl (addImporter importer) nodes).get? x =
      if x ∈ files then some (withImporter importer ((nodes.get? x).getD {}))
      else nodes.get? x := by
  induction files generalizing nodes with
  | nil => simp
  | cons file files ih =>
    have hstep : (addImporter importer nodes file).get? x =
        if file = x then some (withImporter importer ((nodes.get? file).getD {}))
        else nodes.get? x := get?_update ..
    rw [List.foldl_cons, ih, hstep]
    -- a file that is named twice gets the importer once
    by_cases hx : file = x
    · subst hx
      simp [withImporter_idem]
    · have hmem : x ∈ file :: files ↔ x ∈ files := by simp [Ne.symm hx]
      simp only [if_neg hx, hmem]

/-- Taking an importer off several files changes those that have a node. -/
theorem get?_foldl_dropImporter (importer : String) (files : List String)
    (nodes : OrderedMap GraphNode) (x : String) :
    (files.foldl (dropImporter importer) nodes).get? x =
      (nodes.get? x).map fun n => if x ∈ files then withoutImporter importer n else n := by
  induction files generalizing nodes with
  | nil => simp
  | cons file files ih =>
    have hstep : (dropImporter importer nodes file).get? x =
        (nodes.get? x).map fun n => if file = x then withoutImporter importer n else n := by
      unfold dropImporter
      -- a file without a node does not get one
      cases hf : nodes.get? file with
      | none =>
        by_cases hx : file = x
        · subst hx
          simp [hf]
        · simp [hx]
      | some n =>
        show (nodes.set file (withoutImporter importer n)).get? x = _
        rw [OrderedMap.get?_set]
        by_cases hx : file = x
        · subst hx
          simp [hf]
        · simp [hx]
    rw [List.foldl_cons, ih, hstep, Option.map_map]
    congr 1
    funext n
    by_cases hx : file = x
    · subst hx
      by_cases hm : file ∈ files <;> simp [hm, withoutImporter_idem]
    · have hmem : x ∈ file :: files ↔ x ∈ files := by simp [Ne.symm hx]
      simp [hx, hmem]

/-! ### Replacing a fact -/

/-- The node of a file after the fact of `file` was replaced, before any reverse edge
is added or dropped. -/
def ownNode? (g : ImportGraph) (file : String) (fact : FileFact) (x : String) :
    Option GraphNode :=
  if file = x then
    some { (g.node? file).getD {} with
      imports := targets file fact, isRouteFile := !fact.routes.isEmpty }
  else g.node? x

/-- **Replacing a fact, node by node.** The targets of the fact get a node with the
importer; where reverse edges go away, the other files that were imported lose it. -/
theorem node?_upsert (g : ImportGraph) (file : String) (fact : FileFact) (x : String) :
    (g.upsert file fact).node? x =
      if x ∈ targets file fact then
        some (withImporter file ((g.ownNode? file fact x).getD {}))
      else
        (g.ownNode? file fact x).map fun n =>
          if g.prune = true ∧ x ∈ g.importsOf file then withoutImporter file n else n := by
  have hold : ((g.node? file).getD {}).imports = g.importsOf file := by
    unfold importsOf
    cases g.node? file <;> rfl
  show ((if g.prune then (((g.node? file).getD {}).imports.sdiff (targets file fact)).toList
    else []).foldl (dropImporter file) ((targets file fact).toList.foldl (addImporter file)
      (update g.nodes file _))).get? x = _
  rw [get?_foldl_dropImporter, get?_foldl_addImporter, get?_update, hold]
  -- what is dropped was imported and is no longer, so the two changes do not meet
  have hdropped : x ∈ (if g.prune then ((g.importsOf file).sdiff (targets file fact)).toList
      else []) ↔ (g.prune = true ∧ x ∈ g.importsOf file) ∧ x ∉ targets file fact := by
    cases g.prune
    · simp
    · simp only [if_true, true_and]
      exact NameSet.mem_sdiff
  simp only [hdropped]
  by_cases hx : x ∈ targets file fact
  · have hl : x ∈ (targets file fact).toList := hx
    simp only [hx, hl, if_true, not_true_eq_false, and_false, if_false, Option.map_some]
    rfl
  · have hl : x ∉ (targets file fact).toList := hx
    simp only [hx, hl, if_false, not_false_eq_true, and_true]
    rfl

@[simp] theorem fact?_upsert (g : ImportGraph) (file : String) (fact : FileFact) (x : String) :
    (g.upsert file fact).fact? x = if file = x then some fact else g.fact? x :=
  OrderedMap.get?_set ..

/-- A file does not import itself. -/
theorem notMem_targets_self (file : String) (fact : FileFact) : file ∉ targets file fact := by
  simp [targets]

/-- **Frame.** A file other than the one whose fact is replaced, which it neither
imported before nor imports now, keeps its node. -/
theorem node?_upsert_of_notMem {g : ImportGraph} {file : String} {fact : FileFact} {x : String}
    (hfile : x ≠ file) (hold : x ∉ g.importsOf file) (hnew : x ∉ targets file fact) :
    (g.upsert file fact).node? x = g.node? x := by
  rw [node?_upsert, if_neg hnew, ownNode?, if_neg (Ne.symm hfile)]
  simp [hold]

theorem importsOf_upsert (g : ImportGraph) (file : String) (fact : FileFact) (x : String) :
    (g.upsert file fact).importsOf x =
      if file = x then targets file fact else g.importsOf x := by
  rw [importsOf, node?_upsert]
  by_cases hx : file = x
  · subst hx
    rw [if_neg (notMem_targets_self file fact), ownNode?, if_pos rfl, if_pos rfl]
    simp only [Option.map_some, Option.elim_some]
    split <;> rfl
  · rw [ownNode?, if_neg hx, if_neg hx]
    -- a new node imports nothing, and adding or dropping an importer keeps the imports
    unfold importsOf
    by_cases ht : x ∈ targets file fact
    · rw [if_pos ht]
      cases g.node? x <;> rfl
    · rw [if_neg ht]
      cases g.node? x with
      | none => rfl
      | some n =>
        simp only [Option.map_some, Option.elim_some]
        split <;> rfl

/-- The reverse edges after the fact of `file` was replaced: `file` is an importer of its
targets, and of what it imported before only where reverse edges stay. -/
theorem mem_importersOf_upsert (g : ImportGraph) (file : String) (fact : FileFact)
    (x y : String) :
    y ∈ (g.upsert file fact).importersOf x ↔
      (y = file ∧ x ∈ targets file fact) ∨
        (y ∈ g.importersOf x ∧ ¬ (y = file ∧ g.prune = true ∧ x ∈ g.importsOf file)) := by
  -- replacing the own node leaves the importers of every file alone
  have hown : ∀ z, z ∈ (g.ownNode? file fact x).elim NameSet.empty (·.importedBy) ↔
      z ∈ g.importersOf x := by
    intro z
    unfold ownNode? importersOf
    by_cases hx : file = x
    · subst hx
      rw [if_pos rfl]
      cases g.node? file <;> rfl
    · rw [if_neg hx]
  rw [importersOf, node?_upsert, ← hown]
  by_cases ht : x ∈ targets file fact
  · rw [if_pos ht]
    cases g.ownNode? file fact x with
    | none => simp [withImporter, ht]
    | some n =>
      simp only [withImporter, Option.elim_some, Option.getD_some, NameSet.mem_insert, ht]
      by_cases hy : y = file <;> simp [hy]
  · rw [if_neg ht]
    cases g.ownNode? file fact x with
    | none => simp [ht]
    | some n =>
      simp only [Option.map_some, Option.elim_some, ht, and_false, false_or]
      by_cases hp : g.prune = true ∧ x ∈ g.importsOf file
      · simp [withoutImporter, hp]
      · simp [hp]

/-! ### Loading -/

/-- The files whose nodes import a file, among nodes that were kept elsewhere. -/
def importersAmong (nodes : List (String × GraphNode)) (x : String) : List String :=
  (nodes.filter fun e => decide (x ∈ e.2.imports)).map (·.1)

theorem mem_importersAmong {nodes : List (String × GraphNode)} {x y : String} :
    y ∈ importersAmong nodes x ↔ ∃ n, (y, n) ∈ nodes ∧ x ∈ n.imports := by
  simp [importersAmong]

/-- Adding the reverse edges of several nodes gives a node to every file they import. -/
theorem get?_foldl_addReverse (entries : List (String × GraphNode))
    (nodes : OrderedMap GraphNode) (x : String) :
    (entries.foldl addReverse nodes).get? x =
      if importersAmong entries x = [] then nodes.get? x
      else
        some { (nodes.get? x).getD {} with
          importedBy := (importersAmong entries x).foldl NameSet.insert
            ((nodes.get? x).getD {}).importedBy } := by
  induction entries generalizing nodes with
  | nil => simp [importersAmong]
  | cons e entries ih =>
    have hstep : (addReverse nodes e).get? x =
        if x ∈ e.2.imports then some (withImporter e.1 ((nodes.get? x).getD {}))
        else nodes.get? x := get?_foldl_addImporter ..
    rw [List.foldl_cons, ih, hstep]
    by_cases hx : x ∈ e.2.imports
    · have hcons : importersAmong (e :: entries) x = e.1 :: importersAmong entries x := by
        simp [importersAmong, hx]
      rw [hcons, if_pos hx, if_neg (List.cons_ne_nil _ _), List.foldl_cons, Option.getD_some]
      split
      · next hnil => rw [hnil]; rfl
      · rfl
    · have hcons : importersAmong (e :: entries) x = importersAmong entries x := by
        simp [importersAmong, hx]
      rw [hcons, if_neg hx]

/-- **Loading, node by node.** Of the nodes given for a file the last one counts, and all
of them are importers of what they import. -/
theorem node?_load (g : ImportGraph) (nodes : List (String × GraphNode)) (facts : List FileFact)
    (x : String) :
    (g.load nodes facts).node? x =
      if importersAmong nodes x = [] then (OrderedMap.ofList nodes).get? x
      else
        some { ((OrderedMap.ofList nodes).get? x).getD {} with
          importedBy := (importersAmong nodes x).foldl NameSet.insert
            (((OrderedMap.ofList nodes).get? x).getD {}).importedBy } :=
  get?_foldl_addReverse ..

/-- The forward edges after loading are those of the last node given for a file. -/
theorem importsOf_load (g : ImportGraph) (nodes : List (String × GraphNode))
    (facts : List FileFact) (x : String) :
    (g.load nodes facts).importsOf x =
      ((OrderedMap.ofList nodes).get? x).elim NameSet.empty (·.imports) := by
  rw [importsOf, node?_load]
  split
  · rfl
  · cases (OrderedMap.ofList nodes).get? x <;> rfl

theorem mem_importersOf_load (g : ImportGraph) (nodes : List (String × GraphNode))
    (facts : List FileFact) (x y : String) :
    y ∈ (g.load nodes facts).importersOf x ↔
      (∃ n, (y, n) ∈ nodes ∧ x ∈ n.imports) ∨
        y ∈ ((OrderedMap.ofList nodes).get? x).elim NameSet.empty (·.importedBy) := by
  rw [importersOf, node?_load, ← mem_importersAmong]
  split
  · next hnil => simp [hnil]
  · rw [Option.elim_some, NameSet.mem_foldl_insert]
    cases (OrderedMap.ofList nodes).get? x <;> rfl

@[simp] theorem fact?_load (g : ImportGraph) (nodes : List (String × GraphNode))
    (facts : List FileFact) (x : String) :
    (g.load nodes facts).fact? x =
      (OrderedMap.ofList (facts.map fun f => (f.path, f))).get? x := rfl

/-! ### The other changes -/

theorem node?_ensure (g : ImportGraph) (file x : String) :
    (g.ensure file).node? x =
      if file = x then some ((g.node? file).getD {}) else g.node? x :=
  get?_update ..

@[simp] theorem importsOf_ensure (g : ImportGraph) (file x : String) :
    (g.ensure file).importsOf x = g.importsOf x := by
  unfold importsOf
  rw [node?_ensure]
  by_cases hx : file = x
  · subst hx
    cases g.node? file <;> simp
  · rw [if_neg hx]

@[simp] theorem importersOf_ensure (g : ImportGraph) (file x : String) :
    (g.ensure file).importersOf x = g.importersOf x := by
  unfold importersOf
  rw [node?_ensure]
  by_cases hx : file = x
  · subst hx
    cases g.node? file <;> simp
  · rw [if_neg hx]

theorem node?_markEntryPoints (g : ImportGraph) (x : String) :
    g.markEntryPoints.node? x =
      (g.node? x).map fun n => { n with isEntryPoint := isEntry x n } :=
  OrderedMap.get?_mapValues ..

@[simp] theorem importsOf_markEntryPoints (g : ImportGraph) (x : String) :
    g.markEntryPoints.importsOf x = g.importsOf x := by
  unfold importsOf
  rw [node?_markEntryPoints]
  cases g.node? x <;> rfl

@[simp] theorem importersOf_markEntryPoints (g : ImportGraph) (x : String) :
    g.markEntryPoints.importersOf x = g.importersOf x := by
  unfold importersOf
  rw [node?_markEntryPoints]
  cases g.node? x <;> rfl

end RouteImpact.ImportGraph
