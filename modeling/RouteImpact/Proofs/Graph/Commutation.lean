import RouteImpact.Proofs.Data.Sorting
import RouteImpact.Proofs.Graph.Reflection

namespace RouteImpact

/-!
# The order in which facts come

Putting in the fact of one file writes into the nodes of others, so it has to be shown that
two files do not get into each other's way.  They do not, in any graph, consistent or not:
what a fact adds to a node or takes from it is the name of its own file.

* `ImportGraph.Same` — graphs with the same nodes and facts, in any order;
* `ImportGraph.upsert_comm` — the facts of two files can be put in either way round;
* `Project.addFacts_perm` — and so those of many files in any order;
* `ImportGraph.SameNodes.routeFiles`, `edgeCount`, … — what is counted in a graph does not
  depend on the order of its nodes.
-/

namespace ImportGraph

/-! ### Nodes by their parts -/

/-- A mark of a node, which a file without a node does not have. -/
def marked (g : ImportGraph) (mark : GraphNode → Bool) (file : String) : Bool :=
  (g.node? file).any mark

/-- Nodes are told apart by their edges and marks. -/
theorem node?_ext {g h : ImportGraph} {x : String}
    (hsome : (g.node? x).isSome = true ↔ (h.node? x).isSome = true)
    (himports : g.importsOf x = h.importsOf x) (himporters : g.importersOf x = h.importersOf x)
    (hroute : g.marked (·.isRouteFile) x = h.marked (·.isRouteFile) x)
    (hentry : g.marked (·.isEntryPoint) x = h.marked (·.isEntryPoint) x) :
    g.node? x = h.node? x := by
  unfold importsOf at himports
  unfold importersOf at himporters
  unfold marked at hroute hentry
  cases hg : g.node? x with
  | none =>
    cases hh : h.node? x with
    | none => rfl
    | some n => simp [hg, hh] at hsome
  | some m =>
    cases hh : h.node? x with
    | none => simp [hg, hh] at hsome
    | some n =>
      rw [hg, hh] at himports himporters hroute hentry
      cases m
      cases n
      simp_all

theorem marked_isRouteFile_upsert (g : ImportGraph) (file : String) (fact : FileFact)
    (x : String) :
    (g.upsert file fact).marked (·.isRouteFile) x =
      if file = x then !fact.routes.isEmpty else g.marked (·.isRouteFile) x := by
  unfold marked
  cases hn : (g.upsert file fact).node? x with
  | some n =>
    rw [Option.any_some, isRouteFile_upsert hn]
    congr 1
    cases g.node? x <;> rfl
  | none =>
    -- a file that has no node now had none before, and is not the one put in
    have hnone := (isSome_node?_upsert g file fact x).not
    rw [hn, not_or, not_or] at hnone
    obtain ⟨hfile, -, hold⟩ := hnone.1 (by simp)
    rw [if_neg (Ne.symm hfile), Option.not_isSome_iff_eq_none.1 hold]

/-- Putting in a fact leaves the marks of entry points. -/
theorem marked_isEntryPoint_upsert (g : ImportGraph) (file : String) (fact : FileFact)
    (x : String) :
    (g.upsert file fact).marked (·.isEntryPoint) x = g.marked (·.isEntryPoint) x := by
  have hown : (g.ownNode? file fact x).any (·.isEntryPoint) = g.marked (·.isEntryPoint) x := by
    unfold ownNode? marked
    by_cases hx : file = x
    · subst hx
      rw [if_pos rfl]
      cases g.node? file <;> rfl
    · rw [if_neg hx]
  rw [marked, node?_upsert, ← hown]
  by_cases ht : x ∈ targets file fact
  · rw [if_pos ht]
    cases g.ownNode? file fact x <;> rfl
  · rw [if_neg ht]
    cases g.ownNode? file fact x with
    | none => rfl
    | some n =>
      simp only [Option.map_some, Option.any_some]
      split <;> rfl

/-! ### Graphs that differ in their order only -/

/-- The same nodes, in any order. -/
structure SameNodes (g h : ImportGraph) : Prop where
  prune : g.prune = h.prune
  node : ∀ x, g.node? x = h.node? x

/-- The same nodes and facts, in any order. -/
structure Same (g h : ImportGraph) : Prop extends SameNodes g h where
  fact : ∀ x, g.fact? x = h.fact? x

section SameNodes

variable {g h : ImportGraph}

theorem Same.refl (g : ImportGraph) : g.Same g := ⟨⟨rfl, fun _ => rfl⟩, fun _ => rfl⟩

theorem Same.symm (hsame : g.Same h) : h.Same g :=
  ⟨⟨hsame.prune.symm, fun x => (hsame.node x).symm⟩, fun x => (hsame.fact x).symm⟩

theorem Same.trans {k : ImportGraph} (hsame : g.Same h) (hnext : h.Same k) : g.Same k :=
  ⟨⟨hsame.prune.trans hnext.prune, fun x => (hsame.node x).trans (hnext.node x)⟩,
    fun x => (hsame.fact x).trans (hnext.fact x)⟩

/-- A fact shows in the nodes by what it imports and by whether it declares a route. -/
theorem SameNodes.upsert (hsame : g.SameNodes h) {file : String} {fact fact' : FileFact}
    (htargets : targets file fact = targets file fact')
    (hroutes : fact.routes.isEmpty = fact'.routes.isEmpty) :
    (g.upsert file fact).SameNodes (h.upsert file fact') where
  prune := hsame.prune
  node := by
    intro x
    have himports : g.importsOf file = h.importsOf file := by rw [importsOf, importsOf, hsame.node]
    rw [node?_upsert, node?_upsert, ownNode?, ownNode?, hsame.node, hsame.node, htargets, hroutes,
      hsame.prune, himports]

theorem Same.upsert (hsame : g.Same h) (file : String) (fact : FileFact) :
    (g.upsert file fact).Same (h.upsert file fact) where
  toSameNodes := hsame.toSameNodes.upsert rfl rfl
  fact := by
    intro x
    rw [fact?_upsert, fact?_upsert, hsame.fact]

theorem SameNodes.markEntryPoints (hsame : g.SameNodes h) :
    g.markEntryPoints.SameNodes h.markEntryPoints where
  prune := hsame.prune
  node := by
    intro x
    rw [node?_markEntryPoints, node?_markEntryPoints, hsame.node]

theorem Same.markEntryPoints (hsame : g.Same h) : g.markEntryPoints.Same h.markEntryPoints where
  toSameNodes := hsame.toSameNodes.markEntryPoints
  fact := hsame.fact

/-! ### Counts -/

theorem SameNodes.perm (hsame : g.SameNodes h) : g.nodes.entries.Perm h.nodes.entries :=
  OrderedMap.perm_entries hsame.node

theorem SameNodes.size (hsame : g.SameNodes h) : g.size = h.size :=
  hsame.perm.length_eq

theorem SameNodes.routeFiles (hsame : g.SameNodes h) : g.routeFiles = h.routeFiles :=
  Text.sort_perm ((hsame.perm.filter _).map _)

theorem SameNodes.entryPoints (hsame : g.SameNodes h) : g.entryPoints = h.entryPoints :=
  Text.sort_perm ((hsame.perm.filter _).map _)

theorem total_perm {ms ns : List Nat} (hperm : ms.Perm ns) : total ms = total ns := by
  induction hperm with
  | nil => rfl
  | cons n _ ih => rw [total_cons, total_cons, ih]
  | swap m n ns => simp only [total_cons]; omega
  | trans _ _ ih ih' => exact ih.trans ih'

theorem SameNodes.edgeCount (hsame : g.SameNodes h) : g.edgeCount = h.edgeCount := by
  refine total_perm ?_
  exact (hsame.perm.map Prod.snd).map _

end SameNodes

/-! ### Two facts in either order -/

/-- **Facts of different files commute**, in every graph. -/
theorem upsert_comm (g : ImportGraph) {a b : String} (hab : a ≠ b) (f k : FileFact) :
    ((g.upsert a f).upsert b k).Same ((g.upsert b k).upsert a f) where
  prune := rfl
  node := by
    intro x
    apply node?_ext
    · simp only [isSome_node?_upsert]
      grind
    · simp only [importsOf_upsert]
      grind
    · ext y
      -- the two files add and drop themselves only, so they do not meet in a node
      have hb : (g.upsert a f).importsOf b = g.importsOf b := by rw [importsOf_upsert, if_neg hab]
      have ha : (g.upsert b k).importsOf a = g.importsOf a := by
        rw [importsOf_upsert, if_neg hab.symm]
      rw [mem_importersOf_upsert, mem_importersOf_upsert, mem_importersOf_upsert,
        mem_importersOf_upsert, ha, hb]
      show _ ∨ (_ ∧ ¬ (_ ∧ g.prune = true ∧ _)) ↔ _ ∨ (_ ∧ ¬ (_ ∧ g.prune = true ∧ _))
      by_cases hya : y = a
      · subst hya
        simp [hab]
      · by_cases hyb : y = b
        · subst hyb
          simp [hya]
        · simp [hya, hyb]
    · simp only [marked_isRouteFile_upsert]
      grind
    · simp only [marked_isEntryPoint_upsert]
  fact := by
    intro x
    simp only [fact?_upsert]
    grind

/-! ### Many facts in any order -/

theorem Same.addFacts {fact : String → FileFact} {g h : ImportGraph} (hsame : g.Same h)
    (files : List String) :
    (Project.addFacts fact g files).Same (Project.addFacts fact h files) := by
  induction files generalizing g h with
  | nil => exact hsame
  | cons file files ih => exact ih (hsame.upsert file (fact file))

end ImportGraph

namespace Project

open ImportGraph

variable {fact : String → FileFact}

/-- **Any order will do.** -/
theorem addFacts_perm (g : ImportGraph) {files files' : List String}
    (hperm : files.Perm files') : (addFacts fact g files).Same (addFacts fact g files') := by
  induction hperm generalizing g with
  | nil => exact Same.refl g
  | cons file _ ih => exact ih (g.upsert file (fact file))
  | swap a b files =>
    by_cases hab : b = a
    · subst hab
      exact Same.refl _
    · exact (upsert_comm g hab (fact b) (fact a)).addFacts files
  | trans _ _ ih ih' => exact (ih g).trans (ih' g)

end Project

end RouteImpact
