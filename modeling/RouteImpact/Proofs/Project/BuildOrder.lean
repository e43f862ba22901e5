import Mathlib.Data.List.Perm.Basic
import RouteImpact.Graph.Document
import RouteImpact.Proofs.Graph.Commutation

namespace RouteImpact

/-!
# Builds in any order

The files of one batch are worked on at the same time and are done in any order; batches
follow one another.

* `Project.builtIn` — what is built when every batch is done in an order of its own;
* `Project.build_some` — a build is the case in which the files are done as they come;
* `Document.sortedFacts_addFacts` — the persisted order of facts does not depend on the
  order in which they were put in, although facts are kept in that order;
* `Project.build_any_order` — neither the order of files nor the size of batches nor the
  order within a batch shows in what is built and persisted.
-/

/-! ### Maps into which many values are put -/

namespace OrderedMap

variable {α : Type}

theorem setIn_of_mem {k : String} (v : α) {es : List (String × α)}
    (hnd : (es.map Prod.fst).Nodup) (hk : k ∈ es.map Prod.fst) :
    setIn k v es = es.map fun e => if e.1 = k then (e.1, v) else e := by
  induction es with
  | nil => simp at hk
  | cons e es ih =>
    obtain ⟨n, w⟩ := e
    rw [List.map_cons, List.nodup_cons] at hnd
    rw [setIn, List.map_cons]
    by_cases hn : n = k
    · subst hn
      -- the name comes once, so nothing else changes
      have hrest : es.map (fun e => if e.1 = n then (e.1, v) else e) = es := by
        rw [List.map_congr_left (g := id), List.map_id]
        intro e he
        rw [if_neg]
        · rfl
        · intro heq
          exact hnd.1 (List.mem_map.2 ⟨e, he, heq⟩)
      simp [hrest]
    · rw [if_neg hn, if_neg hn, ih hnd.2 (by simpa [Ne.symm hn] using hk)]

theorem setIn_of_notMem {k : String} (v : α) {es : List (String × α)}
    (hk : k ∉ es.map Prod.fst) : setIn k v es = es ++ [(k, v)] := by
  induction es with
  | nil => rfl
  | cons e es ih =>
    obtain ⟨n, w⟩ := e
    simp only [List.map_cons, List.mem_cons, not_or] at hk
    rw [setIn, if_neg (Ne.symm hk.1), ih hk.2, List.cons_append]

/-- Names that are there keep their place, and new ones follow in the order they come. -/
theorem entries_foldl_set (v : String → α) {ks : List String} (hks : ks.Nodup)
    (m : OrderedMap α) :
    (ks.foldl (fun m k => m.set k (v k)) m).entries =
      m.entries.map (fun e => if e.1 ∈ ks then (e.1, v e.1) else e) ++
        (ks.filter (· ∉ m.keys)).map fun k => (k, v k) := by
  induction ks generalizing m with
  | nil => simp
  | cons k ks ih =>
    rw [List.nodup_cons] at hks
    rw [List.foldl_cons, ih hks.2]
    by_cases hk : k ∈ m.keys
    · have hset : (m.set k (v k)).entries =
          m.entries.map fun e => if e.1 = k then (e.1, v k) else e := setIn_of_mem _ m.nodup hk
      have hkeys : (m.set k (v k)).keys = m.keys := by
        show (setIn k (v k) m.entries).map Prod.fst = _
        rw [map_fst_setIn]
        exact if_pos hk
      rw [hset, hkeys, List.map_map, List.filter_cons_of_neg (by simpa using hk)]
      congr 1
      refine List.map_congr_left ?_
      rintro ⟨n, w⟩ -
      by_cases hn : n = k
      · subst hn
        simp
      · simp [hn]
    · have hset : (m.set k (v k)).entries = m.entries ++ [(k, v k)] := setIn_of_notMem _ hk
      have hnew : ks.filter (· ∉ (m.set k (v k)).keys) = ks.filter (· ∉ m.keys) := by
        refine List.filter_congr fun n hn => ?_
        have hne : n ≠ k := fun h => hks.1 (h ▸ hn)
        have hkeys : n ∈ (m.set k (v k)).keys ↔ n ∈ m.keys := by
          rw [keys, hset, List.map_append]
          simp [hne, keys]
        rw [decide_eq_decide]
        exact not_congr hkeys
      rw [hnew, hset, List.filter_cons_of_pos (by simpa using hk), List.map_append,
        List.map_cons, List.append_assoc]
      congr 1
      · refine List.map_congr_left ?_
        rintro ⟨n, w⟩ he
        have hne : n ≠ k := by
          rintro rfl
          exact hk (List.mem_map_of_mem he)
        simp [hne]
      · simp [hks.1]

end OrderedMap

/-! ### What is persisted -/

namespace Document

open ImportGraph

theorem facts_addFacts (fact : String → FileFact) (g : ImportGraph) (files : List String) :
    (Project.addFacts fact g files).facts = files.foldl (fun m k => m.set k (fact k)) g.facts := by
  induction files generalizing g with
  | nil => rfl
  | cons file files ih => exact ih (g.upsert file (fact file))

/-- **Persisted facts come in an order of their own.**  Two facts with one path are persisted
in the order in which the graph has them, so this needs more than that the facts are the
same: of two such facts one was there before, and it comes first. -/
theorem sortedFacts_addFacts {fact : String → FileFact} (g : ImportGraph)
    {files files' : List String} (hpath : ∀ file ∈ files, (fact file).path = file)
    (hfiles : files.Nodup) (hperm : files.Perm files') :
    sortedFacts (Project.addFacts fact g files) = sortedFacts (Project.addFacts fact g files') := by
  refine Text.mergeSort_of_key FileFact.path fun path => ?_
  simp only [OrderedMap.values, facts_addFacts, OrderedMap.entries_foldl_set fact hfiles,
    OrderedMap.entries_foldl_set fact (hperm.nodup_iff.1 hfiles), List.map_append,
    List.filter_append]
  congr 1
  · simp only [hperm.mem_iff]
  · -- of the new facts at most one has this path
    have hnew : ∀ fs : List String, (∀ file ∈ fs, (fact file).path = file) →
        (((fs.filter (· ∉ g.facts.keys)).map fun k => (k, fact k)).map Prod.snd).filter
            (·.path = path) =
          ((List.replicate (fs.count path) path).filter (· ∉ g.facts.keys)).map fact := by
      intro fs hfs
      rw [List.map_map, List.filter_map, ← List.filter_eq, List.filter_filter, List.filter_filter]
      refine congrArg (List.map fact) (List.filter_congr fun file hfile => ?_)
      simp [hfs file hfile, Bool.and_comm]
    rw [hnew files hpath, hnew files' fun file hfile => hpath file (hperm.mem_iff.2 hfile),
      hperm.count_eq]

theorem encode_congr {g h : ImportGraph} (hsame : g.SameNodes h)
    (hfacts : sortedFacts g = sortedFacts h) (now : Moment) : encode now g = encode now h := by
  have hnodes : sortedNodes g = sortedNodes h := OrderedMap.sort_entries hsame.node
  rw [encode, encode, ofGraph, ofGraph, hnodes, hfacts]

end Document

/-! ### Builds -/

namespace Project

open ImportGraph

/-- What is built when the files of each batch are done in the order given. -/
def builtIn (fact : String → FileFact) (g : ImportGraph) (runs : List (List String)) : Built :=
  let graph := (runs.foldl (addFacts fact) g).markEntryPoints
  { graph
    processed := runs.flatten
    summary :=
      { files := runs.flatten.length
        routeFiles := graph.routeFiles.length
        importEdges := graph.edgeCount
        entryPoints := graph.entryPoints.length }
    progress :=
      ⟨"Extracting facts", 0, 1⟩ :: batchReports runs.flatten.length 0 runs ++
        [⟨"Extracting facts", 1, 1⟩] }

theorem graph_builtIn (fact : String → FileFact) (g : ImportGraph) (runs : List (List String)) :
    (builtIn fact g runs).graph = (addFacts fact g runs.flatten).markEntryPoints := by
  rw [← foldl_addFacts]
  rfl

/-- A build of given files takes them as they come. -/
theorem build_some {d : Disk} {root : String} {x : Extractor} {now : Moment} {g : ImportGraph}
    {files : List String} {batch : Int} (hbatch : 1 ≤ batch) {b : Built} :
    build d root x now g (some files) batch = .ok b ↔
      (∀ file ∈ files, Extractable d root x file) ∧
        builtIn (factOf d root x now) g (batches batch.toNat files) = b := by
  have hflatten : (batches batch.toNat files).flatten = files := flatten_batches (by omega) files
  simp only [build, filesToBuild]
  rw [if_neg (by omega), foldlM_extractInto, hflatten]
  cases hrun : extractInto (loadFact d root x now) g files with
  | error halted =>
    have hnot : ¬ ∀ file ∈ files, Extractable d root x file := fun hall => by
      have hok := (extractInto_eq_ok (fun _ _ => factOf_of_loadFact) (g := g)).2
        ⟨fun file hfile => (@exists_loadFact _ _ _ _ now).2 (hall file hfile), rfl⟩
      rw [hrun] at hok
      cases hok
    simp [hnot]
  | ok g' =>
    obtain ⟨hall, rfl⟩ := (extractInto_eq_ok fun _ _ => factOf_of_loadFact).1 hrun
    have hextractable : ∀ file ∈ files, Extractable d root x file :=
      fun file hfile => exists_loadFact.1 (hall file hfile)
    rw [builtIn, hflatten, foldl_addFacts, hflatten]
    exact ⟨fun h => ⟨hextractable, Except.ok.inj h⟩, fun h => congrArg Except.ok h.2⟩

/-- The fact of a file on disk names that file. -/
theorem path_factOf (d : Disk) (root : String) (x : Extractor) (now : Moment) (file : String) :
    (factOf d root x now file).path = file := by
  unfold factOf
  split
  · rw [Extractor.factOf]
    split <;> rfl
  · rfl

/-- **The order of a build does not show.**  Whatever the order of the files, the size of the
batches and the order in which the files of each batch are done: every file is processed once,
and the graph, the counts and the persisted text are the same, from every graph to start
with.  A build is one of these cases, and succeeds when the facts of all files can be
extracted. -/
theorem build_any_order (fact : String → FileFact) (g : ImportGraph) {files files' : List String}
    {batch batch' : Int} {runs runs' : List (List String)}
    (hpath : ∀ file ∈ files, (fact file).path = file) (hfiles : files.Nodup)
    (hperm : files.Perm files') (hbatch : 1 ≤ batch) (hbatch' : 1 ≤ batch')
    (hruns : List.Forall₂ List.Perm runs (batches batch.toNat files))
    (hruns' : List.Forall₂ List.Perm runs' (batches batch'.toNat files')) :
    (builtIn fact g runs).graph.Same (builtIn fact g runs').graph ∧
    (builtIn fact g runs).processed.Perm files ∧ (builtIn fact g runs').processed.Perm files ∧
    (builtIn fact g runs).summary = (builtIn fact g runs').summary ∧
    (builtIn fact g runs).summary.files = files.length ∧
    (∀ clock, Document.encode clock (builtIn fact g runs).graph =
      Document.encode clock (builtIn fact g runs').graph) ∧
    (∀ d root x now b, (build d root x now g (some files) batch = .ok b ↔
      (∀ file ∈ files, Extractable d root x file) ∧
        builtIn (factOf d root x now) g (batches batch.toNat files) = b) ∧
      ∀ file, (factOf d root x now file).path = file) := by
  -- batching neither skips nor repeats a file
  have hdone : runs.flatten.Perm files := by
    have hflat := List.Perm.flatten_congr hruns
    rwa [flatten_batches (by omega)] at hflat
  have hdone' : runs'.flatten.Perm files := by
    have hflat := List.Perm.flatten_congr hruns'
    rw [flatten_batches (by omega)] at hflat
    exact hflat.trans hperm.symm
  have horder : runs.flatten.Perm runs'.flatten := hdone.trans hdone'.symm
  have hsame : (builtIn fact g runs).graph.Same (builtIn fact g runs').graph := by
    rw [graph_builtIn, graph_builtIn]
    exact (addFacts_perm g horder).markEntryPoints
  have hsummary : (builtIn fact g runs).summary = (builtIn fact g runs').summary := by
    show Summary.mk _ _ _ _ = Summary.mk _ _ _ _
    rw [horder.length_eq]
    have hroutes := hsame.routeFiles
    have hedges := hsame.edgeCount
    have hentries := hsame.entryPoints
    simp only [builtIn] at hroutes hedges hentries
    rw [hroutes, hedges, hentries]
  have hfacts : Document.sortedFacts (builtIn fact g runs).graph =
      Document.sortedFacts (builtIn fact g runs').graph := by
    rw [graph_builtIn, graph_builtIn]
    exact Document.sortedFacts_addFacts g (fun file hfile => hpath file (hdone.mem_iff.1 hfile))
      (hdone.nodup_iff.2 hfiles) horder
  refine ⟨hsame, hdone, hdone', hsummary, hdone.length_eq,
    Document.encode_congr hsame.toSameNodes hfacts, fun d root x now b => ⟨?_, ?_⟩⟩
  · exact build_some hbatch
  · exact path_factOf d root x now

/-- Facts of three files, of which two import each other. -/
def crossFact (file : String) : FileFact :=
  { path := file
    imports :=
      if file = "a.ts" then [{ source := some "b.ts", line := 1 }]
      else if file = "b.ts" then [{ source := some "a.ts", line := 1 }]
      else []
    lastSeenAt := Number.Binary64.zero }

/-- A graph in which one of the files still imports the third. -/
def staleGraph : ImportGraph :=
  ({ prune := true } : ImportGraph).upsert "a.ts"
    { path := "a.ts", imports := [{ source := some "c.ts", line := 1 }],
      lastSeenAt := Number.Binary64.zero }

theorem build_any_order_crossFact :
    (builtIn crossFact staleGraph [["b.ts", "a.ts"], ["c.ts"]]).graph.Same
      (builtIn crossFact staleGraph [["a.ts", "c.ts", "b.ts"]]).graph := by
  have htwo : batches 2 ["a.ts", "b.ts", "c.ts"] = [["a.ts", "b.ts"], ["c.ts"]] := by
    simp [batches]
  have hthree : batches 3 ["c.ts", "b.ts", "a.ts"] = [["c.ts", "b.ts", "a.ts"]] := by
    simp [batches]
  refine (@build_any_order crossFact staleGraph ["a.ts", "b.ts", "c.ts"]
    ["c.ts", "b.ts", "a.ts"] 2 3 _ _ (fun _ _ => rfl) (by decide) (by decide) (by decide)
    (by decide) ?_ ?_).1
  · rw [show Int.toNat 2 = 2 from rfl, htwo]
    exact .cons (by decide) (.cons (by decide) .nil)
  · rw [show Int.toNat 3 = 3 from rfl, hthree]
    exact .cons (by decide) .nil

end Project

end RouteImpact
