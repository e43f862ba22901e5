import RouteImpact.Fact.Extractor
import RouteImpact.Graph.Basic
import RouteImpact.Project.Files

namespace RouteImpact.Project

/-!
# Building a graph

A full build extracts the fact of every file and puts it into the graph.  Files
are taken in batches, which shows in the progress that is reported and nowhere
else.  The files of a batch are taken as they come, and the first whose fact cannot
be extracted ends the build.
-/

/-- The counts of a build. -/
structure Summary where
  files : Nat
  routeFiles : Nat
  importEdges : Nat
  entryPoints : Nat
deriving Repr, DecidableEq, Inhabited

/-- A report of progress: `done` of `total`. -/
structure Progress where
  phase : String
  done : Nat
  total : Nat := 1
deriving Repr, DecidableEq

/-- What a build has made. -/
structure Built where
  graph : ImportGraph
  /-- The files whose facts were extracted. -/
  processed : List String
  summary : Summary
  progress : List Progress

/-- The fact of a file on disk; an empty one when it cannot be read. -/
def loadFact (d : Disk) (root : String) (x : Extractor) (now : Moment) (file : String) :
    Except Failure FileFact :=
  match readSource d root file x.maxFileSize with
  | .ok (some content) => x.extract now file content
  | _ => .ok (FileFact.none file now)

/-- Extracts the facts of several files into a graph; the first that fails ends this. -/
def extractInto (fact : String → Except Failure FileFact) (g : ImportGraph) :
    List String → Except (Halted ImportGraph) ImportGraph
  | [] => .ok g
  | file :: rest =>
    match fact file with
    | .error e => .error ⟨e, g⟩
    | .ok f => extractInto fact (g.upsert file f) rest

/-! ### Batches -/

/-- Files in runs of `size`, of which the last may be shorter. -/
def batches (size : Nat) (files : List String) : List (List String) :=
  if _h : size = 0 ∨ files = [] then [] else files.take size :: batches size (files.drop size)
termination_by files.length
decreasing_by
  have := List.length_pos_iff.2 (not_or.1 _h).2
  simp only [List.length_drop]
  omega

/-- Batches leave no file out, name none twice and keep the order. -/
theorem flatten_batches {size : Nat} (h : 0 < size) (files : List String) :
    (batches size files).flatten = files := by
  fun_induction batches size files with
  | case1 files h0 =>
    rcases h0 with h0 | h0
    · omega
    · simp [h0]
  | case2 files _ ih => simp [ih]

/-- The report of progress of each batch, after `done` of `total` files. -/
def batchReports (total : Nat) : Nat → List (List String) → List Progress
  | _, [] => []
  | done, batch :: rest =>
    ⟨"Extracting facts", done + batch.length, max total 1⟩ ::
      batchReports total (done + batch.length) rest

/-- The files that a build takes, the given ones or all that are discovered, with the reports
of looking for them. -/
def filesToBuild (d : Disk) (root : String) :
    Option (List String) → Except Failure (List Progress × List String)
  | some files => .ok ([], files)
  | none =>
    match discover d root (ignorePatterns d root) with
    | .error e => .error e
    | .ok found => .ok ([⟨"Walking files", 0, 1⟩, ⟨"Walking files", 1, 1⟩], found)

/-- Extracts the facts of files into a graph.  A build that fails leaves the facts that were
extracted before, and marks no entry points. -/
def build (d : Disk) (root : String) (x : Extractor) (now : Moment) (g : ImportGraph)
    (files : Option (List String)) (batch : Int) : Except (Halted ImportGraph) Built :=
  match filesToBuild d root files with
  | .error e => .error ⟨e, g⟩
  | .ok (walked, files) =>
    if batch = 0 then .error ⟨.emptyBatch, g⟩
    else
      let runs := batches batch.toNat files
      match runs.foldlM (extractInto (loadFact d root x now)) g with
      | .error halted => .error halted
      | .ok graph =>
        let graph := graph.markEntryPoints
        .ok {
          graph
          processed := runs.flatten
          summary :=
            { files := files.length
              routeFiles := graph.routeFiles.length
              importEdges := graph.edgeCount
              entryPoints := graph.entryPoints.length }
          progress :=
            walked ++ ⟨"Extracting facts", 0, 1⟩ :: batchReports files.length 0 runs ++
              [⟨"Extracting facts", 1, 1⟩] }

end RouteImpact.Project
