import RouteImpact.Analysis.Session

namespace RouteImpact

/-!
# Watching a project

Changes come in batches.  Each batch refreshes the source files it names and
persists the graph when a fact was replaced.  The patterns of the ignore file are
those from when the watching began.

Only the refresh holds the graph from other tasks.  What is persisted is written as
soon as the refresh is over, and the store takes it while other tasks go on; so a
watched session (`Watched`) moves on in steps.
-/

namespace Session

/-- Begins to watch: reads the patterns and initializes the session if needed. -/
def beginWatch (s : Session) : Outcome (List String) :=
  let patterns := Project.ignorePatterns s.disk s.root
  Outcome.map (fun _ => patterns) s.ensureInitialized

/-- Takes in one batch of changed paths; answers how many facts were replaced. -/
def takeBatch (s : Session) (patterns changed : List String) : Outcome Nat :=
  match Project.relevant s.root patterns changed with
  | .error e => (.error e, s)
  | .ok [] => (.ok 0, s)
  | .ok paths => Outcome.map List.length (s.refresh paths)

/-- Takes in one batch and persists the graph, with nothing in between. -/
def watchBatch (s : Session) (patterns changed : List String) : Outcome Nat :=
  (s.takeBatch patterns changed).andThen fun count s =>
    (.ok count, if count = 0 then s else s.persist.2)

end Session

/-- How far the watching of a project is. -/
inductive Watcher where
  /-- The next batch can come. -/
  | waiting
  /-- A batch has replaced facts. -/
  | replaced
  /-- The store is taking bytes that were written of a graph. -/
  | uploading (bytes : ByteArray) (graph : ImportGraph)
  /-- A batch has failed, and no further one is taken in. -/
  | ended

/-- A session that is watched. -/
structure Watched where
  session : Session
  watcher : Watcher := .waiting
  /-- The graph whose bytes the store has taken last.  No step depends on it. -/
  stored : ImportGraph

namespace Watched

/-- The refresh of a batch. -/
def take (w : Watched) (patterns changed : List String) : Option Watched :=
  match w.watcher with
  | .waiting =>
    match w.session.takeBatch patterns changed with
    | (.error _, s) => some { w with session := s, watcher := .ended }
    | (.ok count, s) =>
      some { w with session := s, watcher := if count = 0 then .waiting else .replaced }
  | _ => none

/-- The writing of what is to be persisted. -/
def write (w : Watched) : Option Watched :=
  match w.watcher with
  | .replaced =>
    let bytes := Snapshot.payload w.session.now w.session.graph
    some { w with watcher := .uploading bytes w.session.graph }
  | _ => none

/-- The end of an upload. -/
def store (w : Watched) : Option Watched :=
  match w.watcher with
  | .uploading bytes graph =>
    let (taken, host) := Snapshot.put w.session.host w.session.key bytes
    some {
      session := { w.session with host }
      watcher := .waiting
      stored := if taken then graph else w.stored }
  | _ => none

end Watched

end RouteImpact
