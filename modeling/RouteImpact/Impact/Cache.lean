import RouteImpact.Impact.Search

namespace RouteImpact

open Impact

/-!
# Remembered answers

The routes that a change to a file affects are remembered by file.  Beside the
answers stands an index from each file to the answers whose search entered it, so
that `ImpactCache.invalidate` drops the answers a change can have made wrong and
keeps the others.
-/

/-- Answers, and the index from entered files to answers. -/
structure ImpactCache where
  answers : OrderedMap (List String) := OrderedMap.empty
  visitedBy : OrderedMap NameSet := OrderedMap.empty
deriving Repr, Inhabited

namespace ImpactCache

/-- The cache without answers. -/
def empty : ImpactCache := {}

/-- How many answers there are. -/
def size (c : ImpactCache) : Nat := c.answers.size

/-- Whether there is an answer for a file. -/
def isCached (c : ImpactCache) (file : String) : Bool := c.answers.contains file

/-- The answers whose search entered a file. -/
def keysThrough (c : ImpactCache) (file : String) : NameSet :=
  (c.visitedBy.get? file).getD NameSet.empty

/-- Notes that the search for `key` entered a file. -/
def noteVisit (key : String) (index : OrderedMap NameSet) (file : String) : OrderedMap NameSet :=
  index.set file (((index.get? file).getD NameSet.empty).insert key)

/-- Remembers the outcome of the search for a file. -/
def remember (c : ImpactCache) (file : String) (found : Outcome) : ImpactCache where
  answers := c.answers.set file found.routes.toList
  visitedBy := found.visited.toList.foldl (noteVisit file) c.visitedBy

/-- The routes that a change to a file affects, in order.  A file that the graph
does not know affects none, and that is not remembered. -/
def impactOf (c : ImpactCache) (g : ImportGraph) (limit : Option Int) (file : String) :
    List String × ImpactCache :=
  match c.answers.get? file with
  | some routes => (routes, c)
  | none =>
    match g.node? file with
    | none => ([], c)
    | some _ =>
      let found := searchFrom g limit file
      (found.routes.toList, c.remember file found)

/-- The given files and the files that import them. -/
def withImporters (g : ImportGraph) (files : List String) : NameSet :=
  files.foldl (fun s f => (s.insert f).union (g.importersOf f)) NameSet.empty

/-- The answers that a change to `files` may have made wrong: those for the files
and their importers, and those whose search entered one of these or a file of
`reaching`. -/
def stale (c : ImpactCache) (g : ImportGraph) (files reaching : List String) : NameSet :=
  let targets := withImporters g files
  let touched := reaching.foldl NameSet.insert targets
  touched.toList.foldl (fun s f => s.union (c.keysThrough f)) targets

/-- Drops the answers that a change may have made wrong; tells how many. -/
def invalidate (c : ImpactCache) (g : ImportGraph) (files reaching : List String) :
    Nat × ImpactCache :=
  let gone := c.stale g files reaching
  let answers := c.answers.filter fun key _ => !decide (key ∈ gone)
  let index := (c.visitedBy.mapValues fun _ keys => keys.sdiff gone).filter fun _ keys =>
    !keys.isEmpty
  (c.answers.size - answers.size, { answers, visitedBy := index })

end ImpactCache

end RouteImpact
