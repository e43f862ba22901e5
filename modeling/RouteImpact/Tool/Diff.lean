import RouteImpact.Text.Basic

namespace RouteImpact.Diff

/-!
# Headers of diffs

A diff says which files it changes in header lines such as
`diff --git a/src/old.ts b/src/new.ts`; the second path is the file as it is now.
-/

/-- What a header starts with. -/
def headerStart : List Char := "diff --git a/".toList

/-- What stands between the two paths of a header. -/
def divider : List Char := " b/".toList

/-- What follows the first divider that has something on both sides; `begun` tells
whether the first path has begun. -/
def afterDivider? : Bool → List Char → Option (List Char)
  | _, [] => none
  | begun, c :: cs =>
    if begun ∧ divider.isPrefixOf (c :: cs) ∧ divider.length < (c :: cs).length then
      some ((c :: cs).drop divider.length)
    else afterDivider? true cs

/-- The file that a line names, if it is a header. -/
def headerFile? (line : List Char) : Option String :=
  if headerStart.isPrefixOf line then
    (afterDivider? false (line.drop headerStart.length)).map String.ofList
  else none

/-- The files that a diff changes, at their first mention. -/
def files (diff : String) : List String :=
  Text.distinct ((Text.splitList '\n' diff.toList).filterMap headerFile?)

end RouteImpact.Diff
