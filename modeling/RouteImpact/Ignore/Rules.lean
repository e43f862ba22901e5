import RouteImpact.Ignore.Pattern
import RouteImpact.Path.Lexical

namespace RouteImpact.Ignore

/-!
# What discovery never looks at

Two layers: directories and files that are built, vendored or kept by tools, and
the project's own ignore patterns.
-/

/-- Directories of dependencies, builds and tools. -/
def ignoredDirectories : List String :=
  ["node_modules", ".git", ".hg", "dist", "build", "coverage", ".next", ".nuxt", ".svelte-kit",
   "out", ".turbo", ".cache", ".parcel-cache", ".routegraph-cache", ".idea", ".vscode",
   "storybook-static"]

/-- The endings of generated or vendored files. -/
def ignoredEndings : List String := [".min.js", ".bundle.js", ".d.ts", ".chunk.js"]

/-- Whether a path is ignored whatever the project says. -/
def alwaysIgnored (path : String) : Bool :=
  (Path.parts path).any (ignoredDirectories.contains ·) ||
    ignoredEndings.any (Text.endsWith (Path.lastName path) ·)

/-- Whether a project-relative path is ignored, given the project's patterns.
Patterns are looked at only for a path that is not ignored anyway. -/
def shouldIgnore (patterns : List String) (path : String) : Except PatternError Bool :=
  if alwaysIgnored path then .ok true
  else if patterns.isEmpty then .ok false
  else do
    let compiled ← compileAll patterns
    return ignoredBy compiled (Path.tidy path)

/-- The patterns in the text of an ignore file: its lines without blank space
around them, comments left out. -/
def patternLines (text : String) : List String :=
  ((Text.lines text).map Text.strip).filter fun line =>
    line != "" && !Text.startsWith line "#"

end RouteImpact.Ignore
