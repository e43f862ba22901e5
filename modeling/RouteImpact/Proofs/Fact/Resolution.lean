import RouteImpact.Proofs.Data.Containers
import RouteImpact.Proofs.Disk.Places
import RouteImpact.Proofs.Path.Normal
import RouteImpact.Proofs.Project.Extraction

namespace RouteImpact

open Path (Proper)

/-!
# Where specifiers lead

Whatever an import says, the file that it means is a file of the project, and it is named in one
way only.  How the path is spelled makes no difference: an alias of a directory is as good as the
way to it.

* `Resolver.ProperEnding` — an ending that makes a name longer;
* `Resolver.exists_names_of_basePath` — the path that is looked for does not leave the project;
* `Resolver.exists_names_of_mem_candidates` — nor does any file that it may mean;
* `Resolver.resolve_inside` — hence a specifier that resolves names a file below the project's
  directory, and names of one file are equal;
* `Resolver.seek` — looking for a path, which is all that aliases and points are worked out for;
* `Resolver.resolve_alias` — an alias of a directory and the way from a file in it lead to the
  same file, or both to a path that cannot be asked for.
-/

namespace Resolver

variable {r : Resolver} {fromFile specifier base file : String}

/-! ### Files below the project -/

/-- An ending that makes a name longer: a point with something after it, in one name. -/
structure ProperEnding (ending : String) : Prop where
  point : Text.startsWith ending "." = true
  longer : 2 ≤ ending.length
  no_slash : '/' ∉ ending.toList

instance (ending : String) : Decidable (ProperEnding ending) :=
  decidable_of_iff (Text.startsWith ending "." = true ∧ 2 ≤ ending.length ∧ '/' ∉ ending.toList)
    ⟨fun ⟨a, b, c⟩ => ⟨a, b, c⟩, fun ⟨a, b, c⟩ => ⟨a, b, c⟩⟩

/-- With an ending, even a point is a proper name. -/
theorem ProperEnding.proper {ending name : String} (h : ProperEnding ending) (hne : name ≠ "")
    (hslash : '/' ∉ name.toList) : Proper (name ++ ending) := by
  have hlong : 3 ≤ (name ++ ending).length := by
    have hname : name.length ≠ 0 := by
      rw [← String.length_toList]
      simpa using hne
    have := h.longer
    rw [String.length_append]
    omega
  -- neither nothing nor points are as long
  have hother : ∀ s : String, s.length < 3 → name ++ ending ≠ s := by
    rintro s hs rfl
    omega
  refine ⟨hother _ (by decide), hother _ (by decide), hother _ (by decide), ?_⟩
  simp [hslash, h.no_slash]

theorem exists_names_of_basePath (h : r.basePath? fromFile specifier = some base) :
    ∃ names, (∀ n ∈ names, Proper n) ∧ base = Path.ofRelative names := by
  unfold basePath? at h
  obtain ⟨joined, -, h⟩ := Option.bind_eq_some_iff.1 h
  dsimp only at h
  split at h
  · cases h
  · next hinside =>
    cases h
    simp only [escapes, Bool.or_eq_true, not_or, Bool.not_eq_true, beq_eq_false_iff_ne] at hinside
    exact Path.exists_names_of_inside hinside.2 hinside.1.1 hinside.1.2

/-- A path with an ending is one of proper names. -/
theorem exists_names_of_ending {names : List String} (hnames : ∀ n ∈ names, Proper n)
    {ending : String} (hending : ProperEnding ending) :
    ∃ found, found ≠ [] ∧ (∀ n ∈ found, Proper n) ∧
      Path.ofRelative names ++ ending = Text.join "/" found := by
  cases names using List.reverseRecOn with
  | nil =>
    exact ⟨["." ++ ending], by simp, by simpa using hending.proper (by decide) (by decide),
      by simp [Path.ofRelative, Text.join]⟩
  | append_singleton front name =>
    have hlast := hnames name (by simp)
    refine ⟨front ++ [name ++ ending], by simp, ?_, ?_⟩
    · intro n hn
      rcases List.mem_append.1 hn with hfront | hn
      · exact hnames n (List.mem_append_left _ hfront)
      · rw [List.mem_singleton.1 hn]
        exact hending.proper hlast.ne_empty hlast.no_slash
    · rw [Text.join_concat_append, Path.ofRelative_of_ne_nil (by simp)]

/-- Seen from a directory of the project, an index file is one of proper names. -/
theorem index_ofRelative {names : List String} (hnames : ∀ n ∈ names, Proper n) :
    (if Path.ofRelative names = "." then "index" else Path.ofRelative names ++ "/index") =
      Path.ofRelative (names ++ ["index"]) := by
  by_cases hne : names = []
  · subst hne
    decide
  · rw [Path.ofRelative_of_ne_nil hne, if_neg (Path.join_ne_point hne hnames),
      Path.ofRelative_of_ne_nil (by simp),
      Text.join_concat hne, String.append_assoc]
    rfl

/-- **Every file that a path may mean** is below the project's directory. -/
theorem exists_names_of_mem_candidates (hendings : ∀ e ∈ r.endings, ProperEnding e)
    {names : List String} (hnames : ∀ n ∈ names, Proper n)
    (h : file ∈ r.candidates (Path.ofRelative names)) :
    ∃ found, found ≠ [] ∧ (∀ n ∈ found, Proper n) ∧ file = Text.join "/" found := by
  simp only [candidates, List.mem_append, List.mem_map] at h
  rcases h with (hitself | ⟨ending, hending, rfl⟩) | ⟨ending, hending, rfl⟩
  · -- the path itself, unless it is the project's directory
    split at hitself
    · cases hitself
    · next hpoint =>
      have hne : names ≠ [] := by
        rintro rfl
        exact hpoint rfl
      refine ⟨names, hne, hnames, ?_⟩
      rw [List.mem_singleton.1 hitself, Path.ofRelative_of_ne_nil hne]
  · exact exists_names_of_ending hnames (hendings ending hending)
  · rw [index_ofRelative hnames]
    refine exists_names_of_ending (fun n hn => ?_) (hendings ending hending)
    rcases List.mem_append.1 hn with hn | hn
    · exact hnames n hn
    · rw [List.mem_singleton.1 hn]
      decide

theorem exists_names_of_resolve (hendings : ∀ e ∈ r.endings, ProperEnding e)
    (h : r.resolve fromFile specifier = .ok (some file)) :
    r.isFile file = .ok true ∧
      ∃ names, names ≠ [] ∧ (∀ n ∈ names, Proper n) ∧ file = Text.join "/" names := by
  unfold resolve at h
  split at h
  · cases h
  · next base hbase =>
    obtain ⟨hmem, hfile⟩ := of_firstFile h
    obtain ⟨names, hnames, rfl⟩ := exists_names_of_basePath hbase
    exact ⟨hfile, exists_names_of_mem_candidates hendings hnames hmem⟩

/-- Names that lead forward to one place are the same. -/
theorem eq_of_locate {d : Disk} {root : String} {names others : List String} {place : Disk.Place}
    (hnames : ∀ n ∈ names, Proper n) (hothers : ∀ n ∈ others, Proper n)
    (h : d.locate (Path.components (Path.append root (Text.join "/" names))) = .ok place)
    (h' : d.locate (Path.components (Path.append root (Text.join "/" others))) = .ok place) :
    names = others := by
  rw [Path.components_append (Path.isAbsolute_join hnames), Path.components_join hnames] at h
  rw [Path.components_append (Path.isAbsolute_join hothers), Path.components_join hothers] at h'
  have hplace := Disk.eq_lead_of_walk (Disk.walk_of_locate h).2
  have hplace' := Disk.eq_lead_of_walk (Disk.walk_of_locate h').2
  rw [Disk.lead_append, Disk.lead_of_forward fun n hn => (hnames n hn).ne_points] at hplace
  rw [Disk.lead_append, Disk.lead_of_forward fun n hn => (hothers n hn).ne_points] at hplace'
  exact List.append_cancel_left (hplace.symm.trans hplace')

/-- **Inside the project.**  With endings that make names longer, a specifier that resolves names a
file that is known, by a relative path in normal form that goes down from the project's directory,
under which the graph knows the file.  Two specifiers that lead to one place of a disk resolve to
one path. -/
theorem resolve_inside (hendings : ∀ e ∈ r.endings, ProperEnding e)
    (h : r.resolve fromFile specifier = .ok (some file)) :
    r.isFile file = .ok true ∧ file ≠ "" ∧ Path.isAbsolute file = false ∧
      (∀ part ∈ Text.split '/' file, part ≠ "" ∧ part ≠ "." ∧ part ≠ "..") ∧
      Path.normalize file = file ∧ (∀ root, Project.normalize root file = some file) ∧
      (∀ root, Path.components (Path.append root file) =
        Path.components root ++ Text.split '/' file) ∧
      ∀ {otherFile otherSpecifier other : String},
        r.resolve otherFile otherSpecifier = .ok (some other) →
        ∀ {d : Disk} {root : String} {place : Disk.Place},
          d.locate (Path.components (Path.append root file)) = .ok place →
          d.locate (Path.components (Path.append root other)) = .ok place → other = file := by
  obtain ⟨hfile, names, hne, hnames, rfl⟩ := exists_names_of_resolve hendings h
  have hsplit : Text.split '/' (Text.join "/" names) = names :=
    Text.split_join hne fun n hn => (hnames n hn).no_slash
  refine ⟨hfile, Path.join_ne_empty hne hnames, Path.isAbsolute_join hnames, ?_,
    Path.normalize_join hne hnames, fun root => Project.normalize_join root hne hnames,
    fun root => ?_, ?_⟩
  · rw [hsplit]
    exact fun part hpart =>
      ⟨(hnames part hpart).ne_empty, (hnames part hpart).ne_point, (hnames part hpart).ne_points⟩
  · rw [Path.components_append (Path.isAbsolute_join hnames), Path.components_join hnames, hsplit]
  · intro otherFile otherSpecifier other hother d root place hplace hplace'
    obtain ⟨-, others, -, hothers, rfl⟩ := exists_names_of_resolve hendings hother
    rw [eq_of_locate hothers hnames hplace' hplace]

/-- Aliases of which two fit one specifier, and one climbs. -/
def pageAliases : Settings.Aliases :=
  OrderedMap.ofList [("@/", "src/pages/"), ("@/lib/", "/usr/lib"), ("~", "lib/../src/./")]

theorem longestFirst_pageAliases : Settings.longestFirst pageAliases =
    [("@/lib/", "/usr/lib"), ("@/", "src/pages/"), ("~", "lib/../src/./")] := by
  have hentries : pageAliases.entries =
      [("@/", "src/pages/"), ("@/lib/", "/usr/lib"), ("~", "lib/../src/./")] := by
    decide +kernel
  have hlib : "@/lib/".length = 6 := by decide
  have hpages : "@/".length = 2 := by decide
  have hsource : "~".length = 1 := by decide
  rw [Settings.longestFirst, hentries]
  simp [List.mergeSort, hlib, hpages, hsource]

/-- A project of two files. -/
def pageResolver : Resolver :=
  make pageAliases [".ts", ".tsx"] fun file =>
    .ok (["src/util/index.ts", "src/pages/home.tsx"].contains file)

/-- One file under two spellings, by way of an alias that climbs and from below. -/
theorem resolve_inside_pageResolver :
    (∀ e ∈ pageResolver.endings, ProperEnding e) ∧
      pageResolver.resolve "main.ts" "~/util/./?raw" = .ok (some "src/util/index.ts") ∧
      pageResolver.resolve "src/pages/home.tsx" ".././/util" = .ok (some "src/util/index.ts") ∧
      (∀ root, Path.components (Path.append root "src/util/index.ts") =
        Path.components root ++ Text.split '/' "src/util/index.ts") ∧
      ∀ {d : Disk} {root : String} {place : Disk.Place} {other : String},
        pageResolver.resolve "src/pages/home.tsx" ".././/util" = .ok (some other) →
        d.locate (Path.components (Path.append root "src/util/index.ts")) = .ok place →
        d.locate (Path.components (Path.append root other)) = .ok place →
        other = "src/util/index.ts" := by
  have hresolver : pageResolver = ⟨[("@/lib/", "/usr/lib"), ("@/", "src/pages/"),
      ("~", "lib/../src/./")], [".ts", ".tsx"],
      fun file => .ok (["src/util/index.ts", "src/pages/home.tsx"].contains file)⟩ := by
    rw [pageResolver, make, longestFirst_pageAliases]
  have hendings : ∀ e ∈ pageResolver.endings, ProperEnding e := by decide +kernel
  have halias : pageResolver.resolve "main.ts" "~/util/./?raw" =
      .ok (some "src/util/index.ts") := by
    rw [hresolver]
    decide +kernel
  have hway : pageResolver.resolve "src/pages/home.tsx" ".././/util" =
      .ok (some "src/util/index.ts") := by decide +kernel
  obtain ⟨-, -, -, -, -, -, hbelow, hsame⟩ := resolve_inside hendings halias
  exact ⟨hendings, halias, hway, hbelow, fun hother => hsame hother⟩

/-! ### Spellings of a path -/

/-- The file that a path means before points are worked out, if it stays in the project. -/
def seek (r : Resolver) (joined : String) : Except Failure (Option String) :=
  let p := Path.normalize joined
  if escapes p then .ok none else firstFile r.isFile (r.candidates p)

theorem resolve_of_joined {joined : String} (h : r.joined? fromFile specifier = some joined) :
    r.resolve fromFile specifier = r.seek joined := by
  rw [resolve, basePath?, h, Option.bind_some, seek]
  dsimp only
  by_cases hescapes : escapes (Path.normalize joined) = true
  · rw [if_pos hescapes, if_pos hescapes]
  · rw [if_neg hescapes, if_neg hescapes]

/-- **The longest start counts.**  An alias replaces the start of a specifier if no longer alias
fits. -/
theorem substitute?_of_longest {aliases : Settings.Aliases} {start target : String}
    (halias : aliases.get? start = some target) (hstart : Text.startsWith specifier start = true)
    (hlongest : ∀ other, aliases.contains other = true → start.length < other.length →
      Text.startsWith specifier other = false) :
    substitute? (Settings.longestFirst aliases) specifier =
      some (target ++ Text.drop specifier start.length) := by
  have hsorted : (Settings.longestFirst aliases).Pairwise fun a b => b.1.length ≤ a.1.length := by
    refine (List.pairwise_mergeSort (fun a b c hab hbc => ?_) (fun a b => ?_) _).imp
      fun hab => of_decide_eq_true hab
    · exact decide_eq_true (Nat.le_trans (of_decide_eq_true hbc) (of_decide_eq_true hab))
    · simpa using Nat.le_total b.1.length a.1.length
  have hmem : ∀ e, e ∈ Settings.longestFirst aliases ↔ aliases.get? e.1 = some e.2 := fun e =>
    (List.mergeSort_perm _ _).mem_iff.trans OrderedMap.get?_eq_some_iff.symm
  have hown : (start, target) ∈ Settings.longestFirst aliases := (hmem _).2 halias
  -- some alias fits, and the first one that does is no shorter
  obtain ⟨found, hfound⟩ : ∃ found, (Settings.longestFirst aliases).find?
      (fun e => Text.startsWith specifier e.1) = some found :=
    Option.isSome_iff_exists.1 (List.find?_isSome.2 ⟨_, hown, hstart⟩)
  obtain ⟨hfits, front, back, hsplit, hfront⟩ := List.find?_eq_some_iff_append.1 hfound
  have hfoundMem : found ∈ Settings.longestFirst aliases := List.mem_of_find?_eq_some hfound
  have hget := (hmem found).1 hfoundMem
  have hlong : start.length ≤ found.1.length := by
    rw [hsplit, List.mem_append, List.mem_cons] at hown
    rcases hown with hown | rfl | hown
    · simpa [hstart] using hfront _ hown
    · exact Nat.le_refl _
    · rw [hsplit, List.pairwise_append, List.pairwise_cons] at hsorted
      exact hsorted.2.1.1 _ hown
  have hnot : ¬ start.length < found.1.length := by
    intro hlt
    rw [hlongest found.1 (by rw [OrderedMap.contains, hget]; rfl) hlt] at hfits
    cases hfits
  obtain ⟨other, value⟩ := found
  obtain rfl : start = other := Text.eq_of_startsWith hstart hfits (by dsimp only at hlong hnot; omega)
  rw [halias, Option.some.injEq] at hget
  rw [substitute?, hfound, hget]
  rfl

section Spellings

variable {aliases : Settings.Aliases} {endings : List String}
  {isFile : String → Except Failure Bool} {start target directory rest : String}

/-- What a specifier names that starts with its longest alias. -/
theorem joined?_of_alias (halias : aliases.get? start = some target) (hquery : '?' ∉ start.toList)
    (hlongest : ∀ other, aliases.contains other = true → start.length < other.length →
      Text.startsWith (start ++ rest) other = false)
    (hspecifier : isRelative (Text.before '?' (start ++ rest)) = false) (file : String) :
    (make aliases endings isFile).joined? file (start ++ rest) =
      some (target ++ Text.before '?' rest) := by
  have hbefore : Text.before '?' (start ++ rest) = start ++ Text.before '?' rest :=
    Text.before_append hquery rest
  rw [hbefore] at hspecifier
  -- an alias that fits the part before the question mark fits all of the specifier
  have hlongest' : ∀ other, aliases.contains other = true → start.length < other.length →
      Text.startsWith (start ++ Text.before '?' rest) other = false := by
    intro other hother hlength
    have hwhole := hlongest other hother hlength
    rw [Bool.eq_false_iff] at hwhole ⊢
    exact fun hfits => hwhole (Text.startsWith_append_before hfits)
  have hfound := substitute?_of_longest halias (Text.startsWith_append start _) hlongest'
  rw [Text.drop_append] at hfound
  rw [joined?, hbefore, hspecifier, if_neg (by simp)]
  exact hfound

/-- What a specifier names that is seen from a file in a directory. -/
theorem joined?_of_point (r : Resolver) (hne : directory ≠ "")
    (hend : Text.endsWith directory "/" = false) {name : String} (hname : '/' ∉ name.toList) :
    r.joined? (directory ++ "/" ++ name) ("./" ++ rest) =
      some (directory ++ "/" ++ ("./" ++ Text.before '?' rest)) := by
  have hpoint : Text.before '?' ("./" ++ rest) = "./" ++ Text.before '?' rest :=
    Text.before_append (by decide) rest
  have hseen : isRelative ("./" ++ Text.before '?' rest) = true := by
    rw [isRelative, Text.startsWith_append]
    rfl
  have habs : Path.isAbsolute ("./" ++ Text.before '?' rest) = false := by
    rw [Path.isAbsolute_append_text (by decide)]
    decide
  rw [joined?, hpoint, if_pos hseen, Path.directory_slash hne hend hname, Path.append,
    if_neg (by simp [habs]), if_neg (by simp [hne, hend])]

/-- **An alias of a directory is as good as the way to it.**  A specifier that starts with the
longest alias that fits it, which stands for a directory in normal form, resolves as its rest does
from any file in that directory. -/
theorem resolve_alias (hnormal : Path.normalize directory = directory)
    (hrelative : Path.isAbsolute directory = false)
    (halias : aliases.get? start = some (directory ++ "/")) (hquery : '?' ∉ start.toList)
    (hlongest : ∀ other, aliases.contains other = true → start.length < other.length →
      Text.startsWith (start ++ rest) other = false)
    (hspecifier : isRelative (Text.before '?' (start ++ rest)) = false) (file : String)
    {name : String} (hname : '/' ∉ name.toList) :
    (make aliases endings isFile).resolve file (start ++ rest) =
      (make aliases endings isFile).resolve (directory ++ "/" ++ name) ("./" ++ rest) := by
  have hne : directory ≠ "" := by
    rintro rfl
    exact absurd hnormal (by decide)
  have hend := Path.endsWith_slash_of_normal hrelative hnormal
  calc (make aliases endings isFile).resolve file (start ++ rest)
      = (make aliases endings isFile).seek (directory ++ "/" ++ Text.before '?' rest) :=
        resolve_of_joined (joined?_of_alias halias hquery hlongest hspecifier file)
    _ = (make aliases endings isFile).seek (directory ++ "/" ++ ("./" ++ Text.before '?' rest)) := by
        rw [seek, seek, Path.normalize_slash_point hne hrelative]
    _ = (make aliases endings isFile).resolve (directory ++ "/" ++ name) ("./" ++ rest) :=
        (resolve_of_joined (joined?_of_point _ hne hend hname)).symm

end Spellings

/-- The rest of a specifier climbs out of the directory of its alias, and a query follows. -/
theorem resolve_alias_pageResolver :
    Path.normalize "src/pages" = "src/pages" ∧ pageAliases.get? "@/" = some "src/pages/" ∧
      pageResolver.resolve "main.ts" "@/.//../util/?raw" =
        pageResolver.resolve "src/pages/home.tsx" "././/../util/?raw" ∧
      pageResolver.resolve "main.ts" "@/.//../util/?raw" = .ok (some "src/util/index.ts") := by
  have hnormal : Path.normalize "src/pages" = "src/pages" := by decide +kernel
  have halias : pageAliases.get? "@/" = some ("src/pages" ++ "/") := by decide +kernel
  have hlongest : ∀ other, pageAliases.contains other = true → "@/".length < other.length →
      Text.startsWith ("@/" ++ ".//../util/?raw") other = false := by
    intro other hother hlength
    have hkey : other ∈ pageAliases.keys := OrderedMap.mem_keys_iff.2 hother
    have hkeys : pageAliases.keys = ["@/", "@/lib/", "~"] := by decide +kernel
    simp only [hkeys, List.mem_cons, List.not_mem_nil, or_false] at hkey
    rcases hkey with rfl | rfl | rfl
    · exact absurd hlength (by decide)
    · decide +kernel
    · exact absurd hlength (by decide)
  have hsame : pageResolver.resolve "main.ts" ("@/" ++ ".//../util/?raw") =
      pageResolver.resolve ("src/pages" ++ "/" ++ "home.tsx") ("./" ++ ".//../util/?raw") :=
    resolve_alias hnormal (by decide) halias (by decide) hlongest (by decide +kernel) "main.ts"
      (by decide)
  have hway : pageResolver.resolve "src/pages/home.tsx" "././/../util/?raw" =
      .ok (some "src/util/index.ts") := by decide +kernel
  exact ⟨hnormal, halias, hsame, hsame.trans hway⟩

end Resolver

end RouteImpact
