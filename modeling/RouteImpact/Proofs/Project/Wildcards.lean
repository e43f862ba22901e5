import RouteImpact.Project.Aliases
import RouteImpact.Proofs.Fact.Resolution
import RouteImpact.Proofs.Json.Fields

namespace RouteImpact

/-!
# Wildcards of a configuration

An entry such as `"@/*": ["./src/*"]` says that what stands for the wildcard of its key is to be put
in the place of the wildcard of its target.  What is kept of it is the directory that the target
stands for without its wildcard, so that a slash always stands where the wildcard stood: a target
whose wildcard follows a slash means what it says, and one whose wildcard ends a name, such as
`"./src/lib-*"`, does not.

* `Project.Wildcard`, `Project.Governs` — an entry of a configuration, and the configuration that
  counts for a project;
* `Project.normalize_front` — the directory of a target, with a rest below it, is what the target is
  with a slash and that rest;
* `Project.aliasTarget?_of_wildcard` — the alias of an entry is made of its base and its target;
* `Resolver.basePath?_of_wildcard` — hence what a specifier leads to, by the slash before the
  wildcard;
* `Resolver.basePath?_nameWildcard` — a wildcard that ends a name is not replaced.
-/

namespace Project

open Path (Proper isAbsolute)
open Settings (Aliases stripComments)

variable {d : Disk} {root base key target front rest : String} {configuration : Json}

/-! ### Targets -/

/-- The names that a target leads down by, and what is kept of them: a slash after the last. -/
theorem exists_names_of_aliasTarget? (h : aliasTarget? base target = some front) :
    isAbsolute (Path.append base target) = false ∧ ∃ names, (∀ n ∈ names, Proper n) ∧
      Path.normalizeParts false (Text.split '/' (Path.append base target)) = names ∧
      front = if names = [] then "" else Text.join "/" names ++ "/" := by
  unfold aliasTarget? at h
  dsimp only at h
  split at h
  · cases h
  · next hinside =>
    rw [not_or] at hinside
    -- whatever starts with two points is left out, and so is every path that climbs
    have hpoints : Path.normalize (Path.append base target) ≠ ".." := by
      intro heq
      rw [heq] at hinside
      exact hinside.1 (by decide)
    have hup : Text.startsWith (Path.normalize (Path.append base target)) "../" = false := by
      rw [Bool.eq_false_iff]
      exact fun hfits => hinside.1 (Text.startsWith_of_append ".." "/" hfits)
    obtain ⟨hrelative, hproper⟩ :=
      Path.proper_of_inside (by simpa using hinside.2) hpoints hup
    refine ⟨hrelative, _, hproper, rfl, ?_⟩
    rw [Path.normalize_of_relative hrelative] at h
    generalize Path.normalizeParts false (Text.split '/' (Path.append base target)) = names
      at h hproper ⊢
    by_cases hnil : names = []
    · subst hnil
      cases h
      rfl
    · -- a normal form has no slash to strip, so the one that is put there is the only one
      have hend := Path.endsWith_slash_of_normal (Path.isAbsolute_join hproper)
        (Path.normalize_join hnil hproper)
      rw [Path.ofRelative_of_ne_nil hnil, if_neg (Path.join_ne_point hnil hproper), Text.stripEnd,
        Text.dropEndWhile_slash hend, String.ofList_toList] at h
      rw [if_neg hnil]
      exact (Option.some.inj h).symm

/-- **What is kept of a target**: a relative path that is empty or ends in a slash, and that leads
where the target does. -/
theorem of_aliasTarget? (h : aliasTarget? base target = some front) :
    isAbsolute base = false ∧ isAbsolute target = false ∧ isAbsolute front = false ∧
      (front = "" ∨ Text.endsWith front "/" = true) ∧
      Path.normalizeParts false (Path.components front) =
        Path.normalizeParts false (Path.components base ++ Path.components target) := by
  obtain ⟨hrelative, names, hproper, hnames, hfront⟩ := exists_names_of_aliasTarget? h
  obtain ⟨hbase, htarget⟩ := Path.relative_of_append hrelative
  rw [Path.normalizeParts_split, Path.components_append htarget] at hnames
  rw [hnames]
  refine ⟨hbase, htarget, ?_⟩
  by_cases hnil : names = []
  · rw [hfront, if_pos hnil, hnil]
    exact ⟨rfl, Or.inl rfl, rfl⟩
  · rw [hfront, if_neg hnil, Path.components_slash_end, Path.components_join hproper,
      Path.normalizeParts_of_proper _ hproper,
      Path.isAbsolute_append_text (Path.join_ne_empty hnil hproper), Path.isAbsolute_join hproper]
    exact ⟨rfl, Or.inr (Text.endsWith_append _ _), rfl⟩

/-- **A rest below what is kept of a target** leads where it leads below the target itself. -/
theorem normalize_front (h : aliasTarget? base target = some front) (hrest : isAbsolute rest = false)
    {p : String} (hp : isAbsolute p = false)
    (hparts : Path.components p = Path.components target ++ Path.components rest) :
    Path.normalize (front ++ rest) = Path.normalize (Path.append base p) := by
  obtain ⟨hbase, -, hfrontAbs, hslash, hfront⟩ := of_aliasTarget? h
  have hwhole : isAbsolute (front ++ rest) = false := by
    by_cases hempty : front = ""
    · rw [hempty, String.empty_append, hrest]
    · rw [Path.isAbsolute_append_text hempty, hfrontAbs]
  rw [Path.normalize_of_relative hwhole,
    Path.normalize_of_relative (Path.isAbsolute_append_of_relative hbase hp),
    Path.normalizeParts_split, Path.normalizeParts_split, Path.components_append_text hslash,
    Path.components_append hp, hparts, ← List.append_assoc,
    Path.normalizeParts_append_congr hfront]

/-! ### Entries -/

/-- The options of a configuration. -/
def optionsOf (configuration : Json) : Json := (configuration.get? "compilerOptions").getD .null

/-- An entry of a configuration with its only target: what stands for the wildcard after `key` is to
be put after `target`, seen from `base`. -/
structure Wildcard (configuration : Json) (base key target : String) : Prop where
  base_eq : (optionsOf configuration).get? "baseUrl" = some (.text base)
  entry : ∃ paths, (optionsOf configuration).get? "paths" = some paths ∧
    paths.get? (key ++ "/*") = some (.list [.text (target ++ "*")])

/-- The text of a file makes no alias, if there is one. -/
def MakesNone (d : Disk) (root name : String) : Prop :=
  ∀ text, d.text? (Path.append root name) = some text →
    ∃ aliases, aliasesOfText text = .ok aliases ∧ aliases.size = 0

/-- A configuration that is read for a project, the files before its own having made no alias. -/
def Governs (d : Disk) (root : String) (configuration : Json) : Prop :=
  ∃ front name back text, configurationFiles = front ++ name :: back ∧
    (∀ earlier ∈ front, MakesNone d root earlier) ∧
    d.text? (Path.append root name) = some text ∧
    Json.parse (stripComments text) = .ok configuration

section Files

-- what a file says is never worked out here
attribute [local irreducible] Disk.text? aliasesOfText

theorem Governs.distinct (h : Governs d root configuration) : Json.Distinct configuration := by
  obtain ⟨_, _, _, _, -, -, -, hparse⟩ := h
  exact Json.distinct_of_parse hparse

theorem firstAliases_cons (d : Disk) (root name : String) (rest : List String) :
    firstAliases d root (name :: rest) =
      match d.text? (Path.append root name) with
      | none => firstAliases d root rest
      | some text =>
        match aliasesOfText text with
        | .error e => .error e
        | .ok aliases => if aliases.size = 0 then firstAliases d root rest else .ok aliases :=
  rfl

theorem loadAliases_of_governs (h : Governs d root configuration)
    (hsome : (aliasesOf configuration).size ≠ 0) :
    loadAliases d root = .ok (aliasesOf configuration) := by
  obtain ⟨front, name, back, text, hfiles, hfront, htext, hparse⟩ := h
  rw [loadAliases, hfiles]
  clear hfiles
  induction front with
  | nil =>
    have hread : aliasesOfText text = .ok (aliasesOf configuration) := by
      rw [aliasesOfText, hparse]
    rw [List.nil_append, firstAliases_cons, htext]
    dsimp only
    rw [hread]
    dsimp only
    rw [if_neg hsome]
  | cons earlier front ih =>
    rw [List.forall_mem_cons] at hfront
    rw [List.cons_append, firstAliases_cons]
    split
    · exact ih hfront.2
    · next text htext =>
      obtain ⟨aliases, hread, hnone⟩ := hfront.1 text htext
      rw [hread]
      dsimp only
      rw [if_pos hnone, ih hfront.2]

end Files

/-- What stands for an empty base. -/
def baseOf (base : String) : String := if base = "" then "." else base

theorem normalize_append_baseOf (base : String) {p : String} (hp : isAbsolute p = false) :
    Path.normalize (Path.append (baseOf base) p) = Path.normalize (Path.append base p) := by
  by_cases hempty : base = ""
  · subst hempty
    have hpoint : isAbsolute (Path.append "." p) = false :=
      Path.isAbsolute_append_of_relative (by decide) hp
    have hnothing : isAbsolute (Path.append "" p) = false :=
      Path.isAbsolute_append_of_relative (by decide) hp
    rw [baseOf, if_pos rfl, Path.normalize_of_relative hpoint, Path.normalize_of_relative hnothing,
      Path.normalizeParts_split, Path.normalizeParts_split, Path.components_append hp,
      Path.components_append hp]
    rfl
  · rw [baseOf, if_neg hempty]

/-- Where an alias of a configuration comes from. -/
theorem exists_of_get?_aliasesOf {start : String}
    (h : (aliasesOf configuration).get? start = some front) :
    ∃ base entries name targets, baseOf? (optionsOf configuration) = some base ∧
      (optionsOf configuration).get? "paths" = some (.record entries) ∧ (name, targets) ∈ entries ∧
      aliasOf? base name targets = some (start, front) := by
  unfold aliasesOf at h
  dsimp only at h
  split at h
  · next base entries hbase hpaths =>
    obtain ⟨⟨name, targets⟩, hentry, halias⟩ :=
      List.mem_filterMap.1 (OrderedMap.mem_of_get?_ofList h)
    exact ⟨base, entries, name, targets, hbase, hpaths, hentry, halias⟩
  · cases h

/-- Only the key with a wildcard after it makes an alias. -/
theorem of_aliasOf? {name : String} {targets : Json}
    (h : aliasOf? base name targets = some (key ++ "/", front)) :
    name = key ++ "/*" ∧ (targetsOf targets).findSome? (wildcardTarget? base) = some front := by
  unfold aliasOf? at h
  split at h
  · next hend =>
    obtain ⟨found, hfound, hpair⟩ := Option.map_eq_some_iff.1 h
    obtain ⟨start, rfl⟩ := Text.exists_of_endsWith hend
    rw [show ("/*" : String) = "/" ++ "*" from rfl, ← String.append_assoc,
      show (1 : Nat) = "*".length from rfl, Text.dropEnd_append, Prod.mk.injEq] at hpair
    obtain ⟨hstart, rfl⟩ := hpair
    have hkey : start = key := by
      rw [← String.toList_inj, String.toList_append, String.toList_append] at hstart
      exact String.toList_inj.1 (List.append_cancel_right hstart)
    exact ⟨by rw [hkey], hfound⟩
  · cases h

theorem wildcardTarget?_star (base target : String) :
    wildcardTarget? base (.text (target ++ "*")) = aliasTarget? base target := by
  rw [wildcardTarget?, if_pos (Text.endsWith_append _ _), show (1 : Nat) = "*".length from rfl,
    Text.dropEnd_append]

/-- **The alias of an entry** is made of its base and its target. -/
theorem aliasTarget?_of_wildcard (hdistinct : Json.Distinct configuration)
    (h : Wildcard configuration base key target)
    (hfront : (aliasesOf configuration).get? (key ++ "/") = some front) :
    aliasTarget? (baseOf base) target = some front := by
  obtain ⟨hbase, paths, hpaths, hentry⟩ := h
  obtain ⟨seen, entries, name, targets, hseen, hentries, hmem, halias⟩ :=
    exists_of_get?_aliasesOf hfront
  have hbaseOf : baseOf? (optionsOf configuration) = some (baseOf base) := by
    rw [baseOf?, hbase]
    by_cases hempty : base = "" <;> simp [Json.truth, baseOf, hempty]
  have hoptions : Json.Distinct (optionsOf configuration) := by
    rw [optionsOf]
    cases hget : configuration.get? "compilerOptions" with
    | none => exact .plain nofun nofun
    | some options => exact hdistinct.get? hget
  obtain rfl : baseOf base = seen := Option.some.inj (hbaseOf.symm.trans hseen)
  obtain rfl : paths = .record entries := Option.some.inj (hpaths.symm.trans hentries)
  obtain ⟨rfl, hfound⟩ := of_aliasOf? halias
  -- no other entry has the key
  obtain rfl := (hoptions.get? hpaths).eq_of_mem hentry hmem
  rw [targetsOf, List.findSome?_cons, wildcardTarget?_star] at hfound
  split at hfound
  · next hmade => rw [hmade, hfound]
  · cases hfound

end Project

namespace Resolver

open Project (Wildcard Governs aliasesOf)

variable {d : Disk} {root base key target front rest fromFile : String} {configuration : Json}
  {aliases : Settings.Aliases} {endings : List String} {isFile : String → Except Failure Bool}

/-! ### Specifiers -/

/-- A path in normal form, if it stays in the project. -/
def inside? (p : String) : Option String :=
  if escapes (Path.normalize p) then none else some (Path.normalize p)

theorem inside?_congr {p q : String} (h : Path.normalize p = Path.normalize q) :
    inside? p = inside? q := by
  rw [inside?, inside?, h]

/-- A specifier that starts with a key and a slash is seen from its file only if the key climbs. -/
theorem isRelative_key (hpoint : Text.startsWith (key ++ "/") "./" = false)
    (hpoints : Text.startsWith (key ++ "/") "../" = false) (rest : String) :
    isRelative (key ++ "/" ++ rest) = false := by
  have hother : ∀ s : String, '/' ∉ s.toList → key ++ "/" ++ rest ≠ s := by
    rintro s hs rfl
    exact hs (by simp)
  simp only [isRelative, Bool.or_eq_false_iff, beq_eq_false_iff_ne]
  refine ⟨⟨⟨?_, ?_⟩, hother _ (by decide)⟩, hother _ (by decide)⟩
  · rw [Bool.eq_false_iff] at hpoint ⊢
    exact fun h => hpoint (Text.startsWith_slash_of_append "." (by decide) h)
  · rw [Bool.eq_false_iff] at hpoints ⊢
    exact fun h => hpoints (Text.startsWith_slash_of_append ".." (by decide) h)

/-- What a specifier leads to where only one alias is known. -/
theorem basePath?_of_keys (hkeys : aliases.keys = [key ++ "/"])
    (hget : aliases.get? (key ++ "/") = some front) (hquery : '?' ∉ key.toList)
    (hpoint : Text.startsWith (key ++ "/") "./" = false)
    (hpoints : Text.startsWith (key ++ "/") "../" = false) (hrest : '?' ∉ rest.toList) :
    (make aliases endings isFile).basePath? fromFile (key ++ "/" ++ rest) =
      inside? (front ++ rest) := by
  have hbefore : Text.before '?' rest = rest := by
    have := Text.before_append hrest ""
    rwa [String.append_empty, show Text.before '?' "" = "" from rfl, String.append_empty] at this
  have hstart : '?' ∉ (key ++ "/").toList := by simp [hquery]
  have hlongest : ∀ other, aliases.contains other = true → (key ++ "/").length < other.length →
      Text.startsWith (key ++ "/" ++ rest) other = false := by
    intro other hother hlength
    have hkey : other ∈ aliases.keys := OrderedMap.mem_keys_iff.2 hother
    rw [hkeys, List.mem_singleton] at hkey
    rw [hkey] at hlength
    exact absurd hlength (Nat.lt_irrefl _)
  have hrelative : isRelative (Text.before '?' (key ++ "/" ++ rest)) = false := by
    rw [Text.before_append hstart]
    exact isRelative_key hpoint hpoints _
  have hjoined : (make aliases endings isFile).joined? fromFile (key ++ "/" ++ rest) =
      some (front ++ Text.before '?' rest) :=
    joined?_of_alias hget hstart hlongest hrelative fromFile
  rw [basePath?, hjoined, hbefore]
  rfl

/-- **What a specifier leads to by a wildcard.**  Let a configuration that governs a project have an
entry with a wildcard, and make an alias of it and no other.  The aliases of the project are that
one, and a specifier that starts with its key leads to what the target is with the rest of the
specifier in the place of its wildcard, if this follows a slash or is all of the target, or if the
rest is empty.  Otherwise a slash is put before the rest. -/
theorem basePath?_of_wildcard (hgoverns : Governs d root configuration)
    (hwildcard : Wildcard configuration base key target)
    (honly : (aliasesOf configuration).keys = [key ++ "/"]) (hquery : '?' ∉ key.toList)
    (hpoint : Text.startsWith (key ++ "/") "./" = false)
    (hpoints : Text.startsWith (key ++ "/") "../" = false) :
    ∃ aliases, Project.loadAliases d root = .ok aliases ∧
      ∀ (endings : List String) (isFile : String → Except Failure Bool) (fromFile rest : String),
        '?' ∉ rest.toList → Path.isAbsolute rest = false →
        (target = "" ∨ Text.endsWith target "/" = true ∨ rest = "" →
          (make aliases endings isFile).basePath? fromFile (key ++ "/" ++ rest) =
            inside? (Path.append base (target ++ rest))) ∧
        (target ≠ "" → Text.endsWith target "/" = false →
          (make aliases endings isFile).basePath? fromFile (key ++ "/" ++ rest) =
            inside? (Path.append base (target ++ "/" ++ rest))) := by
  obtain ⟨front, hfront⟩ : ∃ front, (aliasesOf configuration).get? (key ++ "/") = some front :=
    Option.isSome_iff_exists.1 (OrderedMap.mem_keys_iff.1 (by simp [honly]))
  have hsize : (aliasesOf configuration).size = 1 := by
    simpa [OrderedMap.keys, OrderedMap.size] using congrArg List.length honly
  refine ⟨_, Project.loadAliases_of_governs hgoverns (by omega),
    fun endings isFile fromFile rest hrest habs => ?_⟩
  have hmade := Project.aliasTarget?_of_wildcard hgoverns.distinct hwildcard hfront
  obtain ⟨-, htarget, -⟩ := Project.of_aliasTarget? hmade
  -- whatever is written for the target and the rest, only its components count
  have hresolved : ∀ p, Path.isAbsolute p = false →
      Path.components p = Path.components target ++ Path.components rest →
      (make (aliasesOf configuration) endings isFile).basePath? fromFile (key ++ "/" ++ rest) =
        inside? (Path.append base p) := by
    intro p hp hparts
    rw [basePath?_of_keys honly hfront hquery hpoint hpoints hrest]
    exact inside?_congr ((Project.normalize_front hmade habs hp hparts).trans
      (Project.normalize_append_baseOf base hp))
  refine ⟨fun hend => hresolved _ ?_ ?_, fun hne _ => hresolved _ ?_ ?_⟩
  · by_cases hempty : target = ""
    · rw [hempty, String.empty_append, habs]
    · rw [Path.isAbsolute_append_text hempty, htarget]
  · rcases hend with hempty | hslash | rfl
    · exact Path.components_append_text (Or.inl hempty) rest
    · exact Path.components_append_text (Or.inr hslash) rest
    · rw [String.append_empty, show Path.components "" = [] from rfl, List.append_nil]
  · rw [String.append_assoc, Path.isAbsolute_append_text hne, htarget]
  · exact Path.components_slash target rest

/-! ### A configuration with one entry -/

/-- A configuration with one entry, seen from a directory of its own. -/
def oneEntry (key target : String) : Json :=
  .record [("compilerOptions",
    .record [("baseUrl", .text "web"), ("paths", .record [(key, .list [.text target])])])]

theorem wildcard_oneEntry (key target : String) :
    Wildcard (oneEntry (key ++ "/*") (target ++ "*")) "web" key target :=
  ⟨rfl, .record [(key ++ "/*", .list [.text (target ++ "*")])], rfl,
    by simp [Json.get?, Json.field?]⟩

/-- A project whose configuration is the second file that is looked at. -/
def oneEntryDisk (text : String) : Disk :=
  ⟨[(["p"], .directory), (["p", "jsconfig.json"], .file text.toUTF8)]⟩

theorem governs_oneEntryDisk {text : String}
    (hfirst : (oneEntryDisk text).text? "/p/tsconfig.json" = none)
    (htext : (oneEntryDisk text).text? "/p/jsconfig.json" = some text)
    (hparse : Json.parse (Settings.stripComments text) = .ok configuration) :
    Governs (oneEntryDisk text) "/p" configuration := by
  refine ⟨["tsconfig.json"], "jsconfig.json", [], text, rfl, ?_, htext, hparse⟩
  intro earlier hearlier other hother
  rw [List.mem_singleton.1 hearlier] at hother
  cases hfirst.symm.trans hother

/-- The configuration of a project that shares a directory. -/
def sharedText : String :=
  "// what is shared\n\x7b\"compilerOptions\": \x7b\"baseUrl\": \"web\", \"paths\": \x7b\"~/*\": [\"./src/../lib/*\"]\x7d\x7d\x7d"

/-- A rest that climbs leads into the base, and one that climbs further leads nowhere. -/
theorem basePath?_of_wildcard_shared :
    ∃ aliases, Project.loadAliases (oneEntryDisk sharedText) "/p" = .ok aliases ∧
      (make aliases [] fun _ => .ok false).basePath? "main.ts" "~/a/../../b.ts" = some "web/b.ts" ∧
      (make aliases [] fun _ => .ok false).basePath? "main.ts" "~/../../../b.ts" = none := by
  have hparse : Json.parse (Settings.stripComments sharedText) =
      .ok (oneEntry ("~" ++ "/*") ("./src/../lib/" ++ "*")) := by
    have hplain : Settings.stripComments sharedText =
        "\n\x7b\"compilerOptions\": \x7b\"baseUrl\": \"web\", \"paths\": \x7b\"~/*\": [\"./src/../lib/*\"]\x7d\x7d\x7d" := by
      decide +kernel
    rw [hplain]
    cbv
  obtain ⟨aliases, haliases, hleads⟩ := basePath?_of_wildcard
    (governs_oneEntryDisk (by decide +kernel) (by decide +kernel) hparse)
    (wildcard_oneEntry "~" "./src/../lib/") (by decide +kernel) (by decide) (by decide) (by decide)
  refine ⟨aliases, haliases, ?_, ?_⟩
  · exact ((hleads [] (fun _ => .ok false) "main.ts" "a/../../b.ts" (by decide) (by decide)).1
      (Or.inr (Or.inl (by decide)))).trans (by decide +kernel)
  · exact ((hleads [] (fun _ => .ok false) "main.ts" "../../../b.ts" (by decide) (by decide)).1
      (Or.inr (Or.inl (by decide)))).trans (by decide +kernel)

/-- **A wildcard that ends a name is not replaced**: a slash is put after the name. -/
theorem basePath?_nameWildcard :
    Wildcard (oneEntry "#/*" "./lib-*") "web" "#" "./lib-" ∧
      (aliasesOf (oneEntry "#/*" "./lib-*")).keys = ["#" ++ "/"] ∧
      (make (aliasesOf (oneEntry "#/*" "./lib-*")) [] fun _ => .ok false).basePath? "main.ts"
        ("#" ++ "/" ++ "a") = some "web/lib-/a" ∧
      inside? (Path.append "web" ("./lib-" ++ "a")) = some "web/lib-a" := by
  have hkeys : (aliasesOf (oneEntry "#/*" "./lib-*")).keys = ["#" ++ "/"] := by decide +kernel
  have hget : (aliasesOf (oneEntry "#/*" "./lib-*")).get? ("#" ++ "/") = some "web/lib-/" := by
    decide +kernel
  refine ⟨wildcard_oneEntry "#" "./lib-", hkeys, ?_, by decide +kernel⟩
  rw [basePath?_of_keys hkeys hget (by decide) (by decide) (by decide) (by decide)]
  decide +kernel

end Resolver

end RouteImpact
