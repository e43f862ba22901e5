import RouteImpact.CommandLine.Run
import RouteImpact.Proofs.Data.Containers

namespace RouteImpact

/-!
# Which alias counts

An alias can come from the defaults, from the environment, from the command line and from the
project's own configuration.  What was given by hand is remembered by its value only: an alias that
repeats a default cannot be told from the default, and yields to the project as this does.

* `Settings.entriesOf`, `Settings.LastGiven` — the aliases that a list gives, and the one that
  counts for a prefix;
* `Settings.get?_parseAliasList`, `CommandLine.get?_aliasOptions` — what reading lists of aliases
  gives;
* `CommandLine.get?_configOf` — the aliases of the settings, the project's left aside;
* `Settings.get?_withProject` — how those of the project come to them;
* `CommandLine.alias_of_given` — hence an alias that was given is the one that is used, unless it
  repeats a default that the project remaps;
* `CommandLine.given_default_yields` — then the project's alias is used.
-/

namespace OrderedMap

variable {α : Type}

theorem get?_merge (m other : OrderedMap α) (k : String) :
    (m.merge other).get? k = (other.get? k).or (m.get? k) := by
  rw [merge, get?_foldl_set, ← lookup_perm other.entries.reverse_perm.symm other.nodup]
  rfl

end OrderedMap

namespace Settings

open OrderedMap (lookup)

/-! ### Lists of aliases -/

/-- The aliases that a list gives, in order. -/
def entriesOf (raw : String) : List (String × String) :=
  (Text.split ',' raw).filterMap fun entry => (aliasEntry entry).toOption.join

/-- A target is the last one that is given for a prefix. -/
def LastGiven (entries : List (String × String)) (start target : String) : Prop :=
  ∃ before after, entries = before ++ (start, target) :: after ∧ ∀ e ∈ after, e.1 ≠ start

theorem lookup_eq_none_of_ne {start : String} {es : List (String × String)}
    (h : ∀ e ∈ es, e.1 ≠ start) : lookup start es = none := by
  rw [Option.eq_none_iff_forall_ne_some]
  exact fun target hget => h _ (OrderedMap.mem_of_lookup hget) rfl

theorem LastGiven.lookup_reverse {entries : List (String × String)} {start target : String}
    (h : LastGiven entries start target) : lookup start entries.reverse = some target := by
  obtain ⟨before, after, rfl, hafter⟩ := h
  have hnone : lookup start after.reverse = none :=
    lookup_eq_none_of_ne fun e he => hafter e (List.mem_reverse.1 he)
  rw [List.reverse_append, List.reverse_cons, OrderedMap.lookup_append, OrderedMap.lookup_append,
    hnone]
  simp [lookup]

theorem get?_addEntries {entries : List String} {aliases result : Aliases}
    (h : addEntries entries aliases = .ok result) (start : String) :
    result.get? start =
      (lookup start
        (entries.filterMap fun entry => (aliasEntry entry).toOption.join).reverse).or
        (aliases.get? start) := by
  induction entries generalizing aliases with
  | nil =>
    cases h
    rfl
  | cons entry rest ih =>
    rw [addEntries] at h
    cases hentry : aliasEntry entry with
    | error e =>
      rw [hentry] at h
      cases h
    | ok found =>
      rw [hentry] at h
      cases found with
      | none =>
        -- blank space between two commas
        rw [ih h, List.filterMap_cons_none (by rw [hentry]; rfl)]
      | some e =>
        obtain ⟨name, target⟩ := e
        rw [ih h, List.filterMap_cons_some (b := (name, target)) (by rw [hentry]; rfl),
          List.reverse_cons, OrderedMap.lookup_append, OrderedMap.get?_set, Option.or_assoc]
        by_cases hname : name = start <;> simp [lookup, hname]

/-- A list that can be read gives the last target of each prefix. -/
theorem get?_parseAliasList {raw : String} {aliases : Aliases}
    (h : parseAliasList raw = .ok aliases) (start : String) :
    aliases.get? start = lookup start (entriesOf raw).reverse := by
  rw [get?_addEntries h, OrderedMap.get?_empty, Option.or_none]
  rfl

/-! ### Aliases of the project -/

/-- Adding one alias after the other to those of the project. -/
theorem get?_foldl_unlessDefault {es : List (String × String)} (hnd : (es.map Prod.fst).Nodup)
    (project : Aliases) (start : String) :
    (es.foldl (fun merged (name, target) =>
        if merged.contains name ∧ defaultAliases.get? name = some target then merged
        else merged.set name target) project).get? start =
      match lookup start es with
      | none => project.get? start
      | some target =>
        if project.contains start ∧ defaultAliases.get? start = some target then project.get? start
        else some target := by
  induction es generalizing project with
  | nil => rfl
  | cons e rest ih =>
    obtain ⟨name, target⟩ := e
    rw [List.map_cons, List.nodup_cons] at hnd
    rw [List.foldl_cons, ih hnd.2]
    by_cases hname : name = start
    · -- no later entry is about the same prefix
      subst hname
      have hrest : lookup name rest = none :=
        lookup_eq_none_of_ne fun e he heq => hnd.1 (List.mem_map.2 ⟨e, he, heq⟩)
      rw [hrest, lookup, if_pos rfl]
      dsimp only
      split
      · rfl
      · rw [OrderedMap.get?_set, if_pos rfl]
    · have hsame : (if project.contains name ∧ defaultAliases.get? name = some target then project
          else project.set name target).get? start = project.get? start := by
        split
        · rfl
        · rw [OrderedMap.get?_set, if_neg hname]
      rw [lookup, if_neg hname, OrderedMap.contains, hsame]
      rfl

/-- **Merging.** An alias of the settings counts, unless it has the value of a default and the
project has one for its prefix. -/
theorem get?_withProject (project own : Aliases) (start : String) :
    (withProject project own).get? start =
      match own.get? start with
      | none => project.get? start
      | some target =>
        if project.contains start ∧ defaultAliases.get? start = some target then project.get? start
        else some target :=
  get?_foldl_unlessDefault own.nodup project start

end Settings

namespace CommandLine

open OrderedMap (lookup)
open Settings (Aliases Config ConfigError entriesOf LastGiven)

/-! ### Aliases of the settings -/

/-- What options on the command line give. -/
theorem get?_aliasOptions {options : List String} {aliases result : Aliases}
    (h : aliasOptions options aliases = .ok result) (start : String) :
    result.get? start =
      (lookup start (options.flatMap entriesOf).reverse).or (aliases.get? start) := by
  induction options generalizing aliases with
  | nil =>
    cases h
    rfl
  | cons option rest ih =>
    rw [aliasOptions] at h
    split at h
    · cases h
    · next more hmore =>
      rw [ih h, OrderedMap.get?_merge, Settings.get?_parseAliasList hmore, List.flatMap_cons,
        List.reverse_append, OrderedMap.lookup_append, Option.or_assoc]

/-- The aliases that are given by hand, in the order in which they count: those of the environment
and then those of the command line. -/
def givenAliases (environment : OrderedMap String) (options : List String) :
    List (String × String) :=
  ((Config.nonEmpty? environment "ALIASES").elim [] entriesOf) ++ options.flatMap entriesOf

theorem eq_of_checked {config result : Config} (h : config.checked = .ok result) :
    result = config := by
  unfold Config.checked at h
  split at h
  · cases h
  · cases h
    rfl

/-- The aliases of the environment, or the defaults where it has none. -/
theorem get?_ofEnvironment {environment : OrderedMap String} {config : Config}
    (h : Config.ofEnvironment environment = .ok config) (start : String) :
    config.aliases.get? start =
      (Config.nonEmpty? environment "ALIASES").elim (Settings.defaultAliases.get? start)
        fun raw => lookup start (entriesOf raw).reverse := by
  unfold Config.ofEnvironment at h
  extract_lets base at h
  -- the sizes and the depth are read first, whatever they are
  obtain ⟨size, -, h⟩ := bind_eq_ok.1 h
  obtain ⟨batch, -, h⟩ := bind_eq_ok.1 h
  extract_lets withDepth at h
  obtain ⟨depth, h⟩ : ∃ depth, withDepth depth = .ok config := by
    split at h
    · exact ⟨_, h⟩
    · split at h
      · exact ⟨_, h⟩
      · obtain ⟨depth, -, h⟩ := bind_eq_ok.1 h
        exact ⟨depth, h⟩
  dsimp only [withDepth] at h
  split at h
  · next hnone =>
    rw [hnone, eq_of_checked h]
    rfl
  · next raw hsome =>
    obtain ⟨aliases, hread, h⟩ := bind_eq_ok.1 h
    rw [hsome, eq_of_checked h]
    exact Settings.get?_parseAliasList hread start

/-- **Settings.** The last alias that is given for a prefix is the one of the settings. -/
theorem get?_configOf {environment : OrderedMap String} {options : List String}
    {depth : Option Int} {exhaustive prune : Bool} {config : Config}
    (h : configOf environment options depth exhaustive prune = .ok config)
    {start target : String} (hgiven : LastGiven (givenAliases environment options) start target) :
    config.aliases.get? start = some target := by
  unfold configOf at h
  obtain ⟨base, hbase, h⟩ := bind_eq_ok.1 h
  extract_lets mark limit at h
  -- without options nothing is put over the aliases of the environment
  obtain ⟨merged, hmerged, h⟩ : ∃ merged : Config,
      merged.aliases.get? start =
        (lookup start (options.flatMap entriesOf).reverse).or (base.aliases.get? start) ∧
      limit merged = .ok config := by
    split at h
    · next hnil =>
      refine ⟨base, ?_, h⟩
      rw [List.isEmpty_iff.1 hnil]
      rfl
    · obtain ⟨extra, hextra, h⟩ := bind_eq_ok.1 h
      obtain ⟨merged, hmerged, h⟩ := bind_eq_ok.1 h
      refine ⟨merged, ?_, h⟩
      rw [eq_of_checked hmerged, OrderedMap.get?_merge, get?_aliasOptions hextra,
        OrderedMap.get?_empty, Option.or_none]
  -- what comes after the aliases changes other settings
  obtain ⟨limited, hlimited, h⟩ : ∃ limited : Config,
      limited.aliases = merged.aliases ∧ mark limited = .ok config := by
    dsimp only [limit] at h
    split at h
    · obtain ⟨limited, hlimited, h⟩ := bind_eq_ok.1 h
      exact ⟨limited, by rw [eq_of_checked hlimited], h⟩
    · split at h
      · obtain ⟨limited, hlimited, h⟩ := bind_eq_ok.1 h
        exact ⟨limited, by rw [eq_of_checked hlimited], h⟩
      · exact ⟨merged, rfl, h⟩
  have hkept : config.aliases = limited.aliases := by
    dsimp only [mark] at h
    split at h
    · rw [eq_of_checked h]
    · cases h
      rfl
  -- the options come later, so they are looked at first from the end
  have hlast := hgiven.lookup_reverse
  rw [givenAliases, List.reverse_append, OrderedMap.lookup_append] at hlast
  rw [hkept, hlimited, hmerged, get?_ofEnvironment hbase]
  cases henv : Config.nonEmpty? environment "ALIASES" with
  | none =>
    rw [henv] at hlast
    have hcommand : lookup start (options.flatMap entriesOf).reverse = some target := by
      simpa [lookup] using hlast
    rw [hcommand]
    rfl
  | some raw =>
    rw [henv] at hlast
    exact hlast

/-! ### Aliases of a session -/

/-- The aliases of a project, where a new session reads them. -/
theorem aliases_of_start {root : String} {own : Config} {host : Host} {now : Moment} {s : Session}
    (h : Session.start root own host now = .ok s) :
    s.root = root ∧ s.config.loadProjectAliases = own.loadProjectAliases ∧
      if own.loadProjectAliases then
        ∃ project, Project.loadAliases host.disk root = .ok project ∧
          s.config.aliases = Settings.withProject project own.aliases
      else s.config.aliases = own.aliases := by
  unfold Session.start at h
  split at h
  · next hload =>
    obtain ⟨project, hproject, h⟩ := bind_eq_ok.1 h
    cases h
    exact ⟨rfl, rfl, by rw [if_pos hload]; exact ⟨project, hproject, rfl⟩⟩
  · next hload =>
    cases h
    exact ⟨rfl, rfl, by rw [if_neg hload]⟩

/-- What goes on with a directory is given the directory that was asked for. -/
theorem of_inDirectory {w : Surroundings} {repo : String} {f : String → Except Reply Session}
    {s : Session} (h : inDirectory w repo f = .ok s) :
    f (Path.resolve w.directory repo) = .ok s := by
  unfold inDirectory at h
  dsimp only at h
  split at h
  · cases h
  · cases h
  · exact h

/-- A session that was opened has settings that could be read. -/
theorem start_of_configFirst {w : Surroundings} {repo : String}
    {config : Except ConfigError Config} {s : Session} (h : configFirst w repo config = .ok s) :
    ∃ own store, config = .ok own ∧
      Session.start (Path.resolve w.directory repo) own ⟨store, w.disk⟩ w.now = .ok s := by
  unfold configFirst at h
  split at h
  · cases h
  · next own =>
    have hopen := of_inDirectory h
    unfold openSession at hopen
    dsimp only at hopen
    split at hopen
    · cases hopen
    · next hstart =>
      cases hopen
      exact ⟨own, _, rfl, hstart⟩

/-- An alias has the value of a default, and the project has another for its prefix. -/
def Yields (d : Disk) (s : Session) (start target : String) : Prop :=
  Settings.defaultAliases.get? start = some target ∧ s.config.loadProjectAliases = true ∧
    ∃ project, Project.loadAliases d s.root = .ok project ∧ project.contains start = true

/-- **Aliases that are given count.**  In a session, the last alias that is given for a prefix on
the command line, or else in the environment, is the one that is used, whatever the project says.
Only one that has the value of a default yields to the project like the default. -/
theorem alias_of_given {w : Surroundings} {repo : String} {options : List String}
    {depth : Option Int} {exhaustive prune : Bool} {s : Session} {start target : String}
    (h : configFirst w repo (configOf w.environment options depth exhaustive prune) = .ok s)
    (hgiven : LastGiven (givenAliases w.environment options) start target) :
    (¬Yields w.disk s start target → s.config.aliases.get? start = some target) ∧
    (Yields w.disk s start target →
      ∃ project, Project.loadAliases w.disk s.root = .ok project ∧
        s.config.aliases.get? start = project.get? start) := by
  obtain ⟨own, store, hown, hstart⟩ := start_of_configFirst h
  have hset : own.aliases.get? start = some target := get?_configOf hown hgiven
  obtain ⟨hroot, hload, haliases⟩ := aliases_of_start hstart
  rw [← hroot] at haliases
  split at haliases
  · next hloads =>
    obtain ⟨project, hproject, hmerged⟩ := haliases
    rw [hmerged, Settings.get?_withProject, hset]
    dsimp only
    refine ⟨fun hstays => if_neg ?_, ?_⟩
    · rintro ⟨hthere, hdefault⟩
      exact hstays ⟨hdefault, hload.trans hloads, project, hproject, hthere⟩
    · rintro ⟨hdefault, -, other, hother, hthere⟩
      cases hproject.symm.trans hother
      exact ⟨project, hproject, if_pos ⟨hthere, hdefault⟩⟩
  · next hloads =>
    rw [haliases, hset]
    exact ⟨fun _ => rfl, fun hyields => absurd (hload.symm.trans hyields.2.1) hloads⟩

/-- A project that remaps two prefixes, in an environment with aliases of its own. -/
def remappedSurroundings : Surroundings where
  directory := "/p"
  environment := OrderedMap.ofList [("ROUTEGRAPH_ALIASES", "~/=shared/, @/=app/")]
  disk := ⟨[(["p"], .directory), (["p", "tsconfig.json"], .file
    "\x7b\"compilerOptions\": \x7b\"paths\": \x7b\"@/*\": [\"lib/*\"], \"~/*\": [\"*\"]\x7d\x7d\x7d".toUTF8)]⟩
  now := default

/-- A session on that project, with options of the command line. -/
def remappedSession (options : List String) : Except Reply Session :=
  configFirst remappedSurroundings "."
    (configOf remappedSurroundings.environment options none false false)

theorem exists_remappedSession (options : List String) (entries : List (String × String))
    (h : (remappedSession options).toOption.map (·.config.aliases.entries) = some entries) :
    ∃ s, remappedSession options = .ok s ∧ s.config.aliases.entries = entries := by
  cases hs : remappedSession options with
  | error ended =>
    rw [hs] at h
    cases h
  | ok s =>
    rw [hs] at h
    exact ⟨s, rfl, Option.some.inj h⟩

/-- Both the environment and the command line come before the project, and of two options for one
prefix the second counts. -/
theorem alias_of_given_remapped :
    ∃ s, remappedSession ["@/=web/, #/=x/", "@/=./src/"] = .ok s ∧
      s.config.aliases.get? "@/" = some "./src/" ∧ s.config.aliases.get? "~/" = some "shared/" := by
  obtain ⟨s, hs, -⟩ := exists_remappedSession ["@/=web/, #/=x/", "@/=./src/"]
    [("@/", "./src/"), ("~/", "shared/"), ("#/", "x/")] (by decide +kernel)
  have hall : givenAliases remappedSurroundings.environment ["@/=web/, #/=x/", "@/=./src/"] =
      [("~/", "shared/"), ("@/", "app/"), ("@/", "web/"), ("#/", "x/"), ("@/", "./src/")] := by
    decide +kernel
  have hpoint : LastGiven (givenAliases remappedSurroundings.environment
      ["@/=web/, #/=x/", "@/=./src/"]) "@/" "./src/" :=
    ⟨[("~/", "shared/"), ("@/", "app/"), ("@/", "web/"), ("#/", "x/")], [], hall, by simp⟩
  have htilde : LastGiven (givenAliases remappedSurroundings.environment
      ["@/=web/, #/=x/", "@/=./src/"]) "~/" "shared/" :=
    ⟨[], [("@/", "app/"), ("@/", "web/"), ("#/", "x/"), ("@/", "./src/")], hall, by simp⟩
  -- neither target is the one of a default
  exact ⟨s, hs, (alias_of_given hs hpoint).1 fun hyields => absurd hyields.1 (by decide),
    (alias_of_given hs htilde).1 fun hyields => absurd hyields.1 (by decide)⟩

/-- **An alias that repeats a default yields**, though it is given on the command line. -/
theorem given_default_yields :
    ∃ s, remappedSession ["@/=src/"] = .ok s ∧
      LastGiven (givenAliases remappedSurroundings.environment ["@/=src/"]) "@/" "src/" ∧
      s.config.aliases.get? "@/" = some "lib/" := by
  obtain ⟨s, hs, hentries⟩ := exists_remappedSession ["@/=src/"]
    [("@/", "lib/"), ("~/", "shared/")] (by decide +kernel)
  have hall : givenAliases remappedSurroundings.environment ["@/=src/"] =
      [("~/", "shared/"), ("@/", "app/"), ("@/", "src/")] := by
    decide +kernel
  refine ⟨s, hs, ⟨[("~/", "shared/"), ("@/", "app/")], [], hall, by simp⟩, ?_⟩
  rw [OrderedMap.get?, hentries]
  rfl

end CommandLine

end RouteImpact
