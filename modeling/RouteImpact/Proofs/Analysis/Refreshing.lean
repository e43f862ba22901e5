import Mathlib.Data.List.Basic
import RouteImpact.Proofs.Analysis.Building

namespace RouteImpact.Session

open Project (SameSettings placeOf)

/-!
# What a refresh makes

A refresh replaces the facts of the files whose text is not the one their fact was
extracted from.

* `freshFact?_eq_some`, `freshFact?_eq_none` — what a file's fact is replaced by, and when
  it is kept; `Refreshable`, `exists_freshFact?` — when there is an answer;
* `Refreshes`, `refreshes_iff` — a refresh that succeeds, path by path; what it leaves is proved
  by induction on this (`Refreshes.graph`, `Refreshes.askable`, `Refreshes.stands`);
* `refresh_ok` — a refresh puts the facts of some of the given files into the graph;
* `Comparison` — what may be asked of the facts that a refresh keeps;
* `Judged` — a file whose fact is kept for a good reason, if it is kept;
  `judged_of_edit` — true after an edit that no hash hides;
* `Round`, `stands_round` — hence a round of edits and a refresh that covers them leaves
  every file with a fact that compares well with the one that it would get;
* `Touches` — rounds that touch one file only, such as `overwrite` and `removal`.
-/

variable {s t : Session} {file : String}

/-! ### One file -/

/-- A fact that is replaced is replaced by the one that the file would get. -/
theorem freshFact?_eq_some {fact : FileFact} (h : s.freshFact? file = .ok (some fact)) :
    fact = s.factNow file := by
  unfold freshFact? at h
  obtain ⟨found, hread, h⟩ := bind_eq_ok.1 h
  cases found with
  | none =>
    have hnone : s.factNow file = FileFact.none file s.now :=
      Project.factOf_of_none fun text htext => by
        rw [show Project.readSource s.disk s.root file s.extractor.maxFileSize = s.read file
          from rfl, hread] at htext
        cases htext
    have h' : (if (s.graph.fact? file).all (·.contentHash == "") then none
      else some (FileFact.none file s.now)) = some fact := Except.ok.inj h
    split at h'
    · cases h'
    · cases h'
      exact hnone.symm
  | some text =>
    have hsome : s.factNow file = s.extractor.factOf s.now file text :=
      Project.factOf_of_some hread
    dsimp only at h
    split at h
    · cases h
    · obtain ⟨extracted, hextract, h⟩ := bind_eq_ok.1 h
      cases h
      rw [hsome]
      exact (Extractor.extract_eq_ok.1 hextract).2.symm

/-- A fact is kept when it says nothing and nothing can be read, or when its hash is that
of the text. -/
theorem freshFact?_eq_none (h : s.freshFact? file = .ok none) :
    ((∀ text, s.read file ≠ .ok (some text)) ∧
      ∀ old, s.graph.fact? file = some old → old.contentHash = "") ∨
    ∃ text old, s.read file = .ok (some text) ∧ s.graph.fact? file = some old ∧
      old.contentHash = Digest.contentHash text := by
  unfold freshFact? at h
  obtain ⟨found, hread, h⟩ := bind_eq_ok.1 h
  cases found with
  | none =>
    refine Or.inl ⟨by simp [hread], ?_⟩
    have h' : (if (s.graph.fact? file).all (·.contentHash == "") then none
      else some (FileFact.none file s.now)) = none := Except.ok.inj h
    split at h'
    · next hall =>
      intro old hold
      rw [hold] at hall
      simpa using hall
    · cases h'
  | some text =>
    refine Or.inr ?_
    dsimp only at h
    split at h
    · next hany =>
      cases hold : s.graph.fact? file with
      | none =>
        rw [hold] at hany
        cases hany
      | some old =>
        rw [hold] at hany
        exact ⟨text, old, hread, rfl, by simpa using hany⟩
    · obtain ⟨extracted, -, h⟩ := bind_eq_ok.1 h
      cases h

/-- The fact of a file is that of the text which it has now. -/
def Unchanged (s : Session) (file : String) : Prop :=
  ∃ text old, s.read file = .ok (some text) ∧ s.graph.fact? file = some old ∧
    old.contentHash = Digest.contentHash text

/-- A file that can be named, and whose imports can be resolved if it has a new text. -/
def Refreshable (s : Session) (file : String) : Prop :=
  Disk.hasNul (Path.append s.root file) = false ∧ (s.Unchanged file ∨ s.Extractable file)

theorem refreshable_of_extractable (hnul : Disk.hasNul (Path.append s.root file) = false)
    (h : s.Extractable file) : s.Refreshable file :=
  ⟨hnul, Or.inr h⟩

/-- A file that cannot be named cannot be refreshed. -/
theorem freshFact?_of_hasNul (hnul : Disk.hasNul (Path.append s.root file) = true) :
    s.freshFact? file = .error .nulInPath := by
  unfold freshFact? read Project.readSource
  simp only [hnul]
  rfl

/-- **Whether a file can be refreshed.** -/
theorem exists_freshFact? : (∃ fact?, s.freshFact? file = .ok fact?) ↔ s.Refreshable file := by
  by_cases hnul : Disk.hasNul (Path.append s.root file) = true
  · simp [freshFact?_of_hasNul hnul, Refreshable, hnul]
  · rw [Bool.not_eq_true] at hnul
    obtain ⟨found, hread⟩ := Project.readSource_ok hnul s.disk s.config.maxFileSize
    have hread' : s.read file = .ok found := hread
    have hsource : Project.readSource s.disk s.root file s.extractor.maxFileSize = .ok found :=
      hread
    cases found with
    | none =>
      have hextractable : s.Extractable file := fun text htext => by
        rw [hsource] at htext
        cases htext
      refine iff_of_true ?_ (refreshable_of_extractable hnul hextractable)
      unfold freshFact?
      rw [hread']
      exact ⟨_, rfl⟩
    | some text =>
      have hextractable : s.Extractable file ↔ s.extractor.Resolves file text :=
        ⟨fun h => h text hsource, fun h other hother => by
          rw [hsource] at hother
          cases hother
          exact h⟩
      have hunchanged : s.Unchanged file ↔
          (s.graph.fact? file).any (·.contentHash == Digest.contentHash text) = true := by
        cases hold : s.graph.fact? file <;> simp [Unchanged, hread', hold]
      unfold freshFact?
      rw [hread', Refreshable, hextractable, hunchanged,
        ← @Extractor.exists_extract s.extractor s.now file text]
      by_cases hany : (s.graph.fact? file).any (·.contentHash == Digest.contentHash text) = true
      · exact iff_of_true ⟨none, by simp [hany, bind, Except.bind, pure, Except.pure]⟩
          ⟨hnul, Or.inl hany⟩
      · cases hextract : s.extractor.extract s.now file text with
        | error e => simp [hany, hextract, bind, Except.bind]
        | ok fact => simp [hany, hextract, hnul, bind, Except.bind, pure, Except.pure]

theorem hasNul_of_freshFact?_ok {fact? : Option FileFact} (h : s.freshFact? file = .ok fact?) :
    Disk.hasNul (Path.append s.root file) = false :=
  (exists_freshFact?.1 ⟨_, h⟩).1

/-- A new fact has been extracted. -/
theorem extractable_of_freshFact? {fact : FileFact} (h : s.freshFact? file = .ok (some fact)) :
    s.Extractable file := by
  obtain ⟨-, hunchanged | hextractable⟩ := exists_freshFact?.1 ⟨_, h⟩
  · -- a fact of the present text is kept
    obtain ⟨text, old, hread, hold, hhash⟩ := hunchanged
    unfold freshFact? at h
    simp [hread, hold, hhash, bind, Except.bind, pure, Except.pure] at h
  · exact hextractable

theorem not_refreshable_of_error {e : Failure} (h : s.freshFact? file = .error e) :
    ¬ s.Refreshable file := by
  intro hrefreshable
  obtain ⟨fact?, hok⟩ := exists_freshFact?.2 hrefreshable
  rw [h] at hok
  cases hok

theorem isFile_resolver (s : Session) (p : String) : s.resolver.isFile p =
    (s.disk.isFile (Path.append s.root p)).mapError fun _ => .nameTooLong := by
  rw [resolver, Resolver.make]

/-- Where an import cannot be resolved, a name is too long to ask for. -/
theorem eq_nameTooLong_of_extract {now : Moment} {text : String} {e : Failure}
    (h : s.extractor.extract now file text = .error e) : e = .nameTooLong := by
  unfold Extractor.extract at h
  split at h
  · next e' he =>
    cases h
    obtain ⟨specifier, -, hresolve⟩ := Resolver.of_resolveEach_error he
    obtain ⟨p, hp⟩ := Resolver.of_resolve_error hresolve
    change s.resolver.isFile p = .error e at hp
    rw [isFile_resolver] at hp
    cases hfile : s.disk.isFile (Path.append s.root p) with
    | error fault =>
      rw [hfile] at hp
      cases hp
      rfl
    | ok found =>
      rw [hfile] at hp
      cases hp
  · cases h

theorem eq_nameTooLong_of_loadNow {e : Failure} (h : s.loadNow file = .error e) :
    e = .nameTooLong := by
  unfold loadNow Project.loadFact at h
  split at h
  · exact eq_nameTooLong_of_extract h
  · cases h

/-- **Why a file cannot be refreshed**, if it can be named. -/
theorem eq_nameTooLong_of_freshFact? {e : Failure} (h : s.freshFact? file = .error e)
    (hnul : Disk.hasNul (Path.append s.root file) = false) : e = .nameTooLong := by
  obtain ⟨found, hread⟩ := Project.readSource_ok hnul s.disk s.config.maxFileSize
  have hread' : s.read file = .ok found := hread
  unfold freshFact? at h
  rw [hread'] at h
  cases found with
  | none => cases h
  | some text =>
    by_cases hany : (s.graph.fact? file).any (·.contentHash == Digest.contentHash text) = true
    · simp [hany, bind, Except.bind, pure, Except.pure] at h
    · cases hextract : s.extractor.extract s.now file text with
      | error e' =>
        simp [hany, hextract, bind, Except.bind] at h
        exact h ▸ eq_nameTooLong_of_extract hextract
      | ok fact => simp [hany, hextract, bind, Except.bind, pure, Except.pure] at h

/-- A comparison of facts, the old one first, that does not go beyond one text. -/
structure Comparison (R : FileFact → FileFact → Prop) : Prop where
  refl : ∀ fact, R fact fact
  trans : ∀ {a b c}, R a b → R b c → R a c
  contentHash : ∀ {a b}, R a b → a.contentHash = b.contentHash

theorem comparison_eq : Comparison Eq := ⟨fun _ => rfl, Eq.trans, congrArg _⟩

variable {R : FileFact → FileFact → Prop}

/-- The hash of the fact that a file would get. -/
theorem contentHash_of_stands (hR : Comparison R) (h : s.Stands R file) :
    (s.heldFact file).contentHash = (s.factNow file).contentHash := by
  have hhash := hR.contentHash h
  rwa [FileFact.contentHash_undated, FileFact.contentHash_undated] at hhash

/-- A file whose fact has the hash it would get is not refreshed. -/
theorem freshFact?_of_contentHash
    (hhash : (s.heldFact file).contentHash = (s.factNow file).contentHash)
    (hnul : Disk.hasNul (Path.append s.root file) = false) : s.freshFact? file = .ok none := by
  obtain ⟨found, hread⟩ := Project.readSource_ok hnul s.disk s.config.maxFileSize
  have hread' : s.read file = .ok found := hread
  unfold freshFact?
  rw [hread']
  cases found with
  | none =>
    have hnow : s.factNow file = FileFact.none file s.now :=
      Project.factOf_of_none fun text htext => by
        have := hread.symm.trans htext
        cases this
    rw [hnow, FileFact.contentHash_none] at hhash
    have hall : (s.graph.fact? file).all (·.contentHash == "") = true := by
      cases hf : s.graph.fact? file with
      | none => rfl
      | some old =>
        rw [heldFact_of_some hf] at hhash
        simpa using hhash
    simp only [bind, Except.bind, hall]
    rfl
  | some text =>
    have hsource : Project.readSource s.disk s.root file s.extractor.maxFileSize =
        .ok (some text) := hread
    have hnow : (s.factNow file).contentHash = Digest.contentHash text := by
      rw [factNow, Project.factOf_of_some hsource, Extractor.contentHash_factOf hsource]
    rw [hnow] at hhash
    have hany : (s.graph.fact? file).any (·.contentHash == Digest.contentHash text) = true := by
      cases hf : s.graph.fact? file with
      | none =>
        rw [heldFact_of_none hf, FileFact.contentHash_none] at hhash
        exact absurd hhash.symm (Digest.contentHash_ne_empty text)
      | some old =>
        rw [heldFact_of_some hf] at hhash
        simpa using hhash
    simp only [bind, Except.bind, hany]
    rfl

/-! ### Many files -/

/-- Two sessions that differ in nothing but what they remember. -/
def Remembers (s t : Session) : Prop :=
  t = { s with graph := t.graph, impact := t.impact, components := t.components }

theorem Remembers.refl (s : Session) : Remembers s s := rfl

theorem Remembers.trans {u : Session} (hst : Remembers s t) (htu : Remembers t u) :
    Remembers s u := by
  unfold Remembers at *
  rw [htu, hst]

theorem Remembers.sameAnalysis (h : Remembers s t) : SameAnalysis s t := by
  rw [h]
  exact ⟨rfl, rfl, rfl⟩

theorem Remembers.factNow (h : Remembers s t) : t.factNow = s.factNow := by
  rw [h]
  rfl

theorem Remembers.normalize (h : Remembers s t) : t.normalize = s.normalize := by
  rw [h]
  rfl

theorem Remembers.discoverable (h : Remembers s t) (file : String) :
    t.Discoverable file ↔ s.Discoverable file := by
  rw [h]
  exact Iff.rfl

theorem remembers_replaceFact (s : Session) (file : String) (fact : FileFact) :
    Remembers s (s.replaceFact file fact) := rfl

/-- A refresh changes nothing but what is remembered, failed or not. -/
theorem remembers_refreshEach (paths : List String) (s : Session) :
    Remembers s (refreshEach paths s).2 :=
  refreshEach_induction (fun _ hst => hst.trans (remembers_replaceFact ..)) paths
    (Remembers.refl s)

theorem graph_replaceFact (s : Session) (file : String) (fact : FileFact) :
    (s.replaceFact file fact).graph = s.graph.upsert file fact := rfl

/-- Whether a file has a new text does not depend on the facts of other files. -/
theorem freshFact?_congr (hst : Remembers s t) (hfact : t.graph.fact? file = s.graph.fact? file) :
    t.freshFact? file = s.freshFact? file := by
  have hread : t.read = s.read := by
    rw [hst]
    rfl
  have hextractor : t.extractor = s.extractor := by
    rw [hst]
    rfl
  have hnow : t.now = s.now := by rw [hst]
  unfold freshFact?
  rw [hfact, hread, hextractor, hnow]

/-- A fact that was just replaced is kept. -/
theorem freshFact?_replaceFact {fact : FileFact} (h : s.freshFact? file = .ok (some fact)) :
    (s.replaceFact file fact).freshFact? file = .ok none := by
  have hst := remembers_replaceFact s file fact
  refine freshFact?_of_contentHash ?_ (hasNul_of_freshFact?_ok (s := s) h)
  have hnew : (s.replaceFact file fact).graph.fact? file = some fact := by
    rw [graph_replaceFact, ImportGraph.fact?_upsert, if_pos rfl]
  rw [heldFact_of_some hnew, hst.factNow, freshFact?_eq_some h]

/-- Replacing the fact of one file keeps none from being refreshed. -/
theorem refreshable_replaceFact {file other : String} {fact : FileFact}
    (h : s.freshFact? file = .ok (some fact)) :
    (s.replaceFact file fact).Refreshable other ↔ s.Refreshable other := by
  rw [← exists_freshFact?, ← exists_freshFact?]
  by_cases hne : file = other
  · subst hne
    exact iff_of_true ⟨_, freshFact?_replaceFact h⟩ ⟨_, h⟩
  · have hsame : (s.replaceFact file fact).graph.fact? other = s.graph.fact? other := by
      rw [graph_replaceFact, ImportGraph.fact?_upsert, if_neg hne]
    rw [freshFact?_congr (remembers_replaceFact s file fact) hsame]

/-- Paths of files that can be refreshed, or of none. -/
def Askable (s : Session) (paths : List String) : Prop :=
  ∀ p ∈ paths, ∀ file, s.normalize p = some file → s.Refreshable file

theorem Askable.tail {path : String} {rest : List String} (h : s.Askable (path :: rest)) :
    s.Askable rest :=
  fun p hp => h p (List.mem_cons_of_mem _ hp)

theorem askable_replaceFact {fact : FileFact} {paths : List String}
    (hfact : s.freshFact? file = .ok (some fact)) :
    (s.replaceFact file fact).Askable paths ↔ s.Askable paths :=
  forall₂_congr fun _ _ => forall₂_congr fun _ _ => refreshable_replaceFact hfact

/-- A refresh that succeeds, path by path: the paths, the session before, the files whose facts
are replaced, and the session after. -/
inductive Refreshes : List String → Session → List String → Session → Prop
  | nil (s : Session) : Refreshes [] s [] s
  /-- A path outside of the project is passed over. -/
  | outside {path : String} {rest files : List String} {s t : Session}
      (hpath : s.normalize path = none) (hrest : Refreshes rest s files t) :
      Refreshes (path :: rest) s files t
  /-- A file without a new text keeps its fact. -/
  | kept {path file : String} {rest files : List String} {s t : Session}
      (hpath : s.normalize path = some file) (hfact : s.freshFact? file = .ok none)
      (hrest : Refreshes rest s files t) : Refreshes (path :: rest) s files t
  /-- A file with a new text gets another one, and the rest goes on from there. -/
  | replaced {path file : String} {rest files : List String} {fact : FileFact} {s t : Session}
      (hpath : s.normalize path = some file) (hfact : s.freshFact? file = .ok (some fact))
      (hrest : Refreshes rest (s.replaceFact file fact) files t) :
      Refreshes (path :: rest) s (file :: files) t

variable {paths files : List String}

/-- The paths that a refresh goes through when it succeeds. -/
theorem refreshes_iff : refreshEach paths s = (.ok files, t) ↔ Refreshes paths s files t := by
  constructor
  · intro h
    induction paths generalizing s files with
    | nil =>
      cases h
      exact .nil _
    | cons path rest ih =>
      unfold refreshEach at h
      split at h
      · next hpath => exact .outside hpath (ih h)
      · next file hpath =>
        split at h
        · cases h
        · next hfact => exact .kept hpath hfact (ih h)
        · next fact hfact =>
          obtain ⟨files', hrest, rfl⟩ := Outcome.of_map h
          exact .replaced hpath hfact (ih hrest)
  · intro h
    induction h with
    | nil s => rfl
    | outside hpath _ ih =>
      rw [refreshEach, hpath]
      exact ih
    | kept hpath hfact _ ih =>
      rw [refreshEach, hpath]
      simp only [hfact]
      exact ih
    | replaced hpath hfact _ ih =>
      rw [refreshEach, hpath]
      simp only [hfact, ih]
      rfl

/-- Paths of files that can be refreshed can be refreshed one after the other. -/
theorem exists_refreshes (paths : List String) (s : Session) (hask : s.Askable paths) :
    ∃ files t, Refreshes paths s files t := by
  induction paths generalizing s with
  | nil => exact ⟨[], s, .nil s⟩
  | cons path rest ih =>
    have hrest := ih s hask.tail
    cases hpath : s.normalize path with
    | none =>
      obtain ⟨files, t, hrest⟩ := hrest
      exact ⟨files, t, .outside hpath hrest⟩
    | some file =>
      obtain ⟨fact?, hfact⟩ := exists_freshFact?.2 (hask path (by simp) file hpath)
      cases fact? with
      | none =>
        obtain ⟨files, t, hrest⟩ := hrest
        exact ⟨files, t, .kept hpath hfact hrest⟩
      | some fact =>
        obtain ⟨files, t, hrest⟩ := ih _ ((askable_replaceFact hfact).2 hask.tail)
        exact ⟨file :: files, t, .replaced hpath hfact hrest⟩

theorem Refreshes.remembers (h : Refreshes paths s files t) : Remembers s t := by
  have hall := remembers_refreshEach paths s
  rwa [refreshes_iff.2 h] at hall

/-- A refresh puts the facts that its files would get into the graph. -/
theorem Refreshes.graph (h : Refreshes paths s files t) :
    t.graph = Project.addFacts s.factNow s.graph files := by
  induction h with
  | nil s => rfl
  | outside _ _ ih => exact ih
  | kept _ _ _ ih => exact ih
  | replaced _ hfact _ ih =>
    rw [ih, (remembers_replaceFact ..).factNow, graph_replaceFact, freshFact?_eq_some hfact]
    rfl

/-- Only files that are named are refreshed. -/
theorem Refreshes.named (h : Refreshes paths s files t) :
    ∀ file ∈ files, ∃ p ∈ paths, s.normalize p = some file := by
  induction h with
  | nil s => simp
  | outside _ _ ih => exact fun f hf => List.exists_mem_cons_of_exists (ih f hf)
  | kept _ _ _ ih => exact fun f hf => List.exists_mem_cons_of_exists (ih f hf)
  | replaced hpath _ _ ih =>
    intro f hf
    rcases List.mem_cons.1 hf with rfl | hf
    · exact List.exists_mem_cons_of _ hpath
    · exact List.exists_mem_cons_of_exists (ih f hf)

/-- Paths that were refreshed are those of files that could be. -/
theorem Refreshes.askable (h : Refreshes paths s files t) : s.Askable paths := by
  have hcons : ∀ {u : Session} {path f : String} {rest : List String} {fact? : Option FileFact},
      u.normalize path = some f → u.freshFact? f = .ok fact? → u.Askable rest →
        u.Askable (path :: rest) := by
    intro u path f rest fact? hpath hfact hrest p hp file hfile
    rcases List.mem_cons.1 hp with rfl | hp
    · cases hpath.symm.trans hfile
      exact exists_freshFact?.1 ⟨_, hfact⟩
    · exact hrest p hp file hfile
  induction h with
  | nil s => exact fun p hp => by cases hp
  | outside hpath _ ih =>
    intro p hp file hfile
    rcases List.mem_cons.1 hp with rfl | hp
    · cases hpath.symm.trans hfile
    · exact ih p hp file hfile
  | kept hpath hfact _ ih => exact hcons hpath hfact ih
  | replaced hpath hfact _ ih => exact hcons hpath hfact ((askable_replaceFact hfact).1 ih)

/-- A refresh keeps none from being refreshed. -/
theorem Refreshes.refreshable (h : Refreshes paths s files t) :
    t.Refreshable file ↔ s.Refreshable file := by
  induction h with
  | nil s => rfl
  | outside _ _ ih => exact ih
  | kept _ _ _ ih => exact ih
  | replaced _ hfact _ ih => exact ih.trans (refreshable_replaceFact hfact)

/-- **Where a refresh fails**: at the path of a file that cannot be refreshed, with the paths before
it refreshed. -/
theorem of_refreshEach_error {e : Failure} (h : refreshEach paths s = (.error e, t)) :
    ∃ before bad after files file, paths = before ++ bad :: after ∧
      Refreshes before s files t ∧ s.normalize bad = some file ∧
      t.freshFact? file = .error e := by
  induction paths generalizing s with
  | nil => cases h
  | cons path rest ih =>
    unfold refreshEach at h
    split at h
    · next hpath =>
      obtain ⟨before, bad, after, files, file, rfl, hrun, hfile⟩ := ih h
      exact ⟨path :: before, bad, after, files, file, rfl, .outside hpath hrun, hfile⟩
    · next first hpath =>
      split at h
      · next hfact =>
        cases h
        exact ⟨[], path, rest, [], first, rfl, .nil _, hpath, hfact⟩
      · next hfact =>
        obtain ⟨before, bad, after, files, file, rfl, hrun, hfile⟩ := ih h
        exact ⟨path :: before, bad, after, files, file, rfl, .kept hpath hfact hrun, hfile⟩
      · next fact hfact =>
        -- the rest fails in a session that differs in what is remembered only
        obtain ⟨before, bad, after, files, file, rfl, hrun, hfile⟩ := ih (Outcome.of_map_error h)
        exact ⟨path :: before, bad, after, first :: files, file, rfl, .replaced hpath hfact hrun,
          hfile⟩

/-- A refresh fails with a name that is too long if all its files can be named. -/
theorem exists_refreshEach_error {paths : List String} (hask : ¬ s.Askable paths)
    (hnul : ∀ p ∈ paths, ∀ file, s.normalize p = some file →
      Disk.hasNul (Path.append s.root file) = false) :
    ∃ t, refreshEach paths s = (.error .nameTooLong, t) := by
  rcases hrun : refreshEach paths s with ⟨result, t⟩
  cases result with
  | ok files => exact absurd (refreshes_iff.1 hrun).askable hask
  | error e =>
    obtain ⟨before, bad, after, files, file, rfl, hbefore, hfile, hfact⟩ :=
      of_refreshEach_error hrun
    have hroot : t.root = s.root := hbefore.remembers.sameAnalysis.root
    have hname := hnul bad (by simp) file hfile
    rw [← hroot] at hname
    rw [eq_nameTooLong_of_freshFact? hfact hname]
    exact ⟨t, rfl⟩

/-- Whether the fact of a file, if a refresh keeps it, compares well with the one that the
file would get. -/
def Judged (R : FileFact → FileFact → Prop) (s : Session) (file : String) : Prop :=
  s.freshFact? file = .ok none → s.Stands R file

theorem stands_of_addFacts (hR : Comparison R) (hst : Remembers s t)
    (hgraph : t.graph.fact? file = (Project.addFacts s.factNow s.graph files).fact? file)
    (h : s.Stands R file) : t.Stands R file := by
  rw [Project.fact?_addFacts] at hgraph
  unfold Stands at h ⊢
  rw [hst.factNow]
  split at hgraph
  · rw [heldFact_of_some hgraph]
    exact hR.refl _
  · rw [undated_heldFact_congr hgraph]
    exact h

/-- A fact that compares well goes on doing so. -/
theorem Refreshes.stands_of_stands (hR : Comparison R) (h : Refreshes paths s files t)
    (hstands : s.Stands R file) : t.Stands R file :=
  stands_of_addFacts hR h.remembers (by rw [h.graph]) hstands

theorem stands_replaceFact (hR : Comparison R) {fact : FileFact}
    (hfact : s.freshFact? file = .ok (some fact)) : (s.replaceFact file fact).Stands R file := by
  have hnew : (s.replaceFact file fact).graph.fact? file = some fact := by
    rw [graph_replaceFact, ImportGraph.fact?_upsert, if_pos rfl]
  unfold Stands
  rw [(remembers_replaceFact s file fact).factNow, heldFact_of_some hnew,
    freshFact?_eq_some hfact]
  exact hR.refl _

/-- Replacing the fact of another file changes nothing about this one. -/
theorem Judged.replaceFact {other : String} {fact : FileFact} (hne : other ≠ file)
    (h : s.Judged R file) : (s.replaceFact other fact).Judged R file := by
  have hsame : (s.replaceFact other fact).graph.fact? file = s.graph.fact? file := by
    rw [graph_replaceFact, ImportGraph.fact?_upsert, if_neg hne]
  have hst := remembers_replaceFact s other fact
  intro hkept
  have hstands := h ((freshFact?_congr hst hsame).symm.trans hkept)
  unfold Stands at hstands ⊢
  rw [undated_heldFact_congr hsame, hst.factNow]
  exact hstands

/-- **Step by step.** A refresh leaves every file that it names with a fact that compares
well, if facts are kept for a good reason. -/
theorem Refreshes.stands (hR : Comparison R) (h : Refreshes paths s files t)
    (hjudged : s.Judged R file) (hnamed : ∃ p ∈ paths, s.normalize p = some file) :
    t.Stands R file := by
  induction h with
  | nil s =>
    obtain ⟨p, hp, _⟩ := hnamed
    cases hp
  | outside hpath _ ih =>
    refine ih hjudged ((List.or_exists_of_exists_mem_cons hnamed).resolve_left ?_)
    simp [hpath]
  | @kept _ first _ _ _ _ hpath hfact hrest ih =>
    by_cases hfirst : first = file
    · subst hfirst
      exact hrest.stands_of_stands hR (hjudged hfact)
    · refine ih hjudged ((List.or_exists_of_exists_mem_cons hnamed).resolve_left ?_)
      simpa [hpath] using hfirst
  | @replaced _ first _ _ _ _ _ hpath hfact hrest ih =>
    by_cases hfirst : first = file
    · subst hfirst
      exact hrest.stands_of_stands hR (stands_replaceFact hR hfact)
    · refine ih (hjudged.replaceFact hfirst)
        ((List.or_exists_of_exists_mem_cons hnamed).resolve_left ?_)
      simpa [hpath] using hfirst

/-- **A refresh** of paths that can be read puts the facts of some of them into the graph,
and marks the entry points if there were any. -/
theorem refresh_ok (hR : Comparison R) (hinit : s.initialized = true) {paths : List String}
    (hask : s.Askable paths) :
    ∃ files t, s.refresh paths = (.ok files, t) ∧ Remembers s t ∧
      (∀ file ∈ files, ∃ p ∈ paths, s.normalize p = some file) ∧
      (t.graph = if files = [] then s.graph
        else (Project.addFacts s.factNow s.graph files).markEntryPoints) ∧
      (∀ f, t.graph.fact? f = (Project.addFacts s.factNow s.graph files).fact? f) ∧
      ∀ f, s.Judged R f → (∃ p ∈ paths, s.normalize p = some f) → t.Stands R f := by
  obtain ⟨files, t, hrun⟩ := exists_refreshes paths s hask
  have ht := hrun.remembers
  have hfiles := hrun.named
  have hgraph := hrun.graph
  have hrefresh : s.refresh paths = (.ok files,
      if files.isEmpty then t else { t with graph := t.graph.markEntryPoints }) := by
    unfold refresh ensureInitialized
    rw [if_pos hinit]
    show Outcome.andThen (refreshEach paths s) _ = _
    rw [refreshes_iff.2 hrun]
    rfl
  have hstands : ∀ f, s.Judged R f → (∃ p ∈ paths, s.normalize p = some f) → t.Stands R f :=
    fun f hjudged hnamed => hrun.stands hR hjudged hnamed
  cases files with
  | nil => exact ⟨[], t, hrefresh, ht, hfiles, hgraph, fun f => by rw [hgraph], hstands⟩
  | cons f rest =>
    refine ⟨f :: rest, _, hrefresh, ?_, hfiles, ?_, ?_, ?_⟩
    · rw [ht]
      rfl
    · rw [if_neg (List.cons_ne_nil f rest), ← hgraph]
      rfl
    · intro x
      rw [← hgraph]
      rfl
    · exact hstands

/-! ### Edits -/

/-- After an edit, a fact that is kept is kept for a good reason: the hash shows that the
text has stayed, or nothing could be read before and after. -/
theorem judged_of_edit (hR : Comparison R) (hgraph : t.graph = s.graph)
    (hstands : s.Stands R file)
    (hhash : ∀ old new, s.read file = .ok (some old) → t.read file = .ok (some new) →
      Digest.contentHash old = Digest.contentHash new → old = new)
    (hmoved : t.read file = s.read file → R (s.factNow file).undated (t.factNow file).undated) :
    t.Judged R file := by
  intro hkept
  have hheld : (t.heldFact file).undated = (s.heldFact file).undated :=
    undated_heldFact_congr (by rw [hgraph])
  unfold Stands
  rw [hheld]
  have hfact := contentHash_of_stands hR hstands
  rcases freshFact?_eq_none hkept with ⟨hnone, hold⟩ | ⟨text, old, htext, hold, hhash'⟩
  · -- the old fact has no hash, so the file could not be read before either
    have hempty : (s.factNow file).contentHash = "" := by
      rw [← hfact]
      cases hf : s.graph.fact? file with
      | none => rw [heldFact_of_none hf, FileFact.contentHash_none]
      | some old =>
        rw [heldFact_of_some hf]
        exact hold old (by rw [hgraph]; exact hf)
    have hbefore : s.factNow file = FileFact.none file s.now :=
      Project.contentHash_factOf_eq_empty hempty
    have hafter : t.factNow file = FileFact.none file t.now := Project.factOf_of_none hnone
    have hsame : (t.factNow file).undated = (s.factNow file).undated := by
      rw [hafter, hbefore, Project.undated_none]
    rw [hsame]
    exact hstands
  · -- the hash of the old fact is that of the text before
    rw [hgraph] at hold
    rw [heldFact_of_some hold, hhash'] at hfact
    have hne : (s.factNow file).contentHash ≠ "" := by
      rw [← hfact]
      exact Digest.contentHash_ne_empty text
    obtain ⟨before, hbefore, hsame⟩ := Project.exists_text_of_contentHash hne
    have hread : s.read file = .ok (some before) := hbefore
    have heq : before = text := hhash before text hread htext (hsame.trans hfact.symm)
    subst heq
    exact hR.trans hstands (hmoved (htext.trans hread.symm))

/-! ### Rounds -/

/-- Some files are edited, time goes by, and some paths are refreshed. -/
structure Round where
  disk : Disk
  now : Moment
  paths : List String

/-- What happens in a round. -/
def Round.operations (r : Round) : List Operation :=
  [.edit r.disk, .wait r.now, .refresh r.paths]

/-- The session in the middle of a round, before the refresh. -/
def edited (s : Session) (r : Round) : Session :=
  { s with host := { s.host with disk := r.disk }, now := r.now }

/-- The session after several rounds. -/
def afterRounds (s : Session) (rounds : List Round) : Session :=
  s.run (rounds.flatMap Round.operations)

theorem afterRounds_cons (s : Session) (r : Round) (rounds : List Round) :
    s.afterRounds (r :: rounds) = ((s.edited r).refresh r.paths).2.afterRounds rounds := by
  rw [afterRounds, run, List.flatMap_cons, List.foldl_append]
  rfl

/-- No refresh of the rounds fails. -/
def Succeeds : Session → List Round → Prop
  | _, [] => True
  | s, r :: rounds =>
    (∃ changed, ((s.edited r).refresh r.paths).1 = .ok changed) ∧
      Succeeds ((s.edited r).refresh r.paths).2 rounds

theorem sameAnalysis_edited (s : Session) (r : Round) : SameAnalysis s (s.edited r) :=
  ⟨rfl, rfl, rfl⟩

/-- Before the refresh, a fact compares well if changes elsewhere do not matter. -/
theorem stands_edited (hR : Comparison R) {r : Round} (h : s.Stands R file)
    (hmoved : R (s.factNow file).undated ((s.edited r).factNow file).undated) :
    (s.edited r).Stands R file := by
  have hheld : ((s.edited r).heldFact file).undated = (s.heldFact file).undated :=
    undated_heldFact_congr rfl
  unfold Stands
  rw [hheld]
  exact hR.trans h hmoved

/-- A file that a round cannot make wrong: it is refreshed if its text changes, the hash
shows that, and while its text stays, changes elsewhere leave it with a fact that still
compares well. -/
structure Tracked (R : FileFact → FileFact → Prop) (s : Session) (r : Round)
    (file : String) : Prop where
  covered : (s.edited r).read file ≠ s.read file →
    ∃ p ∈ r.paths, s.normalize p = some file
  hashed : ∀ old new, s.read file = .ok (some old) → (s.edited r).read file = .ok (some new) →
    Digest.contentHash old = Digest.contentHash new → old = new
  moved : (s.edited r).read file = s.read file →
    R (s.factNow file).undated ((s.edited r).factNow file).undated

/-- **Step.** After a round, the files that it cannot make wrong have facts that compare
well with those that they would get. -/
theorem stands_round (hR : Comparison R) (hinit : s.initialized = true) {r : Round}
    (hask : (s.edited r).Askable r.paths) :
    ∃ files t, (s.edited r).refresh r.paths = (.ok files, t) ∧ Remembers (s.edited r) t ∧
      (∀ file ∈ files, ∃ p ∈ r.paths, s.normalize p = some file) ∧
      (t.graph = if files = [] then s.graph
        else (Project.addFacts (s.edited r).factNow s.graph files).markEntryPoints) ∧
      ∀ file, Tracked R s r file → s.Stands R file → t.Stands R file := by
  have hinit' : (s.edited r).initialized = true := hinit
  obtain ⟨files, t, hrun, ht, hfiles, hgraph, hfacts, hjudged⟩ := refresh_ok hR hinit' hask
  refine ⟨files, t, hrun, ht, hfiles, hgraph, fun file htracked hstands => ?_⟩
  have hsame : (s.edited r).graph = s.graph := rfl
  by_cases hread : (s.edited r).read file = s.read file
  · have hedited := stands_edited hR hstands (htracked.moved hread)
    exact stands_of_addFacts hR ht (hfacts file) hedited
  · exact hjudged file (judged_of_edit hR hsame hstands htracked.hashed htracked.moved)
      (htracked.covered hread)

/-- The same with the marks that a refresh makes at its end. -/
theorem remembers_refresh (hinit : s.initialized = true) (paths : List String) :
    Remembers s (s.refresh paths).2 := by
  have heach := remembers_refreshEach paths s
  unfold refresh ensureInitialized
  rw [if_pos hinit]
  show Remembers s (Outcome.andThen (refreshEach paths s) _).2
  cases hrun : refreshEach paths s with
  | mk result t =>
    rw [hrun] at heach
    cases result with
    | error e => exact heach
    | ok changed =>
      show Remembers s (if changed.isEmpty then t else _)
      split
      · exact heach
      · exact heach.trans rfl

/-- One round changes nothing but the files, the time and what is remembered. -/
theorem remembers_round (hinit : s.initialized = true) (r : Round) :
    Remembers (s.edited r) ((s.edited r).refresh r.paths).2 :=
  remembers_refresh (s := s.edited r) hinit r.paths

theorem remembers_afterRounds (hinit : s.initialized = true) (r : Round) :
    Remembers (s.edited r) (s.afterRounds [r]) := by
  rw [afterRounds_cons]
  exact remembers_round hinit r

/-- A session stays set up. -/
theorem initialized_of_remembers {r : Round} (h : Remembers (s.edited r) t) :
    t.initialized = s.initialized := by
  rw [h]
  rfl

/-- The files after a round are those of the round. -/
theorem disk_afterRounds (hinit : s.initialized = true) (r : Round) :
    (s.afterRounds [r]).disk = r.disk := by
  rw [remembers_afterRounds hinit r]
  rfl

/-! ### Rounds with one file -/

/-- A round that touches one file of the project and refreshes it. -/
structure Touches (s : Session) (r : Round) (file : String) : Prop where
  sound : r.disk.Sound
  admits : s.Admits file
  apart : ∀ place, place ≠ placeOf s.root file → r.disk.bytes? place = s.disk.bytes? place
  paths : r.paths = [file]

section Touches

variable {r : Round} (h : Touches s r file) (hroot : ∀ n ∈ Path.components s.root, n ≠ "..")
  (hd : s.disk.Sound)

include h hroot hd

/-- No other file of the project changes. -/
theorem Touches.read_of_ne {other : String} (hother : s.Admits other) (hne : other ≠ file) :
    (s.edited r).read other = s.read other := by
  have hplace := hother.components_append s.root
  have hsame : Project.readSource s.disk s.root other s.config.maxFileSize =
      Project.readSource r.disk s.root other s.config.maxFileSize := by
    refine Project.readSource_congr hd h.sound ?_ ?_ _
    · rw [hplace]
      exact placeOf_inside hroot hother
    · rw [hplace]
      exact (h.apart _ fun heq => hne (h.admits.eq_of_placeOf hother heq.symm).symm).symm
  exact hsame.symm

/-- The settings of the project are in other files. -/
theorem Touches.sameSettings : SameSettings s.root s.disk r.disk := by
  have hlast : (placeOf s.root file).getLast? = some (Path.lastName file) := by
    rw [placeOf, List.getLast?_append, Path.lastName,
      List.getLast?_eq_some_getLast h.admits.ne_nil]
    rfl
  have hagree : Disk.AgreeOff [Path.lastName file] s.disk r.disk := by
    intro place hplace
    exact (h.apart place fun heq => hplace _ (by simp) (heq ▸ hlast)).symm
  refine sameSettings_of_agreeOff hroot hd h.sound hagree fun name hname hmem => ?_
  -- a file of settings is not a source file
  have hunsupported : ∀ name ∈ Project.settingsFiles, Source.isSupported name = false := by
    decide
  have hsupported := h.admits.supported
  rw [← List.mem_singleton.1 hmem, hunsupported name hname] at hsupported
  cases hsupported

end Touches

/-- The round that puts new bytes into a file of the project and refreshes it. -/
def overwrite (s : Session) (file : String) (bytes : ByteArray) (now : Moment) : Round where
  disk := s.disk.set (placeOf s.root file) (.file bytes)
  now
  paths := [file]

/-- The round that removes a file of the project and refreshes it. -/
def removal (s : Session) (file : String) (now : Moment) : Round where
  disk := s.disk.erase (placeOf s.root file)
  now
  paths := [file]

theorem touches_overwrite {bytes : ByteArray} {now : Moment}
    (hd' : (s.overwrite file bytes now).disk.Sound) (hfile : s.Admits file) :
    Touches s (s.overwrite file bytes now) file where
  sound := hd'
  admits := hfile
  apart := fun _ hne => Disk.bytes?_set_of_ne (hfile.placeOf_ne_nil s.root) (Ne.symm hne)
  paths := rfl

theorem touches_removal {now : Moment} (hd' : (s.removal file now).disk.Sound)
    (hfile : s.Admits file) : Touches s (s.removal file now) file where
  sound := hd'
  admits := hfile
  apart := fun _ hne => Disk.bytes?_erase_of_ne (Ne.symm hne)
  paths := rfl

/-- A file that is overwritten says what the bytes spell. -/
theorem of_read_overwrite {bytes : ByteArray} {now : Moment}
    (hd' : (s.overwrite file bytes now).disk.Sound) (hfile : s.Admits file) {new : String}
    (h : (s.edited (s.overwrite file bytes now)).read file = .ok (some new)) :
    ∃ text, String.fromUTF8? bytes = some text ∧ new = Text.lineFeeds text := by
  have hbytes : (s.overwrite file bytes now).disk.bytes?
      (Path.components (Path.append s.root file)) = some bytes := by
    rw [hfile.components_append, Disk.bytes?_eq_some_iff]
    exact (Disk.at?_set (hfile.placeOf_ne_nil s.root)).trans (if_pos rfl)
  have hread := (Project.readSource_of_bytes? hd' hbytes s.config.maxFileSize).symm.trans h
  split at hread
  · cases hread
  · split at hread
    · next found hfound =>
      obtain ⟨text, htext, rfl⟩ := Option.map_eq_some_iff.1 hfound
      rw [Except.ok.injEq] at hread
      split at hread
      · cases hread
      · exact ⟨text, htext, (Option.some.inj hread).symm⟩
    · cases hread

end RouteImpact.Session
