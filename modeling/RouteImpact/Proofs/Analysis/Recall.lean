import RouteImpact.Proofs.Analysis.Rebuild

namespace RouteImpact

open Relation (ReflTransGen)

/-!
# Refreshed sessions miss no route

Files come, change and go, and each is refreshed some time after it was touched.  Then a
session without a depth limit reports every route that a new build would report, as long
as no file that says what it said when its fact was extracted has come to resolve an import to
another file.

* `FileFact.Includes` — a fact that misses nothing of another one;
  `Impact.mem_routes_of_subgraph` — a graph that misses nothing misses no route;
* `Session.origins` — the disk on which the fact of each file was extracted;
* `Session.Sourced` — a session whose facts were extracted there; `Session.sourced_round` keeps
  it, `Session.sourced_rounds` for every history, in which each file that is named after it was
  touched gets a fact of its present text;
* `Session.includes_of_sourced` — such a fact misses nothing if imports stay where they
  were;
* `Session.reported_of_rebuild` — hence no route is missed.
-/

/-- A fact that misses no route and no import of another one. -/
structure FileFact.Includes (old new : FileFact) : Prop where
  routes : old.routes = new.routes
  imports : ∀ x ∈ new.resolvedImports, x ∈ old.resolvedImports

/-- The dates of facts do not matter. -/
theorem FileFact.Includes.of_undated {old old' new new' : FileFact} (h : old.Includes new)
    (hold : old'.undated = old.undated) (hnew : new'.undated = new.undated) :
    old'.Includes new' where
  routes := by
    rw [← routes_undated old', hold, routes_undated, h.routes, ← routes_undated new', hnew,
      routes_undated]
  imports := by
    intro x hx
    rw [← resolvedImports_undated, hnew, resolvedImports_undated] at hx
    rw [← resolvedImports_undated, hold, resolvedImports_undated]
    exact h.imports x hx

theorem FileFact.Includes.mem_targets {old new : FileFact} (h : old.Includes new) {file x : String}
    (hx : x ∈ ImportGraph.targets file new) : x ∈ ImportGraph.targets file old := by
  simp only [ImportGraph.targets, NameSet.mem_ofList, List.mem_filter] at hx ⊢
  exact ⟨h.imports x hx.1, hx.2⟩

namespace Impact

/-! ### Larger graphs -/

variable {g h : ImportGraph}

/-- **A larger graph misses no route** of a graph with exact edges. -/
theorem mem_routes_of_subgraph (hconsistent : g.Consistent) (hexact : h.Exact)
    (hedges : ∀ x, ∀ y ∈ h.importsOf x, y ∈ g.importsOf x)
    (hroutes : ∀ x r, Declares h x r → Declares g x r) {file r : String}
    (hr : r ∈ (searchFrom h none file).routes) : r ∈ (searchFrom g none file).routes := by
  have hsteps : ∀ a b, ImporterStep h a b → ImporterStep g a b := by
    intro a b hstep
    exact importerStep_of_mem_importsOf hconsistent (hedges b a ((hexact a b).1 hstep.1))
  rw [mem_routes_searchFrom] at hr ⊢
  obtain ⟨x, hreach, hdeclares⟩ := hr
  exact ⟨x, ReflTransGen.mono hsteps _ _ hreach, hroutes x r hdeclares⟩

end Impact

namespace Session

open Project (SameSettings)

variable {s : Session}

/-! ### Facts and where they come from -/

/-- The session with the files of another disk. -/
def on (s : Session) (d : Disk) : Session := s.apply (.edit d)

/-- A session whose facts were extracted each on its own disk. -/
structure Sourced (s : Session) (origin : String → Disk) : Prop where
  initialized : s.initialized = true
  sound : s.disk.Sound
  reflects : s.graph.Reflects
  consistent : s.graph.Consistent
  sourced : ∀ file, s.Admits file →
    (s.heldFact file).undated = ((s.on (origin file)).factNow file).undated

/-- Facts of one text. -/
def SameHash (old new : FileFact) : Prop := old.contentHash = new.contentHash

theorem sameHash_undated {old new : FileFact} (h : old.contentHash = new.contentHash) :
    SameHash old.undated new.undated := h

theorem comparison_sameHash : Comparison SameHash := ⟨fun _ => rfl, Eq.trans, id⟩

/-- A fact that is kept has the hash of the present text. -/
theorem judged_sameHash (s : Session) (file : String) : s.Judged SameHash file := by
  intro hkept
  refine sameHash_undated ?_
  rcases freshFact?_eq_none hkept with ⟨hnone, hold⟩ | ⟨text, old, htext, hold, hhash⟩
  · have hnow : s.factNow file = FileFact.none file s.now := Project.factOf_of_none hnone
    rw [hnow, FileFact.contentHash_none]
    cases hf : s.graph.fact? file with
    | none => rw [heldFact_of_none hf, FileFact.contentHash_none]
    | some old =>
      rw [heldFact_of_some hf]
      exact hold old hf
  · have hsource : Project.readSource s.disk s.root file s.extractor.maxFileSize =
        .ok (some text) := htext
    rw [heldFact_of_some hold, hhash, factNow, Project.factOf_of_some hsource,
      Extractor.contentHash_factOf hsource]

/-! ### Rounds of touched files -/

/-- A file that is refreshed in one of several rounds. -/
def NamedIn (s : Session) (file : String) (rounds : List Round) : Prop :=
  ∃ r ∈ rounds, ∃ p ∈ r.paths, s.normalize p = some file

/-- A round in which files come, change and go.  Each is named in this round or a later
one, and those that are named in it can be refreshed then. -/
structure TouchRound (s : Session) (r : Round) (later : List Round) : Prop where
  sound : r.disk.Sound
  settings : SameSettings s.root s.disk r.disk
  askable : (s.edited r).Askable r.paths
  named : ∀ file, s.Admits file → (s.edited r).read file ≠ s.read file →
    s.NamedIn file (r :: later)

/-- Such rounds, one after the other. -/
def TouchRounds : Session → List Round → Prop
  | _, [] => True
  | s, r :: rounds => TouchRound s r rounds ∧ TouchRounds ((s.edited r).refresh r.paths).2 rounds

/-- To touch one file that can be refreshed then is such a round. -/
theorem touchRound_of_touches {r : Round} {file : String} (h : Touches s r file)
    (hroot : ∀ n ∈ Path.components s.root, n ≠ "..") (hd : s.disk.Sound)
    (hrefreshable : (s.edited r).Refreshable file) (later : List Round) :
    TouchRound s r later := by
  have hnormal : s.normalize file = some file := h.admits.normalize s.root
  refine ⟨h.sound, h.sameSettings hroot hd, ?_, ?_⟩
  · intro p hp other hother
    rw [h.paths, List.mem_singleton] at hp
    rw [hp] at hother
    rw [Option.some.inj (hnormal.symm.trans hother)] at hrefreshable
    exact hrefreshable
  · intro other hother hread
    have heq : other = file := by
      by_contra hne
      exact hread (h.read_of_ne hroot hd hother hne)
    subst heq
    exact ⟨_, List.mem_cons_self, other, by rw [h.paths]; exact List.mem_singleton.2 rfl, hnormal⟩

theorem admits_congr {t : Session} (hroot : t.root = s.root)
    (hsettings : SameSettings s.root s.disk t.disk) (file : String) :
    t.Admits file ↔ s.Admits file := by
  rw [Admits, Admits, hroot, hsettings.ignorePatterns]

/-- Where the facts come from after a round: those that it replaces from its own disk. -/
def originsAfter (s : Session) (origin : String → Disk) (r : Round) : String → Disk := fun file =>
  if file ∈ ((s.edited r).refresh r.paths).1.toOption.getD [] then r.disk else origin file

/-- **The disk on which the fact of each file was extracted**, after several rounds. -/
def origins : Session → (String → Disk) → List Round → String → Disk
  | _, origin, [] => origin
  | s, origin, r :: rounds =>
    origins ((s.edited r).refresh r.paths).2 (s.originsAfter origin r) rounds

/-- **Step.** A round does not fail and keeps the facts sourced.  A file that it names gets
a fact of its present text, and one that it does not touch keeps such a fact. -/
theorem sourced_round {origin : String → Disk} {r : Round} {later : List Round}
    (hs : s.Sourced origin) (h : TouchRound s r later) :
    ∃ files t, (s.edited r).refresh r.paths = (.ok files, t) ∧
      t.Sourced (s.originsAfter origin r) ∧ SameAnalysis s t ∧ t.disk = r.disk ∧
      ∀ file, (∃ p ∈ r.paths, s.normalize p = some file) ∨
        ((s.edited r).read file = s.read file ∧ s.Stands SameHash file) →
        t.Stands SameHash file := by
  have hinit : (s.edited r).initialized = true := hs.initialized
  obtain ⟨files, t, hrun, ht, -, hgraph, hfacts, hjudged⟩ :=
    refresh_ok comparison_sameHash hinit h.askable
  have hanalysis : SameAnalysis s t := (sameAnalysis_edited s r).trans ht.sameAnalysis
  have hdisk : t.disk = r.disk := by
    rw [ht]
    rfl
  have horigin : ∀ file, s.originsAfter origin r file =
      if file ∈ files then r.disk else origin file := by
    intro file
    unfold originsAfter
    rw [hrun]
    rfl
  refine ⟨files, t, hrun, ?_, hanalysis, hdisk, ?_⟩
  · refine ⟨?_, by rw [hdisk]; exact h.sound, ?_, ?_, ?_⟩
    · rw [ht]
      exact hs.initialized
    · rw [hgraph]
      split
      · exact hs.reflects
      · exact (Project.reflects_addFacts hs.reflects files).markEntryPoints
    · rw [hgraph]
      split
      · exact hs.consistent
      · exact ImportGraph.consistent_markEntryPoints
          (Project.addFacts_induction hs.consistent fun g file _ hg =>
            ImportGraph.consistent_upsert hg file _)
    · intro file hfile
      have hfile' : s.Admits file :=
        (admits_congr hanalysis.root (by rw [hdisk]; exact h.settings) file).1 hfile
      have hfact := hfacts file
      rw [Project.fact?_addFacts] at hfact
      rw [horigin]
      by_cases hmem : file ∈ files
      · -- a new fact comes from the files of this round
        have hsame : SameAnalysis (t.on r.disk) t := ⟨rfl, rfl, rfl⟩
        rw [if_pos hmem] at hfact ⊢
        rw [heldFact_of_some hfact, ← ht.factNow, undated_factNow_of_disk hsame hdisk]
      · have hsame : SameAnalysis (s.on (origin file)) (t.on (origin file)) :=
          ⟨hanalysis.root, hanalysis.config, hanalysis.framework⟩
        rw [if_neg hmem] at hfact ⊢
        have hheld : (t.heldFact file).undated = (s.heldFact file).undated :=
          undated_heldFact_congr hfact
        rw [hheld, hs.sourced file hfile', undated_factNow_of_disk hsame rfl]
  · rintro file (hnamed | ⟨hread, hstands⟩)
    · exact hjudged file (judged_sameHash _ file) hnamed
    · have hedited := stands_edited comparison_sameHash hstands
        (sameHash_undated (contentHash_factNow_congr hread).symm)
      exact stands_of_addFacts comparison_sameHash ht (hfacts file) hedited

/-- **Run.** No round of a history fails, the facts stay sourced, and every file that is
named after it was touched has a fact of its present text. -/
theorem sourced_rounds {origin : String → Disk} {rounds : List Round} (hs : s.Sourced origin)
    (h : TouchRounds s rounds) :
    (s.afterRounds rounds).Sourced (s.origins origin rounds) ∧
      SameAnalysis s (s.afterRounds rounds) ∧
      SameSettings s.root s.disk (s.afterRounds rounds).disk ∧
      (∀ file, s.Admits file → s.Stands SameHash file ∨ s.NamedIn file rounds →
        (s.afterRounds rounds).Stands SameHash file) ∧
      s.Succeeds rounds := by
  induction rounds generalizing s origin with
  | nil =>
    refine ⟨hs, SameAnalysis.refl s, fun _ _ => rfl, ?_, trivial⟩
    rintro file - (hstands | ⟨r, hr, -⟩)
    · exact hstands
    · cases hr
  | cons r rounds ih =>
    obtain ⟨hround, hrest⟩ := h
    obtain ⟨files, t, hrun, ht, hanalysis, hdisk, hhash⟩ := sourced_round hs hround
    rw [hrun] at hrest
    obtain ⟨hsourced, hanalysis', hsettings, hhash', hok⟩ := ih ht hrest
    have hsame : SameSettings s.root s.disk t.disk := by
      rw [hdisk]
      exact hround.settings
    have hafter : s.afterRounds (r :: rounds) = t.afterRounds rounds := by
      rw [afterRounds_cons, hrun]
    have horigins : s.origins origin (r :: rounds) =
        t.origins (s.originsAfter origin r) rounds := by
      rw [origins, hrun]
    rw [hafter, horigins]
    refine ⟨hsourced, hanalysis.trans hanalysis', ?_, ?_, ?_⟩
    · rw [hanalysis.root] at hsettings
      exact hsame.trans hsettings
    · intro file hfile hready
      have hnormalize : t.normalize = s.normalize := by
        funext p
        rw [normalize, normalize, hanalysis.root]
      refine hhash' file ((admits_congr hanalysis.root hsame file).2 hfile) ?_
      unfold NamedIn
      rw [hnormalize]
      by_cases hlater : s.NamedIn file rounds
      · exact Or.inr hlater
      · -- nobody names the file later on, so its fact must be right after this round
        refine Or.inl (hhash file ?_)
        by_cases hnow : ∃ p ∈ r.paths, s.normalize p = some file
        · exact Or.inl hnow
        · have hunnamed : ¬ s.NamedIn file (r :: rounds) := by
            rintro ⟨r', hr', hp⟩
            rcases List.mem_cons.1 hr' with rfl | hr'
            · exact hnow hp
            · exact hlater ⟨r', hr', hp⟩
          refine Or.inr ⟨?_, hready.resolve_right hunnamed⟩
          by_contra hread
          exact hunnamed (hround.named file hfile hread)
    · unfold Succeeds
      rw [hrun]
      exact ⟨⟨files, rfl⟩, hok⟩

/-! ### Imports that stay -/

/-- A file from one disk to another: the hash of its text tells whether it has stayed, and if it
has, the file resolves no import to another file than before. -/
structure StaysResolved (s : Session) (d d' : Disk) (file : String) : Prop where
  hashed : ∀ old new, (s.on d).read file = .ok (some old) →
    (s.on d').read file = .ok (some new) → Digest.contentHash old = Digest.contentHash new →
    old = new
  imports : (s.on d').read file = (s.on d).read file →
    ∀ x ∈ ((s.on d').factNow file).resolvedImports, x ∈ ((s.on d).factNow file).resolvedImports

/-- On one disk everything stays. -/
theorem staysResolved_self (s : Session) (d : Disk) (file : String) : s.StaysResolved d d file where
  hashed := fun old new hold hnew _ => by
    rw [hold] at hnew
    exact Option.some.inj (Except.ok.inj hnew)
  imports := fun _ _ hx => hx

theorem StaysResolved.congr {t : Session} {d d' : Disk} {file : String}
    (h : s.StaysResolved d d' file) (hst : SameAnalysis s t) : t.StaysResolved d d' file := by
  have hread : ∀ d, (t.on d).read file = (s.on d).read file := by
    intro d
    show Project.readSource d t.root file t.config.maxFileSize = _
    rw [hst.root, hst.config]
    rfl
  have himports : ∀ d, ((t.on d).factNow file).resolvedImports =
      ((s.on d).factNow file).resolvedImports := by
    intro d
    have hon : SameAnalysis (s.on d) (t.on d) := ⟨hst.root, hst.config, hst.framework⟩
    rw [← FileFact.resolvedImports_undated, undated_factNow_of_disk hon rfl file,
      FileFact.resolvedImports_undated]
  refine ⟨fun old new hold hnew => ?_, fun hstayed x hx => ?_⟩
  · rw [hread] at hold hnew
    exact h.hashed old new hold hnew
  · rw [hread, hread] at hstayed
    rw [himports] at hx ⊢
    exact h.imports hstayed x hx

/-- A file with a fact of its present text misses nothing. -/
theorem includes_of_sourced {origin : String → Disk} {d' : Disk} {file : String}
    (hs : s.Sourced origin) (hstays : s.StaysResolved (origin file) d' file)
    (hadmits : s.Admits file) (hhash : s.Stands SameHash file)
    (hread : (s.on d').read file = s.read file) :
    (s.heldFact file).Includes ((s.on d').factNow file) := by
  have hsource := hs.sourced file hadmits
  generalize origin file = d at hstays hsource
  refine FileFact.Includes.of_undated ?_ hsource rfl
  have hsame : ((s.on d).factNow file).contentHash = ((s.on d').factNow file).contentHash := by
    rw [contentHash_factNow_congr hread, ← contentHash_of_stands comparison_sameHash hhash,
      ← FileFact.contentHash_undated, ← hsource, FileFact.contentHash_undated]
  by_cases hempty : ((s.on d').factNow file).contentHash = ""
  · -- a file that cannot be read says nothing
    have hnone : (s.on d').factNow file = FileFact.none file s.now :=
      Project.contentHash_factOf_eq_empty hempty
    have hnone' : (s.on d).factNow file = FileFact.none file s.now :=
      Project.contentHash_factOf_eq_empty (hsame.trans hempty)
    rw [hnone, hnone']
    exact ⟨rfl, fun x hx => hx⟩
  · obtain ⟨new, hnew, hnewHash⟩ := Project.exists_text_of_contentHash hempty
    have hne : ((s.on d).factNow file).contentHash ≠ "" := by
      rw [hsame]
      exact hempty
    obtain ⟨old, hold, holdHash⟩ := Project.exists_text_of_contentHash hne
    have htext : old = new := hstays.hashed old new hold hnew
      (holdHash.trans (hsame.trans hnewHash.symm))
    subst htext
    have hstayed : (s.on d').read file = (s.on d).read file := hnew.trans hold.symm
    refine ⟨?_, hstays.imports hstayed⟩
    have hanalysis : SameAnalysis (s.on d) (s.on d') := ⟨rfl, rfl, rfl⟩
    exact (routes_factNow_congr hanalysis hstayed).symm

/-! ### Builds -/

/-- **A forced build** has facts of the disk on which it was made. -/
theorem sourced_built (hroot : ∀ n ∈ Path.components s.root, n ≠ "..") (hd : s.disk.Sound)
    {files : List String} {summary : Project.Summary}
    (hfiles : Project.discover s.disk s.root (Project.ignorePatterns s.disk s.root) = .ok files) :
    (s.built files summary).Sourced (fun _ => s.disk) ∧
      ∀ file, s.Admits file → (s.built files summary).Stands SameHash file := by
  obtain ⟨hd', hagree⟩ := footprint_built s files summary hd
  obtain ⟨hreflects, hexact, -, -⟩ := reflects_built s files summary
  have hsettings := sameSettings_of_agreeOff hroot hd hd' hagree (by decide)
  refine ⟨⟨rfl, hd', hreflects, fun a b hb => (hexact b a).2 hb, ?_⟩, ?_⟩
  · intro file hfile
    have hroot' : (s.built files summary).root = s.root := rfl
    have hadmits : s.Admits file := (admits_congr hroot' hsettings file).1 hfile
    -- the fact is the one that was extracted, whatever the file would get now
    have hnow : (s.factNow file).undated = (s.factNow file).undated := rfl
    have hheld : ((s.built files summary).heldFact file).undated = (s.factNow file).undated :=
      stands_built (R := fun held _ => held = (s.factNow file).undated) hroot hd hfiles hadmits
        hnow
    refine hheld.trans ?_
    have hsame : SameAnalysis ((s.built files summary).on s.disk) s := ⟨rfl, rfl, rfl⟩
    exact undated_factNow_of_disk hsame rfl file
  · intro file hadmits
    have hread : (s.built files summary).read file = s.read file :=
      read_of_agreeOff (sameAnalysis_built ..) hroot hd hd' hagree hadmits
    exact stands_built hroot hd hfiles hadmits
      (sameHash_undated (contentHash_factNow_congr hread).symm)

/-- The same, from the session that is built. -/
theorem sourced_setUp {s₀ : Session} (hbatch : 0 < s₀.config.batchSize)
    (hroot : ∀ n ∈ Path.components s₀.root, n ≠ "..") (hd : s₀.disk.Sound)
    (h : s₀.setUp true = (.ok (), s)) :
    s.Sourced (fun _ => s₀.clearCache.disk) ∧ (∀ file, s.Admits file → s.Stands SameHash file) ∧
      SameSettings s₀.root s₀.disk s.disk ∧
      Project.detectFramework s₀.disk s₀.root = .ok s.framework := by
  obtain ⟨hds, hagree⟩ := footprint_setUp hbatch hd h
  obtain ⟨framework, files, summary, hframework, hfiles, -, rfl⟩ := of_setUp_force hbatch h
  obtain ⟨hdc, hagree'⟩ := footprint_cleared s₀ framework hd
  obtain ⟨hsourced, hhash⟩ := sourced_built (s := s₀.cleared framework) hroot hdc hfiles
  obtain ⟨-, hagree''⟩ := footprint_built (s₀.cleared framework) files summary hdc
  have hsettings := sameSettings_of_agreeOff hroot hdc hds hagree'' (by decide)
  have hroot' : ((s₀.cleared framework).built files summary).root =
    (s₀.cleared framework).root := rfl
  refine ⟨hsourced, fun file hfile => hhash file ((admits_congr hroot' hsettings file).1 hfile),
    sameSettings_of_agreeOff hroot hd hds hagree (by decide), hframework⟩

/-! ### Comparison with a new build -/

/-- **A session of present facts and a build.** The session reaches every route that the
build reaches. -/
theorem mem_routes_of_built {origin : String → Disk} {c : Session} (hs : s.Sourced origin)
    (hroot : ∀ n ∈ Path.components s.root, n ≠ "..")
    (hhash : ∀ file, s.Admits file → s.Stands SameHash file) (hanalysis : SameAnalysis s c)
    (hc : c.disk.Sound) (hagree : Disk.AgreeOff Snapshot.fileNames s.disk c.disk)
    (hstays : ∀ file, s.Discoverable file → s.StaysResolved (origin file) c.disk file)
    {files : List String} {summary : Project.Summary}
    (hfiles : Project.discover c.disk c.root (Project.ignorePatterns c.disk c.root) = .ok files)
    {file r : String}
    (hr : r ∈ (Impact.searchFrom (c.built files summary).graph none file).routes) :
    r ∈ (Impact.searchFrom s.graph none file).routes := by
  have hsettings := sameSettings_of_agreeOff hroot hs.sound hc hagree (by decide)
  obtain ⟨hreflects, hexact, -, -⟩ := reflects_built c files summary
  have hincludes : ∀ x fact, (c.built files summary).graph.fact? x = some fact →
      (s.heldFact x).Includes fact := by
    intro x fact hfact
    rw [fact?_built] at hfact
    split at hfact
    · next hmem =>
      cases hfact
      have hfound : s.Discoverable x :=
        (discoverable_of_agreeOff hroot hanalysis.root hs.sound hc hagree x).1 ⟨files, hfiles, hmem⟩
      have hadmits : s.Admits x := ((discoverable_iff hs.sound).1 hfound).1
      have hon : SameAnalysis s (s.on c.disk) := ⟨rfl, rfl, rfl⟩
      have hread : (s.on c.disk).read x = s.read x :=
        read_of_agreeOff hon hroot hs.sound hc hagree hadmits
      have hheld := includes_of_sourced hs (hstays x hfound) hadmits (hhash x hadmits) hread
      -- the fact of the build differs in its date only
      have hsame : (c.factNow x).undated = ((s.on c.disk).factNow x).undated :=
        undated_factNow_of_disk (hon.symm.trans hanalysis) rfl x
      exact hheld.of_undated rfl hsame
    · cases hfact
  refine Impact.mem_routes_of_subgraph hs.consistent hexact ?_ ?_ hr
  · intro x y hy
    rw [hreflects.imports] at hy
    cases hf : (c.built files summary).graph.fact? x with
    | none =>
      rw [hf] at hy
      exact absurd hy (NameSet.not_mem_empty y)
    | some fact =>
      rw [hf] at hy
      exact mem_importsOf_of_heldFact hs.reflects ((hincludes x fact hf).mem_targets hy)
  · intro x r hdeclares
    obtain ⟨fact, hf, hr⟩ := (Impact.declares_iff_of_reflects hreflects).1 hdeclares
    refine declares_of_heldFact hs.reflects ?_
    rw [FileFact.routePaths, (hincludes x fact hf).routes]
    exact hr

/-- What a session without a depth limit answers about a file that it need not refresh. -/
theorem reported_iff (hinit : s.initialized = true) (hcoherent : CoherentAt none s)
    {p file : String} (hnormal : s.normalize p = some file)
    (hnul : Disk.hasNul (Path.append s.root file) = false) (hhash : s.Stands SameHash file) :
    ∃ found, (s.detectRoutes [p] false).1 = .ok found ∧
      ∀ r, r ∈ (found.get? p).getD [] ↔ r ∈ (Impact.searchFrom s.graph none file).routes := by
  have hkept := freshFact?_of_contentHash (contentHash_of_stands comparison_sameHash hhash) hnul
  obtain ⟨found, t, hfound, hroutes⟩ := detectRoutes_one_of_kept hinit hnormal hkept
  refine ⟨found, by rw [hfound], fun r => ?_⟩
  rw [hroutes, impactOf_of_coherent hcoherent, Impact.fst_impactOf_empty]
  rfl

/-- **A forced build on the files of a session of present facts** succeeds if there are any,
and reaches no route that the session does not reach. -/
theorem setUp_of_sourced {origin : String → Disk} (t₀ : Session) (hs : s.Sourced origin)
    (hroot : ∀ n ∈ Path.components s.root, n ≠ "..") (hbatch : 0 < t₀.config.batchSize)
    (hhash : ∀ file, s.Admits file → s.Stands SameHash file)
    (hsame : t₀.root = s.root ∧ t₀.config = s.config ∧ t₀.disk = s.disk)
    (hframework : Project.detectFramework t₀.disk t₀.root = .ok s.framework)
    (hstays : ∀ file, s.Discoverable file →
      s.StaysResolved (origin file) t₀.clearCache.disk file) :
    ((∃ file, s.Discoverable file) →
      (∀ file, s.Discoverable file → (s.on t₀.clearCache.disk).Extractable file) →
      ∃ t, t₀.setUp true = (.ok (), t)) ∧
    ∀ t, t₀.setUp true = (.ok (), t) → t.root = s.root ∧ t.initialized = true ∧
      (∀ file, s.Discoverable file → t.Stands SameHash file) ∧
      ∀ file, ∀ r ∈ (Impact.searchFrom t.graph none file).routes,
        r ∈ (Impact.searchFrom s.graph none file).routes := by
  obtain ⟨hsroot, hsconfig, hsdisk⟩ := hsame
  have hd : t₀.disk.Sound := by
    rw [hsdisk]
    exact hs.sound
  have hinside : ∀ n ∈ Path.components t₀.root, n ≠ ".." := by
    rw [hsroot]
    exact hroot
  have hdiscoverable : ∀ file, t₀.Discoverable file ↔ s.Discoverable file := by
    intro file
    rw [Discoverable, Discoverable, hsroot, hsdisk]
  refine ⟨?_, ?_⟩
  · rintro ⟨file, hfile⟩ hall
    have hedit : SameAnalysis (s.on t₀.clearCache.disk) (t₀.cleared s.framework) :=
      ⟨hsroot, hsconfig, rfl⟩
    exact setUp_force_ok hbatch hinside hd hframework ((hdiscoverable file).2 hfile) fun f hf =>
      (extractable_congr hedit rfl f).2 (hall f ((hdiscoverable f).1 hf))
  · intro t ht
    obtain ⟨hroot', -, hinit⟩ := frame_setUp hbatch ht
    obtain ⟨hsourced, hhash', -, -⟩ := sourced_setUp hbatch hinside hd ht
    refine ⟨hroot'.trans hsroot, hinit, fun file hfile => hhash' file ?_, ?_⟩
    · have hfile' : t.Discoverable file :=
        (discoverable_setUp hbatch hinside hd ht file).2 ((hdiscoverable file).2 hfile)
      exact ((discoverable_iff hsourced.sound).1 hfile').1
    · obtain ⟨framework, files, summary, hfound, hfiles, -, rfl⟩ := of_setUp_force hbatch ht
      rw [hframework] at hfound
      cases hfound
      obtain ⟨hdc, hagree⟩ := footprint_cleared t₀ s.framework hd
      rw [hsdisk] at hagree
      have hanalysis : SameAnalysis s (t₀.cleared s.framework) := ⟨hsroot, hsconfig, rfl⟩
      exact fun file r => mem_routes_of_built hs hroot hhash hanalysis hdc hagree hstays hfiles

/-- **No missed routes.** Take a session without a depth limit that was built by force, and
any history in which files of the project come, change and go, each is named in a refresh of the
same round or a later one, and what is named can be refreshed.  Then no refresh fails, and
whenever a new session on the files of the end is built by force, every route that it reports for
a file of the project is reported by the old session; the build succeeds if there is a file and
all imports can be resolved.  The condition is that a file which says at the end what it said
when its fact was extracted resolves no import to another file than it did then: neither a file
that came nor the persisted graph may be in its way. -/
theorem reported_of_rebuild {root : String} {config : Settings.Config} {host : Host}
    {now : Moment} {s₀ s : Session} (hconfig : config.fault? = none)
    (hdepth : config.earlyStopDepth = none) (hroot : ∀ n ∈ Path.components root, n ≠ "..")
    (hsound : host.disk.Sound) (hstart : start root config host now = .ok s₀)
    (hbuilt : s₀.setUp true = (.ok (), s)) {rounds : List Round} (hrounds : TouchRounds s rounds)
    {host' : Host} (hdisk : host'.disk = (s.afterRounds rounds).disk)
    (hstays : ∀ file, (s.afterRounds rounds).Discoverable file →
      s.StaysResolved (s.origins (fun _ => (Snapshot.delete host s.key).disk) rounds file)
        (Snapshot.delete host' s.key).disk file)
    (now' : Moment) :
    s.Succeeds rounds ∧
    ∃ t₀, start root config host' now' = .ok t₀ ∧
      ((∃ file, (s.afterRounds rounds).Discoverable file) →
        (∀ file, (s.afterRounds rounds).Discoverable file →
          ((s.afterRounds rounds).on (Snapshot.delete host' s.key).disk).Extractable file) →
        ∃ t, t₀.setUp true = (.ok (), t)) ∧
      ∀ t, t₀.setUp true = (.ok (), t) →
        ∀ p file, s.normalize p = some file → (s.afterRounds rounds).Discoverable file →
          ∃ fresh found, (t.detectRoutes [p] false).1 = .ok fresh ∧
            ((s.afterRounds rounds).detectRoutes [p] false).1 = .ok found ∧
            ∀ r ∈ (fresh.get? p).getD [], r ∈ (found.get? p).getD [] := by
  have hs₀ := started_of_start hstart
  have hbatch := hs₀.batchSize_pos hconfig
  have hkey : s.key = s₀.key := by
    obtain ⟨framework, files, summary, -, -, -, rfl⟩ := of_setUp_force hbatch hbuilt
    rfl
  rw [hkey, ← hs₀.host] at hstays
  rw [hkey]
  rw [← hs₀.root] at hroot
  rw [← hs₀.host] at hsound
  -- the first build and the rounds
  obtain ⟨hsourced, hhash, hsettings, hframework⟩ := sourced_setUp hbatch hroot hsound hbuilt
  obtain ⟨hsourced', hanalysis, hsettings', hhash', hok⟩ := sourced_rounds hsourced hrounds
  have hadmits : ∀ file, (s.afterRounds rounds).Admits file → s.Admits file :=
    fun file => (admits_congr hanalysis.root hsettings' file).1
  have hpresent : ∀ file, (s.afterRounds rounds).Admits file →
      (s.afterRounds rounds).Stands SameHash file := fun file hfile =>
    hhash' file (hadmits file hfile) (Or.inl (hhash file (hadmits file hfile)))
  -- the new session differs from the old one, before it was built, in its host and time
  obtain ⟨hstart', hsroot, hsconfig, hframework'⟩ := start_again hstart hbatch hbuilt hsettings
    hframework hanalysis hsettings' hdisk now'
  refine ⟨hok, _, hstart', ?_⟩
  obtain ⟨hsucceeds, hbuild⟩ := setUp_of_sourced { s₀ with host := host', now := now' }
    hsourced' (hsroot ▸ hroot) hbatch hpresent ⟨hsroot, hsconfig, hdisk⟩ hframework'
    fun file hfile => (hstays file hfile).congr hanalysis
  refine ⟨hsucceeds, fun t ht p file hnormal hfile => ?_⟩
  obtain ⟨htroot, hinit, hthash, hroutes⟩ := hbuild t ht
  -- neither session refreshes the file before it answers, or answers from a stale cache
  have hnul := hfile.hasNul hsourced'.sound
  have hcoherent := coherentAt_afterRounds hstart hbuilt rounds
  have hcoherent' : CoherentAt config.earlyStopDepth t := coherentAt_afterRounds hstart' ht []
  rw [hdepth] at hcoherent hcoherent'
  have hnormal' : (s.afterRounds rounds).normalize p = some file := by
    rw [normalize, hanalysis.root]
    exact hnormal
  have hnormal'' : t.normalize p = some file := by
    rw [normalize, htroot]
    exact hnormal'
  obtain ⟨fresh, hfresh, hreported⟩ := reported_iff hinit hcoherent' hnormal''
    (by rw [htroot]; exact hnul) (hthash file hfile)
  obtain ⟨found, hfound, hreported'⟩ := reported_iff hsourced'.initialized hcoherent hnormal'
    hnul (hpresent file ((discoverable_iff hsourced'.sound).1 hfile).1)
  refine ⟨fresh, found, hfresh, hfound, fun r hr => ?_⟩
  exact (hreported' r).2 (hroutes file r ((hreported r).1 hr))

/-! ### A file that goes and comes back -/

/-- The file that the page imports is removed. -/
def goneRound : Round := pagedSession.removal "x.js" Number.Binary64.zero

/-- The session after that. -/
def goneSession : Session := ((pagedSession.edited goneRound).refresh goneRound.paths).2

/-- The file comes back. -/
def backRound : Round := goneSession.overwrite "x.js" "".toUTF8 Number.Binary64.zero

/-- The session at the end. -/
def backSession : Session := pagedSession.afterRounds [goneRound, backRound]

theorem remembers_goneSession : Remembers (pagedSession.edited goneRound) goneSession := by
  rw [goneSession]
  exact remembers_round initialized_pagedSession goneRound

theorem disk_goneSession : goneSession.disk = goneRound.disk := by
  rw [remembers_goneSession]
  rfl

theorem sound_goneSession : goneSession.disk.Sound := by
  rw [disk_goneSession, goneRound, removal, disk_pagedSession]
  decide

/-- At the end the files are as they were. -/
theorem disk_backRound : backRound.disk = pagedDisk := by
  have hroot : goneSession.root = "/p" :=
    remembers_goneSession.sameAnalysis.root.trans root_pagedSession
  rw [backRound, overwrite, disk_goneSession, hroot, goneRound, removal, disk_pagedSession,
    root_pagedSession]
  rfl

theorem touchRounds_backSession : TouchRounds pagedSession [goneRound, backRound] := by
  have hgone : Touches pagedSession goneRound "x.js" := by
    refine touches_removal ?_ admits_pagedSession.2
    show goneRound.disk.Sound
    rw [← disk_goneSession]
    exact sound_goneSession
  have hsettings := hgone.sameSettings inside_pagedSession sound_pagedSession
  have hroot : goneSession.root = pagedSession.root := remembers_goneSession.sameAnalysis.root
  rw [← disk_goneSession] at hsettings
  have hadmits : goneSession.Admits "x.js" :=
    (admits_congr hroot hsettings "x.js").2 admits_pagedSession.2
  have hback : Touches goneSession backRound "x.js" := by
    refine touches_overwrite ?_ hadmits
    show backRound.disk.Sound
    rw [disk_backRound]
    exact sound_pagedStart
  have hinside : ∀ n ∈ Path.components goneSession.root, n ≠ ".." := by
    rw [hroot]
    exact inside_pagedSession
  refine ⟨touchRound_of_touches hgone inside_pagedSession sound_pagedSession ?_ [backRound],
    touchRound_of_touches hback hinside sound_goneSession ?_ [], trivial⟩
  · exact refreshable_of_extractable (by decide) (extractable_of_loadNow (by decide +kernel))
  · have hnul : Disk.hasNul (Path.append (goneSession.edited backRound).root "x.js") = false := by
      rw [(sameAnalysis_edited goneSession backRound).root, hroot, root_pagedSession]
      decide
    exact refreshable_of_extractable hnul (extractable_of_loadNow (by decide +kernel))

theorem remembers_backSession : Remembers (goneSession.edited backRound) backSession := by
  have hinit : goneSession.initialized = true :=
    (initialized_of_remembers remembers_goneSession).trans initialized_pagedSession
  rw [backSession, afterRounds_cons, ← goneSession]
  exact remembers_afterRounds hinit backRound

theorem disk_backSession : backSession.disk = pagedDisk := by
  rw [remembers_backSession, ← disk_backRound]
  rfl

/-- Only the fact of the file that comes back is replaced, and it is replaced last when the files
are as they were. -/
theorem origins_backSession (file : String) :
    pagedSession.origins (fun _ => pagedDisk) [goneRound, backRound] file = pagedDisk := by
  have hgone : ((pagedSession.edited goneRound).refresh goneRound.paths).1.toOption =
      some ["x.js"] := by
    decide +kernel
  have hback : ((goneSession.edited backRound).refresh backRound.paths).1.toOption =
      some ["x.js"] := by
    decide +kernel
  rw [origins, origins, origins, ← goneSession]
  simp only [originsAfter, hgone, hback, Option.getD_some, List.mem_singleton, disk_backRound]
  split
  · rfl
  · rfl

/-- The route of the page is reported for the file by a new session, and by one that has seen the
file go and come back. -/
theorem reported_of_rebuild_backSession :
    start "/p" pruningConfig pagedHost Number.Binary64.zero = .ok pagedStart ∧
      pagedStart.setUp true = (.ok (), pagedSession) ∧
      ∃ fresh found, (pagedSession.detectRoutes ["x.js"] false).1 = .ok fresh ∧
        (backSession.detectRoutes ["x.js"] false).1 = .ok found ∧
        fresh.get? "x.js" = some ["/a"] ∧
        ∀ r ∈ (fresh.get? "x.js").getD [], r ∈ (found.get? "x.js").getD [] := by
  have hstays : ∀ file, backSession.Discoverable file →
      pagedSession.StaysResolved (pagedSession.origins
        (fun _ => (Snapshot.delete pagedHost pagedSession.key).disk) [goneRound, backRound] file)
        (Snapshot.delete pagedHost pagedSession.key).disk file := by
    intro file _
    show pagedSession.StaysResolved (pagedSession.origins (fun _ => pagedDisk) _ file) pagedDisk
      file
    rw [origins_backSession]
    exact staysResolved_self ..
  obtain ⟨-, t₀, hstart, -, hreported⟩ := reported_of_rebuild (by decide) rfl root_pagedStart
    sound_pagedStart start_pagedStart setUp_pagedStart touchRounds_backSession
    disk_backSession.symm hstays Number.Binary64.zero
  cases start_pagedStart.symm.trans hstart
  have hnormal : pagedSession.normalize "x.js" = some "x.js" :=
    admits_pagedSession.2.normalize pagedSession.root
  have hfound : backSession.Discoverable "x.js" := by
    have hanalysis : SameAnalysis pagedSession backSession :=
      ((sameAnalysis_edited ..).trans remembers_goneSession.sameAnalysis).trans
        ((sameAnalysis_edited ..).trans remembers_backSession.sameAnalysis)
    rw [Discoverable, hanalysis.root, disk_backSession, ← disk_pagedSession]
    exact discoverable_pagedSession.2
  obtain ⟨fresh, found, hfresh, hfound, hsubset⟩ :=
    hreported pagedSession setUp_pagedStart "x.js" "x.js" hnormal hfound
  have hroutes : (pagedSession.detectRoutes ["x.js"] false).1.toOption.bind (·.get? "x.js") =
      some ["/a"] := by
    decide +kernel
  rw [hfresh] at hroutes
  exact ⟨start_pagedStart, setUp_pagedStart, fresh, found, hfresh, hfound, hroutes, hsubset⟩

end Session

end RouteImpact
