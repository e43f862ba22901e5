import Mathlib.Tactic.ByContra
import RouteImpact.Proofs.Analysis.Answers

namespace RouteImpact.Session

open Project (SameSettings placeOf)

/-!
# Refreshing is rebuilding

When only the contents of files change and every changed file is refreshed, a session that
prunes stays what a new build would make, however long its history.

* `Current` — a session whose graph says what the files of the project say;
* `ContentRound`, `ContentRounds` — rounds that change contents and refresh what they
  change;
* `current_built` — a forced build makes a session current, `current_round` — a round keeps
  it so, `current_rounds` — and so does every history of rounds;
* `afterRounds_eq_rebuild` — hence nodes, facts and answers are those of a new build.

The persisted graph may itself be a file of the project.  A build removes it before it
looks at the files and writes it afterwards, so the statements ask that no import is moved
by this (`ResolvesAlike`); `exists_import_of_snapshot` shows what happens otherwise.
-/

variable {s : Session}

/-- A session whose graph says what the files of the project say. -/
structure Current (s : Session) : Prop where
  initialized : s.initialized = true
  sound : s.disk.Sound
  prunes : s.graph.prune = true
  reflects : s.graph.Reflects
  edges : s.graph.Exact
  marked : s.graph.Marked
  known : ∀ file, (s.graph.fact? file).isSome = true ↔ s.Discoverable file
  settled : ∀ file, s.Discoverable file → s.Settled file
  extractable : ∀ file, s.Discoverable file → s.Extractable file

/-- The imports of the project's files resolve on another disk as they do on the present
one, or fail to. -/
def ResolvesAlike (s : Session) (d : Disk) : Prop :=
  ∀ file, s.Discoverable file →
    ((s.apply (.edit d)).loadNow file).map (·.imports) = (s.loadNow file).map (·.imports)

theorem resolvesAlike_self (s : Session) : s.ResolvesAlike s.disk := fun _ _ => rfl

theorem ResolvesAlike.extractable_iff {d : Disk} (h : s.ResolvesAlike d) {file : String}
    (hfile : s.Discoverable file) : (s.apply (.edit d)).Extractable file ↔ s.Extractable file := by
  have hload := h file hfile
  rw [← exists_loadNow, ← exists_loadNow]
  cases ha : (s.apply (.edit d)).loadNow file <;> cases hb : s.loadNow file <;>
    simp [ha, hb, Except.map] at hload ⊢

theorem ResolvesAlike.imports_eq {d : Disk} (h : s.ResolvesAlike d) {file : String}
    (hfile : s.Discoverable file) (hextractable : s.Extractable file) :
    ((s.apply (.edit d)).factNow file).imports = (s.factNow file).imports := by
  have hload := h file hfile
  rw [loadNow_eq_ok.2 ⟨hextractable, rfl⟩,
    loadNow_eq_ok.2 ⟨(h.extractable_iff hfile).2 hextractable, rfl⟩] at hload
  exact Except.ok.inj hload

/-! ### Builds -/

/-- A build makes a session current. -/
theorem current_built (hroot : ∀ n ∈ Path.components s.root, n ≠ "..") (hd : s.disk.Sound)
    (hprune : s.graph.prune = true) {files : List String} {summary : Project.Summary}
    (hfiles : Project.discover s.disk s.root (Project.ignorePatterns s.disk s.root) = .ok files)
    (hall : ∀ file ∈ files, s.Extractable file)
    (hapart : (s.built files summary).ResolvesAlike s.disk) :
    (s.built files summary).Current := by
  obtain ⟨hd', hagree⟩ := footprint_built s files summary hd
  have hdiscoverable :=
    discoverable_of_agreeOff (t := s.built files summary) hroot rfl hd hd' hagree
  obtain ⟨hreflects, hexact, -, hmarked⟩ := reflects_built s files summary
  have hmem : ∀ file, file ∈ files ↔ s.Discoverable file := fun file =>
    ⟨fun h => ⟨files, hfiles, h⟩, fun ⟨files', h, hmem⟩ => by
      rw [hfiles] at h
      cases h
      exact hmem⟩
  -- on the disk of the build the imports are those that went into the graph
  have hextractable : ∀ file, (s.built files summary).Discoverable file →
      (s.built files summary).Extractable file := fun file hfile =>
    (hapart.extractable_iff hfile).1 (hall file ((hmem file).2 ((hdiscoverable file).1 hfile)))
  refine ⟨rfl, hd', ?_, hreflects, hexact, hmarked, ?_, ?_, hextractable⟩
  · rw [graph_built]
    show (Project.addFacts s.factNow { prune := s.graph.prune } files).prune = true
    rw [Project.prune_addFacts]
    exact hprune
  · intro file
    rw [hdiscoverable, ← hmem, fact?_built]
    by_cases h : file ∈ files <;> simp [h]
  · intro file hfile
    have hadmits := ((discoverable_iff hd).1 ((hdiscoverable file).1 hfile)).1
    have himports : (s.factNow file).imports = ((s.built files summary).factNow file).imports :=
      hapart.imports_eq hfile (hextractable file hfile)
    have hread : (s.built files summary).read file = s.read file :=
      read_of_agreeOff (sameAnalysis_built ..) hroot hd hd' hagree hadmits
    exact stands_built hroot hd hfiles hadmits
      (undated_factNow (sameAnalysis_built ..) hread himports.symm).symm

/-! ### Rounds of new contents -/

/-- A round that changes contents only, names files of the project, and among them all
whose text it changes; the hash of a changed text shows the change, and its imports can be
resolved. -/
structure ContentRound (s : Session) (r : Round) : Prop where
  sound : r.disk.Sound
  shape : s.disk.SameShape r.disk
  settings : SameSettings s.root s.disk r.disk
  named : ∀ p ∈ r.paths, ∃ file, s.normalize p = some file ∧ s.Discoverable file
  covered : ∀ file, s.Discoverable file → (s.edited r).read file ≠ s.read file →
    ∃ p ∈ r.paths, s.normalize p = some file
  hashed : ∀ file old new, s.Discoverable file → s.read file = .ok (some old) →
    (s.edited r).read file = .ok (some new) →
    Digest.contentHash old = Digest.contentHash new → old = new
  resolved : ∀ file, s.Discoverable file → (s.edited r).read file ≠ s.read file →
    (s.edited r).Extractable file

/-- Such rounds, one after the other. -/
def ContentRounds : Session → List Round → Prop
  | _, [] => True
  | s, r :: rounds => ContentRound s r ∧ ContentRounds ((s.edited r).refresh r.paths).2 rounds

namespace ContentRound

variable {r : Round} (h : ContentRound s r)

include h

/-- The project keeps its files. -/
theorem discoverable (hd : s.disk.Sound) (file : String) :
    (s.edited r).Discoverable file ↔ s.Discoverable file := by
  have hd' : (s.edited r).disk.Sound := h.sound
  rw [discoverable_iff hd, discoverable_iff hd', Admits, Admits]
  have hpatterns : Project.ignorePatterns (s.edited r).disk (s.edited r).root =
      Project.ignorePatterns s.disk s.root := h.settings.ignorePatterns.symm
  have hfile : ((s.edited r).disk.bytes? (placeOf (s.edited r).root file)).isSome =
      (s.disk.bytes? (placeOf s.root file)).isSome := by
    show (r.disk.bytes? (placeOf s.root file)).isSome = _
    rcases h.shape.cases (placeOf s.root file) with ⟨ha, hb⟩ | ⟨b, b', ha, hb⟩ | ⟨ha, hb⟩ <;>
      simp only [Disk.bytes?, ha, hb, Option.isSome_some, Option.isSome_none]
  rw [hpatterns, hfile]

/-- Which file a specifier means does not depend on contents. -/
theorem extractor : (s.edited r).extractor = s.extractor := by
  have hisFile : (s.edited r).disk.isFile = s.disk.isFile := by
    funext p
    exact (Disk.isFile_congr h.shape p).symm
  unfold Session.extractor Session.resolver
  rw [hisFile]
  rfl

theorem tracked {file : String} (hfile : s.Discoverable file) : Tracked Eq s r file where
  covered := h.covered file hfile
  hashed := fun old new => h.hashed file old new hfile
  moved := by
    intro hread
    have hread' : Project.readSource r.disk s.root file s.extractor.maxFileSize =
        Project.readSource s.disk s.root file s.extractor.maxFileSize := hread
    refine (undated_factNow (sameAnalysis_edited s r) hread ?_).symm
    show (Project.factOf r.disk s.root (s.edited r).extractor r.now file).imports = _
    rw [h.extractor]
    exact Project.imports_factOf_congr hread'

/-- The imports of every file can be resolved after the round if they could be before. -/
theorem extractable {file : String} (hfile : s.Discoverable file) (hbefore : s.Extractable file) :
    (s.edited r).Extractable file := by
  by_cases hread : (s.edited r).read file = s.read file
  · have hread' : Project.readSource r.disk s.root file s.extractor.maxFileSize =
        Project.readSource s.disk s.root file s.extractor.maxFileSize := hread
    intro text htext
    rw [h.extractor] at htext ⊢
    exact hbefore text (hread'.symm.trans htext)
  · exact h.resolved file hfile hread

theorem askable (hs : s.Current) : (s.edited r).Askable r.paths := by
  intro p hp file hfile
  obtain ⟨file', hfile', hdiscoverable⟩ := h.named p hp
  have heq : file = file' := Option.some.inj (hfile.symm.trans hfile')
  subst heq
  exact refreshable_of_extractable (hdiscoverable.hasNul hs.sound)
    (h.extractable hdiscoverable (hs.extractable file hdiscoverable))

end ContentRound

/-- To overwrite a file of the project is a round of new contents, if the hash shows it and the
new imports can be resolved. -/
theorem contentRound_overwrite (hroot : ∀ n ∈ Path.components s.root, n ≠ "..")
    (hd : s.disk.Sound) {file : String} (hfile : s.Discoverable file) {bytes : ByteArray}
    {now : Moment}
    (hhash : ∀ old text, s.read file = .ok (some old) → String.fromUTF8? bytes = some text →
      Digest.contentHash old = Digest.contentHash (Text.lineFeeds text) →
      old = Text.lineFeeds text)
    (hresolved : (s.edited (s.overwrite file bytes now)).Extractable file) :
    ContentRound s (s.overwrite file bytes now) := by
  obtain ⟨hadmits, hsome⟩ := (discoverable_iff hd).1 hfile
  obtain ⟨old, hold⟩ := Option.isSome_iff_exists.1 hsome
  have hat := Disk.bytes?_eq_some_iff.1 hold
  have hne := hadmits.placeOf_ne_nil s.root
  have hd' : (s.overwrite file bytes now).disk.Sound :=
    hd.set hne (hd.nameable hat) (hd.at?_dropLast hat) fun h => by
      rw [hat] at h
      cases h
  have htouches := touches_overwrite hd' hadmits
  have hother : ∀ other, s.Discoverable other → other ≠ file →
      (s.edited (s.overwrite file bytes now)).read other = s.read other :=
    fun other ho hne => htouches.read_of_ne hroot hd ((discoverable_iff hd).1 ho).1 hne
  refine ⟨hd', Disk.sameShape_set hne hat bytes, htouches.sameSettings hroot hd, ?_, ?_, ?_, ?_⟩
  · intro p hp
    rw [List.mem_singleton.1 hp]
    exact ⟨file, hadmits.normalize s.root, hfile⟩
  · intro other ho hread
    have heq : other = file := by
      by_contra hne
      exact hread (hother other ho hne)
    subst heq
    exact ⟨other, List.mem_singleton.2 rfl, hadmits.normalize s.root⟩
  · intro other old' new' ho hold' hnew' hsame
    by_cases heq : other = file
    · subst heq
      obtain ⟨text, htext, rfl⟩ := of_read_overwrite hd' hadmits hnew'
      exact hhash old' text hold' htext hsame
    · rw [hother other ho heq, hold'] at hnew'
      cases hnew'
      rfl
  · intro other ho hread
    by_cases heq : other = file
    · rw [heq]
      exact hresolved
    · exact absurd (hother other ho heq) hread

/-- **Step.** A round of new contents does not fail and keeps a session current. -/
theorem current_round {r : Round} (hs : s.Current) (h : ContentRound s r) :
    ∃ files t, (s.edited r).refresh r.paths = (.ok files, t) ∧ t.Current ∧
      SameAnalysis s t ∧ t.disk = r.disk := by
  obtain ⟨files, t, hrun, ht, hfiles, hgraph, hsettled⟩ :=
    stands_round comparison_eq hs.initialized (h.askable hs)
  have hdisk : t.disk = r.disk := by rw [ht]; rfl
  have hinit : t.initialized = true := by rw [ht]; exact hs.initialized
  have hdiscoverable : ∀ file, t.Discoverable file ↔ s.Discoverable file := by
    intro file
    rw [← h.discoverable hs.sound, ht]
    exact Iff.rfl
  have hknown : ∀ file ∈ files, s.Discoverable file := by
    intro file hfile
    obtain ⟨p, hp, hnormal⟩ := hfiles file hfile
    obtain ⟨file', hfile', hdisc⟩ := h.named p hp
    have heq : file = file' := Option.some.inj (hnormal.symm.trans hfile')
    exact heq ▸ hdisc
  refine ⟨files, t, hrun, ?_, (sameAnalysis_edited s r).trans ht.sameAnalysis, hdisk⟩
  have hgraphs : t.graph.prune = true ∧ t.graph.Reflects ∧ t.graph.Exact ∧ t.graph.Marked ∧
      ∀ file, (t.graph.fact? file).isSome = true ↔
        file ∈ files ∨ (s.graph.fact? file).isSome = true := by
    rw [hgraph]
    -- without news the graph stays as it is
    split
    · next hnil =>
      subst hnil
      exact ⟨hs.prunes, hs.reflects, hs.edges, hs.marked, by simp⟩
    · refine ⟨?_, (Project.reflects_addFacts hs.reflects files).markEntryPoints,
        (Project.exact_addFacts hs.edges hs.prunes files).markEntryPoints,
        ImportGraph.Marked.markEntryPoints _, ?_⟩
      · show (Project.addFacts _ s.graph files).prune = true
        rw [Project.prune_addFacts]
        exact hs.prunes
      · intro file
        rw [ImportGraph.fact?_markEntryPoints, Project.fact?_addFacts]
        by_cases hmem : file ∈ files <;> simp [hmem]
  obtain ⟨hprunes, hreflects, hexact, hmarked, hfacts⟩ := hgraphs
  refine ⟨hinit, by rw [hdisk]; exact h.sound, hprunes, hreflects, hexact, hmarked, ?_, ?_, ?_⟩
  · intro file
    rw [hfacts, hdiscoverable, hs.known]
    exact ⟨fun hf => hf.elim (hknown file) id, Or.inr⟩
  · intro file hfile
    have hbefore := (hdiscoverable file).1 hfile
    exact hsettled file (h.tracked hbefore) (hs.settled file hbefore)
  · intro file hfile
    have hbefore := (hdiscoverable file).1 hfile
    have hafter := h.extractable hbefore (hs.extractable file hbefore)
    rw [ht]
    exact hafter

/-- **Run.** No round of a history fails, and the session stays current. -/
theorem current_rounds {rounds : List Round} (hs : s.Current) (h : ContentRounds s rounds) :
    (s.afterRounds rounds).Current ∧ SameAnalysis s (s.afterRounds rounds) ∧
      SameSettings s.root s.disk (s.afterRounds rounds).disk ∧ s.Succeeds rounds := by
  induction rounds generalizing s with
  | nil => exact ⟨hs, SameAnalysis.refl s, fun _ _ => rfl, trivial⟩
  | cons r rounds ih =>
    obtain ⟨hround, hrest⟩ := h
    obtain ⟨files, t, hrun, ht, hanalysis, hdisk⟩ := current_round hs hround
    rw [hrun] at hrest
    obtain ⟨hcurrent, hanalysis', hsettings, hok⟩ := ih ht hrest
    have hafter : s.afterRounds (r :: rounds) = t.afterRounds rounds := by
      rw [afterRounds_cons, hrun]
    rw [hafter]
    refine ⟨hcurrent, hanalysis.trans hanalysis', ?_, ?_⟩
    · rw [hanalysis.root, hdisk] at hsettings
      exact hround.settings.trans hsettings
    · unfold Succeeds
      rw [hrun]
      exact ⟨⟨files, rfl⟩, hok⟩

/-! ### Comparison with a new build -/

/-- **The facts of a current session** are those that a build on the same files extracts,
if removing the persisted graph moves no import. -/
theorem sameFacts_of_current {t : Session} (hs : s.Current)
    (hroot : ∀ n ∈ Path.components s.root, n ≠ "..") (hanalysis : SameAnalysis s t)
    (ht : t.disk.Sound) (hagree : Disk.AgreeOff Snapshot.fileNames s.disk t.disk)
    (hapart : s.ResolvesAlike t.disk) {files : List String} {summary : Project.Summary}
    (hfiles : Project.discover t.disk t.root (Project.ignorePatterns t.disk t.root) =
      .ok files) : s.graph.SameFacts (t.built files summary).graph := by
  intro file
  have hmem : file ∈ files ↔ s.Discoverable file := by
    rw [← discoverable_of_agreeOff hroot hanalysis.root hs.sound ht hagree file]
    exact ⟨fun h => ⟨files, hfiles, h⟩, fun ⟨files', h, hmem⟩ => by
      rw [hfiles] at h
      cases h
      exact hmem⟩
  rw [fact?_built]
  by_cases hfile : s.Discoverable file
  · rw [if_pos (hmem.2 hfile), Option.map_some]
    obtain ⟨fact, hfact⟩ := Option.isSome_iff_exists.1 ((hs.known file).2 hfile)
    have hsettled : s.Stands Eq file := hs.settled file hfile
    unfold Stands at hsettled
    rw [heldFact_of_some hfact] at hsettled
    -- from the session's disk to the disk of the build, and then to its time
    have hedit : SameAnalysis s (s.apply (.edit t.disk)) := ⟨rfl, rfl, rfl⟩
    have hread : (s.apply (.edit t.disk)).read file = s.read file :=
      read_of_agreeOff hedit hroot hs.sound ht hagree ((discoverable_iff hs.sound).1 hfile).1
    have hnow : (t.factNow file).undated = ((s.apply (.edit t.disk)).factNow file).undated :=
      undated_factNow_of_disk (hedit.symm.trans hanalysis) rfl file
    rw [hfact, Option.map_some, hsettled, hnow, undated_factNow hedit hread
      (hapart.imports_eq hfile (hs.extractable file hfile))]
  · rw [if_neg fun h => hfile (hmem.1 h)]
    have hnone : s.graph.fact? file = none := by
      rw [← Option.not_isSome_iff_eq_none]
      exact fun h => hfile ((hs.known file).1 h)
    rw [hnone]

/-- **A current session and a build.** What the build puts into its graph is what the
session has in its own. -/
theorem eq_built_of_current {t : Session} (hs : s.Current)
    (hroot : ∀ n ∈ Path.components s.root, n ≠ "..") (hanalysis : SameAnalysis s t)
    (ht : t.disk.Sound) (hagree : Disk.AgreeOff Snapshot.fileNames s.disk t.disk)
    (hapart : s.ResolvesAlike t.disk) {files : List String} (summary : Project.Summary)
    (hfiles : Project.discover t.disk t.root (Project.ignorePatterns t.disk t.root) =
      .ok files) :
    (∀ file n, (t.built files summary).graph.node? file = some n →
      s.graph.node? file = some n) ∧
    s.graph.SameFacts (t.built files summary).graph ∧
    (∀ file n, s.graph.node? file = some n → (t.built files summary).graph.node? file = none →
      s.graph.fact? file = none ∧ n.imports = NameSet.empty ∧ n.importedBy = NameSet.empty) ∧
    ∀ limit file, (ImpactCache.empty.impactOf s.graph limit file).1 =
      (ImpactCache.empty.impactOf (t.built files summary).graph limit file).1 := by
  have hfacts : s.graph.SameFacts (t.built files summary).graph :=
    sameFacts_of_current hs hroot hanalysis ht hagree hapart hfiles
  obtain ⟨hreflects, hexact, hmentioned, hmarked⟩ := reflects_built t files summary
  refine ⟨?_, hfacts, ?_, ?_⟩
  · intro file n hn
    exact ImportGraph.node?_of_same_facts hs.reflects hreflects hs.edges hexact hs.marked hmarked
      hmentioned hfacts hn
  · intro file n hn hnone
    exact ImportGraph.bare_of_same_facts hs.reflects hreflects hs.edges hexact hfacts hn hnone
  · intro limit file
    rw [Impact.fst_impactOf_empty, Impact.fst_impactOf_empty,
      Impact.searchFrom_of_same_facts hs.reflects hreflects hs.edges hexact hfacts]

/-- **A forced build** makes a session that prunes current, and leaves the settings of the
project alone. -/
theorem current_setUp {s₀ : Session} (hbatch : 0 < s₀.config.batchSize)
    (hprune : s₀.graph.prune = true) (hroot : ∀ n ∈ Path.components s₀.root, n ≠ "..")
    (hd : s₀.disk.Sound) (h : s₀.setUp true = (.ok (), s))
    (hapart : s.ResolvesAlike s₀.clearCache.disk) :
    s.Current ∧ SameSettings s₀.root s₀.disk s.disk ∧ s.root = s₀.root ∧ s.config = s₀.config ∧
      Project.detectFramework s₀.disk s₀.root = .ok s.framework := by
  obtain ⟨hds, hagree⟩ := footprint_setUp hbatch hd h
  obtain ⟨framework, files, summary, hframework, hfiles, hall, rfl⟩ := of_setUp_force hbatch h
  obtain ⟨hdc, -⟩ := footprint_cleared s₀ framework hd
  have hcurrent := current_built (s := s₀.cleared framework) hroot hdc hprune hfiles hall hapart
  exact ⟨hcurrent, sameSettings_of_agreeOff hroot hd hds hagree (by decide), rfl, rfl, hframework⟩

/-- **A forced build on the files of a current session** succeeds if there are any, and
makes what the session has. -/
theorem setUp_of_current (t₀ : Session) (hs : s.Current)
    (hroot : ∀ n ∈ Path.components s.root, n ≠ "..") (hbatch : 0 < t₀.config.batchSize)
    (hsame : t₀.root = s.root ∧ t₀.config = s.config ∧ t₀.disk = s.disk)
    (hframework : Project.detectFramework t₀.disk t₀.root = .ok s.framework)
    (hapart : s.ResolvesAlike t₀.clearCache.disk) :
    ((∃ file, s.Discoverable file) → ∃ t, t₀.setUp true = (.ok (), t)) ∧
    ∀ t, t₀.setUp true = (.ok (), t) →
      (∀ file n, t.graph.node? file = some n → s.graph.node? file = some n) ∧
      s.graph.SameFacts t.graph ∧
      (∀ file n, s.graph.node? file = some n → t.graph.node? file = none →
        s.graph.fact? file = none ∧ n.imports = NameSet.empty ∧ n.importedBy = NameSet.empty) ∧
      ∀ limit file, (ImpactCache.empty.impactOf s.graph limit file).1 =
        (ImpactCache.empty.impactOf t.graph limit file).1 := by
  obtain ⟨hsroot, hsconfig, hsdisk⟩ := hsame
  have hd : t₀.disk.Sound := by rw [hsdisk]; exact hs.sound
  obtain ⟨hdc, hagree⟩ := footprint_cleared t₀ s.framework hd
  rw [hsdisk] at hagree
  have hanalysis : SameAnalysis s (t₀.cleared s.framework) := ⟨hsroot, hsconfig, rfl⟩
  refine ⟨?_, ?_⟩
  · rintro ⟨file, hfile⟩
    have hdiscoverable : ∀ f, t₀.Discoverable f ↔ s.Discoverable f := fun f => by
      unfold Discoverable
      rw [hsroot, hsdisk]
    refine setUp_force_ok hbatch (by rw [hsroot]; exact hroot) hd hframework
      ((hdiscoverable file).2 hfile) fun f hf => ?_
    have hbefore := (hdiscoverable f).1 hf
    have hafter := (hapart.extractable_iff hbefore).2 (hs.extractable f hbefore)
    have hedit : SameAnalysis (s.apply (.edit t₀.clearCache.disk)) (t₀.cleared s.framework) :=
      ⟨hsroot, hsconfig, rfl⟩
    exact (extractable_congr hedit rfl f).2 hafter
  · intro t ht
    obtain ⟨framework, files, summary, hfound, hfiles, -, rfl⟩ := of_setUp_force hbatch ht
    rw [hframework] at hfound
    cases hfound
    exact eq_built_of_current hs hroot hanalysis hdc hagree hapart summary hfiles

/-- Sessions that never answer from a stale cache answer alike if their graphs do. -/
theorem fst_impactOf_congr {t : Session} {limit : Option Int} (hs : CoherentAt limit s)
    (ht : CoherentAt limit t) {file : String}
    (h : (ImpactCache.empty.impactOf s.graph limit file).1 =
      (ImpactCache.empty.impactOf t.graph limit file).1) :
    (s.impactOf file).1 = (t.impactOf file).1 := by
  rw [impactOf_of_coherent hs, impactOf_of_coherent ht, h]

/-- **Refreshing is rebuilding.** Take a session that prunes and was built by force, and any
history of rounds that change contents, to texts whose imports can be resolved, leave the
project's settings alone and refresh what they change.  Then no round fails; a new session
starts on the files of the end, and builds if it finds any; and whenever it builds, its nodes
are nodes of the old session with the same edges and marks, the facts of both are the same but
for their dates, further nodes of the old session have neither fact nor edge, and both answer
alike for every file and every depth limit.  The persisted graph must not move an import when it is written or removed. -/
theorem afterRounds_eq_rebuild {root : String} {config : Settings.Config} {host : Host}
    {now : Moment} {s₀ s : Session} (hconfig : config.fault? = none)
    (hprune : config.pruneStaleEdges = true) (hroot : ∀ n ∈ Path.components root, n ≠ "..")
    (hsound : host.disk.Sound) (hstart : start root config host now = .ok s₀)
    (hbuilt : s₀.setUp true = (.ok (), s))
    (hapart : s.ResolvesAlike (Snapshot.delete host s.key).disk) {rounds : List Round}
    (hrounds : ContentRounds s rounds) {host' : Host}
    (hdisk : host'.disk = (s.afterRounds rounds).disk)
    (hapart' : (s.afterRounds rounds).ResolvesAlike (Snapshot.delete host' s.key).disk)
    (now' : Moment) :
    s.Succeeds rounds ∧
    ∃ t₀, start root config host' now' = .ok t₀ ∧
      ((∃ file, (s.afterRounds rounds).Discoverable file) →
        ∃ t, t₀.setUp true = (.ok (), t)) ∧
      ∀ t, t₀.setUp true = (.ok (), t) →
        (∀ file n, t.graph.node? file = some n →
          (s.afterRounds rounds).graph.node? file = some n) ∧
        (∀ file, ((s.afterRounds rounds).graph.fact? file).map FileFact.undated =
          (t.graph.fact? file).map FileFact.undated) ∧
        (∀ file n, (s.afterRounds rounds).graph.node? file = some n →
          t.graph.node? file = none →
          (s.afterRounds rounds).graph.fact? file = none ∧ n.imports = NameSet.empty ∧
            n.importedBy = NameSet.empty) ∧
        (∀ limit file, (ImpactCache.empty.impactOf (s.afterRounds rounds).graph limit file).1 =
          (ImpactCache.empty.impactOf t.graph limit file).1) ∧
        ∀ file, ((s.afterRounds rounds).impactOf file).1 = (t.impactOf file).1 := by
  have hs₀ := started_of_start hstart
  have hbatch := hs₀.batchSize_pos hconfig
  have hkey : s.key = s₀.key := by
    obtain ⟨framework, files, summary, -, -, -, rfl⟩ := of_setUp_force hbatch hbuilt
    rfl
  rw [hkey, ← hs₀.host] at hapart
  rw [hkey] at hapart'
  rw [← hs₀.root] at hroot
  rw [← hs₀.host] at hsound
  -- the first build and the rounds
  obtain ⟨hcurrent, hsettings, -, -, hframework⟩ := current_setUp hbatch (hs₀.prune.trans hprune)
    hroot hsound hbuilt hapart
  obtain ⟨hcurrent', hanalysis, hsettings', hok⟩ := current_rounds hcurrent hrounds
  -- the new session differs from the old one, before it was built, in its host and time
  obtain ⟨hstart', hsroot, hsconfig, hframework'⟩ := start_again hstart hbatch hbuilt hsettings
    hframework hanalysis hsettings' hdisk now'
  refine ⟨hok, _, hstart', ?_⟩
  obtain ⟨hsucceeds, hbuild⟩ := setUp_of_current { s₀ with host := host', now := now' }
    hcurrent' (hsroot ▸ hroot) hbatch ⟨hsroot, hsconfig, hdisk⟩ hframework' hapart'
  refine ⟨hsucceeds, fun t ht => ?_⟩
  obtain ⟨hnodes, hfacts, hbare, hanswers⟩ := hbuild t ht
  refine ⟨hnodes, hfacts, hbare, hanswers, fun file => ?_⟩
  -- neither session ever answers from a stale cache
  have hcoherent := coherentAt_afterRounds hstart hbuilt rounds
  have hcoherent' : CoherentAt config.earlyStopDepth t := coherentAt_afterRounds hstart' ht []
  exact fst_impactOf_congr hcoherent hcoherent' (hanswers config.earlyStopDepth file)

/-! ### A page and what it imports -/

/-- Settings without a depth limit and without aliases, under which stale edges are pruned. -/
def pruningConfig : Settings.Config :=
  { earlyStopDepth := none, aliases := OrderedMap.empty, endings := [".js"], cacheNamespace := "c",
    pruneStaleEdges := true, loadProjectAliases := false }

/-- A page, which declares a route by its place, and a file that it imports. -/
def pagedDisk : Disk :=
  ⟨[(["p"], .directory), (["p", "pages"], .directory),
    (["p", "pages", "a.js"], .file "import\"../x\"".toUTF8), (["p", "x.js"], .file "".toUTF8)]⟩

/-- The disk that holds them, with a store that leaves it alone. -/
def pagedHost : Host := { store := .memory OrderedMap.empty, disk := pagedDisk }

/-- A session on these files, before it is built. -/
def pagedStart : Session where
  root := "/p"
  config := pruningConfig
  host := pagedHost
  now := Number.Binary64.zero
  graph := { prune := true }

/-- And after it was built. -/
def pagedSession : Session :=
  (pagedStart.cleared "unknown").built ["pages/a.js", "x.js"] ⟨2, 1, 1, 0⟩

theorem batchSize_pagedStart : 0 < pagedStart.config.batchSize := by
  show 0 < pruningConfig.batchSize
  decide

theorem root_pagedStart : ∀ n ∈ Path.components pagedStart.root, n ≠ ".." := by
  show ∀ n ∈ Path.components "/p", n ≠ ".."
  decide

theorem sound_pagedStart : pagedStart.disk.Sound := by
  show pagedDisk.Sound
  decide

theorem start_pagedStart :
    start "/p" pruningConfig pagedHost Number.Binary64.zero = .ok pagedStart := rfl

theorem setUp_pagedStart : pagedStart.setUp true = (.ok (), pagedSession) := by
  have hframework : Project.detectFramework pagedDisk "/p" = .ok "unknown" := by decide
  have hsort : Text.sort ["pages/a.js", "x.js"] = ["pages/a.js", "x.js"] :=
    List.mergeSort_of_pairwise (by decide)
  have hfiles : Project.discover pagedDisk "/p" (Project.ignorePatterns pagedDisk "/p") =
      .ok ["pages/a.js", "x.js"] := by
    rw [← hsort]
    rfl
  have hall : ∀ file ∈ ["pages/a.js", "x.js"],
      (pagedStart.cleared "unknown").Extractable file := by
    simp only [List.forall_mem_cons, List.not_mem_nil, false_imp_iff, implies_true, and_true]
    exact ⟨extractable_of_loadNow (by decide +kernel), extractable_of_loadNow (by decide +kernel)⟩
  have hcounts : (pagedStart.cleared "unknown").countsOf ["pages/a.js", "x.js"] =
      ⟨2, 1, 1, 0⟩ := by
    decide +kernel
  rw [setUp_force_of_discover batchSize_pagedStart hframework hfiles hall, hcounts]
  rfl

theorem initialized_pagedSession : pagedSession.initialized = true :=
  (frame_setUp batchSize_pagedStart setUp_pagedStart).2.2

theorem root_pagedSession : pagedSession.root = "/p" :=
  (frame_setUp batchSize_pagedStart setUp_pagedStart).1

theorem inside_pagedSession : ∀ n ∈ Path.components pagedSession.root, n ≠ ".." := by
  rw [root_pagedSession]
  exact root_pagedStart

theorem disk_pagedSession : pagedSession.disk = pagedDisk :=
  disk_setUp_of_memory batchSize_pagedStart setUp_pagedStart rfl

theorem sound_pagedSession : pagedSession.disk.Sound := by
  rw [disk_pagedSession]
  exact sound_pagedStart

theorem admits_pagedSession :
    pagedSession.Admits "pages/a.js" ∧ pagedSession.Admits "x.js" := by
  have hpatterns : Project.ignorePatterns pagedDisk "/p" = [] := by decide
  rw [Admits, Admits, disk_pagedSession, root_pagedSession, hpatterns]
  exact ⟨⟨by decide, by decide, by decide, by decide, by decide⟩,
    ⟨by decide, by decide, by decide, by decide, by decide⟩⟩

theorem discoverable_pagedSession :
    pagedSession.Discoverable "pages/a.js" ∧ pagedSession.Discoverable "x.js" := by
  rw [discoverable_iff sound_pagedSession, discoverable_iff sound_pagedSession, root_pagedSession,
    disk_pagedSession]
  exact ⟨⟨admits_pagedSession.1, by decide⟩, ⟨admits_pagedSession.2, by decide⟩⟩

/-- The round in which the page comes to be empty: it drops its import. -/
def partingRound : Round := pagedSession.overwrite "pages/a.js" "".toUTF8 Number.Binary64.zero

theorem contentRound_partingRound : ContentRound pagedSession partingRound := by
  refine contentRound_overwrite inside_pagedSession sound_pagedSession
    discoverable_pagedSession.1 ?_ ?_
  · intro old text hold htext hhash
    have hread : pagedSession.read "pages/a.js" = .ok (some "import\"../x\"") := by
      rw [read, disk_pagedSession]
      decide
    have hempty : String.fromUTF8? "".toUTF8 = some "" := by decide
    have hdiffer : Digest.contentHash "import\"../x\"" ≠
        Digest.contentHash (Text.lineFeeds "") := by
      decide +kernel
    rw [hread] at hold
    rw [hempty] at htext
    cases hold
    cases htext
    exact absurd hhash hdiffer
  · exact extractable_of_loadNow (by decide +kernel)

/-- The session after the round. -/
def partedSession : Session := pagedSession.afterRounds [partingRound]

theorem remembers_partedSession :
    Remembers (pagedSession.edited partingRound) partedSession :=
  remembers_afterRounds initialized_pagedSession partingRound

theorem disk_partedSession : partedSession.disk = partingRound.disk :=
  disk_afterRounds initialized_pagedSession partingRound

/-- At first the file that is imported affects the page's route.  Then the page drops the import,
which takes the edge away, and the file affects nothing, here as in a new session. -/
theorem afterRounds_eq_rebuild_partedSession :
    ((pagedSession.impactOf "x.js").1 = ["/a"] ∧ (partedSession.impactOf "x.js").1 = [] ∧
      (partedSession.impactOf "pages/a.js").1 = ["/a"]) ∧
    ∃ t₀ t, start "/p" pruningConfig { pagedHost with disk := partingRound.disk }
        Number.Binary64.zero = .ok t₀ ∧ t₀.setUp true = (.ok (), t) ∧
      (∀ file n, t.graph.node? file = some n → partedSession.graph.node? file = some n) ∧
      (∀ file, (partedSession.graph.fact? file).map FileFact.undated =
        (t.graph.fact? file).map FileFact.undated) ∧
      ∀ file, (partedSession.impactOf file).1 = (t.impactOf file).1 := by
  refine ⟨by decide +kernel, ?_⟩
  have hapart : pagedSession.ResolvesAlike (Snapshot.delete pagedHost pagedSession.key).disk := by
    show pagedSession.ResolvesAlike pagedDisk
    rw [← disk_pagedSession]
    exact resolvesAlike_self _
  have hapart' : partedSession.ResolvesAlike
      (Snapshot.delete { pagedHost with disk := partingRound.disk } pagedSession.key).disk := by
    show partedSession.ResolvesAlike partingRound.disk
    rw [← disk_partedSession]
    exact resolvesAlike_self _
  have hrounds : ContentRounds pagedSession [partingRound] :=
    ⟨contentRound_partingRound, trivial⟩
  obtain ⟨-, t₀, hstart, hsucceeds, hbuild⟩ := afterRounds_eq_rebuild (by decide) rfl
    root_pagedStart sound_pagedStart start_pagedStart setUp_pagedStart hapart hrounds
    disk_partedSession.symm hapart' Number.Binary64.zero
  have hfound : partedSession.Discoverable "pages/a.js" := by
    rw [remembers_partedSession.discoverable,
      contentRound_partingRound.discoverable sound_pagedSession]
    exact discoverable_pagedSession.1
  obtain ⟨t, ht⟩ := hsucceeds ⟨_, hfound⟩
  obtain ⟨hnodes, hfacts, -, -, hanswers⟩ := hbuild t ht
  exact ⟨t₀, t, hstart, ht, hnodes, hfacts, hanswers⟩

/-! ### An import of the persisted graph -/

/-- A project with one file, which is empty. -/
def lonelyDisk : Disk := ⟨[(["p"], .directory), (["p", "a.ts"], .file "".toUTF8)]⟩

/-- A store in the project's directory. -/
def insideStore : Store := .directory "/p"

/-- The session on that project and the store, before it is built. -/
def lonelySession : Session where
  root := "/p"
  config := pruningConfig
  host := { store := insideStore, disk := lonelyDisk }
  now := Number.Binary64.zero
  graph := { prune := true }

/-- And after it was built. -/
def lonelyBuilt : Session := (lonelySession.setUp true).2

/-- What the file says later: it imports the persisted graph. -/
def importingText : String := "import \"./c/p/import-graph.json\""

/-- The round in which the file comes to say so. -/
def importingRound : Round :=
  lonelyBuilt.overwrite "a.ts" importingText.toUTF8 Number.Binary64.zero

/-- The session after the round. -/
def lonelyRefreshed : Session := lonelyBuilt.afterRounds [importingRound]

theorem batchSize_lonelySession : 0 < lonelySession.config.batchSize := by
  show 0 < pruningConfig.batchSize
  decide

theorem setUp_lonelySession : lonelySession.setUp true = (.ok (), lonelyBuilt) := by
  have hok : (lonelySession.setUp true).1 = .ok () := by decide +kernel
  rw [lonelyBuilt]
  exact setUp_of_ok hok

/-- The round changes a content and refreshes it. -/
theorem contentRound_importingRound : ContentRound lonelyBuilt importingRound := by
  have hbuilt := setUp_lonelySession
  have hinside : ∀ n ∈ Path.components lonelySession.root, n ≠ ".." := root_pagedStart
  have hd : lonelySession.disk.Sound := by
    show lonelyDisk.Sound
    decide
  obtain ⟨hroot, hconfig, -⟩ := frame_setUp batchSize_lonelySession hbuilt
  obtain ⟨hd', hagree⟩ := footprint_setUp batchSize_lonelySession hd hbuilt
  have hfound : lonelySession.Discoverable "a.ts" := by
    have hpatterns : Project.ignorePatterns lonelyDisk "/p" = [] := by decide
    have hfile : (lonelyDisk.bytes? (placeOf "/p" "a.ts")).isSome = true := by decide
    refine (discoverable_iff hd).2 ⟨?_, hfile⟩
    show Project.Admitted (Project.ignorePatterns lonelyDisk "/p") "a.ts"
    rw [hpatterns]
    exact ⟨by decide, by decide, by decide, by decide, by decide⟩
  refine contentRound_overwrite (by rw [hroot]; exact hinside) hd'
    ((discoverable_setUp batchSize_lonelySession hinside hd hbuilt "a.ts").2 hfound) ?_ ?_
  · intro old text hold htext hhash
    have hbytes : lonelyBuilt.disk.bytes? (Path.components (Path.append "/p" "a.ts")) =
        some "".toUTF8 := (hagree ["p", "a.ts"] (by decide)).symm
    have hempty : lonelyBuilt.read "a.ts" = .ok (some "") := by
      rw [read, hroot, hconfig]
      show Project.readSource lonelyBuilt.disk "/p" "a.ts" pruningConfig.maxFileSize = _
      rw [Project.readSource_of_bytes? hd' hbytes]
      decide
    have himporting : String.fromUTF8? importingText.toUTF8 = some importingText := by decide
    have hdiffer : Digest.contentHash "" ≠
        Digest.contentHash (Text.lineFeeds importingText) := by
      decide +kernel
    rw [hempty] at hold
    rw [himporting] at htext
    cases hold
    cases htext
    exact absurd hhash hdiffer
  · exact extractable_of_loadNow (by decide +kernel)

/-- A new session on the files as the round leaves them. -/
def lonelyAgain : Session :=
  { lonelySession with host := { store := insideStore, disk := importingRound.disk } }

/-- The refreshed session has an import that a new one does not have: it removes the persisted
graph before it looks at the files. -/
theorem exists_import_of_snapshot :
    start "/p" pruningConfig { store := insideStore, disk := lonelyDisk } Number.Binary64.zero =
      .ok lonelySession ∧
    lonelySession.setUp true = (.ok (), lonelyBuilt) ∧
    ContentRounds lonelyBuilt [importingRound] ∧
    ∃ t₀ t, start "/p" pruningConfig { store := insideStore, disk := lonelyRefreshed.disk }
        Number.Binary64.zero = .ok t₀ ∧ t₀.setUp true = (.ok (), t) ∧
      ¬ ∀ file n, t.graph.node? file = some n → lonelyRefreshed.graph.node? file = some n := by
  obtain ⟨-, -, hinit⟩ := frame_setUp batchSize_lonelySession setUp_lonelySession
  have hstart : start "/p" pruningConfig { store := insideStore, disk := lonelyRefreshed.disk }
      Number.Binary64.zero = .ok lonelyAgain := by
    rw [lonelyRefreshed, disk_afterRounds hinit]
    rfl
  have hcomputed : (lonelyAgain.setUp true).1 = .ok () ∧
      ((lonelyAgain.setUp true).2.graph.node? "a.ts").map (·.imports) = some NameSet.empty ∧
      (lonelyRefreshed.graph.node? "a.ts").map (·.imports) ≠ some NameSet.empty := by
    decide +kernel
  obtain ⟨hok, hnew, hold⟩ := hcomputed
  refine ⟨rfl, setUp_lonelySession, ⟨contentRound_importingRound, trivial⟩, lonelyAgain, _, hstart,
    setUp_of_ok hok, fun hnodes => hold ?_⟩
  obtain ⟨n, hn, himports⟩ := Option.map_eq_some_iff.1 hnew
  rw [hnodes "a.ts" n hn, Option.map_some, himports]

end RouteImpact.Session
