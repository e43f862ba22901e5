import RouteImpact.Proofs.Analysis.Returning

namespace RouteImpact.Session

/-!
# Refreshing twice

A refresh leaves every file that it names with the fact of its present text.  So a second
refresh has nothing to do: no fact is replaced, and nothing that is remembered is dropped.

* `Fresh` — a file whose fact is of its present text;
* `fresh_iff` — these are the files whose fact a refresh keeps;
* `fresh_of_refreshEach` — every file that was refreshed is one;
* `refreshEach_of_fresh` — refreshing them changes nothing;
* `refresh_leaves_fresh` — hence what a refresh leaves, and what the next one finds.
-/

variable {s t : Session} {file : String} {paths : List String}

/-- The fact of a file has the hash of its text.  Where there is no text, the file has no fact
or one without a hash. -/
def Fresh (s : Session) (file : String) : Prop :=
  match s.read file with
  | .error _ => False
  | .ok none => ∀ fact, s.graph.fact? file = some fact → fact.contentHash = ""
  | .ok (some text) =>
    ∃ fact, s.graph.fact? file = some fact ∧ fact.contentHash = Digest.contentHash text

/-- **What is fresh is kept**, and nothing else is. -/
theorem fresh_iff : s.Fresh file ↔ s.freshFact? file = .ok none := by
  unfold Fresh freshFact?
  rcases hread : s.read file with e | _ | text
  · simp [bind, Except.bind]
  · cases s.graph.fact? file <;> simp [bind, Except.bind, pure, Except.pure]
  · -- a fact that is extracted is new
    have hnew : (do return some (← s.extractor.extract s.now file text)) ≠
        (.ok none : Except Failure (Option FileFact)) := by
      cases s.extractor.extract s.now file text <;> nofun
    cases s.graph.fact? file <;> simp_all [bind, Except.bind, pure, Except.pure]

/-- Whether a file is fresh depends on its own fact only. -/
theorem fresh_congr (hst : Remembers s t) (hfact : t.graph.fact? file = s.graph.fact? file) :
    t.Fresh file ↔ s.Fresh file := by
  rw [fresh_iff, fresh_iff, freshFact?_congr hst hfact]

/-- **Every file that was refreshed is fresh.** -/
theorem fresh_of_refreshEach {files : List String} (hrun : refreshEach paths s = (.ok files, t))
    (hnamed : ∃ p ∈ paths, s.normalize p = some file) : t.Fresh file := by
  replace hrun := refreshes_iff.1 hrun
  have ht := hrun.remembers
  have hrefreshable : s.Refreshable file := by
    obtain ⟨p, hp, hfile⟩ := hnamed
    exact hrun.askable p hp file hfile
  have hfact : t.graph.fact? file =
      if file ∈ files then some (s.factNow file) else s.graph.fact? file := by
    rw [hrun.graph, Project.fact?_addFacts]
  by_cases hmem : file ∈ files
  · -- its fact has just been extracted
    rw [if_pos hmem] at hfact
    apply fresh_iff.2
    apply freshFact?_of_contentHash
    · rw [heldFact_of_some hfact, ht.factNow]
    · rw [ht.sameAnalysis.root]
      exact hrefreshable.1
  · -- it was named and its fact was kept, so there was no new text
    rw [if_neg hmem] at hfact
    rw [fresh_congr ht hfact, fresh_iff]
    obtain ⟨fact?, hfresh⟩ := exists_freshFact?.2 hrefreshable
    cases fact? with
    | none => exact hfresh
    | some fact => exact absurd ((hrun.mem_iff file).2 ⟨hnamed, fact, hfresh⟩) hmem

/-- **Fresh files are passed over.** -/
theorem refreshEach_of_fresh (h : ∀ p ∈ paths, ∀ file, s.normalize p = some file → s.Fresh file) :
    refreshEach paths s = (.ok [], s) := by
  induction paths with
  | nil => rfl
  | cons path rest ih =>
    have hrest := ih fun p hp => h p (List.mem_cons_of_mem _ hp)
    rw [refreshEach]
    split
    · exact hrest
    · next file hfile => rw [fresh_iff.1 (h path List.mem_cons_self file hfile), hrest]

/-- Marking the entry points does not touch facts. -/
theorem fresh_settled (changed : List String) : (t.settled changed).Fresh file ↔ t.Fresh file := by
  unfold settled
  split
  · exact Iff.rfl
  · exact fresh_congr rfl (ImportGraph.fact?_markEntryPoints t.graph file)

/-- **A refresh is fresh and idempotent.**  In every session, for all paths that can be named: it
returns if the session can be set up, its directory can be named and no file that is named has a
new text with an import that asks for a name that is too long.  When it has returned, each
of the paths that leads to a file of the project leads to a fresh one, no file is listed twice,
and a second refresh answers that nothing has changed and leaves the session exactly as it is.
No text that was read is then skipped for its size or its characters. -/
theorem refresh_leaves_fresh (hnul : ∀ p ∈ paths, Disk.hasNul p = false) :
    (∀ u, s.ensureInitialized = (.ok (), u) → Disk.hasNul s.root = false →
      (∀ p ∈ paths, ∀ file, u.normalize p = some file → u.Unchanged file ∨ u.Extractable file) →
        ∃ changed t, s.refresh paths = (.ok changed, t)) ∧
    ∀ changed t, s.refresh paths = (.ok changed, t) →
      (∀ p ∈ paths, ∀ file, t.normalize p = some file → t.Fresh file) ∧
      changed.Nodup ∧
      t.refresh paths = (.ok [], t) ∧
      ∀ file text, t.read file = .ok (some text) → t.extractor.isSkippable text = false := by
  constructor
  · intro u hinit hroot himports
    refine refresh_ok_iff.2 ⟨u, hinit, fun p hp file hfile => ⟨?_, himports p hp file hfile⟩⟩
    have hsame := root_ensureInitialized s
    rw [hinit] at hsame
    rw [Project.hasNul_append hfile (hnul p hp), hsame, hroot]
  · intro changed t hrefresh
    obtain ⟨_, u, hinit, heach⟩ := Outcome.of_andThen hrefresh
    obtain ⟨files, v, hrun, hlast⟩ := Outcome.of_andThen heach
    have hchanged : files = changed := Except.ok.inj (Prod.ext_iff.1 hlast).1
    subst hchanged
    have ht : t = v.settled files := (Prod.ext_iff.1 hlast).2.symm
    -- setting up and refreshing leave the directory, and with it the spelling of files
    have hroot : t.root = u.root := by
      have hrefreshed := root_refresh s paths
      have hset := root_ensureInitialized s
      rw [hrefresh] at hrefreshed
      rw [hinit] at hset
      rw [hrefreshed, hset]
    have hfresh : ∀ p ∈ paths, ∀ file, t.normalize p = some file → t.Fresh file := by
      intro p hp file hfile
      rw [normalize, hroot] at hfile
      rw [ht, fresh_settled]
      exact fresh_of_refreshEach hrun ⟨p, hp, hfile⟩
    refine ⟨hfresh, (refreshes_iff.1 hrun).nodup, ?_, ?_⟩
    · rw [refresh_eq (ensureInitialized_eq (initialized_of_refresh hrefresh)),
        refreshEach_of_fresh hfresh]
      rfl
    · intro file text htext
      exact Extractor.isSkippable_of_readSource htext

/-! ### A file at the limit -/

/-- A file that is as large as a file may be, its line ending included, and one that is too
large. -/
def brimDisk : Disk :=
  ⟨[(["p"], .directory), (["p", "a.js"], .file "1\r\n".toUTF8),
    (["p", "b.js"], .file "1234".toUTF8)]⟩

/-- A fact of an older text. -/
def outdatedFact (file : String) : FileFact :=
  { path := file, contentHash := "x", lastSeenAt := Number.Binary64.zero }

/-- A session that knows older texts of both. -/
def brimSession : Session where
  root := "/p"
  config := { plainConfig with maxFileSize := 3 }
  host := { store := .memory OrderedMap.empty, disk := brimDisk }
  now := Number.Binary64.zero
  graph := (({} : ImportGraph).upsert "a.js" (outdatedFact "a.js")).upsert "b.js"
    (outdatedFact "b.js")
  initialized := true

/-- The two files, one of them under two spellings, and a file that does not exist. -/
def brimPaths : List String := ["a.js", "/p/b.js", "./a.js", "c.js"]

/-- The first file gets the fact of its text and the second loses its own; after that nothing
is left to do. -/
theorem refresh_leaves_fresh_brimSession :
    ∃ t, brimSession.refresh brimPaths = (.ok ["a.js", "b.js"], t) ∧
      t.read "a.js" = .ok (some "1\n") ∧ t.Fresh "a.js" ∧
      t.read "b.js" = .ok none ∧ t.Fresh "b.js" ∧
      t.refresh brimPaths = (.ok [], t) := by
  have hnul : ∀ p ∈ brimPaths, Disk.hasNul p = false := by decide
  obtain ⟨hresult, hfirst, hsecond, hspelling⟩ :
      (brimSession.refresh brimPaths).1 = .ok ["a.js", "b.js"] ∧
      (brimSession.refresh brimPaths).2.read "a.js" = .ok (some "1\n") ∧
      (brimSession.refresh brimPaths).2.read "b.js" = .ok none ∧
      (brimSession.refresh brimPaths).2.root = "/p" := by
    decide +kernel
  generalize hrun : brimSession.refresh brimPaths = r at *
  obtain ⟨result, t⟩ := r
  subst hresult
  obtain ⟨hfresh, -, hagain, -⟩ := (refresh_leaves_fresh hnul).2 _ t hrun
  have hnormal : t.normalize = Project.normalize "/p" := by
    rw [← hspelling]
    rfl
  refine ⟨t, rfl, hfirst, ?_, hsecond, ?_, hagain⟩
  · apply hfresh "a.js" (by decide)
    rw [hnormal]
    decide
  · apply hfresh "/p/b.js" (by decide)
    rw [hnormal]
    decide

end RouteImpact.Session
