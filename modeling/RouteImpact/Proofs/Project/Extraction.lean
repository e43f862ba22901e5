import RouteImpact.Fact.Bindings
import RouteImpact.Project.Build

namespace RouteImpact

/-!
# Extractions that succeed

A path that cannot be asked for ends the search for the file of an import, and with it the
extraction of a fact, the making of an import map, and a build.

* `Resolver.resolveEach_eq_ok` — specifiers are resolved when each of them is;
* `Extractor.Resolves`, `Extractor.extract_eq_ok`, `ImportMap.make_eq_ok` — a fact that is
  extracted, and a map that is made, are the ones that can be read off the text;
* `Project.Extractable`, `Project.loadFact_eq_ok` — the same for a file on disk;
* `Project.extractInto_eq_ok`, `Project.of_extractInto_error` — facts that are extracted into
  a graph: all of them, or those before the first that fails.
-/

namespace Resolver

variable {r : Resolver} {file : String}

/-- The file that is found is one of those that were tried. -/
theorem of_firstFile {isFile : String → Except Failure Bool} {ps : List String} {p : String}
    (h : firstFile isFile ps = .ok (some p)) : p ∈ ps ∧ isFile p = .ok true := by
  fun_induction firstFile isFile ps with
  | case1 => cases h
  | case2 => cases h
  | case3 q rest hq =>
    cases h
    exact ⟨List.mem_cons_self, hq⟩
  | case4 q rest _ ih =>
    obtain ⟨hmem, hp⟩ := ih h
    exact ⟨List.mem_cons_of_mem _ hmem, hp⟩

/-- The search fails as a path fails that was tried. -/
theorem of_firstFile_error {isFile : String → Except Failure Bool} {ps : List String}
    {e : Failure} (h : firstFile isFile ps = .error e) : ∃ p ∈ ps, isFile p = .error e := by
  fun_induction firstFile isFile ps with
  | case1 => cases h
  | case2 q rest e' hq =>
    cases h
    exact ⟨q, List.mem_cons_self, hq⟩
  | case3 => cases h
  | case4 q rest _ ih =>
    obtain ⟨p, hmem, hp⟩ := ih h
    exact ⟨p, List.mem_cons_of_mem _ hmem, hp⟩

theorem resolve_of_basePath? {specifier base : String}
    (h : r.basePath? file specifier = some base) :
    r.resolve file specifier = firstFile r.isFile (r.candidates base) := by
  delta resolve
  rw [h]

/-- What cannot be resolved has tried a path that cannot be asked for. -/
theorem of_resolve_error {specifier : String} {e : Failure}
    (h : r.resolve file specifier = .error e) : ∃ p, r.isFile p = .error e := by
  cases hbase : r.basePath? file specifier with
  | none =>
    delta resolve at h
    rw [hbase] at h
    cases h
  | some base =>
    rw [resolve_of_basePath? hbase] at h
    obtain ⟨p, -, hp⟩ := of_firstFile_error h
    exact ⟨p, hp⟩

/-- **Specifiers are resolved when each of them is.** -/
theorem resolveEach_eq_ok {specifiers : List String} :
    r.resolveEach file specifiers = .ok () ↔
      ∀ specifier ∈ specifiers, ∃ found, r.resolve file specifier = .ok found := by
  unfold resolveEach
  generalize r.resolve file = resolve
  fun_induction tryEach resolve specifiers with
  | case1 => simp
  | case2 specifier rest e he => simp [he]
  | case3 specifier rest found hfound ih => simp [hfound, ih]

theorem of_resolveEach_error {specifiers : List String} {e : Failure}
    (h : r.resolveEach file specifiers = .error e) :
    ∃ specifier ∈ specifiers, r.resolve file specifier = .error e := by
  unfold resolveEach at h
  generalize r.resolve file = resolve at h ⊢
  fun_induction tryEach resolve specifiers with
  | case1 => cases h
  | case2 specifier rest e' he =>
    cases h
    exact ⟨specifier, List.mem_cons_self, he⟩
  | case3 specifier rest found _ ih =>
    obtain ⟨other, hmem, hother⟩ := ih h
    exact ⟨other, List.mem_cons_of_mem _ hmem, hother⟩

end Resolver

/-! ### Facts and maps -/

namespace Extractor

variable {x : Extractor} {now : Moment} {file content : String}

/-- Every import of a file with the given content can be resolved. -/
def Resolves (x : Extractor) (file content : String) : Prop :=
  ∀ specifier ∈ x.specifiersOf file content, ∃ found,
    x.resolver.resolve file specifier = .ok found

/-- **A fact that is extracted** is the one of the text. -/
theorem extract_eq_ok {fact : FileFact} :
    x.extract now file content = .ok fact ↔
      x.Resolves file content ∧ x.factOf now file content = fact := by
  rw [Resolves, ← Resolver.resolveEach_eq_ok]
  unfold extract
  split
  · next he => simp [he]
  · next hok => simp [hok]

theorem exists_extract : (∃ fact, x.extract now file content = .ok fact) ↔
    x.Resolves file content := by
  simp [extract_eq_ok]

theorem extract_of_isSome (h : (x.extract now file content).toOption.isSome = true) :
    x.extract now file content = .ok (x.factOf now file content) := by
  cases hextract : x.extract now file content with
  | error e => simp [hextract, Except.toOption] at h
  | ok fact => rw [(extract_eq_ok.1 hextract).2]

end Extractor

namespace ImportMap

/-- **A map that is made** is the one of the tree. -/
theorem make_eq_ok {r : Resolver} {file : String} {t : Source.Tree} {m : ImportMap} :
    make r file t = .ok m ↔
      r.resolveEach file (specifiers t) = .ok () ∧ collect r file t = m := by
  unfold make
  split
  · next he => simp [he]
  · next hok => simp [hok]

end ImportMap

/-! ### Files on disk -/

namespace Project

variable {d : Disk} {root file : String} {x : Extractor} {now : Moment}

/-- The fact of a file on disk, as far as its imports can be resolved. -/
def factOf (d : Disk) (root : String) (x : Extractor) (now : Moment) (file : String) :
    FileFact :=
  match readSource d root file x.maxFileSize with
  | .ok (some content) => x.factOf now file content
  | _ => FileFact.none file now

/-- The imports of a file on disk can be resolved, if it can be read. -/
def Extractable (d : Disk) (root : String) (x : Extractor) (file : String) : Prop :=
  ∀ content, readSource d root file x.maxFileSize = .ok (some content) →
    x.Resolves file content

/-- A file on disk has a fact if its imports can be resolved. -/
theorem loadFact_eq_ok {fact : FileFact} :
    loadFact d root x now file = .ok fact ↔
      Extractable d root x file ∧ factOf d root x now file = fact := by
  unfold loadFact Extractable factOf
  split
  · next content hread => simp [hread, Extractor.extract_eq_ok]
  · next hread =>
    have hany : ∀ content, readSource d root file x.maxFileSize ≠ .ok (some content) :=
      fun content h => hread content h
    simp [hany]

theorem factOf_of_loadFact {fact : FileFact} (h : loadFact d root x now file = .ok fact) :
    fact = factOf d root x now file :=
  (loadFact_eq_ok.1 h).2.symm

/-- It has none if one of them cannot. -/
theorem exists_loadFact : (∃ fact, loadFact d root x now file = .ok fact) ↔
    Extractable d root x file := by
  simp [loadFact_eq_ok]

/-! ### Many files -/

/-- Puts the facts of several files into a graph. -/
def addFacts (fact : String → FileFact) (g : ImportGraph) (files : List String) : ImportGraph :=
  files.foldl (fun g file => g.upsert file (fact file)) g

section ExtractInto

variable {fact : String → Except Failure FileFact} {value : String → FileFact}
  (hvalue : ∀ file f, fact file = .ok f → f = value file)

include hvalue

/-- **Facts that are extracted into a graph** are those of all files. -/
theorem extractInto_eq_ok {g g' : ImportGraph} {files : List String} :
    extractInto fact g files = .ok g' ↔
      (∀ file ∈ files, ∃ f, fact file = .ok f) ∧ addFacts value g files = g' := by
  induction files generalizing g with
  | nil => simp [extractInto, addFacts]
  | cons file rest ih =>
    unfold extractInto
    split
    · next e he => simp [he]
    · next f hf =>
      obtain rfl := hvalue file f hf
      rw [ih]
      simp [hf, addFacts]

/-- An extraction that fails leaves the facts of the files before the first that has none. -/
theorem of_extractInto_error {g : ImportGraph} {files : List String} {halted : Halted ImportGraph}
    (h : extractInto fact g files = .error halted) :
    ∃ done file rest, files = done ++ file :: rest ∧ (∀ f ∈ done, ∃ v, fact f = .ok v) ∧
      fact file = .error halted.failure ∧ addFacts value g done = halted.left := by
  induction files generalizing g with
  | nil => cases h
  | cons file rest ih =>
    unfold extractInto at h
    split at h
    · next e he =>
      cases h
      exact ⟨[], file, rest, rfl, by simp, he, rfl⟩
    · next f hf =>
      obtain rfl := hvalue file f hf
      obtain ⟨done, last, after, rfl, hdone, hlast, hleft⟩ := ih h
      exact ⟨file :: done, last, after, rfl, by simpa [hf] using hdone, hlast, hleft⟩

end ExtractInto

theorem extractInto_append (fact : String → Except Failure FileFact) (g : ImportGraph)
    (files more : List String) :
    extractInto fact g (files ++ more) =
      (extractInto fact g files).bind fun g' => extractInto fact g' more := by
  induction files generalizing g with
  | nil => rfl
  | cons file rest ih =>
    simp only [List.cons_append, extractInto]
    split
    · rfl
    · exact ih _

/-- Batches make no difference to what is extracted. -/
theorem foldlM_extractInto (fact : String → Except Failure FileFact) (g : ImportGraph)
    (runs : List (List String)) :
    runs.foldlM (extractInto fact) g = extractInto fact g runs.flatten := by
  induction runs generalizing g with
  | nil => rfl
  | cons run runs ih =>
    rw [List.foldlM_cons, List.flatten_cons, extractInto_append]
    simp only [bind, ih]

end Project

end RouteImpact
