import RouteImpact.Project.Aliases
import RouteImpact.Proofs.Project.Extraction
import RouteImpact.Project.Framework
import RouteImpact.Proofs.Project.Discovery

namespace RouteImpact

/-!
# What a fact depends on

A fact of a file follows from the file's text, but for its date and for what its imports
resolve to.

* `FileFact.undated` — a fact without its date;
* `Project.readSource_congr`, `Disk.text?_congr` — on sound disks a text depends on the
  bytes of its file only;
* `Extractor.contentHash_factOf` — the hash of a fact tells the text it was extracted
  from, since a text that was read is never skipped;
* `Project.undated_factOf` — the same text and the same imports make the same fact;
* `Project.SameSettings` — disks that say the same about a project: its framework, its
  aliases and its ignored files.
-/

/-- A fact without its date. -/
def FileFact.undated (fact : FileFact) : FileFact :=
  { fact with lastSeenAt := Number.Binary64.zero }

@[simp] theorem FileFact.contentHash_undated (fact : FileFact) :
    fact.undated.contentHash = fact.contentHash := rfl

@[simp] theorem FileFact.routes_undated (fact : FileFact) :
    fact.undated.routes = fact.routes := rfl

@[simp] theorem FileFact.resolvedImports_undated (fact : FileFact) :
    fact.undated.resolvedImports = fact.resolvedImports := rfl

@[simp] theorem FileFact.contentHash_none (file : String) (now : Moment) :
    (FileFact.none file now).contentHash = "" := rfl

/-! ### Hashes -/

theorem Digest.contentHash_ne_empty (text : String) : contentHash text ≠ "" := by
  intro h
  have hlist := congrArg String.toList h
  simp [contentHash, md5, wordHex, Text.hexDigits] at hlist

/-! ### Texts -/

namespace Text

/-- Turning ends of lines into line feeds makes a text no longer. -/
theorem size_lineFeedsLoop (cs read : List Char) :
    (lineFeedsLoop cs read).utf8Encode.size ≤
      read.reverse.utf8Encode.size + cs.utf8Encode.size := by
  have hpush : ∀ (c : Char) (read : List Char), (c :: read).reverse.utf8Encode.size =
      read.reverse.utf8Encode.size + [c].utf8Encode.size := by
    intro c read
    rw [List.reverse_cons, List.utf8Encode_append, ByteArray.size_append]
  have hcons : ∀ (c : Char) (cs : List Char), (c :: cs).utf8Encode.size =
      [c].utf8Encode.size + cs.utf8Encode.size := by
    intro c cs
    rw [List.utf8Encode_cons, ByteArray.size_append]
  have hfeed : ['\r'].utf8Encode.size = ['\n'].utf8Encode.size := by decide
  fun_induction lineFeedsLoop cs read with
  | case1 read => omega
  | case2 cs read ih =>
    rw [hpush] at ih
    rw [hcons '\r', hcons '\n']
    omega
  | case3 c cs read _ ih =>
    have hsame : [if c = '\r' then '\n' else c].utf8Encode.size = [c].utf8Encode.size := by
      split
      · next hc => rw [hc, hfeed]
      · rfl
    rw [hpush, hsame] at ih
    rw [hcons c]
    omega

theorem utf8ByteSize_lineFeeds (s : String) : (lineFeeds s).utf8ByteSize ≤ s.utf8ByteSize := by
  have hsize := size_lineFeedsLoop s.toList []
  have hs : s.toList.utf8Encode = s.toByteArray := by
    rw [← String.toByteArray_ofList, String.ofList_toList]
  rw [hs, show ([] : List Char).reverse.utf8Encode.size = 0 from rfl, Nat.zero_add] at hsize
  show (String.ofList _).toByteArray.size ≤ s.toByteArray.size
  rw [String.toByteArray_ofList]
  exact hsize

end Text

namespace Disk

/-- On sound disks, the same bytes at a place are read alike. -/
theorem read_congr {d d' : Disk} (hd : d.Sound) (hd' : d'.Sound) {names : List String}
    (hup : ∀ n ∈ names, n ≠ "..") (h : d.bytes? names = d'.bytes? names) :
    (∃ bytes, d.read names = .ok bytes ∧ d'.read names = .ok bytes) ∨
      ∃ e e', d.read names = .error e ∧ d'.read names = .error e' := by
  have hread : (d.read names).toOption = (d'.read names).toOption := by
    rw [hd.toOption_read hup, hd'.toOption_read hup, h]
  cases ha : d.read names with
  | error e =>
    cases hb : d'.read names with
    | error e' => exact Or.inr ⟨e, e', rfl, rfl⟩
    | ok bytes =>
      rw [ha, hb] at hread
      cases hread
  | ok bytes =>
    cases hb : d'.read names with
    | error e' =>
      rw [ha, hb] at hread
      cases hread
    | ok bytes' =>
      rw [ha, hb] at hread
      cases hread
      exact Or.inl ⟨bytes, rfl, rfl⟩

/-- On sound disks the text of a file depends on its bytes only. -/
theorem text?_congr {d d' : Disk} (hd : d.Sound) (hd' : d'.Sound) {p : String}
    (hup : ∀ n ∈ Path.components p, n ≠ "..")
    (h : d.bytes? (Path.components p) = d'.bytes? (Path.components p)) :
    d.text? p = d'.text? p := by
  rcases read_congr hd hd' hup h with ⟨bytes, ha, hb⟩ | ⟨e, e', ha, hb⟩
  · rw [text?, text?, ha, hb]
  · rw [text?, text?, ha, hb]

end Disk

namespace Project

theorem readSource_congr {d d' : Disk} (hd : d.Sound) (hd' : d'.Sound) {root file : String}
    (hup : ∀ n ∈ Path.components (Path.append root file), n ≠ "..")
    (h : d.bytes? (Path.components (Path.append root file)) =
      d'.bytes? (Path.components (Path.append root file))) (most : Int) :
    readSource d root file most = readSource d' root file most := by
  rcases Disk.read_congr hd hd' hup h with ⟨bytes, ha, hb⟩ | ⟨e, e', ha, hb⟩
  · simp only [readSource, ha, hb]
  · simp only [readSource, ha, hb]

/-- A path without the character that ends names can always be asked for. -/
theorem readSource_ok {root file : String} (h : Disk.hasNul (Path.append root file) = false)
    (d : Disk) (most : Int) : ∃ text, readSource d root file most = .ok text := by
  unfold readSource
  simp only [h, Bool.false_eq_true, if_false]
  split
  · exact ⟨none, rfl⟩
  · split
    · exact ⟨none, rfl⟩
    · split <;> exact ⟨_, rfl⟩

/-- On a sound disk the text of a file is what its bytes spell. -/
theorem readSource_of_bytes? {d : Disk} (hd : d.Sound) {root file : String} {bytes : ByteArray}
    (h : d.bytes? (Path.components (Path.append root file)) = some bytes) (most : Int) :
    readSource d root file most =
      if most < (bytes.size : Int) then .ok none
      else
        match (String.fromUTF8? bytes).map Text.lineFeeds with
        | some text => .ok (if Source.isBinary text then none else some text)
        | none => .ok none := by
  have hat := Disk.bytes?_eq_some_iff.1 h
  have hread : d.read (Path.components (Path.append root file)) = .ok bytes := by
    rw [Disk.read, hd.find_of_at? hat]
  unfold readSource
  dsimp only
  rw [hd.hasNul_of_at? hat, hread]
  rfl

/-- Where there is no file, there is no text. -/
theorem readSource_of_bytes?_none {d : Disk} (hd : d.Sound) {root file : String}
    (hup : ∀ n ∈ Path.components (Path.append root file), n ≠ "..")
    (h : d.bytes? (Path.components (Path.append root file)) = none) (most : Int) :
    ∀ text, readSource d root file most ≠ .ok (some text) := by
  intro text htext
  have hread := hd.toOption_read hup
  rw [h] at hread
  unfold readSource at htext
  dsimp only at htext
  split at htext
  · cases htext
  · cases ha : d.read (Path.components (Path.append root file)) with
    | error e =>
      rw [ha] at htext
      cases htext
    | ok bytes =>
      rw [ha] at hread
      cases hread

/-- A text that was read is not binary and not too large. -/
theorem of_readSource {d : Disk} {root file text : String} {most : Int}
    (h : readSource d root file most = .ok (some text)) :
    Source.isBinary text = false ∧ (text.utf8ByteSize : Int) ≤ most := by
  unfold readSource at h
  dsimp only at h
  split at h
  · cases h
  · split at h
    · cases h
    · next bytes _ =>
      split at h
      · cases h
      · next hsize =>
        split at h
        · next found hfound =>
          rw [Except.ok.injEq] at h
          split at h
          · cases h
          · next hbinary =>
            cases h
            obtain ⟨whole, hwhole, rfl⟩ := Option.map_eq_some_iff.1 hfound
            unfold String.fromUTF8? at hwhole
            split at hwhole
            · cases hwhole
              -- ends of lines of two characters become one
              have hshort := Text.utf8ByteSize_lineFeeds (String.fromUTF8 bytes ‹_›)
              have hbytes : (String.fromUTF8 bytes ‹_›).utf8ByteSize = bytes.size := rfl
              refine ⟨by simpa using hbinary, ?_⟩
              omega
            · cases hwhole
        · cases h

end Project

/-! ### Facts -/

namespace Extractor

variable {d : Disk} {root file text : String} {x : Extractor}

theorem isSkippable_of_readSource
    (h : Project.readSource d root file x.maxFileSize = .ok (some text)) :
    x.isSkippable text = false := by
  obtain ⟨hbinary, hsize⟩ := Project.of_readSource h
  simp [isSkippable, hbinary, hsize]

/-- The fact of a text that was read. -/
theorem factOf_of_readSource
    (h : Project.readSource d root file x.maxFileSize = .ok (some text)) (now : Moment) :
    x.factOf now file text =
      { path := file
        imports := (parse file text).elim [] (imports x.resolver file)
        exports := (parse file text).elim [] exports
        routes := x.routes file (parse file text)
        contentHash := Digest.contentHash text
        lastSeenAt := now } := by
  rw [factOf, if_neg (by simp [isSkippable_of_readSource h])]

/-- The hash of a fact is that of the text it was extracted from. -/
theorem contentHash_factOf
    (h : Project.readSource d root file x.maxFileSize = .ok (some text)) (now : Moment) :
    (x.factOf now file text).contentHash = Digest.contentHash text := by
  rw [factOf_of_readSource h]

theorem imports_factOf
    (h : Project.readSource d root file x.maxFileSize = .ok (some text)) (now : Moment) :
    (x.factOf now file text).imports = (parse file text).elim [] (imports x.resolver file) := by
  rw [factOf_of_readSource h]

theorem routes_factOf
    (h : Project.readSource d root file x.maxFileSize = .ok (some text)) (now : Moment) :
    (x.factOf now file text).routes = x.routes file (parse file text) := by
  rw [factOf_of_readSource h]

end Extractor

namespace Project

variable {d d' : Disk} {root file : String} {x x' : Extractor} {now now' : Moment}

theorem factOf_of_some {text : String}
    (h : readSource d root file x.maxFileSize = .ok (some text)) :
    factOf d root x now file = x.factOf now file text := by
  rw [factOf, h]

theorem factOf_of_none (h : ∀ text, readSource d root file x.maxFileSize ≠ .ok (some text)) :
    factOf d root x now file = FileFact.none file now := by
  unfold factOf
  split
  · next text htext => exact absurd htext (h text)
  · rfl

/-- A fact without a hash says nothing: the file cannot be read. -/
theorem contentHash_factOf_eq_empty (h : (factOf d root x now file).contentHash = "") :
    factOf d root x now file = FileFact.none file now := by
  refine factOf_of_none fun text htext => ?_
  rw [factOf_of_some htext, Extractor.contentHash_factOf htext] at h
  exact Digest.contentHash_ne_empty text h

/-- A fact with a hash was extracted from a text. -/
theorem exists_text_of_contentHash (h : (factOf d root x now file).contentHash ≠ "") :
    ∃ text, readSource d root file x.maxFileSize = .ok (some text) ∧
      Digest.contentHash text = (factOf d root x now file).contentHash := by
  by_cases htext : ∃ text, readSource d root file x.maxFileSize = .ok (some text)
  · obtain ⟨text, htext⟩ := htext
    exact ⟨text, htext, by rw [factOf_of_some htext, Extractor.contentHash_factOf htext]⟩
  · have hnone : factOf d root x now file = FileFact.none file now :=
      factOf_of_none fun text hread => htext ⟨text, hread⟩
    rw [hnone] at h
    exact absurd rfl h

/-- Two facts of one text compare as two extractions from it do, or as two facts of a file
that cannot be read. -/
theorem factOf_compare {R : FileFact → FileFact → Prop} {root' : String}
    (hread : readSource d' root' file x'.maxFileSize = readSource d root file x.maxFileSize)
    (hnone : R (FileFact.none file now') (FileFact.none file now))
    (hsome : ∀ text, readSource d' root' file x'.maxFileSize = .ok (some text) →
      readSource d root file x.maxFileSize = .ok (some text) →
        R (x'.factOf now' file text) (x.factOf now file text)) :
    R (factOf d' root' x' now' file) (factOf d root x now file) := by
  by_cases htext : ∃ text, readSource d root file x.maxFileSize = .ok (some text)
  · obtain ⟨text, htext⟩ := htext
    have htext' := hread.trans htext
    rw [factOf_of_some htext, factOf_of_some htext']
    exact hsome text htext' htext
  · have hunread : ∀ text, readSource d root file x.maxFileSize ≠ .ok (some text) :=
      fun text h => htext ⟨text, h⟩
    rw [factOf_of_none hunread, factOf_of_none (by rwa [hread])]
    exact hnone

/-- The hash of a fact depends on the text alone. -/
theorem contentHash_factOf_congr {root' : String}
    (hread : readSource d' root' file x'.maxFileSize = readSource d root file x.maxFileSize) :
    (factOf d' root' x' now' file).contentHash = (factOf d root x now file).contentHash := by
  refine factOf_compare (R := fun a b => a.contentHash = b.contentHash) hread rfl ?_
  intro text htext' htext
  rw [Extractor.contentHash_factOf htext, Extractor.contentHash_factOf htext']

theorem undated_none (file : String) (now now' : Moment) :
    (FileFact.none file now).undated = (FileFact.none file now').undated := rfl

/-- The routes of a fact do not depend on where imports lead. -/
theorem routes_factOf_congr
    (hread : readSource d' root file x'.maxFileSize = readSource d root file x.maxFileSize)
    (hrecognizers : x'.recognizers = x.recognizers) (hframework : x'.framework = x.framework) :
    (factOf d' root x' now' file).routes = (factOf d root x now file).routes := by
  refine factOf_compare (R := fun a b => a.routes = b.routes) hread rfl ?_
  intro text htext' htext
  rw [Extractor.routes_factOf htext, Extractor.routes_factOf htext', Extractor.routes,
    Extractor.routes, hrecognizers, hframework]

/-- **The same text and the same imports make the same fact**, whatever the date. -/
theorem undated_factOf
    (hread : readSource d' root file x'.maxFileSize = readSource d root file x.maxFileSize)
    (hrecognizers : x'.recognizers = x.recognizers) (hframework : x'.framework = x.framework)
    (himports : (factOf d' root x' now' file).imports = (factOf d root x now file).imports) :
    (factOf d' root x' now' file).undated = (factOf d root x now file).undated := by
  refine factOf_compare (R := fun a b => a.imports = b.imports → a.undated = b.undated) hread
    (fun _ => undated_none file now' now) ?_ himports
  intro text htext' htext himports
  rw [Extractor.imports_factOf htext, Extractor.imports_factOf htext'] at himports
  rw [Extractor.factOf_of_readSource htext, Extractor.factOf_of_readSource htext',
    FileFact.undated, FileFact.undated, Extractor.routes, Extractor.routes]
  simp only [himports, hrecognizers, hframework]

/-- With the same text and the same resolver the imports are the same. -/
theorem imports_factOf_congr
    (hread : readSource d' root file x.maxFileSize = readSource d root file x.maxFileSize) :
    (factOf d' root x now' file).imports = (factOf d root x now file).imports := by
  refine factOf_compare (R := fun a b => a.imports = b.imports) hread rfl ?_
  intro text htext' htext
  rw [Extractor.imports_factOf htext, Extractor.imports_factOf htext']

/-! ### Settings -/

/-- The files that say how a project is analysed. -/
def settingsFiles : List String := ["package.json", "tsconfig.json", "jsconfig.json", ".gitignore"]

/-- Two disks that say the same about how a project is analysed. -/
def SameSettings (root : String) (d d' : Disk) : Prop :=
  ∀ name ∈ settingsFiles, d.text? (Path.append root name) = d'.text? (Path.append root name)

theorem SameSettings.trans {a b c : Disk} (hab : SameSettings root a b)
    (hbc : SameSettings root b c) : SameSettings root a c :=
  fun name hname => (hab name hname).trans (hbc name hname)

/-- The framework of a project depends on the text of its manifest. -/
theorem detectFramework_congr
    (h : d.text? (Path.append root "package.json") = d'.text? (Path.append root "package.json")) :
    detectFramework d root = detectFramework d' root := by
  unfold detectFramework
  rw [h]

theorem SameSettings.detectFramework (h : SameSettings root d d') :
    detectFramework d root = detectFramework d' root :=
  detectFramework_congr (h "package.json" (by decide))

theorem SameSettings.ignorePatterns (h : SameSettings root d d') :
    ignorePatterns d root = ignorePatterns d' root := by
  have hignore := h ".gitignore" (by decide)
  unfold Project.ignorePatterns
  rw [hignore]

/-- The aliases of a project depend on the texts of its configuration files. -/
theorem firstAliases_congr {names : List String}
    (h : ∀ name ∈ names, d.text? (Path.append root name) = d'.text? (Path.append root name)) :
    firstAliases d root names = firstAliases d' root names := by
  induction names with
  | nil => rfl
  | cons name rest ih =>
    have hname := h name (by simp)
    have hrest := ih fun n hn => h n (by simp [hn])
    unfold firstAliases
    rw [hname, hrest]

theorem SameSettings.loadAliases (h : SameSettings root d d') :
    loadAliases d root = loadAliases d' root := by
  have hsettings : ∀ name ∈ configurationFiles, name ∈ settingsFiles := by decide
  exact firstAliases_congr fun name hname => h name (hsettings name hname)

end Project

end RouteImpact
