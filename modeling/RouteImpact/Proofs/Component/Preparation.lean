import Mathlib.Data.List.TakeWhile
import RouteImpact.Proofs.Analysis.Answers
import RouteImpact.Proofs.Fact.Bindings

namespace RouteImpact

open Component (localName?)

/-!
# Prepared component maps

What is asked about components is asked of maps that belong to the present facts.

* `ComponentMaps.importMap_of_fresh`, `localNameOf_of_fresh`, `mapRouteFile_of_fresh` — a map
  that is not stale is taken as it is;
* `ComponentMaps.Makeable`, `Mappable` — a map that can be made from a text, and from the present
  one;
* `ComponentMaps.prepare_eq_ok`, `get?_prepared` — preparing makes the stale maps, each from the
  text of its file, or those before the first that cannot be made, and leaves the others alone;
* `Session.Prepared` — every route file has the map of its fact;
  `Session.prepared_of_prepareComponents` — so it is after preparing;
* `Session.serving_of_prepared` — then the routes that render a file are found route file by
  route file, without reading anything;
* `Session.agrees_of_contentHash` — a file whose fact is of the present text does not count
  as changed;
* `Session.detectRoutes_precise_one` — the precise answer about one file.
-/

namespace ComponentMaps

variable {m m' : ComponentMaps} {src : ComponentSource} {file : String}

/-! ### Maps that are not stale -/

theorem importMap_of_fresh (h : m.isStale src.graph file = false) :
    m.importMap src file = .ok ⟨m.current file, [], m⟩ := by
  rw [importMap, if_neg (by simp [h])]

theorem localNameOf_of_fresh (h : m.isStale src.graph file = false) (component : String) :
    m.localNameOf src file component =
      .ok ⟨localName? src.aliases (m.current file) component, [], m⟩ := by
  rw [localNameOf, importMap_of_fresh h]

/-- The routes of a file with the components that given bindings name. -/
def routesWith (g : ImportGraph) (bindings : ImportMap) (file : String) : List RouteComponent :=
  (g.fact? file).elim [] fun fact => fact.routes.map (withBinding bindings)

theorem mapRouteFile_of_fresh (h : m.isStale src.graph file = false) :
    m.mapRouteFile src file = .ok ⟨routesWith src.graph (m.current file) file, [], m⟩ := by
  unfold mapRouteFile routesWith
  cases src.graph.fact? file with
  | none => rfl
  | some fact =>
    cases hroutes : fact.routes with
    | nil => simp [hroutes]
    | cons r rest => simp [hroutes, importMap_of_fresh h]

/-- Whether a map is stale, and what it says, is a matter of its own entry. -/
theorem isStale_congr (g : ImportGraph) (h : m'.maps.get? file = m.maps.get? file) :
    m'.isStale g file = m.isStale g file := by
  rw [isStale, isStale, h]

theorem current_congr (h : m'.maps.get? file = m.maps.get? file) :
    m'.current file = m.current file := by
  rw [current, current, h]

theorem isStale_of_get? {bindings : ImportMap} {g : ImportGraph}
    (h : m.maps.get? file = some (factHash g file, bindings)) : m.isStale g file = false := by
  simp [isStale, h]

theorem current_of_get? {hash : String} {bindings : ImportMap}
    (h : m.maps.get? file = some (hash, bindings)) : m.current file = bindings := by
  rw [current, h]
  rfl

/-! ### Making maps -/

/-- The bindings of a text that is the version of a file's fact, as far as its imports can be
resolved. -/
def bindingsFor (src : ComponentSource) (file : String) (content : Option String) : ImportMap :=
  match content with
  | some text =>
    if factHash src.graph file ≠ "" ∧ agrees src.graph file content then
      ImportMap.ofText src.extractor.resolver file text
    else OrderedMap.empty
  | none => OrderedMap.empty

/-- The map of a file can be made from a text: the imports of the text can be resolved, if it is
the version of the file's fact. -/
def Makeable (src : ComponentSource) (file : String) (content : Option String) : Prop :=
  ∀ text, content = some text → factHash src.graph file ≠ "" →
    agrees src.graph file content = true → ImportMap.Resolves src.extractor.resolver file text

variable {content : Option String}

theorem bindingsOf_eq_ok {bindings : ImportMap} :
    bindingsOf src file content = .ok bindings ↔
      Makeable src file content ∧ bindingsFor src file content = bindings := by
  cases content with
  | none => simp [bindingsOf, bindingsFor, Makeable]
  | some text =>
    unfold bindingsOf bindingsFor Makeable
    dsimp only
    by_cases hversion : factHash src.graph file ≠ "" ∧ agrees src.graph file (some text) = true
    · rw [if_pos hversion, if_pos hversion]
      unfold ImportMap.ofText ImportMap.Resolves
      cases htree : Extractor.parse file text with
      | none => simp [htree]
      | some tree => simp [htree, hversion, ImportMap.make_eq_ok]
    · rw [if_neg hversion, if_neg hversion]
      have hany : ∀ t, some text = some t → factHash src.graph file ≠ "" →
          agrees src.graph file (some text) = true →
            ImportMap.Resolves src.extractor.resolver file t :=
        fun t _ hhash hagrees => absurd ⟨hhash, hagrees⟩ hversion
      exact ⟨fun h => ⟨hany, Except.ok.inj h⟩, fun h => congrArg Except.ok h.2⟩

theorem isSome_bindingsOf :
    (bindingsOf src file content).toOption.isSome = true ↔ Makeable src file content := by
  constructor
  · intro h
    cases hbindings : bindingsOf src file content with
    | error e => simp [hbindings, Except.toOption] at h
    | ok bindings => exact (bindingsOf_eq_ok.1 hbindings).1
  · intro h
    rw [bindingsOf_eq_ok.2 ⟨h, rfl⟩]
    rfl

/-- The maps with that of a file made from a text. -/
def loaded (m : ComponentMaps) (src : ComponentSource) (file : String) (content : Option String) :
    ComponentMaps :=
  ⟨m.maps.set file (factHash src.graph file, bindingsFor src file content)⟩

theorem load_eq_ok : m.load src file content = .ok m' ↔
    Makeable src file content ∧ m.loaded src file content = m' := by
  unfold load
  split
  · next e he =>
    have hnot : ¬ Makeable src file content := fun h => by
      rw [bindingsOf_eq_ok.2 ⟨h, rfl⟩] at he
      cases he
    simp [hnot]
  · next bindings hbindings =>
    obtain ⟨hmake, rfl⟩ := bindingsOf_eq_ok.1 hbindings
    simp [hmake, loaded]

theorem get?_loaded (content : Option String) (x : String) :
    (m.loaded src file content).maps.get? x =
      if file = x then some (factHash src.graph file, bindingsFor src file content)
      else m.maps.get? x := by
  rw [loaded, OrderedMap.get?_set]

/-- The maps with those of several files made from their texts. -/
def loadedAll (m : ComponentMaps) (src : ComponentSource)
    (texts : List (String × Option String)) : ComponentMaps :=
  texts.foldl (fun m e => m.loaded src e.1 e.2) m

/-- The files whose text is not the version of their fact. -/
def changedAmong (g : ImportGraph) (texts : List (String × Option String)) : List String :=
  (texts.filter fun e => !agrees g e.1 e.2).map (·.1)

theorem loadAll_eq_ok {texts : List (String × Option String)}
    {result : List String × ComponentMaps} :
    loadAll src texts m = .ok result ↔
      (∀ e ∈ texts, Makeable src e.1 e.2) ∧
        (changedAmong src.graph texts, m.loadedAll src texts) = result := by
  induction texts generalizing m result with
  | nil => simp [loadAll, loadedAll, changedAmong]
  | cons e rest ih =>
    obtain ⟨f, content⟩ := e
    rw [loadAll, List.forall_mem_cons]
    cases hload : m.load src f content with
    | error e =>
      have hnot : ¬ Makeable src f content := fun h => by
        rw [load_eq_ok.2 ⟨h, rfl⟩] at hload
        cases hload
      simp [hnot]
    | ok m₁ =>
      obtain ⟨hmake, rfl⟩ := load_eq_ok.1 hload
      dsimp only
      cases hrest : loadAll src rest (m.loaded src f content) with
      | error halted =>
        have hnot : ¬ ∀ e ∈ rest, Makeable src e.1 e.2 := fun h => by
          rw [ih.2 ⟨h, rfl⟩] at hrest
          cases hrest
        simp only [hnot, and_false, false_and, reduceCtorEq]
      | ok found =>
        obtain ⟨hmakes, rfl⟩ := ih.1 hrest
        have hchanged : changedAmong src.graph ((f, content) :: rest) =
            if agrees src.graph f content then changedAmong src.graph rest
            else f :: changedAmong src.graph rest := by
          cases hagrees : agrees src.graph f content <;> simp [changedAmong, hagrees]
        rw [hchanged]
        exact ⟨fun h => ⟨⟨hmake, hmakes⟩, Except.ok.inj h⟩, fun h => congrArg Except.ok h.2⟩

/-- Loading that fails leaves the maps before the first that cannot be made. -/
theorem of_loadAll_error {texts : List (String × Option String)} {halted : Halted ComponentMaps}
    (h : loadAll src texts m = .error halted) :
    halted.left = m.loadedAll src
      (texts.takeWhile fun e => (bindingsOf src e.1 e.2).toOption.isSome) := by
  induction texts generalizing m with
  | nil => cases h
  | cons e rest ih =>
    obtain ⟨f, content⟩ := e
    rw [loadAll] at h
    cases hload : m.load src f content with
    | error e =>
      rw [hload] at h
      cases h
      have hnot : ¬ Makeable src f content := fun hmake => by
        rw [load_eq_ok.2 ⟨hmake, rfl⟩] at hload
        cases hload
      rw [List.takeWhile_cons, if_neg (by rwa [isSome_bindingsOf])]
      rfl
    | ok m₁ =>
      rw [hload] at h
      obtain ⟨hmake, rfl⟩ := load_eq_ok.1 hload
      dsimp only at h
      split at h
      · next halted' hrest =>
        cases h
        have hmade : (bindingsOf src (f, content).1 (f, content).2).toOption.isSome = true :=
          isSome_bindingsOf.2 hmake
        rw [ih hrest, List.takeWhile_cons, if_pos hmade]
        rfl
      · cases h

/-- Loading texts makes the maps of their files, each by its own text. -/
theorem get?_loadedAll (content : String → Option String) (files : List String)
    (m : ComponentMaps) (x : String) :
    (m.loadedAll src (files.map fun f => (f, content f))).maps.get? x =
      if x ∈ files then some (factHash src.graph x, bindingsFor src x (content x))
      else m.maps.get? x := by
  induction files generalizing m with
  | nil => rfl
  | cons file files ih =>
    refine (ih (m.loaded src file (content file))).trans ?_
    rw [get?_loaded]
    -- of a file that is listed twice the later text counts, and it is the same text
    by_cases hx : x ∈ files
    · simp [hx]
    · by_cases hfile : file = x
      · simp [hfile]
      · simp [hx, hfile, Ne.symm hfile]

/-! ### Making stale maps -/

/-- The present text of a file; one that cannot be asked for has none. -/
def textNow (src : ComponentSource) (file : String) : Option String :=
  (src.read file).toOption.join

theorem read_eq_textNow {content : Option String} (h : src.read file = .ok content) :
    src.read file = .ok (textNow src file) := by
  rw [textNow, h]
  rfl

theorem read_of_textNow {text : String} (h : textNow src file = some text) :
    src.read file = .ok (some text) := by
  rw [textNow] at h
  cases hread : src.read file with
  | error e => simp [hread, Except.toOption] at h
  | ok content =>
    rw [hread] at h
    exact congrArg Except.ok h

theorem mapM_read_eq_ok {files : List String} {contents : List (Option String)} :
    files.mapM src.read = .ok contents ↔
      (∀ f ∈ files, ∃ content, src.read f = .ok content) ∧
        files.map (textNow src) = contents := by
  induction files generalizing contents with
  | nil => simp [pure, Except.pure]
  | cons file files ih =>
    rw [List.mapM_cons]
    simp only [bind_eq_ok, List.forall_mem_cons, List.map_cons, ih]
    constructor
    · rintro ⟨content, hfile, rest, ⟨hrest, rfl⟩, h⟩
      cases h
      refine ⟨⟨⟨content, hfile⟩, hrest⟩, ?_⟩
      rw [textNow, hfile]
      rfl
    · rintro ⟨⟨⟨content, hfile⟩, hrest⟩, rfl⟩
      exact ⟨textNow src file, read_eq_textNow hfile, _, ⟨hrest, rfl⟩, rfl⟩

/-- The map of a file can be made now. -/
def Mappable (src : ComponentSource) (file : String) : Prop :=
  (∃ content, src.read file = .ok content) ∧ Makeable src file (textNow src file)

/-- The present texts of several files. -/
def textsNow (src : ComponentSource) (files : List String) : List (String × Option String) :=
  files.map fun f => (f, textNow src f)

theorem zip_textsNow (src : ComponentSource) (files : List String) :
    files.zip (files.map (textNow src)) = textsNow src files :=
  List.map_prod_left_eq_zip.symm

/-- **Preparing makes the stale maps from the texts of their files**, if all of them can be
made. -/
theorem prepare_eq_ok {files : List String} {found : Mapped (List String)} :
    m.prepare src files = .ok found ↔
      (∀ f ∈ files, m.isStale src.graph f = true → Mappable src f) ∧
        (let stale := files.filter (m.isStale src.graph ·)
         ⟨changedAmong src.graph (textsNow src stale), stale,
           m.loadedAll src (textsNow src stale)⟩) = found := by
  have hstale : (∀ f ∈ files, m.isStale src.graph f = true → Mappable src f) ↔
      (∀ f ∈ files.filter (m.isStale src.graph ·), ∃ content, src.read f = .ok content) ∧
        ∀ e ∈ textsNow src (files.filter (m.isStale src.graph ·)), Makeable src e.1 e.2 := by
    simp only [textsNow, List.forall_mem_map, List.mem_filter, and_imp, Mappable,
      ← forall_and]
  rw [hstale]
  unfold prepare
  dsimp only
  generalize files.filter (m.isStale src.graph ·) = stale
  cases hreads : stale.mapM src.read with
  | error e =>
    have hnot : ¬ ∀ f ∈ stale, ∃ content, src.read f = .ok content := fun h => by
      rw [mapM_read_eq_ok.2 ⟨h, rfl⟩] at hreads
      cases hreads
    simp [hnot]
  | ok contents =>
    obtain ⟨hread, rfl⟩ := mapM_read_eq_ok.1 hreads
    dsimp only
    rw [zip_textsNow]
    cases hload : loadAll src (textsNow src stale) m with
    | error halted =>
      have hnot : ¬ ∀ e ∈ textsNow src stale, Makeable src e.1 e.2 := fun h => by
        rw [loadAll_eq_ok.2 ⟨h, rfl⟩] at hload
        cases hload
      simp only [hnot, and_false, false_and, reduceCtorEq]
    | ok result =>
      obtain ⟨hmakes, rfl⟩ := loadAll_eq_ok.1 hload
      exact ⟨fun h => ⟨⟨hread, hmakes⟩, Except.ok.inj h⟩, fun h => congrArg Except.ok h.2⟩

/-- The files whose maps preparing makes: those that are stale, up to the first whose map cannot be
made, and none if one of them cannot be asked for. -/
def made (m : ComponentMaps) (src : ComponentSource) (files : List String) : List String :=
  let stale := files.filter (m.isStale src.graph ·)
  if stale.all fun f => (src.read f).toOption.isSome then
    stale.takeWhile fun f => (bindingsOf src f (textNow src f)).toOption.isSome
  else []

/-- The maps that preparing leaves. -/
def prepared (m : ComponentMaps) (src : ComponentSource) (files : List String) : ComponentMaps :=
  match m.prepare src files with
  | .ok found => found.maps
  | .error halted => halted.left

theorem isSome_read : (src.read file).toOption.isSome = true ↔
    ∃ content, src.read file = .ok content := by
  cases src.read file <;> simp [Except.toOption]

theorem made_of_mappable {files : List String}
    (h : ∀ f ∈ files, m.isStale src.graph f = true → Mappable src f) :
    m.made src files = files.filter (m.isStale src.graph ·) := by
  have hmappable : ∀ f ∈ files.filter (m.isStale src.graph ·), Mappable src f := fun f hf =>
    h f (List.mem_of_mem_filter hf) (List.mem_filter.1 hf).2
  unfold made
  dsimp only
  rw [if_pos (List.all_eq_true.2 fun f hf => isSome_read.2 (hmappable f hf).1),
    List.takeWhile_eq_self_iff]
  exact fun f hf => isSome_bindingsOf.2 (hmappable f hf).2

/-- Preparing leaves the maps that it made, whether it succeeds or not. -/
theorem prepared_eq (files : List String) :
    m.prepared src files = m.loadedAll src (textsNow src (m.made src files)) := by
  unfold prepared
  split
  · next found hfound =>
    obtain ⟨hmappable, rfl⟩ := prepare_eq_ok.1 hfound
    rw [made_of_mappable hmappable]
  · next halted h =>
    unfold prepare at h
    unfold made
    dsimp only at h ⊢
    generalize files.filter (m.isStale src.graph ·) = stale at h ⊢
    cases hreads : stale.mapM src.read with
    | error e =>
      have hnot : ¬ (stale.all fun f => (src.read f).toOption.isSome) = true := fun hall => by
        have hread := fun f hf => isSome_read.1 (List.all_eq_true.1 hall f hf)
        rw [mapM_read_eq_ok.2 ⟨hread, rfl⟩] at hreads
        cases hreads
      rw [hreads] at h
      cases h
      rw [if_neg hnot]
      rfl
    | ok contents =>
      obtain ⟨hread, rfl⟩ := mapM_read_eq_ok.1 hreads
      rw [if_pos (List.all_eq_true.2 fun f hf => isSome_read.2 (hread f hf))]
      rw [hreads] at h
      dsimp only at h
      rw [zip_textsNow] at h
      split at h
      · next halted' hload =>
        cases h
        rw [of_loadAll_error hload, textsNow, List.takeWhile_map]
        rfl
      · cases h

/-- What preparing leaves for each file, whether it succeeds or not. -/
theorem get?_prepared (files : List String) (x : String) :
    (m.prepared src files).maps.get? x =
      if x ∈ m.made src files then
        some (factHash src.graph x, bindingsFor src x (textNow src x))
      else m.maps.get? x := by
  rw [prepared_eq]
  exact get?_loadedAll (textNow src) _ m x

/-- What preparing leaves for each file. -/
theorem get?_of_prepare {files : List String} {found : Mapped (List String)}
    (h : m.prepare src files = .ok found) (x : String) :
    found.maps.maps.get? x =
      if x ∈ files ∧ m.isStale src.graph x = true then
        some (factHash src.graph x, bindingsFor src x (textNow src x))
      else m.maps.get? x := by
  obtain ⟨-, rfl⟩ := prepare_eq_ok.1 h
  refine (get?_loadedAll (textNow src) _ m x).trans ?_
  simp only [List.mem_filter]

/-- No file counts as changed if every text is the version of its fact. -/
theorem value_of_prepare {files : List String} {found : Mapped (List String)}
    (h : m.prepare src files = .ok found)
    (hagrees : ∀ f ∈ files, m.isStale src.graph f = true →
      agrees src.graph f (textNow src f) = true) : found.value = [] := by
  obtain ⟨-, rfl⟩ := prepare_eq_ok.1 h
  simp only [changedAmong, textsNow, List.map_eq_nil_iff, List.filter_eq_nil_iff,
    List.forall_mem_map, List.mem_filter, and_imp]
  intro f hf hstale
  simp [hagrees f hf hstale]

end ComponentMaps

namespace Session

open ComponentMaps (routesWith factHash bindingsFor agrees textNow Mappable)

variable {s t : Session} {p file : String}

/-! ### Prepared sessions -/

/-- Every route file has the map of its present fact. -/
def Prepared (s : Session) : Prop :=
  ∀ routeFile ∈ s.graph.routeFiles, s.components.isStale s.graph routeFile = false

instance (s : Session) : Decidable s.Prepared :=
  inferInstanceAs (Decidable (∀ routeFile ∈ s.graph.routeFiles,
    s.components.isStale s.graph routeFile = false))

/-- The bindings that a file would get now. -/
def bindingsNow (s : Session) (file : String) : ImportMap :=
  bindingsFor s.componentSource file (textNow s.componentSource file)

/-- The map of a file can be made if what its text binds can be resolved. -/
theorem mappable_of_text {text : String} (hread : s.read file = .ok (some text))
    (h : ImportMap.Resolves s.resolver file text) : Mappable s.componentSource file := by
  have hsource : s.componentSource.read file = .ok (some text) := hread
  refine ⟨⟨_, hsource⟩, fun other hother _ _ => ?_⟩
  rw [textNow, hsource] at hother
  cases hother
  exact h

/-- In particular the map of a file whose fact can be extracted. -/
theorem mappable_of_extractable {content : Option String} (hread : s.read file = .ok content)
    (h : s.Extractable file) : Mappable s.componentSource file := by
  cases content with
  | none =>
    have hsource : s.componentSource.read file = .ok none := hread
    refine ⟨⟨_, hsource⟩, fun text htext => ?_⟩
    rw [textNow, hsource] at htext
    cases htext
  | some text =>
    have hsource : Project.readSource s.disk s.root file s.extractor.maxFileSize =
        .ok (some text) := hread
    obtain ⟨fact, hfact⟩ := (@Extractor.exists_extract _ s.now _ _).2 (h text hsource)
    have hresolves : ImportMap.Resolves s.extractor.resolver file text :=
      ImportMap.resolves_of_extract hfact (Extractor.isSkippable_of_readSource hsource)
    exact mappable_of_text hread hresolves

/-- And so can the map of a file that gets a new fact. -/
theorem mappable_of_freshFact? {fact : FileFact} (hst : Remembers s t)
    (h : s.freshFact? file = .ok (some fact)) : Mappable t.componentSource file := by
  have hextractable := extractable_of_freshFact? h
  unfold freshFact? at h
  obtain ⟨content, hread, -⟩ := bind_eq_ok.1 h
  have hread' : t.read file = .ok content := by
    rw [hst]
    exact hread
  have hdisk : t.disk = s.disk := by
    rw [hst]
    rfl
  refine mappable_of_extractable hread' ?_
  rwa [extractable_congr hst.sameAnalysis hdisk]

/-- Every map of a route file that has to be made can be made. -/
def Preparable (s : Session) : Prop :=
  ∀ routeFile ∈ s.graph.routeFiles, s.components.isStale s.graph routeFile = true →
    Mappable s.componentSource routeFile

/-- Where it succeeds, **preparing once** makes the maps that are stale. -/
theorem of_prepareOnce {changed : List String} (h : s.prepareOnce = (.ok changed, t)) :
    s.Preparable ∧ t = { s with components := t.components } ∧
      (∀ x, t.components.maps.get? x =
        if x ∈ s.graph.routeFiles ∧ s.components.isStale s.graph x = true then
          some (factHash s.graph x, s.bindingsNow x)
        else s.components.maps.get? x) ∧
      ((∀ routeFile ∈ s.graph.routeFiles, s.components.isStale s.graph routeFile = true →
        agrees s.graph routeFile (textNow s.componentSource routeFile) = true) →
          changed = []) := by
  unfold prepareOnce at h
  split at h
  · cases h
  · next found hfound =>
    cases h
    exact ⟨(ComponentMaps.prepare_eq_ok.1 hfound).1, rfl, ComponentMaps.get?_of_prepare hfound,
      ComponentMaps.value_of_prepare hfound⟩

theorem exists_prepareOnce : (∃ changed t, s.prepareOnce = (.ok changed, t)) ↔ s.Preparable := by
  constructor
  · rintro ⟨changed, t, h⟩
    exact (of_prepareOnce h).1
  · intro h
    have hprepare := (@ComponentMaps.prepare_eq_ok s.components s.componentSource
      s.graph.routeFiles _).2 ⟨h, rfl⟩
    unfold prepareOnce
    rw [hprepare]
    exact ⟨_, _, rfl⟩

theorem prepared_of_prepareOnce {changed : List String} (h : s.prepareOnce = (.ok changed, t)) :
    t.Prepared := by
  obtain ⟨-, hframe, hmaps, -⟩ := of_prepareOnce h
  have hgraph : t.graph = s.graph := by rw [hframe]
  intro routeFile hroute
  rw [hgraph] at hroute ⊢
  have hget := hmaps routeFile
  cases hstale : s.components.isStale s.graph routeFile with
  | true =>
    rw [if_pos ⟨hroute, hstale⟩] at hget
    exact ComponentMaps.isStale_of_get? hget
  | false =>
    rw [if_neg (by simp [hstale])] at hget
    rw [ComponentMaps.isStale_congr s.graph hget, hstale]

/-- **Preparing succeeds only with every map in place.** -/
theorem prepared_of_prepareComponents (h : s.prepareComponents = (.ok (), t)) : t.Prepared := by
  obtain ⟨changed, u, honce, h⟩ := Outcome.of_andThen h
  split at h
  · cases h
    exact prepared_of_prepareOnce honce
  · -- the route files that had changed are refreshed before the maps are made again
    obtain ⟨-, v, -, h⟩ := Outcome.of_andThen h
    obtain ⟨again, w, hagain, h⟩ := Outcome.of_andThen h
    cases h
    exact prepared_of_prepareOnce hagain

/-- There is nothing to prepare where all maps are in place. -/
theorem prepareComponents_of_prepared (h : s.Prepared) : s.prepareComponents = (.ok (), s) := by
  -- no map is stale, so no file is read and none can be found changed
  have hnone : s.graph.routeFiles.filter (s.components.isStale s.componentSource.graph ·) = [] := by
    rw [List.filter_eq_nil_iff]
    intro routeFile hroute
    have hfresh : s.components.isStale s.componentSource.graph routeFile = false :=
      h routeFile hroute
    simp [hfresh]
  have honce : s.prepareOnce = (.ok [], s) := by
    unfold prepareOnce ComponentMaps.prepare
    dsimp only
    rw [hnone]
    rfl
  rw [prepareComponents, honce]
  rfl

/-! ### Files that have not changed -/

theorem factHash_eq_heldFact (s : Session) (file : String) :
    factHash s.graph file = (s.heldFact file).contentHash := by
  unfold factHash
  cases hf : s.graph.fact? file with
  | none => rw [heldFact_of_none hf, FileFact.contentHash_none, Option.elim_none]
  | some fact => rw [heldFact_of_some hf, Option.elim_some]

theorem readSource_of_textNow {text : String} (h : textNow s.componentSource file = some text) :
    Project.readSource s.disk s.root file s.extractor.maxFileSize = .ok (some text) := by
  have hread : s.componentSource.read file = .ok (some text) := ComponentMaps.read_of_textNow h
  have hsource : s.componentSource.read =
      fun file => Project.readSource s.disk s.root file s.config.maxFileSize := rfl
  have hsize : s.extractor.maxFileSize = s.config.maxFileSize := rfl
  rw [hsource] at hread
  rw [hsize]
  exact hread

theorem agrees_of_contentHash
    (h : (s.heldFact file).contentHash = (s.factNow file).contentHash) :
    agrees s.graph file (textNow s.componentSource file) = true := by
  cases htext : textNow s.componentSource file with
  | none => rfl
  | some text =>
    have hread := readSource_of_textNow htext
    have hnow : (s.factNow file).contentHash = Digest.contentHash text := by
      rw [factNow, Project.factOf_of_some hread, Extractor.contentHash_factOf hread]
    rw [agrees, factHash_eq_heldFact, h, hnow]
    simp

/-- The bindings of a file whose fact is of the present text are those of the text. -/
theorem bindingsNow_of_text {text : String} (hread : s.read file = .ok (some text))
    (h : (s.heldFact file).contentHash = (s.factNow file).contentHash) :
    s.bindingsNow file =
      (Extractor.parse file text).elim OrderedMap.empty (ImportMap.collect s.resolver file) := by
  have htext : textNow s.componentSource file = some text := by
    have hsource : s.componentSource.read file = s.read file := rfl
    rw [textNow, hsource, hread]
    rfl
  have hsource := readSource_of_textNow htext
  have hhash : factHash s.graph file ≠ "" := by
    rw [factHash_eq_heldFact, h, factNow, Project.factOf_of_some hsource,
      Extractor.contentHash_factOf hsource]
    exact Digest.contentHash_ne_empty text
  have hagrees := agrees_of_contentHash h
  rw [htext] at hagrees
  rw [bindingsNow, htext, bindingsFor]
  exact if_pos ⟨hhash, hagrees⟩

/-- A refresh of one file makes no other map stale, and drops the map of the file. -/
theorem isStale_refreshed_of_ne {fact? : Option FileFact} {x : String} (hx : file ≠ x) :
    (s.refreshed file fact?).components.isStale (s.refreshed file fact?).graph x =
      s.components.isStale s.graph x := by
  rw [ComponentMaps.isStale_congr _ (get?_components_refreshed_of_ne hx),
    ComponentMaps.isStale, ComponentMaps.isStale, factHash, factHash, fact?_refreshed_of_ne hx]

theorem isStale_refreshed_self (s : Session) (file : String) (fact : FileFact) :
    (s.refreshed file (some fact)).components.isStale
      (s.refreshed file (some fact)).graph file = true := by
  have hdropped : (s.refreshed file (some fact)).components.maps.get? file = none := by
    show (s.components.maps.erase file).get? file = none
    rw [OrderedMap.get?_erase, if_pos rfl]
  rw [ComponentMaps.isStale, hdropped, Option.all_none]

/-- Where the stale maps are those of files whose fact is of the present text, preparing
makes these maps and is done, if it succeeds. -/
theorem of_prepareComponents_of_contentHash
    (hhash : ∀ routeFile ∈ s.graph.routeFiles, s.components.isStale s.graph routeFile = true →
      (s.heldFact routeFile).contentHash = (s.factNow routeFile).contentHash)
    (h : s.prepareComponents = (.ok (), t)) :
    t = { s with components := t.components } ∧
      ∀ x, t.components.maps.get? x =
        if x ∈ s.graph.routeFiles ∧ s.components.isStale s.graph x = true then
          some (factHash s.graph x, s.bindingsNow x)
        else s.components.maps.get? x := by
  obtain ⟨changed, u, honce, h⟩ := Outcome.of_andThen h
  obtain ⟨-, hframe, hmaps, hchanged⟩ := of_prepareOnce honce
  obtain rfl := hchanged fun f hf hstale => agrees_of_contentHash (hhash f hf hstale)
  cases h
  exact ⟨hframe, hmaps⟩

/-- It does if the maps can be made. -/
theorem prepareComponents_of_contentHash
    (hhash : ∀ routeFile ∈ s.graph.routeFiles, s.components.isStale s.graph routeFile = true →
      (s.heldFact routeFile).contentHash = (s.factNow routeFile).contentHash)
    (hmake : s.Preparable) : ∃ t, s.prepareComponents = (.ok (), t) := by
  obtain ⟨changed, t, honce⟩ := exists_prepareOnce.2 hmake
  obtain ⟨-, -, -, hchanged⟩ := of_prepareOnce honce
  obtain rfl := hchanged fun f hf hstale => agrees_of_contentHash (hhash f hf hstale)
  refine ⟨t, ?_⟩
  rw [prepareComponents, honce]
  rfl

/-! ### Routes that render a file -/

/-- The name under which a route file knows a file. -/
def nameIn (s : Session) (file routeFile : String) : Option String :=
  localName? (Settings.longestFirst s.config.aliases) (s.components.current routeFile) file

/-- The routes of a route file that render a file. -/
def servedBy (s : Session) (file routeFile : String) : List ServingRoute :=
  (s.nameIn file routeFile).elim [] fun name =>
    routesNamed name file routeFile
      (routesWith s.graph (s.components.current routeFile) routeFile)

/-- The routes that render a file, route file by route file. -/
def served (s : Session) (file : String) : List ServingRoute :=
  s.graph.routeFiles.flatMap (s.servedBy file)

theorem servingIn_of_fresh {routeFile : String}
    (h : s.components.isStale s.graph routeFile = false) (file : String) :
    s.servingIn file routeFile = (.ok (s.servedBy file routeFile), s) := by
  have hlocal : s.components.localNameOf s.componentSource routeFile file =
      .ok ⟨s.nameIn file routeFile, [], s.components⟩ := ComponentMaps.localNameOf_of_fresh h file
  have hmapped : s.components.mapRouteFile s.componentSource routeFile =
      .ok ⟨routesWith s.graph (s.components.current routeFile) routeFile, [], s.components⟩ :=
    ComponentMaps.mapRouteFile_of_fresh h
  unfold servingIn servedBy
  rw [hlocal]
  cases s.nameIn file routeFile with
  | none => rfl
  | some name =>
    dsimp only
    rw [hmapped]
    rfl

theorem servingAmong_of_fresh {routeFiles : List String}
    (h : ∀ routeFile ∈ routeFiles, s.components.isStale s.graph routeFile = false)
    (file : String) :
    servingAmong file routeFiles s = (.ok (routeFiles.flatMap (s.servedBy file)), s) := by
  induction routeFiles with
  | nil => rfl
  | cons routeFile rest ih =>
    rw [servingAmong, servingIn_of_fresh (h routeFile (by simp))]
    simp only [Outcome.andThen, ih fun f hf => h f (by simp [hf])]
    rfl

/-- **With all maps in place** the routes that render a file are found without reading. -/
theorem serving_of_prepared (h : s.Prepared) (file : String) :
    s.serving file = (.ok (s.served file), s) :=
  servingAmong_of_fresh h file

theorem mem_servedBy {routeFile : String} {x : ServingRoute} :
    x ∈ s.servedBy file routeFile ↔ ∃ name, s.nameIn file routeFile = some name ∧
      ∃ m ∈ routesWith s.graph (s.components.current routeFile) routeFile,
        ComponentMaps.firstName m.componentName = name ∧
        x = ⟨m.routePath, componentLabel name file, routeFile, m.line⟩ := by
  rw [servedBy]
  cases s.nameIn file routeFile with
  | none => simp
  | some name =>
    simp only [Option.elim_some, routesNamed, List.mem_map, List.mem_filter, beq_iff_eq,
      Option.some.injEq, exists_eq_left', and_assoc]
    refine exists_congr fun m => and_congr_right fun _ => and_congr_right fun _ => ?_
    exact eq_comm

/-- The routes of a route file that render a file are a matter of its fact and its map. -/
theorem servedBy_congr {routeFile : String} (hconfig : t.config = s.config)
    (hfact : t.graph.fact? routeFile = s.graph.fact? routeFile)
    (hmap : t.components.maps.get? routeFile = s.components.maps.get? routeFile) :
    t.servedBy file routeFile = s.servedBy file routeFile := by
  unfold servedBy nameIn routesWith
  rw [hconfig, hfact, ComponentMaps.current_congr hmap]

/-! ### The precise answer -/

/-- The routes that are reported for a file in precise mode, given prepared maps. -/
def preciseRoutes (s : Session) (file : String) : List String :=
  let own := Text.sortedSet ((s.served file).map (·.routePath))
  if own.isEmpty then (s.impactOf file).1 else own

theorem mem_preciseRoutes_of_served {x : ServingRoute} (h : x ∈ s.served file) :
    x.routePath ∈ s.preciseRoutes file := by
  have hown : x.routePath ∈ Text.sortedSet ((s.served file).map (·.routePath)) :=
    Text.mem_sortedSet.2 (List.mem_map.2 ⟨x, h, rfl⟩)
  unfold preciseRoutes
  rwa [if_neg (by simpa using List.ne_nil_of_mem hown)]

theorem of_mem_preciseRoutes {r : String} (h : r ∈ s.preciseRoutes file) :
    r ∈ (s.impactOf file).1 ∨ ∃ x ∈ s.served file, x.routePath = r := by
  unfold preciseRoutes at h
  dsimp only at h
  split at h
  · exact Or.inl h
  · exact Or.inr (List.mem_map.1 (Text.mem_sortedSet.1 h))

/-- **The precise answer about one file**: after a refresh of the file and the preparation
of the maps, the routes that render it, or those that it affects. -/
theorem detectRoutes_precise_one {u : Session} {changed : List String}
    (hrefresh : s.refresh [p] = (.ok changed, t)) (hprepare : t.prepareComponents = (.ok (), u))
    (hnormal : u.normalize p = some file) :
    ∃ found v, s.detectRoutes [p] true = (.ok found, v) ∧
      (found.get? p).getD [] = u.preciseRoutes file := by
  have hprepared := prepared_of_prepareComponents hprepare
  have haffected : u.affected true file =
      (.ok (u.preciseRoutes file), (u.impactOf file).2) := by
    -- the search before changes nothing but what is remembered of it
    have hserving : (u.impactOf file).2.serving file =
        (.ok ((u.impactOf file).2.served file), (u.impactOf file).2) := by
      refine serving_of_prepared ?_ file
      exact hprepared
    unfold affected
    dsimp only
    rw [if_pos rfl]
    show Outcome.andThen ((u.impactOf file).2.serving file) _ = _
    rw [hserving]
    rfl
  obtain ⟨found, hfound, hroutes⟩ := affectedEach_one hnormal haffected
  refine ⟨found, (u.impactOf file).2, ?_, hroutes⟩
  unfold detectRoutes
  rw [hrefresh]
  show Outcome.andThen t.prepareComponents _ = _
  rw [hprepare]
  exact hfound

end Session

end RouteImpact
