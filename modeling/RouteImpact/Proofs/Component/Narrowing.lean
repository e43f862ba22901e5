import RouteImpact.Proofs.Component.Preparation

namespace RouteImpact.Session

open Relation (ReflTransGen)
open Impact (ImporterStep)
open Component (localName?)
open ComponentMaps (routesWith bindingsFor agrees textNow)

/-!
# When the precise answer narrows the plain one

The plain answer about a file follows the imports of the graph back to route files; the
precise one asks every route file for the name of the file.  Where a binding of the route
file resolves to the file, the graph has the import too.  A name that is found by spelling
alone has no such import, and then the precise answer may leave the plain one.

* `UpToDate` — a session without a depth limit that holds what the disk says;
  `upToDate_built` — so it is after a build, and `upToDate_refreshed` after a refresh;
* `mem_resolvedImports_of_bindingsNow` — a binding that resolves to a file is an import;
* `of_prepareComponents_of_upToDate` — preparing gives every route file the bindings of its
  text;
* `KnowsByName` — route files that name a file without resolving to it;
* `precise_subset_plain` — the precise answer lies in the plain one if these reach the
  file in other ways.
-/

variable {s : Session} {p file : String}

/-- A session without a depth limit that says of the route files what the disk says now. -/
structure UpToDate (s : Session) : Prop where
  initialized : s.initialized = true
  coherent : CoherentAt none s
  reflects : s.graph.Reflects
  consistent : s.graph.Consistent
  settled : ∀ routeFile ∈ s.graph.routeFiles, s.Settled routeFile
  maps : ∀ routeFile ∈ s.graph.routeFiles,
    s.components.isStale s.graph routeFile = false →
      s.components.current routeFile = s.bindingsNow routeFile

/-! ### Sessions that are up to date -/

/-- A build that writes nothing to the disk makes a session up to date. -/
theorem upToDate_built {files : List String} {summary : Project.Summary}
    (hdepth : s.config.earlyStopDepth = none) (hdisk : (s.built files summary).disk = s.disk) :
    (s.built files summary).UpToDate := by
  obtain ⟨hreflects, hexact, -, -⟩ := reflects_built s files summary
  refine ⟨rfl, ⟨hdepth, ImpactCache.coherent_empty _ _⟩, hreflects, ?_, ?_, ?_⟩
  · intro x y hy
    exact (hexact y x).2 hy
  · intro routeFile hroute
    obtain ⟨fact, hfact, -⟩ := hreflects.mem_routeFiles_iff.1 hroute
    show (heldFact _ _).undated = _
    rw [heldFact_of_some hfact]
    rw [fact?_built] at hfact
    split at hfact
    · cases hfact
      exact (undated_factNow_of_disk (sameAnalysis_built s files summary) hdisk routeFile).symm
    · cases hfact
  · -- no map has been made yet
    intro routeFile _ hfresh
    cases hfresh

/-- The bindings that a file would get are a matter of its fact and of the disk. -/
theorem bindingsNow_congr {t : Session} (h : Remembers s t)
    (hfact : t.graph.fact? file = s.graph.fact? file) :
    t.bindingsNow file = s.bindingsNow file := by
  have htext : textNow t.componentSource file = textNow s.componentSource file := by
    rw [h]
    rfl
  have hresolver : t.componentSource.extractor = s.componentSource.extractor := by
    rw [h]
    rfl
  have hhash : ComponentMaps.factHash t.componentSource.graph file =
      ComponentMaps.factHash s.componentSource.graph file := by
    show ComponentMaps.factHash t.graph file = ComponentMaps.factHash s.graph file
    rw [ComponentMaps.factHash, ComponentMaps.factHash, hfact]
  unfold bindingsNow bindingsFor agrees
  rw [htext, hresolver, hhash]

/-- Refreshing a file keeps a session up to date. -/
theorem upToDate_refreshed (h : s.UpToDate) (hnormal : s.normalize p = some file)
    {fact? : Option FileFact} (hfact : s.freshFact? file = .ok fact?) :
    (s.refreshed file fact?).UpToDate := by
  have hremembers := remembers_refreshed s file fact?
  obtain ⟨changed, hrefresh⟩ := refresh_one h.initialized hnormal hfact
  have hcoherent : CoherentAt none (s.run [.refresh [p]]) :=
    run_induction (fun s t => coherentAt_step s t) h.coherent _
  have hrun : s.run [.refresh [p]] = s.refreshed file fact? := by
    show (s.refresh [p]).2 = _
    rw [hrefresh]
  rw [hrun] at hcoherent
  cases fact? with
  | none => exact h
  | some fact =>
    have hgraph : (s.refreshed file (some fact)).graph =
      (s.graph.upsert file fact).markEntryPoints := rfl
    refine ⟨h.initialized, hcoherent, ?_, ?_, ?_, ?_⟩
    · rw [hgraph]
      exact (h.reflects.upsert file fact).markEntryPoints
    · rw [hgraph]
      exact ImportGraph.consistent_markEntryPoints
        (ImportGraph.consistent_upsert h.consistent file fact)
    · intro x hx
      show (heldFact _ x).undated = _
      by_cases hne : file = x
      · subst hne
        rw [heldFact_of_some (fact?_refreshed_self s file fact), hremembers.factNow,
          freshFact?_eq_some hfact]
      · rw [undated_heldFact_congr (fact?_refreshed_of_ne hne), hremembers.factNow]
        exact h.settled x ((mem_routeFiles_refreshed hne).1 hx)
    · intro x hx hfresh
      have hne : file ≠ x := by
        rintro rfl
        rw [isStale_refreshed_self] at hfresh
        cases hfresh
      rw [isStale_refreshed_of_ne hne] at hfresh
      rw [ComponentMaps.current_congr (get?_components_refreshed_of_ne hne),
        bindingsNow_congr hremembers (fact?_refreshed_of_ne hne)]
      exact h.maps x ((mem_routeFiles_refreshed hne).1 hx) hfresh

/-! ### Bindings and imports -/

/-- **A binding that resolves to a file is an import of that file.** -/
theorem mem_resolvedImports_of_bindingsNow {routeFile : String} {b : ImportBinding}
    (hb : b ∈ (s.bindingsNow routeFile).values) (hfile : b.resolvedPath = some file) :
    file ∈ (s.factNow routeFile).resolvedImports := by
  unfold bindingsNow bindingsFor at hb
  split at hb
  · next text htext =>
    have hread := readSource_of_textNow htext
    split at hb
    · rw [factNow, Project.factOf_of_some hread]
      exact ImportMap.mem_resolvedImports_factOf (Extractor.isSkippable_of_readSource hread) _ hb
        hfile
    · cases hb
  · cases hb

/-- **Preparing gives every route file the bindings of its text.** -/
theorem of_prepareComponents_of_upToDate {t : Session} (h : s.UpToDate)
    (hprepare : s.prepareComponents = (.ok (), t)) :
    t = { s with components := t.components } ∧
      ∀ routeFile ∈ s.graph.routeFiles,
        t.components.current routeFile = s.bindingsNow routeFile := by
  obtain ⟨hframe, hmaps⟩ := of_prepareComponents_of_contentHash
    (fun routeFile hroute _ => contentHash_of_stands comparison_eq (h.settled routeFile hroute))
    hprepare
  refine ⟨hframe, fun routeFile hroute => ?_⟩
  have hget := hmaps routeFile
  cases hstale : s.components.isStale s.graph routeFile with
  | true =>
    rw [if_pos ⟨hroute, hstale⟩] at hget
    exact ComponentMaps.current_of_get? hget
  | false =>
    rw [if_neg (by simp [hstale])] at hget
    rw [ComponentMaps.current_congr hget]
    exact h.maps routeFile hroute hstale

/-! ### The two answers -/

/-- A route file that names a file, though none of its imports resolves to it. -/
def KnowsByName (s : Session) (file routeFile : String) : Prop :=
  (∀ b ∈ (s.bindingsNow routeFile).values, b.resolvedPath ≠ some file) ∧
    (localName? (Settings.longestFirst s.config.aliases) (s.bindingsNow routeFile) file).isSome =
      true

/-- A route file reaches the file that one of its bindings resolves to. -/
theorem reaches_of_bindingsNow (h : s.UpToDate) {routeFile : String}
    (hroute : routeFile ∈ s.graph.routeFiles) {b : ImportBinding}
    (hb : b ∈ (s.bindingsNow routeFile).values) (hfile : b.resolvedPath = some file) :
    ReflTransGen (ImporterStep s.graph) file routeFile := by
  obtain ⟨fact, hfact, -⟩ := h.reflects.mem_routeFiles_iff.1 hroute
  have himport := mem_resolvedImports_of_bindingsNow hb hfile
  have hsettled : (s.heldFact routeFile).undated = (s.factNow routeFile).undated :=
    h.settled routeFile hroute
  rw [← FileFact.resolvedImports_undated, ← hsettled, FileFact.resolvedImports_undated,
    heldFact_of_some hfact] at himport
  exact Impact.reaches_of_resolvedImport h.reflects h.consistent hfact himport

/-- **Every route that renders a file is affected by it**, if the route files that know the
file by name only reach it in other ways. -/
theorem mem_impactOf_of_served (h : s.UpToDate)
    (hreach : ∀ routeFile ∈ s.graph.routeFiles, s.KnowsByName file routeFile →
      ReflTransGen (ImporterStep s.graph) file routeFile)
    {maps : ComponentMaps}
    (hmaps : ∀ routeFile ∈ s.graph.routeFiles, maps.current routeFile = s.bindingsNow routeFile)
    {x : ServingRoute} (hx : x ∈ Session.served { s with components := maps } file) :
    x.routePath ∈ (s.impactOf file).1 := by
  obtain ⟨routeFile, hroute, hx⟩ := List.mem_flatMap.1 hx
  have hroute' : routeFile ∈ s.graph.routeFiles := hroute
  obtain ⟨name, hname, m, hm, -, rfl⟩ := mem_servedBy.1 hx
  rw [mem_impactOf_iff h.coherent]
  refine ⟨routeFile, ?_, ?_⟩
  · -- a resolved binding is an edge of the graph; a name alone is what is assumed about
    by_cases hresolved : ∃ b ∈ (s.bindingsNow routeFile).values, b.resolvedPath = some file
    · obtain ⟨b, hb, hfile⟩ := hresolved
      exact reaches_of_bindingsNow h hroute' hb hfile
    · refine hreach routeFile hroute' ⟨fun b hb hfile => hresolved ⟨b, hb, hfile⟩, ?_⟩
      have hname' : localName? (Settings.longestFirst s.config.aliases) (maps.current routeFile)
        file = some name := hname
      rw [hmaps routeFile hroute'] at hname'
      rw [hname']
      rfl
  · refine declares_of_heldFact h.reflects ?_
    have hm' : m ∈ routesWith s.graph (maps.current routeFile) routeFile := hm
    unfold routesWith at hm'
    cases hfact : s.graph.fact? routeFile with
    | none => simp [hfact] at hm'
    | some fact =>
      rw [hfact, Option.elim_some] at hm'
      obtain ⟨r, hr, rfl⟩ := List.mem_map.1 hm'
      rw [heldFact_of_some hfact]
      exact List.mem_map.2 ⟨r, hr, rfl⟩

/-- **Precise mode only narrows** the answer about a file, where no route file knows the
file by name alone.  The plain answer is given if the file can be refreshed, the precise one if
then all maps that are missing can be made too. -/
theorem precise_subset_plain (h : s.UpToDate) (hnormal : s.normalize p = some file)
    (hreach : ∀ routeFile ∈ (s.refresh [p]).2.graph.routeFiles,
      (s.refresh [p]).2.KnowsByName file routeFile →
        ReflTransGen (ImporterStep (s.refresh [p]).2.graph) file routeFile) :
    (s.Refreshable file → ∃ plain t, s.detectRoutes [p] false = (.ok plain, t)) ∧
    (s.Refreshable file → (s.refresh [p]).2.Preparable →
      ∃ precise t, s.detectRoutes [p] true = (.ok precise, t)) ∧
    ∀ precise plain t u, s.detectRoutes [p] true = (.ok precise, t) →
      s.detectRoutes [p] false = (.ok plain, u) →
      ∀ r ∈ (precise.get? p).getD [], r ∈ (plain.get? p).getD [] := by
  have hrefreshed : ∀ fact?, s.freshFact? file = .ok fact? →
      (s.refreshed file fact?).UpToDate ∧ (s.refreshed file fact?).normalize p = some file ∧
        ∃ changed, s.refresh [p] = (.ok changed, s.refreshed file fact?) := by
    intro fact? hfact
    refine ⟨upToDate_refreshed h hnormal hfact, ?_, refresh_one h.initialized hnormal hfact⟩
    rw [(remembers_refreshed s file fact?).normalize, hnormal]
  refine ⟨fun hfile => ?_, fun hfile hprepare => ?_, ?_⟩
  · obtain ⟨fact?, hfact⟩ := exists_freshFact?.2 hfile
    obtain ⟨-, hnormal', changed, hrefresh⟩ := hrefreshed fact? hfact
    obtain ⟨plain, t, hplain, -⟩ := detectRoutes_plain_one hrefresh hnormal'
    exact ⟨plain, t, hplain⟩
  · obtain ⟨fact?, hfact⟩ := exists_freshFact?.2 hfile
    obtain ⟨hup, hnormal', changed, hrefresh⟩ := hrefreshed fact? hfact
    rw [hrefresh] at hprepare
    obtain ⟨u, hu⟩ := prepareComponents_of_contentHash
      (fun routeFile hroute _ => contentHash_of_stands comparison_eq (hup.settled routeFile hroute))
      hprepare
    have hnormal'' : u.normalize p = some file := by
      rw [(of_prepareComponents_of_upToDate hup hu).1]
      exact hnormal'
    obtain ⟨precise, t, hprecise, -⟩ := detectRoutes_precise_one hrefresh hu hnormal''
    exact ⟨precise, t, hprecise⟩
  · intro precise plain t u hprecise hplain r hr
    -- both have refreshed the file, and the precise answer has prepared the maps
    obtain ⟨changed, v, hrefresh, hrest⟩ := Outcome.of_andThen hprecise
    obtain ⟨⟨⟩, w, hprepare, -⟩ := Outcome.of_andThen hrest
    rw [if_pos rfl] at hprepare
    obtain ⟨fact?, hfact, rfl⟩ := of_refresh_one h.initialized hnormal hrefresh
    obtain ⟨hup, hnormal', -⟩ := hrefreshed fact? hfact
    obtain ⟨hframe, hmaps⟩ := of_prepareComponents_of_upToDate hup hprepare
    have hnormal'' : w.normalize p = some file := by
      rw [hframe]
      exact hnormal'
    obtain ⟨precise', t', hprecise', hown⟩ := detectRoutes_precise_one hrefresh hprepare hnormal''
    obtain ⟨plain', u', hplain', hroutes⟩ := detectRoutes_plain_one hrefresh hnormal'
    rw [hprecise] at hprecise'
    rw [hplain] at hplain'
    cases hprecise'
    cases hplain'
    rw [hrefresh] at hreach
    rw [hown, hframe] at hr
    rw [hroutes]
    -- without routes that render the file precise mode falls back to the plain answer
    rcases of_mem_preciseRoutes hr with hr | ⟨x, hx, rfl⟩
    · exact hr
    · exact mem_impactOf_of_served hup hreach hmaps hx

/-! ### A page and its route -/

/-- A route file that imports the page it renders. -/
def pageText : String := "import A from\"./x\";r=\x7bpath:\"/\",component:A\x7d"

/-- The route file and the page. -/
def pageDisk : Disk :=
  ⟨[(["p"], .directory), (["p", "r.js"], .file pageText.toUTF8), (["p", "x.js"], .file "".toUTF8)]⟩

/-- A session on these files before it is built. -/
def pageStart : Session where
  root := "/p"
  config := { earlyStopDepth := none, aliases := OrderedMap.empty, endings := [".js"],
              loadProjectAliases := false }
  host := { store := .memory OrderedMap.empty, disk := pageDisk }
  now := Number.Binary64.zero
  graph := {}

/-- And after it was built. -/
def pageSession : Session := pageStart.built ["r.js", "x.js"] ⟨2, 1, 1, 0⟩

/-- What the route file says. -/
theorem parse_pageText :
    (Extractor.parse "r.js" pageText).map (fun t =>
      ((pageStart.extractor.routes "r.js" (some t)).map (·.path),
        (ImportMap.collect pageStart.resolver "r.js" t).values, ImportMap.specifiers t)) =
      some (["/"], [⟨"A", "./x", some "x.js", "default", "default", 1⟩], ["./x"]) := by
  decide +kernel

theorem readSource_pageText : Project.readSource pageStart.disk pageStart.root "r.js"
    pageStart.extractor.maxFileSize = .ok (some pageText) := by
  decide

theorem disk_pageSession : pageSession.disk = pageStart.disk := by
  rw [pageSession, disk_built]
  rfl

theorem upToDate_pageSession : pageSession.UpToDate :=
  upToDate_built rfl disk_pageSession

theorem read_pageSession (file : String) : pageSession.read file = pageStart.read file := by
  rw [read, read, disk_pageSession]
  rfl

theorem fact?_pageSession (file : String) : pageSession.graph.fact? file =
    if file ∈ ["r.js", "x.js"] then some (pageStart.factNow file) else none :=
  fact?_built pageStart _ _ file

theorem contentHash_pageSession {file : String} (h : file ∈ ["r.js", "x.js"]) :
    (pageSession.heldFact file).contentHash = (pageSession.factNow file).contentHash := by
  have hfact := fact?_pageSession file
  rw [if_pos h] at hfact
  rw [heldFact_of_some hfact, contentHash_factNow_congr (read_pageSession file)]

/-- The route file is one. -/
theorem mem_routeFiles_pageSession : "r.js" ∈ pageSession.graph.routeFiles := by
  obtain ⟨tree, htree, hvalues⟩ := Option.map_eq_some_iff.1 parse_pageText
  have hfact : pageSession.graph.fact? "r.js" = some (pageStart.factNow "r.js") := by
    rw [fact?_pageSession, if_pos (by decide)]
  refine upToDate_pageSession.reflects.mem_routeFiles_iff.2 ⟨_, hfact, fun hnone => ?_⟩
  rw [factNow, Project.factOf_of_some readSource_pageText,
    Extractor.routes_factOf readSource_pageText, htree] at hnone
  rw [hnone] at hvalues
  cases hvalues

theorem resolver_pageSession : pageSession.resolver = pageStart.resolver := by
  rw [resolver, resolver, disk_pageSession]
  rfl

theorem read_pageText : pageSession.read "r.js" = .ok (some pageText) := by
  rw [read_pageSession]
  exact readSource_pageText

/-- It resolves one of its names to the page. -/
theorem exists_binding_pageSession :
    ∃ b ∈ (pageSession.bindingsNow "r.js").values, b.resolvedPath = some "x.js" := by
  obtain ⟨tree, htree, hvalues⟩ := Option.map_eq_some_iff.1 parse_pageText
  rw [bindingsNow_of_text read_pageText (contentHash_pageSession (by decide)), htree,
    resolver_pageSession, Option.elim_some, (Prod.mk.inj (Prod.mk.inj hvalues).2).1]
  exact ⟨_, List.mem_singleton_self _, rfl⟩

/-- The maps of both files can be made. -/
theorem preparable_pageSession : pageSession.Preparable := by
  intro routeFile hroute _
  obtain ⟨fact, hfact, -⟩ := upToDate_pageSession.reflects.mem_routeFiles_iff.1 hroute
  rw [fact?_pageSession] at hfact
  split at hfact
  · next hfile =>
    simp only [List.mem_cons, List.not_mem_nil, or_false] at hfile
    rcases hfile with rfl | rfl
    · refine mappable_of_text read_pageText fun tree htree => ?_
      have hspecifiers := parse_pageText
      rw [htree] at hspecifiers
      have hresolved : pageStart.resolver.resolveEach "r.js" ["./x"] = .ok () := by decide
      rw [resolver_pageSession, (Prod.mk.inj (Prod.mk.inj (Option.some.inj hspecifiers)).2).2]
      exact hresolved
    · have hread : pageSession.read "x.js" = .ok (some "") := by
        rw [read_pageSession]
        decide
      have hspecifiers : (Extractor.parse "x.js" "").map ImportMap.specifiers = some [] := by
        decide +kernel
      refine mappable_of_text hread fun tree htree => ?_
      rw [htree] at hspecifiers
      rw [Option.some.inj hspecifiers]
      rfl
  · cases hfact

/-- Of the page precise mode reports nothing that the plain answer lacks. -/
theorem precise_subset_plain_pageSession :
    "r.js" ∈ pageSession.graph.routeFiles ∧
      ∃ precise plain t u, pageSession.detectRoutes ["x.js"] true = (.ok precise, t) ∧
        pageSession.detectRoutes ["x.js"] false = (.ok plain, u) ∧
        ∀ r ∈ (precise.get? "x.js").getD [], r ∈ (plain.get? "x.js").getD [] := by
  have hnormal : pageSession.normalize "x.js" = some "x.js" := by
    show Project.normalize "/p" "x.js" = some "x.js"
    decide
  have hnul : Disk.hasNul (Path.append pageSession.root "x.js") = false := by
    show Disk.hasNul (Path.append "/p" "x.js") = false
    decide
  have hkept := freshFact?_of_contentHash (contentHash_pageSession (by decide)) hnul
  obtain ⟨changed, hrefresh⟩ := refresh_one upToDate_pageSession.initialized hnormal hkept
  have hrefreshable := exists_freshFact?.1 ⟨_, hkept⟩
  obtain ⟨hplain, hprecise, hsubset⟩ :=
    precise_subset_plain upToDate_pageSession hnormal fun routeFile hroute hknows => by
      rw [hrefresh] at hroute hknows ⊢
      obtain ⟨fact, hfact, -⟩ := upToDate_pageSession.reflects.mem_routeFiles_iff.1 hroute
      rw [fact?_pageSession] at hfact
      split at hfact
      · next hfile =>
        simp only [List.mem_cons, List.not_mem_nil, or_false] at hfile
        rcases hfile with rfl | rfl
        · obtain ⟨b, hb, hresolved⟩ := exists_binding_pageSession
          exact absurd hresolved (hknows.1 b hb)
        · exact ReflTransGen.refl
      · cases hfact
  obtain ⟨plain, u, hplain⟩ := hplain hrefreshable
  obtain ⟨precise, t, hprecise⟩ := hprecise hrefreshable (hrefresh ▸ preparable_pageSession)
  exact ⟨mem_routeFiles_pageSession, precise, plain, t, u, hprecise, hplain,
    hsubset precise plain t u hprecise hplain⟩

/-! ### A file with the name of a package's component -/

/-- A route file that imports what it renders from a package. -/
def namesakeFact : FileFact where
  path := "r.js"
  imports := [{ source := none, line := 1, specifier := "kit" }]
  routes := [⟨"/", "Button", "r.js", 2, "object"⟩]
  contentHash := "h"
  lastSeenAt := Number.Binary64.zero

/-- A session that knows the route file and its one name. -/
def namesakeSession : Session where
  root := "/p"
  config := pageStart.config
  host := { store := .memory OrderedMap.empty, disk := Disk.empty }
  now := Number.Binary64.zero
  graph := ({} : ImportGraph).upsert "r.js" namesakeFact
  components := ⟨OrderedMap.ofList [("r.js", ("h", OrderedMap.ofList
    [("Button", ⟨"Button", "kit", none, "named", "Button", 1⟩)]))]⟩
  initialized := true

/-- A file that happens to be called like the package's component affects no route, but
precise mode reports the route that renders the component. -/
theorem detectRoutes_namesakeSession :
    (namesakeSession.detectRoutes ["lib/Button.js"] false).1.toOption.map
        (·.get? "lib/Button.js") = some none ∧
      (namesakeSession.detectRoutes ["lib/Button.js"] true).1.toOption.map
        (·.get? "lib/Button.js") = some (some ["/"]) := by
  constructor <;> decide +kernel

end RouteImpact.Session
