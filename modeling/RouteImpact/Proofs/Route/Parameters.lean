import Mathlib.Data.List.TakeDrop
import RouteImpact.Route.Convention
import RouteImpact.Proofs.Path.Names

namespace RouteImpact.Route

/-!
# Bracketed names are replaced one by one

The names of directories and files are made of plain text and of names in brackets.  The four
replacements, which run over the whole text one after the other, together replace each name in
brackets by its image and keep everything else, whatever stands beside it.

* `Form` — the four kinds of brackets, in the order in which they are replaced; `Piece` — plain
  text, or a name in one of the forms;
* `replace_spell`, `replace_spell_later` — a replacement takes the names of its own form, and
  leaves alone those of a later one;
* `Piece.shown`, `replace_shown` — what the pieces look like after so many replacements, and
  that each one leads to the next;
* `rewritten_pieces` — hence what becomes of a text of pieces, alone and as the route of a page.
-/

/-! ### Replacing in a list of characters -/

section

variable {opening closing : List Char} {image : List Char → List Char}

theorem length_bracketed? {cs inner rest : List Char}
    (h : bracketed? opening closing cs = some (inner, rest)) : rest.length < cs.length := by
  unfold bracketed? at h
  split at h
  · next hopen =>
    obtain ⟨tail, rfl⟩ := List.isPrefixOf_iff_prefix.1 hopen
    dsimp only at h
    rw [List.drop_left, List.span_eq_takeWhile_dropWhile] at h
    split at h
    · next hinner =>
      cases h
      -- something stands between the brackets
      have hpos : 0 < (tail.takeWhile (· != ']')).length :=
        List.length_pos_iff.2 hinner.1
      have hsplit : (tail.takeWhile (· != ']')).length + (tail.dropWhile (· != ']')).length =
          tail.length := by
        rw [← List.length_append, List.takeWhile_append_dropWhile]
      simp only [List.length_drop, List.length_append]
      omega
    · cases h
  · cases h

/-- Fuel for the length of the text is enough. -/
theorem replaceLoop_of_le {fuel : Nat} {cs : List Char} (h : cs.length ≤ fuel) :
    replaceLoop opening closing image fuel cs = replace opening closing image cs := by
  have hloop : ∀ (n m : Nat) (cs : List Char), cs.length ≤ n → cs.length ≤ m →
      replaceLoop opening closing image n cs = replaceLoop opening closing image m cs := by
    intro n
    induction n with
    | zero =>
      intro m cs hn _
      rw [List.length_eq_zero_iff.1 (Nat.le_zero.1 hn)]
      cases m <;> rfl
    | succ n ih =>
      intro m cs hn hm
      cases cs with
      | nil => cases m <;> rfl
      | cons c cs =>
        cases m with
        | zero => simp at hm
        | succ m =>
          simp only [List.length_cons] at hn hm
          unfold replaceLoop
          cases hb : bracketed? opening closing (c :: cs) with
          | none => rw [ih m cs (by omega) (by omega)]
          | some found =>
            have hlt := length_bracketed? hb
            simp only [List.length_cons] at hlt
            dsimp only
            rw [ih m found.2 (by omega) (by omega)]
  exact hloop _ _ cs h (Nat.le_refl _)

/-- Where nothing in brackets begins, the character stays. -/
theorem replace_cons_of_none {c : Char} {cs : List Char}
    (h : bracketed? opening closing (c :: cs) = none) :
    replace opening closing image (c :: cs) = c :: replace opening closing image cs := by
  rw [replace, List.length_cons, replaceLoop, h]
  exact congrArg _ (replaceLoop_of_le (Nat.le_refl _))

/-- Where something in brackets begins, its image stands in its place. -/
theorem replace_of_some {cs inner rest : List Char}
    (h : bracketed? opening closing cs = some (inner, rest)) :
    replace opening closing image cs = image inner ++ replace opening closing image rest := by
  have hlt := length_bracketed? h
  cases cs with
  | nil => simp at hlt
  | cons c cs =>
    rw [replace, List.length_cons, replaceLoop, h]
    exact congrArg _ (replaceLoop_of_le (by simpa using Nat.le_of_lt_succ hlt))

theorem bracketed?_of_not_opening {cs : List Char} (h : ¬ opening <+: cs) :
    bracketed? opening closing cs = none := by
  rw [bracketed?, if_neg (by rwa [List.isPrefixOf_iff_prefix])]

/-- A name between the two brackets is found. -/
theorem bracketed?_append {inner : List Char} (hne : inner ≠ []) (hinner : ']' ∉ inner)
    (hclosing : ∃ more, closing = ']' :: more) (rest : List Char) :
    bracketed? opening closing (opening ++ (inner ++ (closing ++ rest))) = some (inner, rest) := by
  obtain ⟨more, rfl⟩ := hclosing
  have hspan : (inner ++ (']' :: more ++ rest)).span (· != ']') = (inner, ']' :: more ++ rest) := by
    have hall : ∀ c ∈ inner, (c != ']') = true := by
      intro c hc
      simp only [bne_iff_ne, ne_eq]
      rintro rfl
      exact hinner hc
    rw [List.span_eq_takeWhile_dropWhile, List.takeWhile_append_of_pos hall,
      List.dropWhile_append_of_pos hall]
    simp
  rw [bracketed?, if_pos (List.isPrefixOf_iff_prefix.2 (List.prefix_append _ _)), List.drop_left,
    hspan]
  simp [hne]

end

/-! ### Forms of brackets -/

/-- The forms of a name in brackets, in the order in which they are replaced. -/
inductive Form where
  | optionalAny
  | any
  | optionalOne
  | one
deriving Repr, DecidableEq

namespace Form

/-- What stands before the name. -/
def opening : Form → List Char
  | optionalAny => ['[', '[', '.', '.', '.']
  | any => ['[', '.', '.', '.']
  | optionalOne => ['[', '[']
  | one => ['[']

/-- What stands after it. -/
def closing : Form → List Char
  | optionalAny | optionalOne => [']', ']']
  | any | one => [']']

/-- What a name becomes: a star, or a parameter. -/
def image (f : Form) (name : List Char) : List Char :=
  match f with
  | optionalAny | any => ['*']
  | optionalOne | one => ':' :: name

/-- How many forms are replaced before this one. -/
def rank : Form → Nat
  | optionalAny => 0
  | any => 1
  | optionalOne => 2
  | one => 3

/-- The replacement of the names of a form. -/
def pass (f : Form) (cs : List Char) : List Char := replace f.opening f.closing f.image cs

end Form

/-- Parameters come from the four replacements, in the order of the forms. -/
theorem withParameters_eq (route : String) : withParameters route =
    String.ofList (Form.one.pass (Form.optionalOne.pass
      (Form.any.pass (Form.optionalAny.pass route.toList)))) :=
  rfl

/-- Text without brackets. -/
def Plain (cs : List Char) : Prop := '[' ∉ cs ∧ ']' ∉ cs
deriving Decidable

theorem Plain.append {xs ys : List Char} (hx : Plain xs) (hy : Plain ys) : Plain (xs ++ ys) := by
  simp only [Plain, List.mem_append, not_or] at *
  exact ⟨⟨hx.1, hy.1⟩, hx.2, hy.2⟩

/-- A name that may stand in brackets: not empty, without brackets, and not starting with a
point. -/
structure Name where
  text : List Char
  ne_nil : text ≠ []
  plain : Plain text
  no_point : text.head? ≠ some '.'

theorem Form.plain_image (f : Form) (name : Name) : Plain (f.image name.text) := by
  have hcolon : Plain [':'] := by decide
  have hname : Plain (':' :: name.text) := hcolon.append name.plain
  have hstar : Plain ['*'] := by decide
  cases f with
  | optionalAny | any => exact hstar
  | optionalOne | one => exact hname

/-- A piece of a file's or a directory's name. -/
inductive Piece where
  | plain (text : List Char) (h : Plain text)
  | named (form : Form) (name : Name)

namespace Piece

/-- A piece as it is written. -/
def spelling : Piece → List Char
  | plain text _ => text
  | named form name => form.opening ++ name.text ++ form.closing

/-- What a piece becomes. -/
def image : Piece → List Char
  | plain text _ => text
  | named form name => form.image name.text

theorem plain_image (p : Piece) : Plain p.image := by
  cases p with
  | plain text h => exact h
  | named form name => exact form.plain_image name

/-- A piece after the first `k` replacements. -/
def shown (k : Nat) : Piece → List Char
  | plain text _ => text
  | named form name =>
    if form.rank < k then form.image name.text else form.opening ++ name.text ++ form.closing

theorem shown_zero (p : Piece) : p.shown 0 = p.spelling := by
  cases p <;> rfl

theorem shown_four (p : Piece) : p.shown 4 = p.image := by
  cases p with
  | plain text h => rfl
  | named form name => cases form <;> rfl

end Piece

/-- The name that pieces spell. -/
def spelled (ps : List Piece) : String := String.ofList (ps.flatMap Piece.spelling)

/-- The images of pieces, one after the other. -/
def imaged (ps : List Piece) : String := String.ofList (ps.flatMap Piece.image)

/-! ### One replacement -/

section

variable (f : Form) (rest : List Char)

theorem Form.not_opening_cons {c : Char} (h : c ≠ '[') (cs : List Char) :
    ¬ f.opening <+: c :: cs := by
  intro hprefix
  cases f <;> exact h (List.cons_prefix_cons.1 hprefix).1.symm

/-- A replacement keeps what has no opening bracket. -/
theorem Form.pass_append {text : List Char} (h : '[' ∉ text) :
    f.pass (text ++ rest) = text ++ f.pass rest := by
  induction text with
  | nil => rfl
  | cons c cs ih =>
    rw [List.mem_cons, not_or] at h
    rw [List.cons_append, Form.pass, replace_cons_of_none (bracketed?_of_not_opening
      (f.not_opening_cons (Ne.symm h.1) _))]
    exact congrArg _ (ih h.2)

/-- An opening bracket stays where no name of the form begins. -/
theorem Form.pass_bracket {cs : List Char} (h : ¬ f.opening <+: '[' :: cs) :
    f.pass ('[' :: cs) = '[' :: f.pass cs :=
  replace_cons_of_none (bracketed?_of_not_opening h)

/-- A replacement takes a name of its own form. -/
theorem Form.pass_spelling (name : Name) :
    f.pass (f.opening ++ name.text ++ f.closing ++ rest) = f.image name.text ++ f.pass rest := by
  have hclosing : ∃ more, f.closing = ']' :: more := by
    cases f <;> exact ⟨_, rfl⟩
  rw [List.append_assoc, List.append_assoc]
  exact replace_of_some (bracketed?_append name.ne_nil name.plain.2 hclosing rest)

/-- And leaves alone a name of a later form: what stands in brackets does not start with a
point or another bracket, so no shorter opening is taken for a longer one. -/
theorem Form.pass_spelling_later {g : Form} (h : f.rank < g.rank) (name : Name) :
    f.pass (g.opening ++ name.text ++ g.closing ++ rest) =
      g.opening ++ name.text ++ g.closing ++ f.pass rest := by
  obtain ⟨x, xs, htext⟩ := List.exists_cons_of_ne_nil name.ne_nil
  have hx : x ≠ '[' := by
    rintro rfl
    exact name.plain.1 (by simp [htext])
  have hpoint : x ≠ '.' := by
    rintro rfl
    exact name.no_point (by simp [htext])
  -- what follows the opening has no opening bracket
  have hinside : '[' ∉ name.text ++ g.closing := by
    rw [List.mem_append, not_or]
    exact ⟨name.plain.1, by cases g <;> decide⟩
  have htail : f.pass ('[' :: (name.text ++ g.closing ++ rest)) =
      '[' :: (name.text ++ g.closing ++ f.pass rest) := by
    rw [f.pass_bracket, f.pass_append rest hinside]
    rw [htext]
    cases f <;> simp [Form.opening, hx.symm, hpoint.symm]
    exact absurd h (by cases g <;> decide)
  cases g with
  | optionalAny => exact absurd h (by cases f <;> decide)
  | any =>
    have hdots : '[' ∉ ['.', '.', '.'] ++ (name.text ++ Form.any.closing) := by
      rw [List.mem_append, not_or]
      exact ⟨by decide, hinside⟩
    have hopen : ¬ f.opening <+: '[' :: (['.', '.', '.'] ++ (name.text ++ Form.any.closing) ++ rest) := by
      cases f <;> first | exact absurd h (by decide) | simp [Form.opening]
    have hpass := (f.pass_bracket hopen).trans (congrArg _ (f.pass_append rest hdots))
    simpa [Form.opening] using hpass
  | optionalOne =>
    have hopen : ¬ f.opening <+: '[' :: '[' :: (name.text ++ Form.optionalOne.closing ++ rest) := by
      rw [htext]
      cases f <;> first | exact absurd h (by decide) | simp [Form.opening, hpoint.symm]
    exact (f.pass_bracket hopen).trans (congrArg _ htail)
  | one => exact htail

end

/-! ### All replacements -/

theorem Form.rank_injective {f g : Form} (h : f.rank = g.rank) : f = g := by
  cases f <;> cases g <;> first | rfl | cases h

/-- **One replacement takes the names of one form.**  Where the names of the forms before it
are replaced already, those of its own form are, too, afterwards. -/
theorem Form.pass_shown (f : Form) (ps : List Piece) :
    f.pass (ps.flatMap (Piece.shown f.rank)) = ps.flatMap (Piece.shown (f.rank + 1)) := by
  induction ps with
  | nil => rfl
  | cons p ps ih =>
    rw [List.flatMap_cons, List.flatMap_cons]
    cases p with
    | plain text h => exact (f.pass_append _ h.1).trans (congrArg _ ih)
    | named g name =>
      rcases Nat.lt_trichotomy g.rank f.rank with hlt | heq | hgt
      · -- replaced before: an image has no brackets
        simp only [Piece.shown, if_pos hlt, if_pos (Nat.lt_succ_of_lt hlt)]
        rw [f.pass_append _ (g.plain_image name).1, ih]
      · cases rank_injective heq
        simp only [Piece.shown, if_neg (Nat.lt_irrefl _), if_pos (Nat.lt_succ_self _)]
        rw [f.pass_spelling, ih]
      · simp only [Piece.shown, if_neg (Nat.not_lt.2 (Nat.le_of_lt hgt)),
          if_neg (Nat.not_lt.2 hgt)]
        rw [f.pass_spelling_later _ hgt, ih]

theorem withParameters_spelled (ps : List Piece) : withParameters (spelled ps) = imaged ps := by
  have hstart : Piece.spelling = Piece.shown Form.optionalAny.rank :=
    funext fun p => p.shown_zero.symm
  have hend : Piece.shown (Form.one.rank + 1) = Piece.image := funext Piece.shown_four
  -- each replacement begins with what the one before it has left
  have hsecond := Form.optionalAny.pass_shown ps
  have hthird := Form.any.pass_shown ps
  have hfourth := Form.optionalOne.pass_shown ps
  have hlast := Form.one.pass_shown ps
  simp only [Form.rank, Nat.zero_add, Nat.reduceAdd] at *
  rw [withParameters_eq, spelled, String.toList_ofList, hstart, hsecond, hthird, hfourth, hlast,
    hend, imaged]

theorem plain_imaged (ps : List Piece) : Plain (imaged ps).toList := by
  rw [imaged, String.toList_ofList]
  induction ps with
  | nil => decide
  | cons p ps ih => exact p.plain_image.append ih

/-- Text without brackets stays as it is. -/
theorem withParameters_of_plain {route : String} (h : Plain route.toList) :
    withParameters route = route := by
  have hpiece := withParameters_spelled [.plain route.toList h]
  simpa [spelled, imaged, Piece.spelling, Piece.image] using hpiece

/-! ### Routes of directories -/

/-- The slash between two names. -/
def slash : Piece := .plain ['/'] (by decide)

/-- The pieces of a route, a slash in front of each segment. -/
def routePieces : List (List Piece) → List Piece
  | [] => [slash]
  | [segment] => slash :: segment
  | segment :: rest => slash :: segment ++ routePieces rest

/-- Joined segments are pieces of one text. -/
theorem slash_join (text : Piece → List Char) (h : text slash = ['/'])
    (segments : List (List Piece)) :
    "/" ++ Text.join "/" (segments.map fun ps => String.ofList (ps.flatMap text)) =
      String.ofList ((routePieces segments).flatMap text) := by
  induction segments with
  | nil => simp [routePieces, Text.join, h]
  | cons segment rest ih =>
    cases rest with
    | nil =>
      simp [routePieces, Text.join, h, String.ofList_cons]
    | cons next rest =>
      have hstep : "/" ++ Text.join "/"
          ((segment :: next :: rest).map fun ps => String.ofList (ps.flatMap text)) =
          "/" ++ String.ofList (segment.flatMap text) ++ ("/" ++ Text.join "/"
            ((next :: rest).map fun ps => String.ofList (ps.flatMap text))) := by
        simp only [Text.join, List.map_cons, String.intercalate_cons_cons, String.append_assoc]
      rw [hstep, ih]
      simp [routePieces, h, String.ofList_cons, String.ofList_append, String.append_assoc]

/-- The route of segments: a slash, and their images with slashes between them. -/
def routeOf (segments : List (List Piece)) : String :=
  "/" ++ Text.join "/" (segments.map imaged)

theorem ofSegments_spelled (segments : List (List Piece)) :
    ofSegments (segments.map spelled) = routeOf segments := by
  have hspelled := slash_join Piece.spelling rfl segments
  have himaged := slash_join Piece.image rfl segments
  calc ofSegments (segments.map spelled)
      = withParameters (spelled (routePieces segments)) := congrArg withParameters hspelled
    _ = imaged (routePieces segments) := withParameters_spelled _
    _ = routeOf segments := himaged.symm

/-- Whether the segments of a directory show in a route. -/
def isShown (ps : List Piece) : Bool := !isInvisible (spelled ps)

/-- The segments of a page's file without the one that only names a directory's own page. -/
def withoutIndex (segments : List (List Piece)) : List (List Piece) :=
  if (segments.map spelled).getLast? = some "index" then segments.dropLast else segments

/-- What follows the first directory of a name. -/
structure Follows (marker path : String) (rest : List String) : Prop where
  split : ∃ before, Text.split '/' path = before ++ marker :: rest ∧ marker ∉ before
  ne_nil : rest ≠ []

theorem afterMarker?_append {marker : String} {before rest : List String}
    (hbefore : marker ∉ before) (hrest : rest ≠ []) :
    afterMarker? marker (before ++ marker :: rest) = some rest := by
  obtain ⟨x, xs, rfl⟩ := List.exists_cons_of_ne_nil hrest
  induction before with
  | nil => simp [afterMarker?]
  | cons part before ih =>
    rw [List.mem_cons, not_or] at hbefore
    have hne : part ≠ marker := Ne.symm hbefore.1
    have hmore : before ++ marker :: x :: xs ≠ [] := by simp
    obtain ⟨y, ys, htail⟩ := List.exists_cons_of_ne_nil hmore
    rw [List.cons_append, htail, afterMarker?, if_neg hne, ← htail]
    · exact ih hbefore.2
    · exact List.cons_ne_nil _ _

theorem Follows.afterMarker? {marker path : String} {rest : List String}
    (h : Follows marker path rest) : afterMarker? marker (Text.split '/' path) = some rest := by
  obtain ⟨before, hsplit, hbefore⟩ := h.split
  rw [hsplit]
  exact afterMarker?_append hbefore h.ne_nil

namespace Convention

variable {file name : String} {segments : List (List Piece)}

/-- The directories of a page's file that show in its route. -/
theorem visibleSegments_spelled (segments : List (List Piece)) (name : String) :
    visibleSegments (segments.map spelled ++ [name]) = (segments.filter isShown).map spelled := by
  rw [visibleSegments, List.dropLast_concat, List.filter_map]
  rfl

theorem appRoutes_of_follows {ending : String}
    (hname : Path.splitExtension (Path.baseName file) = ("page", ending))
    (hending : ending ∈ pageEndings)
    (hsegments : Follows "app" file (segments.map spelled ++ [name])) :
    appRoutes file =
      [pageRoute file (routeOf (segments.filter isShown)) "Next.js Page" "next-app"] := by
  have hkind : ¬("page" ≠ "page" ∨ (!pageEndings.contains ending) = true) := by
    simp [hending]
  simp only [appRoutes, hname, hsegments.afterMarker?, if_neg hkind, visibleSegments_spelled,
    ofSegments_spelled]

theorem svelteRoutes_of_follows (hname : Path.baseName file = "+page.svelte")
    (hsegments : Follows "routes" file (segments.map spelled ++ [name])) :
    svelteRoutes file =
      [pageRoute file (routeOf (segments.filter isShown)) "SvelteKit Page" "sveltekit"] := by
  simp only [svelteRoutes, hname, hsegments.afterMarker?, visibleSegments_spelled,
    ofSegments_spelled, ne_eq, not_true_eq_false, if_false]

theorem pagesRoutes_of_follows {framework stem ending : String}
    (hframework : framework ∈ pagesFrameworks) (hname : Path.splitExtension file = (stem, ending))
    (hending : ending ∈ pageEndings) (hsegments : Follows "pages" stem (segments.map spelled))
    (happ : (segments.map spelled).head? ≠ some "api")
    (hspecial : ∀ last ∈ (segments.map spelled).getLast?, last ∉ specialPages) :
    pagesRoutes framework file =
      [pageRoute file (routeOf (withoutIndex segments)) "Next.js Page" "next-pages"] := by
  have hkind : ¬((!pagesFrameworks.contains framework) = true ∨
      (!pageEndings.contains ending) = true) := by
    simp [hframework, hending]
  obtain ⟨last, hlast⟩ := Option.ne_none_iff_exists'.1
    (List.getLast?_eq_none_iff.not.2 hsegments.ne_nil)
  have hpage : ¬(segments.map spelled = [] ∨ (segments.map spelled).head? = some "api" ∨
      specialPages.contains last = true) := by
    rw [List.contains_iff_mem]
    rintro (hnil | hapi | hlist)
    · exact hsegments.ne_nil hnil
    · exact happ hapi
    · exact hspecial last hlast hlist
  -- the last name is left out where it is that of a directory's own page
  have hindex : (if last = "index" then (segments.map spelled).dropLast
      else segments.map spelled) = (withoutIndex segments).map spelled := by
    rw [withoutIndex, hlast]
    simp only [Option.some.injEq]
    split
    · rw [List.map_dropLast]
    · rfl
  simp only [pagesRoutes, hname, hsegments.afterMarker?, if_neg hkind, hlast, Option.getD_some,
    if_neg hpage, hindex, ofSegments_spelled]

end Convention

/-- **Names in brackets are replaced one by one.**  A text of pieces becomes the images of the
pieces; these have no brackets, and replacing again changes nothing.  So the route of a page is a
slash and the images of the segments that show in it, with slashes between them. -/
theorem rewritten_pieces :
    (∀ ps : List Piece, withParameters (spelled ps) = imaged ps ∧ Plain (imaged ps).toList ∧
      withParameters (imaged ps) = imaged ps) ∧
    (∀ segments : List (List Piece), ofSegments (segments.map spelled) = routeOf segments) ∧
    (∀ (file name ending : String) (segments : List (List Piece)),
      Path.splitExtension (Path.baseName file) = ("page", ending) →
      ending ∈ Convention.pageEndings →
      Follows "app" file (segments.map spelled ++ [name]) →
      Convention.appRoutes file = [Convention.pageRoute file
        (routeOf (segments.filter isShown)) "Next.js Page" "next-app"]) ∧
    (∀ (framework file stem ending : String) (segments : List (List Piece)),
      framework ∈ Convention.pagesFrameworks →
      Path.splitExtension file = (stem, ending) →
      ending ∈ Convention.pageEndings →
      Follows "pages" stem (segments.map spelled) →
      (segments.map spelled).head? ≠ some "api" →
      (∀ last ∈ (segments.map spelled).getLast?, last ∉ Convention.specialPages) →
      Convention.pagesRoutes framework file = [Convention.pageRoute file
        (routeOf (withoutIndex segments)) "Next.js Page" "next-pages"]) ∧
    (∀ (file name : String) (segments : List (List Piece)),
      Path.baseName file = "+page.svelte" →
      Follows "routes" file (segments.map spelled ++ [name]) →
      Convention.svelteRoutes file = [Convention.pageRoute file
        (routeOf (segments.filter isShown)) "SvelteKit Page" "sveltekit"]) := by
  refine ⟨fun ps => ⟨withParameters_spelled ps, plain_imaged ps,
    withParameters_of_plain (plain_imaged ps)⟩, ofSegments_spelled, ?_, ?_, ?_⟩
  · intro file name ending segments hname hending hsegments
    exact Convention.appRoutes_of_follows hname hending hsegments
  · intro framework file stem ending segments hframework hname hending hsegments happ hspecial
    exact Convention.pagesRoutes_of_follows hframework hname hending hsegments happ hspecial
  · intro file name segments hname hsegments
    exact Convention.svelteRoutes_of_follows hname hsegments

/-! ### Pages of a shop -/

/-- The segments `(shop)`, `v[major][[minor]]` and `[[...rest]]`. -/
def shopSegments : List (List Piece) :=
  [[.plain "(shop)".toList (by decide)],
   [.plain ['v'] (by decide),
    .named .one ⟨"major".toList, by decide, by decide, by decide⟩,
    .named .optionalOne ⟨"minor".toList, by decide, by decide, by decide⟩],
   [.named .optionalAny ⟨"rest".toList, by decide, by decide, by decide⟩]]

/-- The page of these directories, in each of the three styles. -/
theorem rewritten_pieces_shop :
    Convention.appRoutes "src/app/(shop)/v[major][[minor]]/[[...rest]]/page.tsx" =
      [Convention.pageRoute "src/app/(shop)/v[major][[minor]]/[[...rest]]/page.tsx"
        "/v:major:minor/*" "Next.js Page" "next-app"] ∧
    Convention.pagesRoutes "nextjs" "pages/(shop)/v[major][[minor]]/[[...rest]].js" =
      [Convention.pageRoute "pages/(shop)/v[major][[minor]]/[[...rest]].js"
        "/(shop)/v:major:minor/*" "Next.js Page" "next-pages"] ∧
    Convention.svelteRoutes "routes/(shop)/v[major][[minor]]/[[...rest]]/+page.svelte" =
      [Convention.pageRoute "routes/(shop)/v[major][[minor]]/[[...rest]]/+page.svelte"
        "/v:major:minor/*" "SvelteKit Page" "sveltekit"] := by
  obtain ⟨-, -, happ, hpages, hsvelte⟩ := rewritten_pieces
  refine ⟨happ _ "page.tsx" ".tsx" shopSegments (by decide) (by decide)
      ⟨⟨["src"], by decide, by decide⟩, by decide⟩,
    hpages _ _ "pages/(shop)/v[major][[minor]]/[[...rest]]" ".js" shopSegments (by decide)
      (by decide) (by decide) ⟨⟨[], by decide, by decide⟩, by decide⟩ (by decide) (by decide),
    hsvelte _ "+page.svelte" shopSegments (by decide) ⟨⟨[], by decide, by decide⟩, by decide⟩⟩

end RouteImpact.Route
