import Mathlib.Data.List.DropRight
import Mathlib.Data.List.Fold
import RouteImpact.Proofs.Route.Markup
import RouteImpact.Proofs.Route.Objects

namespace RouteImpact

open Syntax (Node)
open Source (parseAs)

/-!
# Joining as a law of its own

Joining routes is associative, the empty route adds nothing on either side, and an absolute one
starts anew.  So it does not matter for the path of a nested route where the joining begins:
objects hand the path around them down to the objects inside, elements look for it from the
inside out.

* `Route.join_of_relative`, `Route.startsWith_join` — what joining gives, and when it is absolute;
* `Route.join_assoc` — joining is associative, by the three kinds of routes;
* `Route.foldl_join` — from the outside in or from the inside out;
* `Route.Markup.parentPath_eq` — the search among elements, from the inside out;
* `Route.Objects.LeadsOn`, `Route.Objects.mem_visit_iff_leadsOn` — the routes of a visit, by the
  objects on the way to them;
* `Route.join_monoid` — the laws, and what they say of elements and of objects.
-/

namespace Text

theorem dropEndWhile_eq_rdropWhile (p : Char → Bool) (cs : List Char) :
    dropEndWhile p cs = cs.rdropWhile p := rfl

/-- What is dropped at the end does not reach beyond a character that stays. -/
theorem dropEndWhile_append {p : Char → Bool} {ys : List Char} (h : ∃ c ∈ ys, p c = false)
    (xs : List Char) : dropEndWhile p (xs ++ ys) = xs ++ dropEndWhile p ys := by
  have hstays : ys.reverse.dropWhile p ≠ [] := by
    obtain ⟨c, hc, hp⟩ := h
    intro hnil
    have hall := List.dropWhile_eq_nil_iff.1 hnil c (List.mem_reverse.2 hc)
    rw [hp] at hall
    cases hall
  rw [dropEndWhile, dropEndWhile, List.reverse_append, List.dropWhile_append,
    if_neg (by simpa using hstays), List.reverse_append, List.reverse_reverse]

end Text

namespace Route

/-! ### The three kinds of routes -/

@[simp] theorem join_empty_left (child : String) : join "" child = child := by
  rw [join, if_pos (Or.inl rfl)]

@[simp] theorem join_empty_right (parent : String) : join parent "" = parent := by
  by_cases h : parent = ""
  · rw [h, join_empty_left]
  · have hrelative : ¬ (parent = "" ∨ Text.startsWith "" "/" = true) := by
      simpa [Text.startsWith] using h
    rw [join, if_neg hrelative, if_pos rfl]

section Relative

variable {a b c : String}

/-- A route with a name is put behind the one around it. -/
theorem join_of_relative (ha : a ≠ "") (hc : c ≠ "") (hrelative : Text.startsWith c "/" = false) :
    join a c = Text.stripEnd (· == '/') a ++ "/" ++ c := by
  rw [join, if_neg (by simp [ha, hrelative]), if_neg hc]

/-- Whether a route is absolute is decided by its first character. -/
theorem startsWith_slash {d : Char} {ds : List Char} (h : b.toList = d :: ds) :
    Text.startsWith b "/" = (d == '/') := by
  rw [Text.startsWith, h, Bool.beq_comm]
  exact Bool.and_true _

/-- Whether a joined route is absolute is decided by the one around, if there is one. -/
theorem startsWith_join (hb : b ≠ "") (hc : Text.startsWith c "/" = false) :
    Text.startsWith (join b c) "/" = Text.startsWith b "/" := by
  by_cases hempty : c = ""
  · rw [hempty, join_empty_right]
  obtain ⟨d, ds, hds⟩ := List.exists_cons_of_ne_nil (mt String.toList_eq_nil_iff.1 hb)
  have hjoined : (join b c).toList = (d :: ds).rdropWhile (· == '/') ++ '/' :: c.toList := by
    rw [join_of_relative hb hempty hc, String.toList_append, String.toList_append, Text.stripEnd,
      String.toList_ofList, hds, Text.dropEndWhile_eq_rdropWhile, List.append_assoc]
    rfl
  have hprefix := List.rdropWhile_prefix (· == '/') (l := d :: ds)
  rw [startsWith_slash hds]
  cases hkept : (d :: ds).rdropWhile (· == '/') with
  | nil =>
    -- nothing but slashes, so the one that is put in takes their place
    rw [hkept] at hjoined
    rw [startsWith_slash hjoined]
    exact (List.rdropWhile_eq_nil_iff.1 hkept d (List.mem_cons_self ..)).symm
  | cons e es =>
    rw [hkept] at hjoined hprefix
    rw [startsWith_slash hjoined, (List.cons_prefix_cons.1 hprefix).1]

end Relative

/-! ### Associativity -/

/-- **Joining is associative.**  An absolute route forgets what is around it on both sides, and an
empty one changes nothing; between two names the slashes at the end of the first are dropped once,
whichever of the two is joined first. -/
theorem join_assoc (a b c : String) : join (join a b) c = join a (join b c) := by
  by_cases ha : a = ""
  · rw [ha, join_empty_left, join_empty_left]
  by_cases hb : b = ""
  · rw [hb, join_empty_left, join_empty_right]
  cases hc : Text.startsWith c "/" with
  | true => rw [join_of_absolute hc, join_of_absolute hc, join_of_absolute hc]
  | false =>
    have hstart := startsWith_join hb hc
    cases habs : Text.startsWith b "/" with
    | true => rw [join_of_absolute habs, join_of_absolute (hstart.trans habs)]
    | false =>
      by_cases hempty : c = ""
      · rw [hempty, join_empty_right, join_empty_right]
      -- the first character of the second route is no slash, so stripping stops there
      obtain ⟨d, ds, hds⟩ := List.exists_cons_of_ne_nil (mt String.toList_eq_nil_iff.1 hb)
      have hstays : ∃ x ∈ b.toList, (x == '/') = false :=
        ⟨d, by simp [hds], (startsWith_slash hds).symm.trans habs⟩
      have hstrip : Text.stripEnd (· == '/') (Text.stripEnd (· == '/') a ++ "/" ++ b) =
          Text.stripEnd (· == '/') a ++ "/" ++ Text.stripEnd (· == '/') b := by
        rw [← String.toList_inj]
        simp only [Text.stripEnd, String.toList_append, String.toList_ofList]
        exact Text.dropEndWhile_append hstays _
      have hjoined : join b c ≠ "" := by
        rw [join_of_relative hb hempty hc]
        simp
      rw [join_of_relative ha hjoined (hstart.trans habs), join_of_relative ha hb habs,
        join_of_relative (by simp) hempty hc, join_of_relative hb hempty hc, hstrip]
      simp only [String.append_assoc]

instance : Std.Associative join := ⟨join_assoc⟩

/-- **Either way.** Joining routes from the outside in gives what joining them from the inside out
gives. -/
theorem foldl_join (paths : List String) : paths.foldl join "" = paths.foldr join "" :=
  List.foldl_eq_foldr_of_commute fun path => by rw [join_empty_left, join_empty_right]

/-! ### Elements -/

/-- The search for the path around a node meets the innermost elements first. -/
theorem Markup.parentPath_eq (enclosing : List Node) :
    parentPath enclosing =
      (pathsAround enclosing).foldl (fun inside around => join around inside) "" := by
  rw [parentPath_eq_foldl, foldl_join, List.foldr_reverse]

/-! ### Objects -/

namespace Objects

/-- The path handed down through objects is the one around them with their own behind it. -/
theorem foldl_fullPath (objects : List Node) (parent : String) :
    objects.foldl fullPath parent = join parent ((objects.filterMap ownPath?).foldr join "") := by
  induction objects generalizing parent with
  | nil => exact (join_empty_right parent).symm
  | cons o rest ih =>
    rw [List.foldl_cons, ih, fullPath]
    cases hown : ownPath? o with
    | none => rw [List.filterMap_cons_none hown]; rfl
    | some own =>
      rw [List.filterMap_cons_some hown, List.foldr_cons, ← join_assoc]
      rfl

/-- Objects of which each is met in the visit of the one before it, from `o` on. -/
def LeadsOn (o : Node) (objects : List Node) : Prop :=
  objects.head? = some o ∧ objects.IsChain fun p k => k ∈ kids p

theorem leadsOn_cons {o k : Node} {objects : List Node} (hk : k ∈ kids o)
    (h : LeadsOn k objects) : LeadsOn o (o :: objects) := by
  obtain ⟨hhead, hchain⟩ := h
  cases objects with
  | nil => cases hhead
  | cons x rest =>
    cases hhead
    exact ⟨rfl, List.isChain_cons_cons.2 ⟨hk, hchain⟩⟩

/-- **The routes of a visit** are those that the objects on its ways declare, with the path that
was handed down to them.  By induction on the object, as its kids are smaller. -/
theorem mem_visit_iff_leadsOn {file : String} {r : RouteDecl} (o : Node) (parent : String) :
    r ∈ (visit file parent o).1 ↔
      ∃ around last, LeadsOn o (around ++ [last]) ∧
        r ∈ declared file (around.foldl fullPath parent) last := by
  rw [visit_eq, List.mem_append, List.mem_flatMap]
  constructor
  · rintro (hown | ⟨k, hk, hbelow⟩)
    · exact ⟨[], o, ⟨rfl, List.IsChain.singleton o⟩, hown⟩
    · have hlt := sizeOf_lt_of_mem_kids hk
      obtain ⟨around, last, hleads, hr⟩ := (mem_visit_iff_leadsOn k (fullPath parent o)).1 hbelow
      exact ⟨o :: around, last, leadsOn_cons hk hleads, hr⟩
  · rintro ⟨around, last, ⟨hhead, hchain⟩, hr⟩
    cases around with
    | nil =>
      cases hhead
      exact Or.inl hr
    | cons x rest =>
      cases hhead
      -- the next object on the way, which may be the last
      obtain ⟨k, more, hmore⟩ := List.exists_cons_of_ne_nil (List.concat_ne_nil last rest)
      rw [List.cons_append, hmore] at hchain
      obtain ⟨hk, hchain⟩ := List.isChain_cons_cons.1 hchain
      have hlt := sizeOf_lt_of_mem_kids hk
      refine Or.inr ⟨k, hk, (mem_visit_iff_leadsOn k (fullPath parent o)).2 ⟨rest, last, ?_, hr⟩⟩
      rw [hmore]
      exact ⟨rfl, hchain⟩
termination_by sizeOf o

end Objects

/-! ### The laws -/

/-- **Joining is a monoid with reset**: it is associative, the empty route is neutral, and an
absolute route is what it is.  So the path around an element is joined from the inside out or from
the outside in, the path that is handed down through objects can be joined from the inside out, and
elements and objects with the same paths of their own have the same path around what they hold. -/
theorem join_monoid :
    (∀ a b c, join (join a b) c = join a (join b c)) ∧
    (∀ a, join "" a = a ∧ join a "" = a) ∧
    (∀ a b, Text.startsWith b "/" = true → join a b = b) ∧
    (∀ enclosing, Markup.parentPath enclosing =
        (Markup.pathsAround enclosing).foldl (fun inside around => join around inside) "" ∧
      Markup.parentPath enclosing = (Markup.pathsAround enclosing).reverse.foldl join "") ∧
    (∀ file o r, r ∈ (Objects.visit file "" o).1 ↔
      ∃ around last, Objects.LeadsOn o (around ++ [last]) ∧
        r ∈ Objects.declared file ((around.filterMap Objects.ownPath?).foldr join "") last) ∧
    ∀ elements objects : List Node,
      Markup.pathsAround elements = (objects.filterMap Objects.ownPath?).reverse →
      Markup.parentPath elements = objects.foldl Objects.fullPath "" := by
  refine ⟨join_assoc, fun a => ⟨join_empty_left a, join_empty_right a⟩,
    fun a b h => join_of_absolute h a,
    fun enclosing => ⟨Markup.parentPath_eq enclosing, Markup.parentPath_eq_foldl enclosing⟩,
    fun file o r => ?_, fun elements objects h => ?_⟩
  · simp only [Objects.mem_visit_iff_leadsOn, Objects.foldl_fullPath, join_empty_left]
  · rw [Markup.parentPath_eq_foldl, h, List.reverse_reverse, foldl_join, Objects.foldl_fullPath,
      join_empty_left]

/-- An element in another one, the inner one first. -/
def shopElements : List Node :=
  ((parseAs .javascript "<R path='/s/'><R path='a/'></R></R>").nodes ["jsx_element"]).reverse

/-- The same routes as objects, the outer one first. -/
def shopObjects : List Node :=
  (parseAs .javascript "[\x7bpath:'/s/'\x7d,\x7bpath:'a/'\x7d]").nodes ["object"]

theorem join_monoid_shop :
    Markup.pathsAround shopElements = ["a/", "/s/"] ∧
      Markup.parentPath shopElements = shopObjects.foldl Objects.fullPath "" ∧
      join "/s/" "/cart" = "/cart" := by
  obtain ⟨-, -, hreset, -, -, hsame⟩ := join_monoid
  have helements : Markup.pathsAround shopElements = ["a/", "/s/"] := by decide +kernel
  have hobjects : shopObjects.filterMap Objects.ownPath? = ["/s/", "a/"] := by decide +kernel
  refine ⟨helements, hsame shopElements shopObjects ?_, hreset "/s/" "/cart" (by decide)⟩
  rw [helements, hobjects]
  rfl

end Route

end RouteImpact
