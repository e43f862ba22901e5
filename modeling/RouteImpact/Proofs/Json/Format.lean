import Mathlib.Data.List.TakeWhile
import RouteImpact.Proofs.Json.Reading
import RouteImpact.Proofs.Settings.Stripping

namespace RouteImpact

namespace Json

open Settings (CommentFree LiteralPart)

/-!
# How values are written

The text format of data values, as a grammar beside the reader.  In both a slash stands within text
literals only, so that neither of them knows a text in which stripping comments finds anything.

* `ValueText`, `ElementText`, `FieldText` — the grammar;
* `commentFree_of_value` — what it derives is free of comments;
* `Passes`, `passes_of_reads` — so is what the reader goes over, whatever it reads;
* `Settings.stripComments_chunks` — stripping takes out the comments and nothing else, and leaves
  the text of a value as it is.
-/

/-! ### How values are written -/

/-- Blank space between the parts of a text. -/
def IsBlank (cs : List Char) : Prop := ∀ c ∈ cs, c = ' ' ∨ c = '\t' ∨ c = '\n' ∨ c = '\r'

/-- One digit or more. -/
def IsDigits (cs : List Char) : Prop := cs ≠ [] ∧ ∀ c ∈ cs, isDigit c = true

/-- A number: perhaps a minus, digits without a needless zero in front, perhaps a fraction, perhaps
an exponent. -/
inductive NumberText : List Char → Prop
  | intro {minus whole fraction exponent : List Char} (hminus : minus = [] ∨ minus = ['-'])
      (hwhole : IsDigits whole) (hzero : whole.head? = some '0' → whole = ['0'])
      (hfraction : fraction = [] ∨ ∃ ds, IsDigits ds ∧ fraction = '.' :: ds)
      (hexponent : exponent = [] ∨ ∃ e sign ds, (e = 'e' ∨ e = 'E') ∧
        (sign = [] ∨ sign = ['+'] ∨ sign = ['-']) ∧ IsDigits ds ∧ exponent = e :: sign ++ ds) :
      NumberText (minus ++ whole ++ fraction ++ exponent)

/-- A character of a text literal: as it is, or behind a backslash, or by its number. -/
inductive CharacterText : List Char → Prop
  | plain {c : Char} (hprinted : 32 ≤ c.toNat) (h : c ≠ '"' ∧ c ≠ '\\') : CharacterText [c]
  | escape {c : Char} (h : c ∈ ['"', '\\', '/', 'b', 'f', 'n', 'r', 't']) : CharacterText ['\\', c]
  | code {a b c d : Char} (h : ∀ x ∈ [a, b, c, d], (hexValue? x).isSome = true) :
      CharacterText ['\\', 'u', a, b, c, d]

/-- A text literal. -/
inductive LiteralText : List Char → Prop
  | intro {characters : List (List Char)} (h : ∀ cs ∈ characters, CharacterText cs) :
      LiteralText ('"' :: characters.flatten ++ ['"'])

mutual

/-- A value. -/
inductive ValueText : List Char → Prop
  | word {s : String} (h : s ∈ ["null", "true", "false"]) : ValueText s.toList
  | number {cs : List Char} (h : NumberText cs) : ValueText cs
  | literal {cs : List Char} (h : LiteralText cs) : ValueText cs
  | emptyList {blank : List Char} (h : IsBlank blank) : ValueText ('[' :: blank ++ [']'])
  | list {items : List (List Char)} (hne : items ≠ []) (h : ∀ cs ∈ items, ElementText cs) :
      ValueText ('[' :: [','].intercalate items ++ [']'])
  | emptyRecord {blank : List Char} (h : IsBlank blank) :
      ValueText ('\x7b' :: blank ++ ['\x7d'])
  | record {fields : List (List Char)} (hne : fields ≠ []) (h : ∀ cs ∈ fields, FieldText cs) :
      ValueText ('\x7b' :: [','].intercalate fields ++ ['\x7d'])

/-- A value with blank space around it: an item of a list, or a whole text. -/
inductive ElementText : List Char → Prop
  | intro {before cs after : List Char} (hbefore : IsBlank before) (h : ValueText cs)
      (hafter : IsBlank after) : ElementText (before ++ cs ++ after)

/-- A field of a record: its name and its value. -/
inductive FieldText : List Char → Prop
  | intro {before name after value : List Char} (hbefore : IsBlank before)
      (hname : LiteralText name) (hafter : IsBlank after) (hvalue : ElementText value) :
      FieldText (before ++ name ++ after ++ ':' :: value)

end

/-! ### No comments in them -/

theorem commentFree_of_blank {cs : List Char} (h : IsBlank cs) : CommentFree cs :=
  .of_plain fun c hc => by rcases h c hc with rfl | rfl | rfl | rfl <;> decide

theorem plain_of_isDigit {c : Char} (h : isDigit c = true) : c ≠ '"' ∧ c ≠ '/' := by
  constructor
  · rintro rfl
    exact absurd h (by decide)
  · rintro rfl
    exact absurd h (by decide)

theorem commentFree_of_digits {cs : List Char} (h : ∀ c ∈ cs, isDigit c = true) : CommentFree cs :=
  .of_plain fun c hc => plain_of_isDigit (h c hc)

theorem commentFree_of_number {cs : List Char} (h : NumberText cs) : CommentFree cs := by
  obtain ⟨hminus, hwhole, -, hfraction, hexponent⟩ := h
  refine (CommentFree.append ?_ (commentFree_of_digits hwhole.2)).append ?_ |>.append ?_
  · rcases hminus with rfl | rfl
    · exact .nil
    · exact .of_plain (by simp)
  · rcases hfraction with rfl | ⟨ds, hds, rfl⟩
    · exact .nil
    · exact (commentFree_of_digits hds.2).cons (by decide)
  · rcases hexponent with rfl | ⟨e, sign, ds, he, hsign, hds, rfl⟩
    · exact .nil
    · refine CommentFree.append ?_ (commentFree_of_digits hds.2)
      rcases he with rfl | rfl <;> rcases hsign with rfl | rfl | rfl <;>
        exact .of_plain (by simp)

/-- Characters that can stand between the quotes of a literal. -/
def WithinLiteral (cs : List Char) : Prop :=
  ∃ parts : List LiteralPart, parts.flatMap LiteralPart.spelling = cs

namespace WithinLiteral

theorem nil : WithinLiteral [] := ⟨[], rfl⟩

theorem plain {c : Char} (h : c ≠ '"' ∧ c ≠ '\\') : WithinLiteral [c] := ⟨[.plain c h], rfl⟩

theorem escape (c : Char) : WithinLiteral ['\\', c] := ⟨[.escape c], rfl⟩

theorem append {cs ds : List Char} (hcs : WithinLiteral cs) (hds : WithinLiteral ds) :
    WithinLiteral (cs ++ ds) := by
  obtain ⟨parts, rfl⟩ := hcs
  obtain ⟨more, rfl⟩ := hds
  exact ⟨parts ++ more, List.flatMap_append⟩

theorem flatten {pieces : List (List Char)} (h : ∀ cs ∈ pieces, WithinLiteral cs) :
    WithinLiteral pieces.flatten := by
  induction pieces with
  | nil => exact nil
  | cons cs rest ih =>
    rw [List.forall_mem_cons] at h
    exact h.1.append (ih h.2)

theorem commentFree {cs : List Char} (h : WithinLiteral cs) :
    CommentFree ('"' :: cs ++ ['"']) := by
  obtain ⟨parts, rfl⟩ := h
  exact .literal parts

end WithinLiteral

theorem plain_of_hexValue? {c : Char} (h : (hexValue? c).isSome = true) : c ≠ '"' ∧ c ≠ '\\' := by
  constructor
  · rintro rfl
    exact absurd h (by decide)
  · rintro rfl
    exact absurd h (by decide)

/-- The number of a character, behind a backslash. -/
theorem withinLiteral_code {a b c d : Char} (h : ∀ x ∈ [a, b, c, d], (hexValue? x).isSome = true) :
    WithinLiteral ['\\', 'u', a, b, c, d] := by
  have hdigits : ∀ piece ∈ [[a], [b], [c], [d]], WithinLiteral piece := by
    intro piece hpiece
    obtain ⟨x, hx, rfl⟩ : ∃ x ∈ [a, b, c, d], [x] = piece := by simpa [eq_comm] using hpiece
    exact .plain (plain_of_hexValue? (h x hx))
  exact (WithinLiteral.escape 'u').append (WithinLiteral.flatten hdigits)

theorem commentFree_of_literal {cs : List Char} (h : LiteralText cs) : CommentFree cs := by
  obtain ⟨hcharacters⟩ := h
  refine (WithinLiteral.flatten fun piece hpiece => ?_).commentFree
  cases hcharacters piece hpiece with
  | plain _ h => exact .plain h
  | escape _ => exact .escape _
  | code h => exact withinLiteral_code h

theorem commentFree_intercalate {pieces : List (List Char)} (h : ∀ cs ∈ pieces, CommentFree cs) :
    CommentFree ([','].intercalate pieces) := by
  induction pieces with
  | nil => exact .nil
  | cons cs rest ih =>
    rw [List.forall_mem_cons] at h
    cases rest with
    | nil => simpa [List.intercalate] using h.1
    | cons next rest =>
      rw [List.intercalate_cons_cons]
      exact (h.1.append (.of_plain (by simp))).append (ih h.2)

mutual

/-- **A value is written without comments.** -/
theorem commentFree_of_value {cs : List Char} : ValueText cs → CommentFree cs
  | .word h => by
    simp only [List.mem_cons, List.not_mem_nil, or_false] at h
    rcases h with rfl | rfl | rfl <;> exact .of_plain (by simp)
  | .number h => commentFree_of_number h
  | .literal h => commentFree_of_literal h
  | .emptyList h => (commentFree_of_blank h).bracketed (by decide) (by decide)
  | .list _ h =>
    (commentFree_intercalate fun cs hcs => commentFree_of_element (h cs hcs)).bracketed (by decide)
      (by decide)
  | .emptyRecord h => (commentFree_of_blank h).bracketed (by decide) (by decide)
  | .record _ h =>
    (commentFree_intercalate fun cs hcs => commentFree_of_field (h cs hcs)).bracketed (by decide)
      (by decide)

theorem commentFree_of_element {cs : List Char} : ElementText cs → CommentFree cs
  | .intro hbefore h hafter =>
    ((commentFree_of_blank hbefore).append (commentFree_of_value h)).append
      (commentFree_of_blank hafter)

theorem commentFree_of_field {cs : List Char} : FieldText cs → CommentFree cs
  | .intro hbefore hname hafter hvalue =>
    (((commentFree_of_blank hbefore).append (commentFree_of_literal hname)).append
      (commentFree_of_blank hafter)).append
        ((commentFree_of_element hvalue).cons (by decide))

end

/-! ### What is read -/

/-- The reader goes over a text without comments, from one place of a text to a later one. -/
def Passes (cs rest : List Char) : Prop := ∃ front, CommentFree front ∧ cs = front ++ rest

namespace Passes

theorem refl (cs : List Char) : Passes cs cs := ⟨[], .nil, rfl⟩

theorem trans {cs mid rest : List Char} (h : Passes cs mid) (h' : Passes mid rest) :
    Passes cs rest := by
  obtain ⟨front, hfront, rfl⟩ := h
  obtain ⟨more, hmore, rfl⟩ := h'
  exact ⟨front ++ more, hfront.append hmore, (List.append_assoc ..).symm⟩

theorem cons {c : Char} (h : c ≠ '"' ∧ c ≠ '/') (cs : List Char) : Passes (c :: cs) cs :=
  ⟨[c], .of_plain (by simpa using h), rfl⟩

/-- What stands in front can be dropped. -/
theorem drop {front cs : List Char} (h : front <+: cs) (hplain : ∀ c ∈ front, c ≠ '"' ∧ c ≠ '/') :
    Passes cs (cs.drop front.length) := by
  obtain ⟨rest, rfl⟩ := h
  exact ⟨front, .of_plain hplain, by rw [List.drop_left]⟩

theorem dropWhile {p : Char → Bool} (h : ∀ c, p c = true → c ≠ '"' ∧ c ≠ '/') (cs : List Char) :
    Passes cs (cs.dropWhile p) :=
  ⟨cs.takeWhile p, .of_plain fun c hc => h c (List.mem_takeWhile_imp hc),
    List.takeWhile_append_dropWhile.symm⟩

end Passes

theorem passes_skipBlank (cs : List Char) : Passes cs (skipBlank cs) :=
  .dropWhile (fun c hc => by
    simp only [Bool.or_eq_true, beq_iff_eq] at hc
    rcases hc with ((rfl | rfl) | rfl) | rfl <;> decide) cs

theorem passes_digits (cs : List Char) : Passes cs (cs.dropWhile isDigit) :=
  .dropWhile (fun _ => plain_of_isDigit) cs

theorem passes_sign (cs : List Char) : Passes cs (Number.sign cs).2 := by
  unfold Number.sign
  split
  · exact .cons (by decide) _
  · exact .cons (by decide) _
  · exact .refl _

theorem passes_exponentPart {cs rest : List Char} {n : Int}
    (h : exponentPart cs = some (n, rest)) : Passes cs rest := by
  unfold exponentPart at h
  split at h
  · next c more =>
    split at h
    · next he =>
      dsimp only at h
      split at h
      · cases h
      · cases h
        have hc : c ≠ '"' ∧ c ≠ '/' := by
          simp only [Bool.or_eq_true, beq_iff_eq] at he
          rcases he with rfl | rfl <;> decide
        exact ((Passes.cons hc more).trans (passes_sign more)).trans (passes_digits _)
    · cases h
  · cases h

theorem passes_wholePart (cs : List Char) : Passes cs (cs.drop (wholePart cs).length) := by
  unfold wholePart
  split
  · exact .cons (by decide) _
  · exact .drop (List.takeWhile_prefix _) fun c hc => plain_of_isDigit (List.mem_takeWhile_imp hc)

theorem passes_afterFraction (cs : List Char) : Passes cs (afterFraction cs) := by
  unfold afterFraction fractionPart
  split
  · next more =>
    dsimp only
    split
    · exact .refl _
    · rw [List.drop_succ_cons]
      exact (Passes.cons (by decide) more).trans <| .drop (List.takeWhile_prefix _) fun c hc =>
        plain_of_isDigit (List.mem_takeWhile_imp hc)
  · exact .refl _

theorem passes_number {negative : Bool} {cs rest : List Char} {v : Json}
    (h : number negative cs = .ok (v, rest)) : Passes cs rest := by
  have hmap : ∀ {x : Except ReadError Json} {left : List Char},
      x.map (·, left) = .ok (v, rest) → left = rest := by
    intro x left hread
    cases x with
    | error e => cases hread
    | ok w =>
      cases hread
      rfl
  have hfront := (passes_wholePart cs).trans (passes_afterFraction _)
  unfold number at h
  dsimp only at h
  split at h
  · cases h
  · split at h
    · next hexponent => exact hmap h ▸ hfront.trans (passes_exponentPart hexponent)
    · exact hmap h ▸ hfront

theorem passes_word {cs rest : List Char} {v : Json} (h : word? cs = some (v, rest)) :
    Passes cs rest := by
  unfold word? at h
  dsimp only at h
  split at h
  · next w found hfind =>
    cases h
    have hprefix := List.find?_some hfind
    have hmem := List.mem_of_find?_eq_some hfind
    rw [List.isPrefixOf_iff_prefix] at hprefix
    rw [← String.length_toList]
    refine .drop hprefix ?_
    simp only [List.mem_cons, Prod.mk.injEq, List.not_mem_nil, or_false] at hmem
    rcases hmem with ⟨rfl, -⟩ | ⟨rfl, -⟩ | ⟨rfl, -⟩ | ⟨rfl, -⟩ | ⟨rfl, -⟩ | ⟨rfl, -⟩ <;> simp
  · cases h

/-! ### Literals that are read -/

/-- Four digits are read as they are written. -/
theorem exists_of_hex4 {cs rest : List Char} {n : Nat} (h : hex4 cs = some (n, rest)) :
    ∃ a b c d, cs = a :: b :: c :: d :: rest ∧ ∀ x ∈ [a, b, c, d], (hexValue? x).isSome = true := by
  unfold hex4 at h
  split at h
  · next a b c d rest' =>
    split at h
    · next ha hb hc hd =>
      cases h
      exact ⟨a, b, c, d, rfl, by simp [ha, hb, hc, hd]⟩
    · cases h
  · cases h

/-- What is read of a literal can stand in one, and the closing quote ends it. -/
def Closed (cs rest : List Char) : Prop := ∃ body, WithinLiteral body ∧ cs = body ++ '"' :: rest

theorem Closed.append {front cs rest : List Char} (hfront : WithinLiteral front)
    (h : Closed cs rest) : Closed (front ++ cs) rest := by
  obtain ⟨body, hbody, rfl⟩ := h
  exact ⟨front ++ body, hfront.append hbody, (List.append_assoc ..).symm⟩

theorem closed_of_hex4 {cs mid rest : List Char} {n : Nat} (hcode : hex4 cs = some (n, mid))
    (h : Closed mid rest) : Closed ('\\' :: 'u' :: cs) rest := by
  obtain ⟨a, b, c, d, rfl, hdigits⟩ := exists_of_hex4 hcode
  exact h.append (withinLiteral_code hdigits)

/-- **A literal is read up to its closing quote.**  By induction along the reading; two numbers that
make one character together are two pieces. -/
theorem closed_of_stringLoop {fuel : Nat} {cs read rest : List Char} {s : String}
    (h : stringLoop fuel cs read = some (s, rest)) : Closed cs rest := by
  induction fuel generalizing cs read with
  | zero => cases h
  | succ fuel ih =>
    unfold stringLoop at h
    split at h
    · cases h
    · cases h
      exact ⟨[], .nil, rfl⟩
    · split at h
      · cases h
      · next hcode =>
        refine closed_of_hex4 hcode ?_
        split at h
        · split at h
          · split at h
            · next hsecond =>
              split at h
              · exact closed_of_hex4 hsecond (ih h)
              · exact ih h
            · exact ih h
          · exact ih h
        · exact ih h
    · next c more _ =>
      dsimp only at h
      split at h
      · exact (ih h).append (.escape c)
      · cases h
    · next c more hquote _ hslash =>
      split at h
      · cases h
      · refine (ih h).append (.plain ⟨hquote, fun hc => ?_⟩)
        -- a backslash would be the last character, but the closing quote comes later
        obtain ⟨body, -, hmore⟩ := ih h
        obtain ⟨d, ds, hds⟩ := List.exists_cons_of_ne_nil
          (List.append_ne_nil_of_right_ne_nil body (List.cons_ne_nil '"' rest))
        exact hslash d ds hc (hmore.trans hds)

/-- A literal is passed as one piece. -/
theorem passes_of_stringLoop {fuel : Nat} {cs rest : List Char} {s : String}
    (h : stringLoop fuel cs [] = some (s, rest)) : Passes ('"' :: cs) rest := by
  obtain ⟨body, hbody, rfl⟩ := closed_of_stringLoop h
  exact ⟨'"' :: body ++ ['"'], hbody.commentFree, by simp⟩

/-- A bracket, a comma or a colon behind blank space. -/
theorem passes_mark {c : Char} {cs rest : List Char} (hplain : c ≠ '"' ∧ c ≠ '/')
    (h : skipBlank cs = c :: rest) : Passes cs rest :=
  (h ▸ passes_skipBlank cs).trans (.cons hplain rest)

/-- **What is read is written without comments.** -/
theorem passes_of_reads {part : Part} {cs rest : List Char} {v : Json}
    (h : Reads part cs v rest) : Passes cs rest := by
  induction h with
  | literal hliteral => exact passes_of_stringLoop hliteral
  | @emptyList cs _ hend => exact (Passes.cons (by decide) cs).trans (passes_mark (by decide) hend)
  | @list cs _ _ _ ih =>
    exact ((Passes.cons (by decide) cs).trans (passes_skipBlank cs)).trans ih
  | @emptyRecord cs _ hend =>
    exact (Passes.cons (by decide) cs).trans (passes_mark (by decide) hend)
  | @record cs _ _ _ ih =>
    exact ((Passes.cons (by decide) cs).trans (passes_skipBlank cs)).trans ih
  | word hword => exact passes_word hword
  | @negative cs _ _ hnumber => exact (Passes.cons (by decide) cs).trans (passes_number hnumber)
  | number hnumber => exact passes_number hnumber
  | lastItem _ hend ih => exact ih.trans (passes_mark (by decide) hend)
  | item _ hcomma _ ihvalue ihitems =>
    have hvalue := ihvalue.trans (passes_mark (by decide) hcomma)
    exact (hvalue.trans (passes_skipBlank _)).trans ihitems
  | lastField hname hcolon _ hend ih =>
    have hfront := (passes_of_stringLoop hname).trans (passes_mark (by decide) hcolon)
    have hvalue := (hfront.trans (passes_skipBlank _)).trans ih
    exact hvalue.trans (passes_mark (by decide) hend)
  | field hname hcolon _ hcomma _ ihvalue ihfields =>
    have hfront := (passes_of_stringLoop hname).trans (passes_mark (by decide) hcolon)
    have hvalue := (hfront.trans (passes_skipBlank _)).trans ihvalue
    have hnext := hvalue.trans (passes_mark (by decide) hcomma)
    exact (hnext.trans (passes_skipBlank _)).trans ihfields

/-- A text that holds one value holds no comment. -/
theorem commentFree_of_parse {text : String} {v : Json} (h : parse text = .ok v) :
    CommentFree text.toList := by
  obtain ⟨rest, hreads, hend⟩ := reads_of_parse h
  have hfront := (passes_skipBlank _).trans (passes_of_reads hreads)
  have hall := hfront.trans (passes_skipBlank rest)
  rw [hend] at hall
  obtain ⟨front, hfree, htext⟩ := hall
  rwa [htext, List.append_nil]

end Json

namespace Settings

/-- **Comments and nothing else.**  A text of chunks in any order loses its comments, a line comment
all but its line feed.  So a text that writes a value is not changed, be it by the rules of the
format or by what the reader accepts. -/
theorem stripComments_chunks :
    (∀ chunks : List Chunk, stripComments (String.ofList (chunks.flatMap Chunk.spelling)) =
      String.ofList (chunks.flatMap Chunk.kept)) ∧
    (∀ text : String, Json.ElementText text.toList → stripComments text = text) ∧
    ∀ (text : String) (v : Json), Json.parse text = .ok v → stripComments text = text := by
  refine ⟨fun chunks => ?_, fun text h => (Json.commentFree_of_element h).stripComments_eq,
    fun text v h => (Json.commentFree_of_parse h).stripComments_eq⟩
  rw [stripComments, String.toList_ofList, withoutComments_spelling]

/-- A list of one literal, in it what would be a comment elsewhere. -/
def slashesText : String := "[\"//\"]"

theorem elementText_slashes : Json.ElementText slashesText.toList := by
  have hslash : Json.CharacterText ['/'] := .plain (by decide) (by decide)
  have hliteral : Json.LiteralText ['"', '/', '/', '"'] :=
    @Json.LiteralText.intro [['/'], ['/']] (by simpa using hslash)
  have hitem : Json.ElementText ['"', '/', '/', '"'] :=
    @Json.ElementText.intro [] _ [] nofun (.literal hliteral) nofun
  have hlist : Json.ValueText slashesText.toList :=
    @Json.ValueText.list [['"', '/', '/', '"']] (by simp) (by simpa using hitem)
  exact @Json.ElementText.intro [] _ [] nofun hlist nofun

/-- The same text and two comments behind it, the first with an end of its own kind in front. -/
def slashesChunks : List Chunk :=
  [.plain '[' (by decide), .literal [.plain '/' (by decide), .plain '/' (by decide)],
    .plain ']' (by decide), .blockComment ['/', 'x', '*'] (by decide), .lineComment [] (by decide)]

theorem stripComments_chunks_slashes :
    (Json.ElementText slashesText.toList ∧ Json.parse slashesText = .ok (.list [.text "//"])) ∧
    stripComments slashesText = slashesText ∧
    stripComments (slashesText ++ "/*/x**///\n") = slashesText ++ "\n" := by
  obtain ⟨hchunks, hformat, -⟩ := stripComments_chunks
  have hparse : Json.parse slashesText = .ok (.list [.text "//"]) := by cbv
  exact ⟨⟨elementText_slashes, hparse⟩, hformat slashesText elementText_slashes,
    hchunks slashesChunks⟩

end Settings

end RouteImpact
