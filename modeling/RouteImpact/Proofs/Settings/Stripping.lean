import RouteImpact.Settings.Comments
import Mathlib.Data.List.Chain

namespace RouteImpact.Settings

/-!
# What stripping comments leaves

A text with comments is read in chunks: text literals, single characters, and comments of the two
kinds.  Stripping goes through it chunk by chunk.  On a text of any shape it leaves characters that
are read once more as they were read the first time.

* `Chunk`, `withoutComments_spelling` — one chunk after the other is kept or left out;
* `CommentFree`, `CommentFree.stripComments_eq` — a text of other chunks stays as it is;
* `marked`, `marked_withoutComments` — what is kept, with what the reader knows of each character,
  and that a second reading knows the same;
* `isChain_marked` — no two characters that are kept open a comment;
* `stripComments_twice` — so stripping a second time changes nothing.
-/

/-! ### One step outside of literals -/

theorem withoutComments_quote (cs : List Char) :
    withoutComments ('"' :: cs) .outside = '"' :: withoutComments cs .inside := by
  rw [withoutComments.eq_def]
  rfl

theorem withoutComments_plain {c : Char} (h : c ≠ '"' ∧ c ≠ '/') (cs : List Char) :
    withoutComments (c :: cs) .outside = c :: withoutComments cs .outside := by
  rw [withoutComments.eq_def]
  dsimp only
  rw [if_neg h.1, if_neg h.2]

theorem withoutComments_lineComment (cs : List Char) :
    withoutComments ('/' :: '/' :: cs) .outside =
      withoutComments (cs.dropWhile (· != '\n')) .outside := by
  rw [withoutComments, if_neg (by decide), if_pos rfl]

theorem withoutComments_blockComment {cs rest : List Char} (h : afterBlockComment cs = some rest) :
    withoutComments ('/' :: '*' :: cs) .outside = withoutComments rest .outside := by
  rw [withoutComments, if_neg (by decide), if_pos rfl]
  split
  · next hrest =>
    cases h.symm.trans hrest
    rfl
  · next hnone => cases h.symm.trans hnone

theorem withoutComments_unended {cs : List Char} (h : afterBlockComment cs = none) :
    withoutComments ('/' :: '*' :: cs) .outside = [] := by
  rw [withoutComments, if_neg (by decide), if_pos rfl]
  split
  · next hrest => cases h.symm.trans hrest
  · rfl

theorem withoutComments_slash {cs : List Char} (hline : ∀ rest, cs = '/' :: rest → False)
    (hblock : ∀ rest, cs = '*' :: rest → False) :
    withoutComments ('/' :: cs) .outside = '/' :: withoutComments cs .outside := by
  rw [withoutComments, if_neg (by decide), if_pos rfl]
  · exact hline
  · exact hblock

/-! ### Chunks -/

/-- A part of a text literal: a character that stands for itself, or any one behind a backslash. -/
inductive LiteralPart where
  | plain (c : Char) (h : c ≠ '"' ∧ c ≠ '\\')
  | escape (c : Char)

/-- A part of a text with comments.  A line comment takes its line feed with it, and a block comment
ends where it can first. -/
inductive Chunk where
  | literal (parts : List LiteralPart)
  | plain (c : Char) (h : c ≠ '"' ∧ c ≠ '/')
  | lineComment (cs : List Char) (h : '\n' ∉ cs)
  | blockComment (cs : List Char) (h : ¬ ['*', '/'] <:+: cs)

/-- How a part of a literal is written. -/
def LiteralPart.spelling : LiteralPart → List Char
  | plain c _ => [c]
  | escape c => ['\\', c]

namespace Chunk

/-- How a chunk is written. -/
def spelling : Chunk → List Char
  | literal parts => '"' :: parts.flatMap LiteralPart.spelling ++ ['"']
  | plain c _ => [c]
  | lineComment cs _ => '/' :: '/' :: cs ++ ['\n']
  | blockComment cs _ => '/' :: '*' :: cs ++ ['*', '/']

/-- What is to be left of a chunk. -/
def kept : Chunk → List Char
  | lineComment _ _ => ['\n']
  | blockComment _ _ => []
  | k => k.spelling

/-- Whether a chunk is a comment. -/
def isComment : Chunk → Bool
  | lineComment _ _ | blockComment _ _ => true
  | _ => false

theorem kept_eq {k : Chunk} (h : k.isComment = false) : k.kept = k.spelling := by
  cases k with
  | literal | plain => rfl
  | lineComment | blockComment => cases h

end Chunk

/-- The parts of a literal and its closing quote are kept. -/
theorem withoutComments_literal (parts : List LiteralPart) (rest : List Char) :
    withoutComments (parts.flatMap LiteralPart.spelling ++ '"' :: rest) .inside =
      parts.flatMap LiteralPart.spelling ++ '"' :: withoutComments rest .outside := by
  induction parts with
  | nil =>
    rw [List.flatMap_nil, List.nil_append, withoutComments]
    rfl
  | cons part parts ih =>
    cases part with
    | plain c h =>
      simp only [List.flatMap_cons, LiteralPart.spelling, List.cons_append, List.nil_append,
        withoutComments, if_neg h.1, if_neg h.2, ih]
    | escape c =>
      simp only [List.flatMap_cons, LiteralPart.spelling, List.cons_append, List.nil_append,
        withoutComments, if_true, ih]

/-- A block comment ends at the first end of one. -/
theorem afterBlockComment_append {cs : List Char} (h : ¬ ['*', '/'] <:+: cs) (rest : List Char) :
    afterBlockComment (cs ++ '*' :: '/' :: rest) = some rest := by
  induction cs with
  | nil => rw [List.nil_append, afterBlockComment]
  | cons c cs ih =>
    rw [List.cons_append, afterBlockComment]
    · exact ih fun hinfix => h (List.infix_cons hinfix)
    · -- an end that begins here would lie within
      rintro more rfl hmore
      cases cs with
      | nil => cases hmore
      | cons d ds =>
        cases hmore
        exact h ⟨[], ds, rfl⟩

/-- **One chunk** is kept or left out, and the reader is outside again. -/
theorem withoutComments_chunk (k : Chunk) (rest : List Char) :
    withoutComments (k.spelling ++ rest) .outside = k.kept ++ withoutComments rest .outside := by
  cases k with
  | literal parts =>
    simp only [Chunk.spelling, Chunk.kept, List.cons_append, List.append_assoc, List.nil_append]
    rw [withoutComments_quote, withoutComments_literal]
  | plain c h => exact withoutComments_plain h rest
  | lineComment cs h =>
    have hinside : ∀ c ∈ cs, (c != '\n') = true := fun c hc => by
      simpa using fun heq : c = '\n' => h (heq ▸ hc)
    have hline : (cs ++ '\n' :: rest).dropWhile (· != '\n') = '\n' :: rest := by
      rw [List.dropWhile_append_of_pos hinside]
      rfl
    simp only [Chunk.spelling, Chunk.kept, List.cons_append, List.append_assoc, List.nil_append]
    rw [withoutComments_lineComment, hline, withoutComments_plain (by decide)]
  | blockComment cs h =>
    simp only [Chunk.spelling, Chunk.kept, List.cons_append, List.append_assoc, List.nil_append]
    exact withoutComments_blockComment (afterBlockComment_append h rest)

/-- **Chunk by chunk**, a text of any chunks is stripped. -/
theorem withoutComments_spelling (chunks : List Chunk) :
    withoutComments (chunks.flatMap Chunk.spelling) .outside = chunks.flatMap Chunk.kept := by
  induction chunks with
  | nil => rw [List.flatMap_nil, withoutComments, List.flatMap_nil]
  | cons k rest ih => rw [List.flatMap_cons, withoutComments_chunk, ih, List.flatMap_cons]

/-! ### Texts without comments -/

/-- Characters that are chunks, but no comments. -/
def CommentFree (cs : List Char) : Prop :=
  ∃ chunks : List Chunk, (∀ k ∈ chunks, k.isComment = false) ∧ chunks.flatMap Chunk.spelling = cs

namespace CommentFree

theorem nil : CommentFree [] := ⟨[], by simp, rfl⟩

theorem append {cs ds : List Char} (hcs : CommentFree cs) (hds : CommentFree ds) :
    CommentFree (cs ++ ds) := by
  obtain ⟨chunks, hchunks, rfl⟩ := hcs
  obtain ⟨more, hmore, rfl⟩ := hds
  exact ⟨chunks ++ more, List.forall_mem_append.2 ⟨hchunks, hmore⟩, List.flatMap_append⟩

theorem literal (parts : List LiteralPart) :
    CommentFree ('"' :: parts.flatMap LiteralPart.spelling ++ ['"']) :=
  ⟨[.literal parts], by simp [Chunk.isComment], by simp [Chunk.spelling]⟩

/-- Outside of literals nothing but a slash can open a comment. -/
theorem cons {c : Char} (hc : c ≠ '"' ∧ c ≠ '/') {cs : List Char} (h : CommentFree cs) :
    CommentFree (c :: cs) := by
  obtain ⟨chunks, hchunks, rfl⟩ := h
  exact ⟨.plain c hc :: chunks, List.forall_mem_cons.2 ⟨rfl, hchunks⟩, rfl⟩

theorem of_plain {cs : List Char} (h : ∀ c ∈ cs, c ≠ '"' ∧ c ≠ '/') : CommentFree cs := by
  induction cs with
  | nil => exact nil
  | cons c cs ih =>
    rw [List.forall_mem_cons] at h
    exact (ih h.2).cons h.1

theorem bracketed {opening closing : Char} {cs : List Char} (h : CommentFree cs)
    (hopening : opening ≠ '"' ∧ opening ≠ '/') (hclosing : closing ≠ '"' ∧ closing ≠ '/') :
    CommentFree (opening :: cs ++ [closing]) :=
  (h.cons hopening).append (nil.cons hclosing)

/-- **A text without comments** stays as it is. -/
theorem stripComments_eq {text : String} (h : CommentFree text.toList) :
    stripComments text = text := by
  obtain ⟨chunks, hchunks, hspelling⟩ := h
  rw [stripComments, ← hspelling, withoutComments_spelling,
    List.flatMap_congr fun k hk => Chunk.kept_eq (hchunks k hk), hspelling, String.ofList_toList]

end CommentFree

/-! ### Reading twice -/

/-- The characters that are kept, each with where the reader is when it comes to it. -/
def marked : List Char → CommentState → List (Char × CommentState)
  | [], _ => []
  | c :: cs, .escaped => (c, .escaped) :: marked cs .inside
  | c :: cs, .inside =>
    (c, .inside) ::
      marked cs (if c = '\\' then .escaped else if c = '"' then .outside else .inside)
  | c :: cs, .outside =>
    if c = '"' then (c, .outside) :: marked cs .inside
    else if c = '/' then
      match cs with
      | '/' :: rest => marked (rest.dropWhile (· != '\n')) .outside
      | '*' :: rest =>
        match _h : afterBlockComment rest with
        | some rest' => marked rest' .outside
        | none => []
      | other => (c, .outside) :: marked other .outside
    else (c, .outside) :: marked cs .outside
termination_by cs _ => cs.length
decreasing_by
  all_goals simp only [List.length_cons]
  all_goals try omega
  · have := (List.dropWhile_suffix (l := rest) (· != '\n')).length_le
    omega
  · have := length_afterBlockComment _h
    omega

/-- The characters that are kept make the text that is left. -/
theorem map_fst_marked (cs : List Char) (st : CommentState) :
    (marked cs st).map Prod.fst = withoutComments cs st := by
  fun_induction marked cs st with
  | case1 => rw [withoutComments]; rfl
  | case2 c cs ih => rw [List.map_cons, ih, withoutComments]
  | case3 c cs ih =>
    rw [List.map_cons, withoutComments]
    exact congrArg (c :: ·) ih
  | case4 cs ih => rw [List.map_cons, ih, withoutComments_quote]
  | case5 rest _ ih => rw [ih, withoutComments_lineComment]
  | case6 rest rest' hrest _ ih => rw [ih, withoutComments_blockComment hrest]
  | case7 rest hnone => rw [withoutComments_unended hnone]; rfl
  | case8 other hline hblock _ ih => rw [List.map_cons, ih, withoutComments_slash hline hblock]
  | case9 c cs hquote hslash ih => rw [List.map_cons, ih, withoutComments_plain ⟨hquote, hslash⟩]

/-- What does not begin with a slash keeps its first character. -/
theorem head?_withoutComments {cs : List Char} (h : ∀ rest, cs = '/' :: rest → False) :
    (withoutComments cs .outside).head? = cs.head? := by
  cases cs with
  | nil => rw [withoutComments]
  | cons c cs =>
    by_cases hquote : c = '"'
    · rw [hquote, withoutComments_quote]
      rfl
    · have hslash : c ≠ '/' := fun heq => h cs (heq ▸ rfl)
      rw [withoutComments_plain ⟨hquote, hslash⟩]
      rfl

/-- Nothing that could go on as a comment follows a slash that is kept: the character behind it is
kept with it. -/
theorem head?_behind_slash {other : List Char} (hline : ∀ rest, other = '/' :: rest → False)
    (hblock : ∀ rest, other = '*' :: rest → False) :
    ∀ c ∈ (withoutComments other .outside).head?, c ≠ '/' ∧ c ≠ '*' := by
  rw [head?_withoutComments hline]
  intro c hc
  obtain ⟨rest, hrest⟩ := List.head?_eq_some_iff.1 hc
  exact ⟨fun heq => hline rest (heq ▸ hrest), fun heq => hblock rest (heq ▸ hrest)⟩

theorem marked_slash {cs : List Char} (hline : ∀ rest, cs = '/' :: rest → False)
    (hblock : ∀ rest, cs = '*' :: rest → False) :
    marked ('/' :: cs) .outside = ('/', .outside) :: marked cs .outside := by
  rw [marked, if_neg (by decide), if_pos rfl]
  · exact hline
  · exact hblock

/-- **A second reading** of what is left keeps all of it, and is in each place where the first one
was.  By induction along the first reading; the case of a slash that is kept needs what may stand
behind it. -/
theorem marked_withoutComments (cs : List Char) (st : CommentState) :
    marked (withoutComments cs st) st = marked cs st := by
  fun_induction marked cs st with
  | case1 => rw [withoutComments, marked]
  | case2 c cs ih => rw [withoutComments, marked, ih]
  | case3 c cs ih =>
    rw [withoutComments, marked]
    exact congrArg ((c, CommentState.inside) :: ·) ih
  | case4 cs ih =>
    rw [withoutComments_quote, marked.eq_def]
    exact congrArg (('"', CommentState.outside) :: ·) ih
  | case5 rest _ ih => rw [withoutComments_lineComment, ih]
  | case6 rest rest' hrest _ ih => rw [withoutComments_blockComment hrest, ih]
  | case7 rest hnone => rw [withoutComments_unended hnone, marked]
  | case8 other hline hblock _ ih =>
    have hhead := head?_behind_slash hline hblock
    rw [withoutComments_slash hline hblock, marked_slash, ih]
    · rintro rest heq
      exact (hhead '/' (by rw [heq]; rfl)).1 rfl
    · rintro rest heq
      exact (hhead '*' (by rw [heq]; rfl)).2 rfl
  | case9 c cs hquote hslash ih =>
    rw [withoutComments_plain ⟨hquote, hslash⟩, marked.eq_def]
    dsimp only
    rw [if_neg hquote, if_neg hslash, ih]

/-- Two characters that open a comment: a slash outside of literals, and behind it a slash or a
star. -/
def Opens (a b : Char × CommentState) : Prop := a = ('/', .outside) ∧ (b.1 = '/' ∨ b.1 = '*')

theorem isChain_marked_cons {a : Char × CommentState} {rest : List (Char × CommentState)}
    (ha : a ≠ ('/', .outside)) (h : rest.IsChain fun a b => ¬ Opens a b) :
    (a :: rest).IsChain fun a b => ¬ Opens a b :=
  List.isChain_cons.2 ⟨fun _ _ hopens => ha hopens.1, h⟩

/-- **Nothing that is kept opens a comment.** -/
theorem isChain_marked (cs : List Char) (st : CommentState) :
    (marked cs st).IsChain fun a b => ¬ Opens a b := by
  fun_induction marked cs st with
  | case1 => exact .nil
  | case2 c cs ih => exact isChain_marked_cons (by simp) ih
  | case3 c cs ih => exact isChain_marked_cons (by simp) ih
  | case4 cs ih => exact isChain_marked_cons (by simp) ih
  | case5 rest _ ih => exact ih
  | case6 rest rest' hrest _ ih => exact ih
  | case7 => exact .nil
  | case8 other hline hblock _ ih =>
    refine List.isChain_cons.2 ⟨fun b hb hopens => ?_, ih⟩
    have hkept : b.1 ∈ (withoutComments other .outside).head? := by
      rw [← map_fst_marked, List.head?_map, Option.mem_def.1 hb]
      rfl
    have hhead := head?_behind_slash hline hblock b.1 hkept
    exact hopens.2.elim hhead.1 hhead.2
  | case9 c cs hquote hslash ih => exact isChain_marked_cons (by simpa using hslash) ih

/-- **Stripping twice.** For a text of any shape, a second stripping changes nothing.  The reader is
in a literal at just those of the characters that are left where it was in one at first, and no two
of them open a comment. -/
theorem stripComments_twice (text : String) :
    stripComments (stripComments text) = stripComments text ∧
    (marked text.toList .outside).map Prod.fst = (stripComments text).toList ∧
    marked (stripComments text).toList .outside = marked text.toList .outside ∧
    (marked text.toList .outside).IsChain fun a b => ¬ Opens a b := by
  have hleft : (stripComments text).toList = withoutComments text.toList .outside :=
    String.toList_ofList
  have hagain : marked (stripComments text).toList .outside = marked text.toList .outside := by
    rw [hleft, marked_withoutComments]
  refine ⟨?_, (map_fst_marked ..).trans hleft.symm, hagain, isChain_marked ..⟩
  rw [stripComments, ← map_fst_marked, hagain, map_fst_marked]
  rfl

end RouteImpact.Settings
