namespace RouteImpact.Settings

/-!
# Comments in configuration files

Configuration files may hold `//` and `/* */` comments, which are taken out
before the data is read.  What looks like a comment inside a text literal stays.
-/

/-- The text after the end of a block comment. -/
def afterBlockComment : List Char → Option (List Char)
  | [] => none
  | '*' :: '/' :: rest => some rest
  | _ :: rest => afterBlockComment rest

/-- Where the reader is: outside or inside a text literal, or after a backslash in
one. -/
inductive CommentState where
  | outside
  | inside
  | escaped
deriving Repr, DecidableEq

theorem length_afterBlockComment {cs rest : List Char} (h : afterBlockComment cs = some rest) :
    rest.length < cs.length := by
  fun_induction afterBlockComment cs with
  | case1 => simp at h
  | case2 rest' => simp only [Option.some.injEq] at h; subst h; simp only [List.length_cons]; omega
  | case3 _ cs _ ih => have := ih h; simp only [List.length_cons]; omega

/-- The text without its comments.  A line comment leaves its line feed; a comment
that never ends takes the rest of the text. -/
def withoutComments : List Char → CommentState → List Char
  | [], _ => []
  | c :: cs, .escaped => c :: withoutComments cs .inside
  | c :: cs, .inside =>
    c :: withoutComments cs (if c = '\\' then .escaped else if c = '"' then .outside else .inside)
  | c :: cs, .outside =>
    if c = '"' then c :: withoutComments cs .inside
    else if c = '/' then
      match cs with
      | '/' :: rest => withoutComments (rest.dropWhile (· != '\n')) .outside
      | '*' :: rest =>
        match _h : afterBlockComment rest with
        | some rest' => withoutComments rest' .outside
        | none => []
      | other => c :: withoutComments other .outside
    else c :: withoutComments cs .outside
termination_by cs _ => cs.length
decreasing_by
  all_goals simp only [List.length_cons]
  all_goals try omega
  · have := (List.dropWhile_suffix (l := rest) (· != '\n')).length_le
    omega
  · have := length_afterBlockComment _h
    omega

/-- Removes the comments of a text. -/
def stripComments (text : String) : String :=
  String.ofList (withoutComments text.toList .outside)

end RouteImpact.Settings
