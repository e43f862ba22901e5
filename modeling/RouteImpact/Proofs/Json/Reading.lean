import RouteImpact.Json.Reader

namespace RouteImpact.Json

/-!
# What a reader goes over

The reader takes a value, an item of a list or a field of a record at a time and goes on with the
rest, on less fuel each time.  What can come of it does not depend on the fuel and is put down here,
with a rule for each way to go on.

* `Part` — what is read at a place;
* `Reads` — the rules;
* `reads_of_read` — the reader keeps to them.
-/

/-- What is read at a place: a value, or more items of a list or fields of a record, given those
that have been read. -/
inductive Part where
  | value
  | items (read : List Json)
  | fields (read : List (String × Json))

/-- A part, the text that it starts, what comes of it, and the text that is left. -/
inductive Reads : Part → List Char → Json → List Char → Prop
  | literal {cs rest : List Char} {s : String}
      (hliteral : stringLoop (cs.length + 1) cs [] = some (s, rest)) :
      Reads .value ('"' :: cs) (.text s) rest
  | emptyList {cs rest : List Char} (hend : skipBlank cs = ']' :: rest) :
      Reads .value ('[' :: cs) (.list []) rest
  | list {cs rest : List Char} {v : Json} (hitems : Reads (.items []) (skipBlank cs) v rest) :
      Reads .value ('[' :: cs) v rest
  | emptyRecord {cs rest : List Char} (hend : skipBlank cs = '\x7d' :: rest) :
      Reads .value ('\x7b' :: cs) (.record []) rest
  | record {cs rest : List Char} {v : Json} (hfields : Reads (.fields []) (skipBlank cs) v rest) :
      Reads .value ('\x7b' :: cs) v rest
  | word {cs rest : List Char} {v : Json} (hword : word? cs = some (v, rest)) :
      Reads .value cs v rest
  | negative {cs rest : List Char} {v : Json} (hnumber : number true cs = .ok (v, rest)) :
      Reads .value ('-' :: cs) v rest
  | number {cs rest : List Char} {v : Json} (hnumber : number false cs = .ok (v, rest)) :
      Reads .value cs v rest
  | lastItem {read : List Json} {cs after rest : List Char} {v : Json}
      (hvalue : Reads .value cs v after) (hend : skipBlank after = ']' :: rest) :
      Reads (.items read) cs (.list (v :: read).reverse) rest
  | item {read : List Json} {cs after next rest : List Char} {v w : Json}
      (hvalue : Reads .value cs v after) (hcomma : skipBlank after = ',' :: next)
      (hitems : Reads (.items (v :: read)) (skipBlank next) w rest) :
      Reads (.items read) cs w rest
  | lastField {read : List (String × Json)} {cs named start after rest : List Char} {name : String}
      {v : Json} (hname : stringLoop (cs.length + 1) cs [] = some (name, named))
      (hcolon : skipBlank named = ':' :: start) (hvalue : Reads .value (skipBlank start) v after)
      (hend : skipBlank after = '\x7d' :: rest) :
      Reads (.fields read) ('"' :: cs) (.record (setField name v read)) rest
  | field {read : List (String × Json)} {cs named start after next rest : List Char}
      {name : String} {v w : Json} (hname : stringLoop (cs.length + 1) cs [] = some (name, named))
      (hcolon : skipBlank named = ':' :: start) (hvalue : Reads .value (skipBlank start) v after)
      (hcomma : skipBlank after = ',' :: next)
      (hfields : Reads (.fields (setField name v read)) (skipBlank next) w rest) :
      Reads (.fields read) ('"' :: cs) w rest

/-- **The rules hold of the reader.**  By induction on the fuel, for a value, the items of a list
and the fields of a record at once. -/
theorem reads_of_read (fuel : Nat) :
    (∀ {cs v rest}, value fuel cs = .ok (v, rest) → Reads .value cs v rest) ∧
    (∀ {cs read v rest}, items fuel cs read = .ok (v, rest) → Reads (.items read) cs v rest) ∧
    ∀ {cs read v rest}, fields fuel cs read = .ok (v, rest) → Reads (.fields read) cs v rest := by
  induction fuel with
  | zero => exact ⟨fun h => by simp [value] at h, fun h => by simp [items] at h,
      fun h => by simp [fields] at h⟩
  | succ fuel ih =>
    obtain ⟨hvalue, hitems, hfields⟩ := ih
    refine ⟨fun h => ?_, fun h => ?_, fun h => ?_⟩
    · unfold value at h
      -- the first character says what kind of value it is
      split at h
      · split at h
        · next hliteral =>
          cases h
          exact .literal hliteral
        · cases h
      · split at h
        · next hend =>
          cases h
          exact .emptyList hend
        · exact .list (hitems h)
      · split at h
        · next hend =>
          cases h
          exact .emptyRecord hend
        · exact .record (hfields h)
      · split at h
        · next found hword =>
          cases h
          exact .word hword
        · split at h
          · exact .negative h
          · exact .number h
    · unfold items at h
      split at h
      · cases h
      · next v after hv =>
        split at h
        · next hend =>
          cases h
          exact .lastItem (hvalue hv) hend
        · next hcomma => exact .item (hvalue hv) hcomma (hitems h)
        · cases h
    · unfold fields at h
      split at h
      · split at h
        · cases h
        · next name named hname =>
          split at h
          · next hcolon =>
            split at h
            · cases h
            · next v after hv =>
              dsimp only at h
              split at h
              · next hend =>
                cases h
                exact .lastField hname hcolon (hvalue hv) hend
              · next hcomma => exact .field hname hcolon (hvalue hv) hcomma (hfields h)
              · cases h
          · cases h
      · cases h

/-- A text that is read holds one value between blank space. -/
theorem reads_of_parse {text : String} {v : Json} (h : parse text = .ok v) :
    ∃ rest, Reads .value (skipBlank text.toList) v rest ∧ skipBlank rest = [] := by
  unfold parse at h
  dsimp only at h
  split at h
  · cases h
  · next w rest hread =>
    split at h
    · next hend =>
      cases h
      exact ⟨rest, (reads_of_read _).1 hread, List.isEmpty_iff.1 hend⟩
    · cases h

end RouteImpact.Json
