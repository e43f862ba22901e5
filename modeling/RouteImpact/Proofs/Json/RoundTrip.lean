import RouteImpact.Proofs.Json.FloatLiteral
import RouteImpact.Proofs.Json.TextLiteral

namespace RouteImpact.Json

open Number (Binary64 mostDigits)

/-!
# Values read back

The compact form of a value reads back as the value.  What a value needs for that is
`Writable`: integers within the limit on digits, floating-point numbers whose decimal text
reads back, and records without repeated names.  Texts need nothing.

Without the condition on floating-point numbers (`Readable`), the value is still read, with
every floating-point number replaced by what its text stands for (`reread`).

* `items_compact`, `fields_compact` — the reader goes through the items of a list and the
  fields of a record one by one;
* `value_compact` — a value is read from within a text, up to what may follow a value;
* `parse_readable` — a text that holds one compact value is read;
* `parse_compact` — and reads back as that value.
-/

/-- What can be written and read back. -/
inductive Writable : Json → Prop
  | null : Writable .null
  | bool (b : Bool) : Writable (.bool b)
  | int {n : Int} (digits : (Nat.toDigits 10 n.natAbs).length ≤ mostDigits) : Writable (.int n)
  | float {x : Binary64} (readsBack : parse (floatLiteral x) = .ok (.float x)) :
      Writable (.float x)
  | text (s : String) : Writable (.text s)
  | list {xs : List Json} (items : ∀ x ∈ xs, Writable x) : Writable (.list xs)
  | record {fs : List (String × Json)} (distinct : (fs.map Prod.fst).Nodup)
      (fields : ∀ f ∈ fs, Writable f.2) : Writable (.record fs)

/-- What can be written and read, if not read back. -/
inductive Readable : Json → Prop
  | null : Readable .null
  | bool (b : Bool) : Readable (.bool b)
  | int {n : Int} (digits : (Nat.toDigits 10 n.natAbs).length ≤ mostDigits) : Readable (.int n)
  | float (x : Binary64) : Readable (.float x)
  | text (s : String) : Readable (.text s)
  | list {xs : List Json} (items : ∀ x ∈ xs, Readable x) : Readable (.list xs)
  | record {fs : List (String × Json)} (distinct : (fs.map Prod.fst).Nodup)
      (fields : ∀ f ∈ fs, Readable f.2) : Readable (.record fs)

theorem Writable.readable {v : Json} (h : Writable v) : Readable v := by
  induction h with
  | null => exact .null
  | bool b => exact .bool b
  | int digits => exact .int digits
  | float _ => exact .float _
  | text s => exact .text s
  | list _ ih => exact .list ih
  | record distinct _ ih => exact .record distinct ih

/-! ### Rereading -/

/-- What the text of a floating-point number stands for. -/
def rereadFloat (x : Binary64) : Binary64 :=
  match parse (floatLiteral x) with
  | .ok (.float y) => y
  | _ => x

/-- The second case above never occurs: every literal is read as a floating-point number. -/
theorem parse_rereadFloat (x : Binary64) :
    parse (floatLiteral x) = .ok (.float (rereadFloat x)) := by
  obtain ⟨y, hy⟩ := parse_floatLiteral x
  rw [rereadFloat, hy]

mutual

/-- What the compact form of a value stands for. -/
def reread : Json → Json
  | .float x => .float (rereadFloat x)
  | .list xs => .list (rereadItems xs)
  | .record fs => .record (rereadFields fs)
  | v => v

/-- What the compact form of each value of a list stands for. -/
def rereadItems : List Json → List Json
  | [] => []
  | x :: xs => reread x :: rereadItems xs

/-- What the compact form of each field of a record stands for. -/
def rereadFields : List (String × Json) → List (String × Json)
  | [] => []
  | (name, x) :: rest => (name, reread x) :: rereadFields rest

end

theorem reread_record (fs : List (String × Json)) :
    reread (.record fs) = .record (rereadFields fs) := rfl

theorem rereadItems_eq_map (xs : List Json) : rereadItems xs = xs.map reread := by
  induction xs with
  | nil => rfl
  | cons x xs ih => rw [rereadItems, ih, List.map_cons]

theorem rereadFields_eq_map (fs : List (String × Json)) :
    rereadFields fs = fs.map fun f => (f.1, reread f.2) := by
  induction fs with
  | nil => rfl
  | cons f fs ih => rw [rereadFields, ih, List.map_cons]

/-- What reads back is not changed by being written and read. -/
theorem reread_of_writable {v : Json} (h : Writable v) : reread v = v := by
  induction h with
  | null | bool _ | int _ | text _ => rfl
  | float readsBack =>
    rw [parse_rereadFloat] at readsBack
    exact Except.ok.inj readsBack
  | list _ ih =>
    rw [reread, rereadItems_eq_map, List.map_congr_left ih, List.map_id']
  | record _ _ ih =>
    rw [reread, rereadFields_eq_map, List.map_congr_left fun f hf => by rw [ih f hf],
      List.map_id']

/-! ### Where a value starts -/

/-- A value does not start with a blank. -/
theorem skipBlank_of_value {fuel : Nat} {cs : List Char} {p : Json × List Char}
    (h : value fuel cs = .ok p) : skipBlank cs = cs := by
  cases cs with
  | nil => rfl
  | cons c cs =>
    by_cases hb : (c == ' ' || c == '\t' || c == '\n' || c == '\r') = true
    · cases fuel with
      | zero => cases h
      | succ fuel =>
        simp only [Bool.or_eq_true, beq_iff_eq] at hb
        rcases hb with ((rfl | rfl) | rfl) | rfl <;> cases h
    · exact List.dropWhile_cons_of_neg hb

/-- Items do not start with a blank, since values do not. -/
theorem skipBlank_of_items {fuel : Nat} {cs : List Char} {read : List Json}
    {p : Json × List Char} (h : items fuel cs read = .ok p) : skipBlank cs = cs := by
  cases fuel with
  | zero => cases h
  | succ fuel =>
    rw [items] at h
    split at h
    · cases h
    · next hv => exact skipBlank_of_value hv

/-- Fields start with a quote. -/
theorem skipBlank_of_fields {fuel : Nat} {cs : List Char} {read : List (String × Json)}
    {p : Json × List Char} (h : fields fuel cs read = .ok p) : skipBlank cs = cs := by
  cases fuel with
  | zero => cases h
  | succ fuel =>
    unfold fields at h
    split at h
    · rfl
    · cases h

/-- A list that is not empty is read by its items. -/
theorem value_of_items {fuel : Nat} {cs : List Char} {p : Json × List Char}
    (h : items fuel cs [] = .ok p) : value (fuel + 1) ('[' :: cs) = .ok p := by
  rw [value, skipBlank_of_items h]
  split
  · -- no value starts with the end of a list
    cases fuel with
    | zero => cases h
    | succ fuel =>
      rw [items] at h
      cases fuel <;> cases h
  · exact h

/-- A record that is not empty is read by its fields. -/
theorem value_of_fields {fuel : Nat} {cs : List Char} {p : Json × List Char}
    (h : fields fuel cs [] = .ok p) : value (fuel + 1) ('\x7b' :: cs) = .ok p := by
  rw [value, skipBlank_of_fields h]
  split
  · cases fuel <;> cases h
  · exact h

/-! ### Lists -/

/-- The items of a list as one text. -/
theorem toList_intercalate_cons (s t : String) (l : List String) :
    (",".intercalate (s :: t :: l)).toList =
      s.toList ++ ',' :: (",".intercalate (t :: l)).toList := by
  rw [String.intercalate_cons_cons, String.toList_append, String.toList_append,
    List.append_assoc]
  rfl

/-- **Items.** Items that are read one by one are read as a list. -/
theorem items_compact {xs : List Json} (hne : xs ≠ [])
    (hvalue : ∀ x ∈ xs, ∀ fuel rest, (compact x).toList.length ≤ fuel → Closes rest →
      value (fuel + 1) ((compact x).toList ++ rest) = .ok (reread x, rest))
    {fuel : Nat} (hfuel : (",".intercalate (compactItems xs)).toList.length ≤ fuel)
    (rest : List Char) (read : List Json) :
    items (fuel + 2) ((",".intercalate (compactItems xs)).toList ++ ']' :: rest) read =
      .ok (.list (read.reverse ++ rereadItems xs), rest) := by
  induction xs generalizing fuel read with
  | nil => exact absurd rfl hne
  | cons x xs ih =>
    cases xs with
    | nil =>
      rw [compactItems, compactItems, String.intercalate_singleton] at hfuel ⊢
      have hx := hvalue x (by simp) fuel (']' :: rest) hfuel (closes_cons (by simp) rest)
      rw [items, hx]
      simp [skipBlank, rereadItems]
    | cons y ys =>
      have htext : (",".intercalate (compactItems (x :: y :: ys))).toList =
          (compact x).toList ++ ',' :: (",".intercalate (compactItems (y :: ys))).toList :=
        toList_intercalate_cons ..
      rw [htext, List.length_append, List.length_cons] at hfuel
      have hx := hvalue x (by simp) fuel
        (',' :: ((",".intercalate (compactItems (y :: ys))).toList ++ ']' :: rest)) (by omega)
        (closes_cons (by simp) _)
      -- the comma pays for the turn that the first item took
      obtain ⟨fuel, rfl⟩ : ∃ k, fuel = k + 1 := Nat.exists_eq_add_of_le' (by omega)
      have hle : (",".intercalate (compactItems (y :: ys))).toList.length ≤ fuel := by omega
      have hrest := ih (by simp) (fun z hz => hvalue z (by simp [hz])) hle
        (reread x :: read)
      rw [htext, List.append_assoc, List.cons_append, items, hx]
      show items (fuel + 2) (skipBlank _) (reread x :: read) = _
      rw [skipBlank_of_items hrest, hrest]
      simp [rereadItems]

/-! ### Records -/

theorem setField_of_notMem {name : String} {v : Json} {fs : List (String × Json)}
    (h : name ∉ fs.map Prod.fst) : setField name v fs = fs ++ [(name, v)] := by
  induction fs with
  | nil => rfl
  | cons f fs ih =>
    rw [List.map_cons, List.mem_cons, not_or] at h
    rw [setField, if_neg (Ne.symm h.1), ih h.2]
    rfl

/-- The form of one field, before whatever follows it. -/
theorem toList_field_append (name : String) (x : Json) (rest : List Char) :
    (textLiteral name ++ ":" ++ compact x).toList ++ rest =
      '"' :: (name.toList.flatMap escapedChar ++ '"' :: ':' :: ((compact x).toList ++ rest)) := by
  rw [String.toList_append, String.toList_append, toList_textLiteral]
  simp

/-- The last field is read and kept. -/
theorem fields_last {fuel : Nat} {name : String} {x y : Json} {rest : List Char}
    (hx : value fuel ((compact x).toList ++ '\x7d' :: rest) = .ok (y, '\x7d' :: rest))
    (read : List (String × Json)) :
    fields (fuel + 1) ((textLiteral name ++ ":" ++ compact x).toList ++ '\x7d' :: rest) read =
      .ok (.record (setField name y read), rest) := by
  have hcolon : ∀ cs, skipBlank (':' :: cs) = ':' :: cs := fun _ => rfl
  have hbrace : ∀ cs, skipBlank ('\x7d' :: cs) = '\x7d' :: cs := fun _ => rfl
  rw [toList_field_append, fields, stringLoop_textLiteral]
  simp only [hcolon, skipBlank_of_value hx, hx, hbrace]

/-- A field before a comma is read and kept, and the reader goes on behind the comma. -/
theorem fields_next {fuel : Nat} {name : String} {x y : Json} {rest : List Char}
    (hx : value fuel ((compact x).toList ++ ',' :: rest) = .ok (y, ',' :: rest))
    (read : List (String × Json)) :
    fields (fuel + 1) ((textLiteral name ++ ":" ++ compact x).toList ++ ',' :: rest) read =
      fields fuel (skipBlank rest) (setField name y read) := by
  have hcolon : ∀ cs, skipBlank (':' :: cs) = ':' :: cs := fun _ => rfl
  have hcomma : ∀ cs, skipBlank (',' :: cs) = ',' :: cs := fun _ => rfl
  rw [toList_field_append, fields, stringLoop_textLiteral]
  simp only [hcolon, skipBlank_of_value hx, hx, hcomma]

/-- **Fields.** Fields with distinct names whose values are read are read as a record. -/
theorem fields_compact {fs : List (String × Json)} (hne : fs ≠ [])
    (hvalue : ∀ f ∈ fs, ∀ fuel rest, (compact f.2).toList.length ≤ fuel → Closes rest →
      value (fuel + 1) ((compact f.2).toList ++ rest) = .ok (reread f.2, rest))
    {fuel : Nat} (hfuel : (",".intercalate (compactFields fs)).toList.length ≤ fuel)
    (rest : List Char) (read : List (String × Json))
    (hdistinct : ((read ++ fs).map Prod.fst).Nodup) :
    fields (fuel + 2) ((",".intercalate (compactFields fs)).toList ++ '\x7d' :: rest) read =
      .ok (.record (read ++ rereadFields fs), rest) := by
  induction fs generalizing fuel read with
  | nil => exact absurd rfl hne
  | cons f fs ih =>
    obtain ⟨name, x⟩ := f
    -- the name is new, so the field goes to the end
    have hfresh : name ∉ read.map Prod.fst := by
      rw [List.map_append, List.nodup_append] at hdistinct
      intro hmem
      exact hdistinct.2.2 name hmem name (by simp) rfl
    have hset := setField_of_notMem (v := reread x) hfresh
    have hlen : (compact x).toList.length ≤
        (textLiteral name ++ ":" ++ compact x).toList.length := by
      rw [String.toList_append, List.length_append]
      omega
    cases fs with
    | nil =>
      rw [compactFields, compactFields, String.intercalate_singleton] at hfuel ⊢
      have hx := hvalue (name, x) (by simp) fuel ('\x7d' :: rest) (Nat.le_trans hlen hfuel)
        (closes_cons (by simp) rest)
      rw [fields_last hx, hset]
      rfl
    | cons f fs =>
      have htext : (",".intercalate (compactFields ((name, x) :: f :: fs))).toList =
          (textLiteral name ++ ":" ++ compact x).toList ++
            ',' :: (",".intercalate (compactFields (f :: fs))).toList :=
        toList_intercalate_cons ..
      rw [htext, List.length_append, List.length_cons] at hfuel
      have hx := hvalue (name, x) (by simp) fuel
        (',' :: ((",".intercalate (compactFields (f :: fs))).toList ++ '\x7d' :: rest))
        (Nat.le_trans hlen (Nat.le_of_add_right_le hfuel)) (closes_cons (by simp) _)
      obtain ⟨fuel, rfl⟩ : ∃ k, fuel = k + 1 := Nat.exists_eq_add_of_le' (by omega)
      have hle : (",".intercalate (compactFields (f :: fs))).toList.length ≤ fuel := by omega
      have hrest := ih (by simp) (fun z hz => hvalue z (by simp [hz])) hle
        (read ++ [(name, reread x)]) (by simpa using hdistinct)
      rw [htext, List.append_assoc, List.cons_append, fields_next hx, hset,
        skipBlank_of_fields hrest, hrest]
      simp [rereadFields]

/-! ### Values -/

/-- **Values.** A value is read from within a text. -/
theorem value_compact {v : Json} (hv : Readable v) {fuel : Nat} {rest : List Char}
    (hfuel : (compact v).toList.length ≤ fuel) (hr : Closes rest) :
    value (fuel + 1) ((compact v).toList ++ rest) = .ok (reread v, rest) := by
  -- the brackets of a list or a record pay for going into it
  induction hv generalizing fuel rest with
  | null => rfl
  | bool b => cases b <;> rfl
  | int digits => exact value_int digits hr fuel
  | float x => exact value_float (parse_rereadFloat x) hr fuel
  | text s =>
    have htext : (compact (.text s)).toList ++ rest =
        '"' :: (s.toList.flatMap escapedChar ++ '"' :: rest) := by
      rw [compact, toList_textLiteral]
      simp
    rw [htext, value, stringLoop_textLiteral]
    rfl
  | @list xs _ ih =>
    have htext : (compact (.list xs)).toList =
        '[' :: ((",".intercalate (compactItems xs)).toList ++ [']']) := by
      simp [compact]
    rw [htext, List.length_cons, List.length_append, List.length_singleton] at hfuel
    rw [htext, List.cons_append, List.append_assoc]
    cases xs with
    | nil => rfl
    | cons x xs =>
      obtain ⟨fuel, rfl⟩ : ∃ k, fuel = k + 2 := Nat.exists_eq_add_of_le' (by omega)
      have hle : (",".intercalate (compactItems (x :: xs))).toList.length ≤ fuel := by omega
      exact value_of_items (items_compact (by simp) (fun y hy _ _ hf hc => ih y hy hf hc) hle
        rest [])
  | @record fs distinct _ ih =>
    have htext : (compact (.record fs)).toList =
        '\x7b' :: ((",".intercalate (compactFields fs)).toList ++ ['\x7d']) := by
      simp [compact]
    rw [htext, List.length_cons, List.length_append, List.length_singleton] at hfuel
    rw [htext, List.cons_append, List.append_assoc]
    cases fs with
    | nil => rfl
    | cons f fs =>
      obtain ⟨fuel, rfl⟩ : ∃ k, fuel = k + 2 := Nat.exists_eq_add_of_le' (by omega)
      have hle : (",".intercalate (compactFields (f :: fs))).toList.length ≤ fuel := by omega
      exact value_of_fields (fields_compact (by simp) (fun g hg _ _ hf hc => ih g hg hf hc) hle
        rest [] distinct)

/-- The compact form of a value is read as what it stands for. -/
theorem parse_readable {v : Json} (hv : Readable v) : parse (compact v) = .ok (reread v) := by
  have h : value (2 * (compact v).toList.length + 1 + 1) ((compact v).toList ++ []) =
      .ok (reread v, []) := value_compact hv (by omega) closes_nil
  rw [List.append_nil] at h
  unfold parse
  dsimp only
  rw [skipBlank_of_value h, h]
  rfl

/-- **Round trip.** The compact form of a value is read as that value. -/
theorem parse_compact {v : Json} (hv : Writable v) : parse (compact v) = .ok v := by
  rw [parse_readable hv.readable, reread_of_writable hv]

end RouteImpact.Json
