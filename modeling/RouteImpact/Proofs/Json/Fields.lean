import RouteImpact.Proofs.Data.Containers
import RouteImpact.Proofs.Json.Reading

namespace RouteImpact.Json

/-!
# The fields of what is read

Of two fields with one name the reader keeps the later, so that a record that was read has each of
its names once, and looking a name up finds the one field that bears it.

* `field?_eq_lookup` — looking up a field is looking up an entry;
* `Distinct` — a value without records that have a name twice;
* `distinct_of_parse` — what is read is such a value;
* `Distinct.eq_of_mem` — hence the fields of a record are what is found in it.
-/

theorem field?_eq_lookup (fs : List (String × Json)) (name : String) :
    field? fs name = OrderedMap.lookup name fs := by
  induction fs with
  | nil => rfl
  | cons f fs ih =>
    obtain ⟨n, v⟩ := f
    rw [OrderedMap.lookup, ← ih, field?, field?]
    by_cases hn : n = name
    · simp [hn]
    · rw [if_neg hn, List.find?_cons_of_neg (by simpa using hn)]

/-- A value without records that have a name twice. -/
inductive Distinct : Json → Prop
  | plain {v : Json} (hlist : ∀ xs, v ≠ .list xs) (hrecord : ∀ fs, v ≠ .record fs) : Distinct v
  | list {xs : List Json} (hitems : ∀ x ∈ xs, Distinct x) : Distinct (.list xs)
  | record {fs : List (String × Json)} (hnames : (fs.map Prod.fst).Nodup)
      (hfields : ∀ f ∈ fs, Distinct f.2) : Distinct (.record fs)

/-! ### Setting a field -/

theorem map_fst_setField (name : String) (v : Json) (fs : List (String × Json)) :
    (setField name v fs).map Prod.fst =
      if name ∈ fs.map Prod.fst then fs.map Prod.fst else fs.map Prod.fst ++ [name] := by
  induction fs with
  | nil => simp [setField]
  | cons f fs ih =>
    obtain ⟨n, w⟩ := f
    grind [setField]

theorem nodup_setField {fs : List (String × Json)} (h : (fs.map Prod.fst).Nodup) (name : String)
    (v : Json) : ((setField name v fs).map Prod.fst).Nodup := by
  rw [map_fst_setField]
  split
  · exact h
  · next hnew =>
    refine List.nodup_append.2 ⟨h, by simp, ?_⟩
    rintro n hn m hm rfl
    exact hnew (List.mem_singleton.1 hm ▸ hn)

theorem of_mem_setField {name : String} {v : Json} {fs : List (String × Json)}
    {f : String × Json} (h : f ∈ setField name v fs) : f.2 = v ∨ f ∈ fs := by
  induction fs with
  | nil => exact Or.inl (by rw [List.mem_singleton.1 h])
  | cons g fs ih =>
    obtain ⟨n, w⟩ := g
    rw [setField] at h
    split at h
    · rcases List.mem_cons.1 h with rfl | h
      · exact Or.inl rfl
      · exact Or.inr (List.mem_cons_of_mem _ h)
    · rcases List.mem_cons.1 h with rfl | h
      · exact Or.inr (List.mem_cons_self ..)
      · exact (ih h).imp id (List.mem_cons_of_mem _)

/-! ### Reading -/

theorem distinct_of_word {cs rest : List Char} {v : Json} (h : word? cs = some (v, rest)) :
    Distinct v := by
  unfold word? at h
  dsimp only at h
  split at h
  · next w found hfind =>
    cases h
    have hmem := List.mem_of_find?_eq_some hfind
    simp only [List.mem_cons, Prod.mk.injEq, List.not_mem_nil, or_false] at hmem
    rcases hmem with ⟨-, rfl⟩ | ⟨-, rfl⟩ | ⟨-, rfl⟩ | ⟨-, rfl⟩ | ⟨-, rfl⟩ | ⟨-, rfl⟩ <;>
      exact .plain nofun nofun
  · cases h

theorem distinct_of_numberOf {negative : Bool} {whole fraction : List Char} {e : Option Int}
    {v : Json} (h : numberOf negative whole fraction e = .ok v) : Distinct v := by
  unfold numberOf at h
  split at h
  · cases h
    exact .plain nofun nofun
  · split at h
    · split at h
      · cases h
      · cases h
        exact .plain nofun nofun
    · cases h
      exact .plain nofun nofun

theorem distinct_of_number {negative : Bool} {cs rest : List Char} {v : Json}
    (h : number negative cs = .ok (v, rest)) : Distinct v := by
  have hmap : ∀ {x : Except ReadError Json} {left : List Char},
      (∀ w, x = .ok w → Distinct w) → x.map (·, left) = .ok (v, rest) → Distinct v := by
    intro x left hx hread
    cases x with
    | error e => cases hread
    | ok w =>
      cases hread
      exact hx _ rfl
  unfold number at h
  dsimp only at h
  split at h
  · cases h
  · split at h
    · exact hmap (fun _ => distinct_of_numberOf) h
    · exact hmap (fun _ => distinct_of_numberOf) h

/-- What was read of a part before has each name once. -/
def Part.Distinct : Part → Prop
  | .value => True
  | .items read => ∀ x ∈ read, Json.Distinct x
  | .fields read => (read.map Prod.fst).Nodup ∧ ∀ f ∈ read, Json.Distinct f.2

theorem Part.Distinct.cons {read : List Json} {v : Json} (h : (Part.items read).Distinct)
    (hv : Json.Distinct v) : (Part.items (v :: read)).Distinct :=
  List.forall_mem_cons.2 ⟨hv, h⟩

theorem Part.Distinct.setField {read : List (String × Json)} {v : Json}
    (h : (Part.fields read).Distinct) (name : String) (hv : Json.Distinct v) :
    (Part.fields (setField name v read)).Distinct :=
  ⟨nodup_setField h.1 name v, fun f hf => (of_mem_setField hf).elim (fun heq => heq ▸ hv) (h.2 f)⟩

/-- **What is read has each name once**, if what was read before it has. -/
theorem distinct_of_reads {part : Part} {cs rest : List Char} {v : Json}
    (h : Reads part cs v rest) (hpart : part.Distinct) : Distinct v := by
  induction h with
  | literal => exact .plain nofun nofun
  | emptyList => exact .list (by simp)
  | list _ ih => exact ih (by simp [Part.Distinct])
  | emptyRecord => exact .record (by simp) (by simp)
  | record _ ih => exact ih (by simp [Part.Distinct])
  | word hword => exact distinct_of_word hword
  | negative hnumber => exact distinct_of_number hnumber
  | number hnumber => exact distinct_of_number hnumber
  | lastItem _ _ ih =>
    have hall := hpart.cons (ih trivial)
    exact .list fun x hx => hall x (List.mem_reverse.1 hx)
  | item _ _ _ ihvalue ihitems => exact ihitems (hpart.cons (ihvalue trivial))
  | lastField _ _ _ _ ih =>
    obtain ⟨hnames, hall⟩ := hpart.setField _ (ih trivial)
    exact .record hnames hall
  | field _ _ _ _ _ ihvalue ihfields => exact ihfields (hpart.setField _ (ihvalue trivial))

theorem distinct_of_parse {s : String} {v : Json} (h : parse s = .ok v) : Distinct v := by
  obtain ⟨rest, hreads, -⟩ := reads_of_parse h
  exact distinct_of_reads hreads trivial

/-! ### Looking up -/

theorem Distinct.get? {v w : Json} (h : Distinct v) {name : String} (hget : v.get? name = some w) :
    Distinct w := by
  cases h with
  | plain hlist hrecord =>
    cases v with
    | record fs => exact absurd rfl (hrecord fs)
    | _ => cases hget
  | list => cases hget
  | record hnames hfields =>
    rw [Json.get?, field?_eq_lookup] at hget
    exact hfields _ (OrderedMap.mem_of_lookup hget)

/-- The fields of a record are what is found in it. -/
theorem Distinct.eq_of_mem {fs : List (String × Json)} (h : Distinct (.record fs)) {name : String}
    {v w : Json} (hget : (Json.record fs).get? name = some v) (hmem : (name, w) ∈ fs) : w = v := by
  cases h with
  | plain hlist hrecord => exact absurd rfl (hrecord fs)
  | record hnames hfields =>
    rw [Json.get?, field?_eq_lookup, OrderedMap.lookup_of_mem hnames hmem] at hget
    exact Option.some.inj hget

end RouteImpact.Json
