namespace RouteImpact

/-!
# Maps that keep their order

An `OrderedMap` assigns values to names and remembers the order in which the
names came.  Setting a name that is there changes its value and keeps its place.
No name occurs twice, which is part of the type.
-/

/-- A map from names to values, in the order in which the names were added. -/
structure OrderedMap (α : Type) where
  entries : List (String × α)
  nodup : (entries.map Prod.fst).Nodup := by exact List.nodup_nil
deriving Repr

namespace OrderedMap

variable {α : Type}

/-- The map without names. -/
def empty : OrderedMap α := ⟨[], List.nodup_nil⟩

instance : Inhabited (OrderedMap α) := ⟨empty⟩

/-- The names, in order. -/
def keys (m : OrderedMap α) : List String := m.entries.map Prod.fst

/-- The values, in order. -/
def values (m : OrderedMap α) : List α := m.entries.map Prod.snd

/-- How many names a map has. -/
def size (m : OrderedMap α) : Nat := m.entries.length

/-- The value of a name in a list of entries. -/
def lookup (k : String) : List (String × α) → Option α
  | [] => none
  | (n, v) :: rest => if n = k then some v else lookup k rest

/-- The value of a name. -/
def get? (m : OrderedMap α) (k : String) : Option α := lookup k m.entries

/-- Whether a map has a name. -/
def contains (m : OrderedMap α) (k : String) : Bool := (m.get? k).isSome

/-- Entries with the value of one name set. -/
def setIn (k : String) (v : α) : List (String × α) → List (String × α)
  | [] => [(k, v)]
  | (n, w) :: rest => if n = k then (n, v) :: rest else (n, w) :: setIn k v rest

theorem map_fst_setIn (k : String) (v : α) (es : List (String × α)) :
    (setIn k v es).map Prod.fst =
      if k ∈ es.map Prod.fst then es.map Prod.fst else es.map Prod.fst ++ [k] := by
  induction es with
  | nil => simp [setIn]
  | cons e es ih => obtain ⟨n, w⟩ := e; grind [setIn]

/-- Sets the value of a name. -/
def set (m : OrderedMap α) (k : String) (v : α) : OrderedMap α where
  entries := setIn k v m.entries
  nodup := by
    have h := m.nodup
    rw [map_fst_setIn]
    split
    · exact h
    · rename_i hk
      exact List.nodup_append.2 ⟨h, by simp, by grind⟩

/-- Removes a name. -/
def erase (m : OrderedMap α) (k : String) : OrderedMap α where
  entries := m.entries.filter (·.1 != k)
  nodup := m.nodup.sublist (List.filter_sublist.map _)

/-- Changes every value. -/
def mapValues {β : Type} (m : OrderedMap α) (f : String → α → β) : OrderedMap β where
  entries := m.entries.map fun (k, v) => (k, f k v)
  nodup := by simpa [List.map_map, Function.comp_def] using m.nodup

/-- Keeps the entries that satisfy `p`. -/
def filter (m : OrderedMap α) (p : String → α → Bool) : OrderedMap α where
  entries := m.entries.filter fun (k, v) => p k v
  nodup := m.nodup.sublist (List.filter_sublist.map _)

/-- The map of a list of entries; of two entries with one name the later counts. -/
def ofList (es : List (String × α)) : OrderedMap α :=
  es.foldl (fun m (k, v) => m.set k v) empty

/-- Sets all names of another map. -/
def merge (m other : OrderedMap α) : OrderedMap α :=
  other.entries.foldl (fun m (k, v) => m.set k v) m

/-! ### Look-up laws -/

theorem lookup_setIn (k k' : String) (v : α) (es : List (String × α)) :
    lookup k' (setIn k v es) = if k = k' then some v else lookup k' es := by
  induction es with
  | nil => simp [setIn, lookup]
  | cons e es ih => obtain ⟨n, w⟩ := e; grind [setIn, lookup]

theorem mem_of_lookup {k : String} {v : α} {es : List (String × α)} (h : lookup k es = some v) :
    (k, v) ∈ es := by
  induction es with
  | nil => simp [lookup] at h
  | cons e es ih => obtain ⟨n, w⟩ := e; grind [lookup]

theorem mem_values_of_get? {m : OrderedMap α} {k : String} {v : α} (h : m.get? k = some v) :
    v ∈ m.values :=
  List.mem_map.2 ⟨(k, v), mem_of_lookup h, rfl⟩

@[simp] theorem get?_empty (k : String) : (empty : OrderedMap α).get? k = none := rfl

@[simp] theorem get?_set (m : OrderedMap α) (k k' : String) (v : α) :
    (m.set k v).get? k' = if k = k' then some v else m.get? k' :=
  lookup_setIn k k' v m.entries

theorem lookup_filter_ne (k k' : String) (es : List (String × α)) :
    lookup k' (es.filter (·.1 != k)) = if k = k' then none else lookup k' es := by
  induction es with
  | nil => simp [lookup]
  | cons e es ih => obtain ⟨n, w⟩ := e; grind [lookup]

@[simp] theorem get?_erase (m : OrderedMap α) (k k' : String) :
    (m.erase k).get? k' = if k = k' then none else m.get? k' :=
  lookup_filter_ne k k' m.entries

theorem lookup_map {β : Type} (f : String → α → β) (k : String) (es : List (String × α)) :
    lookup k (es.map fun (k, v) => (k, f k v)) = (lookup k es).map (f k) := by
  induction es with
  | nil => rfl
  | cons e es ih => obtain ⟨n, w⟩ := e; simp only [List.map_cons, lookup]; grind

@[simp] theorem get?_mapValues {β : Type} (m : OrderedMap α) (f : String → α → β) (k : String) :
    (m.mapValues f).get? k = (m.get? k).map (f k) :=
  lookup_map f k m.entries

end OrderedMap

end RouteImpact
