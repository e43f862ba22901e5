import RouteImpact.Text.Basic

namespace RouteImpact

/-!
# Sets of names

A `NameSet` is a strictly increasing list of texts, so that two sets with the
same members are equal (`NameSet.ext`) and a set read in order is sorted by code
point.
-/

/-- A finite set of texts. -/
structure NameSet where
  toList : List String
  sorted : toList.Pairwise (· < ·) := by exact List.Pairwise.nil
deriving Repr

namespace NameSet

instance : DecidableEq NameSet := fun a b =>
  if h : a.toList = b.toList then isTrue (by cases a; cases b; simp_all)
  else isFalse (fun e => h (e ▸ rfl))

instance : Membership String NameSet := ⟨fun s x => x ∈ s.toList⟩

theorem mem_def {x : String} {s : NameSet} : x ∈ s ↔ x ∈ s.toList := Iff.rfl

instance (x : String) (s : NameSet) : Decidable (x ∈ s) :=
  inferInstanceAs (Decidable (x ∈ s.toList))

theorem nodup (s : NameSet) : s.toList.Nodup :=
  List.Pairwise.imp (fun {a b} (h : a < b) (e : a = b) => String.lt_irrefl b (e ▸ h)) s.sorted

/-- The set without members. -/
def empty : NameSet := ⟨[], List.Pairwise.nil⟩

instance : Inhabited NameSet := ⟨empty⟩

@[simp] theorem not_mem_empty (x : String) : x ∉ empty := by simp [mem_def, empty]

/-- A list with `x` put in its place. -/
def insertInto (x : String) : List String → List String
  | [] => [x]
  | y :: ys => if x < y then x :: y :: ys else if x = y then y :: ys else y :: insertInto x ys

theorem mem_insertInto {x y : String} {ys : List String} :
    y ∈ insertInto x ys ↔ y = x ∨ y ∈ ys := by
  induction ys with
  | nil => simp [insertInto]
  | cons z zs ih => grind [insertInto]

theorem pairwise_insertInto {x : String} {ys : List String} (h : ys.Pairwise (· < ·)) :
    (insertInto x ys).Pairwise (· < ·) := by
  induction ys with
  | nil => simp [insertInto]
  | cons z zs ih =>
    rw [List.pairwise_cons] at h
    unfold insertInto
    split
    · rename_i hxz
      refine List.pairwise_cons.2 ⟨?_, List.pairwise_cons.2 h⟩
      intro y hy
      rcases List.mem_cons.1 hy with rfl | hy
      · exact hxz
      · exact String.lt_trans hxz (h.1 y hy)
    · split
      · exact List.pairwise_cons.2 h
      · rename_i hxz hne
        refine List.pairwise_cons.2 ⟨?_, ih h.2⟩
        intro y hy
        rcases mem_insertInto.1 hy with rfl | hy
        · rcases Std.lt_trichotomy y z with hlt | heq | hgt
          · exact absurd hlt hxz
          · exact absurd heq hne
          · exact hgt
        · exact h.1 y hy

/-- A set with one more member. -/
def insert (s : NameSet) (x : String) : NameSet :=
  ⟨insertInto x s.toList, pairwise_insertInto s.sorted⟩

@[simp] theorem mem_insert {x y : String} {s : NameSet} : y ∈ s.insert x ↔ y = x ∨ y ∈ s :=
  mem_insertInto

/-- The members that satisfy `p`. -/
def filter (s : NameSet) (p : String → Bool) : NameSet :=
  ⟨s.toList.filter p, s.sorted.sublist List.filter_sublist⟩

@[simp] theorem mem_filter {y : String} {s : NameSet} {p : String → Bool} :
    y ∈ s.filter p ↔ y ∈ s ∧ p y = true := by simp [mem_def, filter]

/-- A set without one member. -/
def erase (s : NameSet) (x : String) : NameSet := s.filter (· != x)

@[simp] theorem mem_erase {x y : String} {s : NameSet} : y ∈ s.erase x ↔ y ∈ s ∧ y ≠ x := by
  simp [erase]

/-- The set of the members of a list. -/
def ofList (xs : List String) : NameSet := xs.foldl insert empty

theorem mem_foldl_insert {y : String} (xs : List String) (s : NameSet) :
    y ∈ xs.foldl insert s ↔ y ∈ xs ∨ y ∈ s := by
  induction xs generalizing s with
  | nil => simp
  | cons x xs ih => simp only [List.foldl_cons, ih, mem_insert, List.mem_cons]; grind

@[simp] theorem mem_ofList {y : String} {xs : List String} : y ∈ ofList xs ↔ y ∈ xs := by
  simp [ofList, mem_foldl_insert]

/-- The members of either set. -/
def union (s t : NameSet) : NameSet := t.toList.foldl insert s

@[simp] theorem mem_union {y : String} {s t : NameSet} : y ∈ s.union t ↔ y ∈ s ∨ y ∈ t := by
  rw [union, mem_foldl_insert]; exact Or.comm

/-- The members of the first set that are not in the second. -/
def sdiff (s t : NameSet) : NameSet := s.filter fun x => !decide (x ∈ t)

@[simp] theorem mem_sdiff {y : String} {s t : NameSet} : y ∈ s.sdiff t ↔ y ∈ s ∧ y ∉ t := by
  simp [sdiff]

/-- How many members a set has. -/
def size (s : NameSet) : Nat := s.toList.length

/-- Whether a set has no member. -/
def isEmpty (s : NameSet) : Bool := s.toList.isEmpty

end NameSet

end RouteImpact
