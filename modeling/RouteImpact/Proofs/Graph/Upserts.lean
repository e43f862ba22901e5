import RouteImpact.Proofs.Graph.Consistency
import RouteImpact.Proofs.Graph.History

namespace RouteImpact.ImportGraph

/-!
# Graphs that facts are put into

A graph that was loaded may hold reverse edges whose forward edges are gone, left behind
while it did not prune.  A graph that prunes drops a reverse edge together with its forward
edge and so never meets these again.

* `Upserts` — a graph comes from another one by facts that are put into it one after the
  other, entry points being marked in between;
* `importsOf_of_upserts` — the forward edges of a file are those of its last fact;
* `Carried` — a reverse edge that was there without its forward edge, and is no import of the
  file in any fact since;
* `mem_importersOf_of_upserts` — in a graph that prunes, the files that list a file as their
  importer are what it imports and what is carried along.
-/

variable {g g₁ g₂ : ImportGraph} {h k : History}

/-! ### Facts put into a graph -/

/-- A graph comes from another one by putting in the facts of a history, the oldest first.
Entry points may be marked at any time. -/
inductive Upserts (g : ImportGraph) : History → ImportGraph → Prop
  | refl : Upserts g [] g
  | upsert {h : History} {g₁ : ImportGraph} (rest : Upserts g h g₁) (file : String)
      (fact : FileFact) : Upserts g (h ++ [(file, fact)]) (g₁.upsert file fact)
  | markEntryPoints {h : History} {g₁ : ImportGraph} (rest : Upserts g h g₁) :
      Upserts g h g₁.markEntryPoints

theorem Upserts.trans (first : Upserts g h g₁) (second : Upserts g₁ k g₂) :
    Upserts g (h ++ k) g₂ := by
  induction second with
  | refl => simpa using first
  | upsert _ file fact ih =>
    rw [← List.append_assoc]
    exact .upsert ih file fact
  | markEntryPoints _ ih => exact .markEntryPoints ih

/-- Putting in one fact after the other. -/
theorem upserts_foldl (g : ImportGraph) (h : History) :
    Upserts g h (h.foldl (fun g e => g.upsert e.1 e.2) g) := by
  induction h using List.reverseRecOn with
  | nil => exact .refl
  | append_singleton h e ih =>
    rw [List.foldl_append]
    exact .upsert ih e.1 e.2

theorem prune_of_upserts (run : Upserts g h g₁) : g₁.prune = g.prune := by
  induction run with
  | refl => rfl
  | upsert _ file fact ih => exact ih
  | markEntryPoints _ ih => exact ih

/-- **Forward edges** are those of the last fact, or as they were. -/
theorem importsOf_of_upserts (run : Upserts g h g₁) (x : String) :
    g₁.importsOf x = (h.last? x).elim (g.importsOf x) (targets x) := by
  induction run with
  | refl => rfl
  | @upsert h g₁ _ file fact ih =>
    rw [importsOf_upsert, History.last?_concat, ih]
    by_cases hx : file = x
    · subst hx
      simp
    · simp [hx]
  | markEntryPoints _ ih => rw [importsOf_markEntryPoints, ih]

/-! ### Edges that are carried along -/

/-- The graph lists a file as an importer of another one that it does not import, and no fact
since has made it import that one. -/
def Carried (g : ImportGraph) (h : History) (file x : String) : Prop :=
  file ∈ g.importersOf x ∧ x ∉ g.importsOf file ∧ ∀ fact, (file, fact) ∈ h → x ∉ targets file fact

theorem carried_concat {file x other : String} {fact : FileFact} :
    Carried g (h ++ [(other, fact)]) file x ↔
      Carried g h file x ∧ (other = file → x ∉ targets file fact) := by
  unfold Carried
  simp only [List.mem_append, List.mem_singleton, Prod.mk.injEq]
  constructor
  · rintro ⟨hin, hout, hall⟩
    exact ⟨⟨hin, hout, fun f hf => hall f (Or.inl hf)⟩, fun heq => hall fact (Or.inr ⟨heq.symm, rfl⟩)⟩
  · rintro ⟨⟨hin, hout, hall⟩, hlast⟩
    refine ⟨hin, hout, ?_⟩
    rintro f (hf | ⟨rfl, rfl⟩)
    · exact hall f hf
    · exact hlast rfl

/-- What is carried along is not imported. -/
theorem Carried.notMem_importsOf {file x : String} (hcarried : Carried g h file x)
    (run : Upserts g h g₁) : x ∉ g₁.importsOf file := by
  rw [importsOf_of_upserts run]
  cases hlast : h.last? file with
  | none => exact hcarried.2.1
  | some fact => exact hcarried.2.2 fact (History.mem_of_last? hlast)

/-- **Reverse edges of a graph that prunes.**  A file is listed as the importer of what it
imports, and of what is carried along. -/
theorem mem_importersOf_of_upserts (hedges : g.Consistent) (hprune : g.prune = true)
    (run : Upserts g h g₁) (file x : String) :
    file ∈ g₁.importersOf x ↔ x ∈ g₁.importsOf file ∨ Carried g h file x := by
  induction run with
  | refl =>
    constructor
    · intro hin
      by_cases hx : x ∈ g.importsOf file
      · exact Or.inl hx
      · exact Or.inr ⟨hin, hx, nofun⟩
    · rintro (hx | ⟨hin, -⟩)
      · exact hedges file x hx
      · exact hin
  | @upsert h g₁ rest other fact ih =>
    have hkept : g₁.prune = true := (prune_of_upserts rest).trans hprune
    rw [mem_importersOf_upsert, importsOf_upsert, carried_concat, ih]
    by_cases hother : other = file
    · subst hother
      -- what the file imported so far goes, what is carried along stays
      have hapart := fun hcarried : Carried g h other x => hcarried.notMem_importsOf rest
      simp only [true_and, hkept, if_true, forall_const]
      constructor
      · rintro (hx | ⟨hx | hcarried, hgone⟩)
        · exact Or.inl hx
        · exact absurd hx hgone
        · by_cases hx : x ∈ targets other fact
          · exact Or.inl hx
          · exact Or.inr ⟨hcarried, hx⟩
      · rintro (hx | ⟨hcarried, -⟩)
        · exact Or.inl hx
        · exact Or.inr ⟨Or.inr hcarried, hapart hcarried⟩
    · simp [hother, Ne.symm hother]
  | markEntryPoints _ ih =>
    rw [importersOf_markEntryPoints, importsOf_markEntryPoints]
    exact ih

/-- Nothing is carried along out of a graph whose reverse edges are its forward edges. -/
theorem Exact.not_carried (hexact : g.Exact) (file x : String) : ¬ Carried g h file x :=
  fun hcarried => hcarried.2.1 ((hexact x file).1 hcarried.1)

end RouteImpact.ImportGraph
