import Mathlib.Data.List.TakeDrop
import Mathlib.Logic.Relation
import RouteImpact.Proofs.Syntax.Index

namespace RouteImpact.Syntax

open Relation (ReflTransGen)

/-!
# The shape of parsed trees

Punctuation and keywords are leaves: in every tree that a grammar reads, a node that has
children is a named one.  So a query that goes down a tree by fields and then asks for a node
by its kind finds a node that the index of the tree holds.

* `Node.Below` — what stands in a tree, and `Site.exists_of_below` that it is listed;
* `Node.Proper` — trees in which only named nodes have children;
* `proper_read` — what is read is proper, by one lemma for each way to read; readings that
  are remembered are proper too, which is the invariant of the induction;
* `Source.Tree.mem_nodes_of_below` — hence the index finds what stands in a parsed text.
-/

/-! ### Standing below a node -/

/-- A node stands in the tree of another one: it is that node, or below it. -/
def Node.Below (n c : Node) : Prop := ReflTransGen (fun a b : Node => b ∈ a.children) n c

theorem Node.Below.refl (n : Node) : n.Below n := ReflTransGen.refl

theorem Node.Below.trans {a b c : Node} (hab : a.Below b) (hbc : b.Below c) : a.Below c :=
  ReflTransGen.trans hab hbc

theorem Node.below_of_mem {n c : Node} (h : c ∈ n.children) : n.Below c := ReflTransGen.single h

theorem Node.below_of_mem_named {n c : Node} (h : c ∈ n.namedChildren) : n.Below c :=
  below_of_mem (List.mem_filter.1 h).1

theorem Node.below_of_child? {n c : Node} {name : String} (h : n.child? name = some c) :
    n.Below c :=
  below_of_mem (List.mem_of_find?_eq_some h)

theorem Node.below_iff {n c : Node} : n.Below c ↔ c = n ∨ ∃ a ∈ n.children, a.Below c := by
  rw [Below, ReflTransGen.cases_head_iff, eq_comm]
  exact Iff.rfl

theorem Site.mem_all_iff {site x : Site} :
    x ∈ site.all ↔ x = site ∨ ∃ c ∈ site.children, x ∈ c.all := by
  rw [Site.all_eq_cons, List.mem_cons, List.mem_flatMap]

/-- Everything that stands in a tree is listed. -/
theorem Site.exists_of_below {n c : Node} (h : n.Below c) {site : Site} (hsite : site.node = n) :
    ∃ x ∈ site.all, x.node = c := by
  induction h using ReflTransGen.head_induction_on generalizing site with
  | refl => exact ⟨site, Site.mem_all_iff.2 (Or.inl rfl), hsite⟩
  | @head a b hchild _ ih =>
    subst hsite
    have hmem : (⟨b, site.node :: site.enclosing⟩ : Site) ∈ site.children :=
      List.mem_map.2 ⟨b, hchild, rfl⟩
    have hbelow : ∃ x ∈ Site.all ⟨b, site.node :: site.enclosing⟩, x.node = c := ih rfl
    obtain ⟨x, hx, hc⟩ := hbelow
    exact ⟨x, Site.mem_all_iff.2 (Or.inr ⟨_, hmem, hx⟩), hc⟩

/-- What is listed stands in the tree. -/
theorem Node.below_of_mem_sites (n : Node) {above : List Node} {x : Site}
    (h : x ∈ n.sites above) : n.Below x.node := by
  have hall : x ∈ Site.all ⟨n, above⟩ := h
  obtain rfl | ⟨c, hc, hx⟩ := Site.mem_all_iff.1 hall
  · exact Below.refl _
  · obtain ⟨a, ha, rfl⟩ := List.mem_map.1 hc
    exact (below_of_mem ha).trans (below_of_mem_sites a hx)
termination_by sizeOf n
decreasing_by exact Node.sizeOf_lt_of_mem ha

/-! ### Proper trees -/

/-- Only named nodes have children. -/
def Node.Proper (n : Node) : Prop := ∀ c, n.Below c → c.children ≠ [] → c.named = true

theorem Node.proper_iff {n : Node} :
    n.Proper ↔ (n.children ≠ [] → n.named = true) ∧ ∀ c ∈ n.children, c.Proper := by
  constructor
  · intro h
    exact ⟨h n (Below.refl n), fun c hc x hx => h x ((below_of_mem hc).trans hx)⟩
  · rintro ⟨hself, hbelow⟩ x hx
    rcases below_iff.1 hx with rfl | ⟨c, hc, hx⟩
    · exact hself
    · exact hbelow c hc x hx

theorem Node.proper_of_children_nil {n : Node} (h : n.children = []) : n.Proper := by
  rw [proper_iff, h]
  simp

theorem Node.Proper.withField {n : Node} (h : n.Proper) (name : String) :
    (n.withField name).Proper := by
  unfold Node.withField
  split
  · have hparts := proper_iff.1 h
    exact proper_iff.2 hparts
  · exact h

/-- Nodes of proper trees. -/
def Reading.Proper (r : Reading) : Prop := ∀ n ∈ r.nodes, n.Proper

/-- Progress that remembers proper readings only. -/
def Progress.Proper (p : Progress) : Prop :=
  ∀ (key : Nat × Nat) (r : Reading), p.known[key]? = some (some r) → r.Proper

/-- A result is proper if what was read is, and what is remembered. -/
structure ProperResult (out : Option Reading × Progress) : Prop where
  reading : ∀ r, out.1 = some r → r.Proper
  progress : out.2.Proper

theorem ProperResult.missed {p : Progress} (h : p.Proper) : ProperResult (none, p) :=
  ⟨fun _ h => (Option.some_ne_none _ h.symm).elim, h⟩

theorem ProperResult.found {r : Reading} {p : Progress} (hr : r.Proper) (hp : p.Proper) :
    ProperResult (some r, p) := by
  refine ⟨fun r' h => ?_, hp⟩
  cases h
  exact hr

/-! ### Ways to read -/

variable {σ : Type} (s : Source) (lines : Array Nat) {p : Progress}

theorem Reading.Proper.append {a b : List Node} {i j i' j' i'' j'' : Nat}
    (ha : Reading.Proper ⟨a, i, j⟩) (hb : Reading.Proper ⟨b, i', j'⟩) :
    Reading.Proper ⟨a ++ b, i'', j''⟩ := by
  intro n hn
  exact (List.mem_append.1 hn).elim (ha n) (hb n)

theorem Reading.proper_nil (i j : Nat) : Reading.Proper ⟨[], i, j⟩ :=
  fun _ h => absurd h List.not_mem_nil

theorem Reading.Proper.map_withField {nodes : List Node} {i j i' j' : Nat}
    (h : Reading.Proper ⟨nodes, i, j⟩) (name : String) :
    Reading.Proper ⟨nodes.map (·.withField name), i', j'⟩ := by
  intro n hn
  obtain ⟨m, hm, rfl⟩ := List.mem_map.1 hn
  exact (h m hm).withField name

theorem proper_commentNodes (id : Nat) (gap : Gap) :
    ∀ n ∈ commentNodes s lines id gap, n.Proper := by
  intro n hn
  obtain ⟨k, hk, rfl⟩ := List.mem_mapIdx.1 hn
  exact Node.proper_of_children_nil rfl

theorem proper_tokenReading (kind : String) (named : Bool) (gap : Gap) (j : Nat)
    (hp : p.Proper) : ProperResult (tokenReading s lines kind named gap j p) := by
  refine ProperResult.found ?_ hp
  intro n hn
  rcases List.mem_append.1 hn with hcomment | htoken
  · exact proper_commentNodes s lines _ _ n hcomment
  · rw [List.mem_singleton] at htoken
    rw [htoken]
    exact Node.proper_of_children_nil rfl

theorem proper_wrap {r : Reading} (kind : String) (hr : r.Proper) (hp : p.Proper) :
    (wrap s lines kind r p).1.Proper ∧ (wrap s lines kind r p).2.Proper := by
  -- comments in front stay outside of the new node, everything else becomes its children
  have hparts : ∀ n, n ∈ (leadingComments r.nodes).1 ∨ n ∈ (leadingComments r.nodes).2 →
      n.Proper := by
    intro n hn
    refine hr n ?_
    rw [← List.takeWhile_append_dropWhile (p := (·.kind == "comment")) (l := r.nodes),
      List.mem_append]
    rwa [leadingComments, List.span_eq_takeWhile_dropWhile] at hn
  refine ⟨?_, hp⟩
  intro n hn
  rcases List.mem_append.1 hn with hbefore | hnode
  · exact hparts n (Or.inl hbefore)
  · rw [List.mem_singleton] at hnode
    rw [hnode]
    exact Node.proper_iff.2 ⟨fun _ => rfl, fun c hc => hparts c (Or.inr hc)⟩

theorem proper_readSeq {step : Rule σ → Nat → Progress → Option Reading × Progress}
    (hstep : ∀ rule i p, p.Proper → ProperResult (step rule i p)) (rules : List (Rule σ))
    {acc : Reading} (begun : Bool) (hacc : acc.Proper) (hp : p.Proper) :
    ProperResult (readSeq step rules acc begun p) := by
  induction rules generalizing acc begun p with
  | nil => exact ProperResult.found hacc hp
  | cons rule rules ih =>
    have h := hstep rule acc.stop p hp
    rw [readSeq]
    split
    · next heq =>
      rw [heq] at h
      exact ProperResult.missed h.progress
    · next next _ heq =>
      rw [heq] at h
      exact ih _ (hacc.append (h.reading _ rfl)) h.progress

theorem proper_readChoice {step : Rule σ → Progress → Option Reading × Progress}
    (hstep : ∀ rule p, p.Proper → ProperResult (step rule p)) (rules : List (Rule σ))
    (hp : p.Proper) : ProperResult (readChoice step rules p) := by
  induction rules generalizing p with
  | nil => exact ProperResult.missed hp
  | cons rule rules ih =>
    have h := hstep rule p hp
    rw [readChoice]
    split
    · next heq =>
      rw [heq] at h
      exact ih h.progress
    · exact h

theorem Reading.proper_flatten {acc : List (List Node)}
    (h : ∀ nodes ∈ acc, ∀ n ∈ nodes, n.Proper) (start i : Nat) :
    Reading.Proper ⟨acc.reverse.flatten, start, i⟩ := by
  intro n hn
  obtain ⟨nodes, hnodes, hn⟩ := List.mem_flatten.1 hn
  exact h nodes (List.mem_reverse.1 hnodes) n hn

theorem proper_readMany {step : Nat → Progress → Option Reading × Progress}
    (hstep : ∀ i p, p.Proper → ProperResult (step i p)) (fuel start i : Nat)
    {acc : List (List Node)} (hacc : ∀ nodes ∈ acc, ∀ n ∈ nodes, n.Proper) (hp : p.Proper) :
    (readMany step fuel start i acc p).1.Proper ∧ (readMany step fuel start i acc p).2.Proper := by
  induction fuel generalizing start i acc p with
  | zero => exact ⟨Reading.proper_flatten hacc _ _, hp⟩
  | succ fuel ih =>
    have h := hstep i p hp
    rw [readMany]
    split
    · next r _ heq =>
      rw [heq] at h
      split
      · exact ⟨Reading.proper_flatten hacc _ _, h.progress⟩
      · refine ih _ _ (fun nodes hnodes => ?_) h.progress
        rcases List.mem_cons.1 hnodes with rfl | hnodes
        · exact h.reading r rfl
        · exact hacc nodes hnodes
    · next heq =>
      rw [heq] at h
      exact ⟨Reading.proper_flatten hacc _ _, h.progress⟩

theorem proper_readStep {step : Rule σ → Nat → Progress → Option Reading × Progress}
    (hstep : ∀ rule i p, p.Proper → ProperResult (step rule i p)) {r : Reading} (hr : r.Proper)
    (steps : List (String × Option String × Rule σ)) (hp : p.Proper) :
    ProperResult (readStep s lines step r steps p) := by
  induction steps generalizing p with
  | nil => exact ProperResult.missed hp
  | cons first rest ih =>
    obtain ⟨kind, name, rule⟩ := first
    have h := hstep rule r.stop p hp
    rw [readStep]
    split
    · next heq =>
      rw [heq] at h
      exact ih h.progress
    · next next p' heq =>
      rw [heq] at h
      -- what was read so far becomes the first child, under the step's field name
      have hseed : Reading.Proper
          ⟨name.elim r.nodes fun name => r.nodes.map (·.withField name), r.start, r.stop⟩ := by
        cases name with
        | none => exact hr
        | some name => exact Reading.Proper.map_withField hr name
      have hboth : Reading.Proper ⟨(name.elim r.nodes fun name =>
          r.nodes.map (·.withField name)) ++ next.nodes, r.start, next.stop⟩ :=
        hseed.append (h.reading next rfl)
      obtain ⟨hwhole, hp'⟩ := proper_wrap s lines kind hboth h.progress
      exact ProperResult.found hwhole hp'

theorem proper_readGrowth {step : Rule σ → Nat → Progress → Option Reading × Progress}
    (hstep : ∀ rule i p, p.Proper → ProperResult (step rule i p))
    (steps : List (String × Option String × Rule σ)) (fuel : Nat) {r : Reading} (hr : r.Proper)
    (hp : p.Proper) :
    (readGrowth s lines step steps fuel r p).1.Proper ∧
      (readGrowth s lines step steps fuel r p).2.Proper := by
  induction fuel generalizing r p with
  | zero => exact ⟨hr, hp⟩
  | succ fuel ih =>
    have h := proper_readStep s lines hstep hr steps hp
    rw [readGrowth]
    split
    · next next _ heq =>
      rw [heq] at h
      split
      · exact ⟨hr, h.progress⟩
      · exact ih (h.reading next rfl) h.progress
    · next heq =>
      rw [heq] at h
      exact ⟨hr, h.progress⟩

instance : Std.TransCmp compareKeys :=
  inferInstanceAs (Std.TransCmp (compareLex (compareOn Prod.snd) (compareOn Prod.fst)))

theorem Progress.Proper.insert (hp : p.Proper) {r : Option Reading}
    (hr : ∀ x, r = some x → x.Proper) (key : Nat × Nat) :
    Progress.Proper { p with known := p.known.insert key r } := by
  intro k x hx
  rw [Std.TreeMap.getElem?_insert] at hx
  split at hx
  · exact hr x (Option.some.inj hx)
  · exact hp k x hx

theorem proper_ite {a b : Option Reading × Progress} {c : Prop} [Decidable c] (ha : ProperResult a)
    (hb : ProperResult b) : ProperResult (if c then a else b) := by
  split
  · exact ha
  · exact hb

/-- Going on after a reading, or after none. -/
theorem ProperResult.bind {out : Option Reading × Progress} (h : ProperResult out)
    {found : Reading → Progress → Option Reading × Progress}
    {missed : Progress → Option Reading × Progress}
    (hfound : ∀ r p, r.Proper → p.Proper → ProperResult (found r p))
    (hmissed : ∀ p, p.Proper → ProperResult (missed p)) :
    ProperResult (match out with
      | (some r, p) => found r p
      | (none, p) => missed p) := by
  obtain ⟨result, p⟩ := out
  cases result with
  | none => exact hmissed p h.progress
  | some r => exact hfound r p (h.reading r rfl) h.progress

/-- **What is read is proper**, and so is what is remembered of it. -/
theorem proper_read (g : Grammar σ) (d : Dialect) (fuel : Nat) (rule : Rule σ) (i : Nat)
    (hp : p.Proper) : ProperResult (read g d s lines fuel rule i p) := by
  -- on fuel, for all rules at once: a rule for a symbol may be any other rule
  induction fuel generalizing rule i p with
  | zero => exact ProperResult.missed hp
  | succ fuel ih =>
    have hmissed : ∀ p : Progress, p.Proper → ProperResult (none, p) :=
      fun _ => ProperResult.missed
    have hnothing : ∀ p : Progress, p.Proper → ProperResult (some ⟨[], i, i⟩, p) :=
      fun _ => ProperResult.found (Reading.proper_nil i i)
    unfold read
    dsimp only
    match rule with
    | .text spelling | .sign spelling | .glued spelling =>
      exact proper_ite (proper_tokenReading s lines _ _ _ _ hp) (hmissed p hp)
    | .leaf kind token | .part kind token =>
      dsimp only
      split
      · exact proper_tokenReading s lines _ _ _ _ hp
      · exact hmissed p hp
    | .seq rules =>
      exact proper_readSeq (fun rule i p hp => ih rule i hp) rules false
        (Reading.proper_nil i i) hp
    | .choice rules => exact proper_readChoice (fun rule p hp => ih rule i hp) rules hp
    | .many rule =>
      have hnone : ∀ nodes ∈ ([] : List (List Node)), ∀ n ∈ nodes, n.Proper := by simp
      obtain ⟨hr, hp⟩ :=
        proper_readMany (fun i p hp => ih rule i hp) (s.size - i + 1) i i hnone hp
      exact ProperResult.found hr hp
    | .ahead rule => exact (ih rule i hp).bind (fun _ p _ => hnothing p) hmissed
    | .unless rule => exact (ih rule i hp).bind (fun _ p _ => hmissed p) hnothing
    | .node kind rule =>
      refine (ih rule i hp).bind (fun r p hr hp => ?_) hmissed
      obtain ⟨hr, hp⟩ := proper_wrap s lines kind hr hp
      exact ProperResult.found hr hp
    | .field name rule =>
      exact (ih rule i hp).bind (fun r p hr => ProperResult.found (hr.map_withField name)) hmissed
    | .use symbol =>
      dsimp only
      split
      · -- a reading that is remembered
        next r hknown =>
        refine ⟨fun x hx => hp (g.index symbol, i) x ?_, hp⟩
        rw [hknown]
        exact congrArg some hx
      · have h := ih (g.rule symbol) i hp
        exact ⟨h.reading, h.progress.insert h.reading _⟩
    | .grow seed steps =>
      refine (ih seed i hp).bind (fun r p hr hp => ?_) hmissed
      obtain ⟨hr, hp⟩ := proper_readGrowth s lines
        (fun rule i p hp => ih rule i hp) steps (s.size - i + 1) hr hp
      exact ProperResult.found hr hp
    | .within dialects rule => exact proper_ite (ih rule i hp) (hmissed p hp)
    | .sameLine =>
      dsimp only
      split
      · exact hmissed p hp
      · exact hnothing p hp
    | .lineBreak afterType =>
      dsimp only
      split
      · exact hnothing p hp
      · exact hmissed p hp
    | .ofKind kinds rule =>
      refine (ih rule i hp).bind (fun r p hr hp => ?_) hmissed
      exact proper_ite (ProperResult.found hr hp) (hmissed p hp)

theorem proper_readAll (g : Grammar σ) (d : Dialect) (s : Source) (kind : String) (symbol : σ) :
    (readAll g d s kind symbol).Proper := by
  have hstart : Progress.Proper {} := by
    intro key r h
    simp at h
  have h := proper_read s (lineNumbers s) g d (400 * (s.size + 2)) (.use symbol) 0
    hstart
  unfold readAll
  dsimp only
  generalize read g d s (lineNumbers s) (400 * (s.size + 2)) (.use symbol) 0 {} = out at h ⊢
  obtain ⟨result, p⟩ := out
  refine Node.proper_iff.2 ⟨fun _ => rfl, fun c hc => ?_⟩
  rcases List.mem_append.1 hc with hread | hcomment
  · cases result with
    | none => exact absurd hread List.not_mem_nil
    | some r => exact h.reading r rfl c hread
  · exact proper_commentNodes s _ _ _ c hcomment

end RouteImpact.Syntax

namespace RouteImpact.Source

open Syntax

theorem proper_of_parse {text ending : String} {t : Tree} (h : parse text ending = .ok t) :
    t.root.Proper := by
  have hparse : ∀ d, (parseAs d text).root.Proper :=
    fun d => proper_readAll sourceGrammar d text.toList.toArray "program" .program
  have hfallback : ∀ d, (parseWithFallback d text).root.Proper := by
    intro d
    unfold parseWithFallback
    dsimp only
    split
    · exact hparse d
    · split
      · exact hparse d
      · exact hparse fallback
  unfold parse at h
  dsimp only at h
  split at h
  · cases h
  · cases h
  · next d _ =>
    split at h
    · cases h
    · cases h
      exact hfallback d

/-- **The index of a parsed text finds whatever stands in it**: a node that is asked for by
its kind, and that has children. -/
theorem Tree.mem_nodes_of_below {text ending : String} {t : Tree}
    (h : parse text ending = .ok t) {kinds : List String} (hkinds : everyKind ∉ kinds) {n : Node}
    (hbelow : t.root.Below n) (hchildren : n.children ≠ []) (hkind : n.kind ∈ kinds) :
    n ∈ t.nodes kinds := by
  have hlisted : ∃ site ∈ Site.all ⟨t.root, []⟩, site.node = n := Site.exists_of_below hbelow rfl
  obtain ⟨site, hsite, rfl⟩ := hlisted
  have hnamed : site.node.named = true := proper_of_parse h site.node hbelow hchildren
  rw [Tree.nodes, Tree.sites_of_parse h hkinds]
  exact List.mem_map.2 ⟨site, List.mem_filter.2 ⟨hsite, by simp [hnamed, hkind]⟩, rfl⟩

/-- What is found stands in the tree. -/
theorem Tree.of_mem_nodes {text ending : String} {t : Tree} (h : parse text ending = .ok t)
    {kinds : List String} (hkinds : everyKind ∉ kinds) {n : Node} (hn : n ∈ t.nodes kinds) :
    t.root.Below n ∧ n.named = true ∧ n.kind ∈ kinds := by
  rw [Tree.nodes, Tree.sites_of_parse h hkinds] at hn
  obtain ⟨site, hsite, rfl⟩ := List.mem_map.1 hn
  obtain ⟨hsite, htest⟩ := List.mem_filter.1 hsite
  simp only [Bool.and_eq_true, List.contains_iff_mem] at htest
  exact ⟨Node.below_of_mem_sites t.root hsite, htest⟩

end RouteImpact.Source
