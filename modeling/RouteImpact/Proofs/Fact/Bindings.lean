import RouteImpact.Proofs.Data.Containers
import RouteImpact.Proofs.Project.Extraction
import RouteImpact.Proofs.Syntax.Shape

namespace RouteImpact

open Syntax Source RouteImpact.Fact

/-!
# Every binding is an import

The names that a file binds and the files that it imports are collected by different walks
over one tree: names from import statements and from declarations, imports from statements
and calls.  A name is bound to a file only if the file is imported.

* `Fact.loads_of_lazyBinding` — a declaration that loads a module holds the call that names
  the module;
* `ImportMap.exists_node_of_mem_specifiers` — hence every specifier that binds a name is
  imported;
* `ImportMap.exists_import_of_mem_bindings` — so is every binding, and
  `ImportMap.exists_import_of_mem_values` — every entry of a map;
* `ImportMap.resolves_of_extract` — and a text whose fact is extracted has a map;
* `ImportMap.mem_resolvedImports_factOf` — so a name that resolves to a file is an import in
  the fact of the text.
-/

namespace Fact

/-! ### Calls inside declarations -/

theorem below_of_unwrapKinds {kinds : List String} {n m : Node}
    (h : unwrapKinds kinds n = some m) : n.Below m := by
  fun_induction unwrapKinds kinds n with
  | case1 => cases h
  | case2 n _ c rest hchildren ih =>
    exact (Node.below_of_mem_named (by simp [hchildren])).trans (ih h)
  | case3 n =>
    cases h
    exact Node.Below.refl _

/-- A node stands over a call that loads the module of a specifier. -/
def Loads (n : Node) (specifier : String) : Prop :=
  ∃ c, n.Below c ∧ dynamicSpecifier? c = some specifier

theorem Loads.of_below {n m : Node} {specifier : String} (hbelow : n.Below m)
    (h : Loads m specifier) : Loads n specifier := by
  obtain ⟨c, hc, hspecifier⟩ := h
  exact ⟨c, hbelow.trans hc, hspecifier⟩

/-- The call may stand inside casts and parentheses. -/
theorem loads_of_unwrapped {n : Node} {specifier : String}
    (h : (unwrap n).bind dynamicSpecifier? = some specifier) : Loads n specifier := by
  obtain ⟨c, hc, hspecifier⟩ := Option.bind_eq_some_iff.1 h
  exact ⟨c, below_of_unwrapKinds hc, hspecifier⟩

theorem loads_of_loader {n : Node} {specifier : String}
    (h : loaderSpecifier? n = some specifier) : Loads n specifier := by
  unfold loaderSpecifier? at h
  split at h
  · cases h
  · split at h
    · cases h
    · next body hbody =>
      obtain ⟨child, hchild, hbody⟩ := Option.bind_eq_some_iff.1 hbody
      have hbelow : n.Below body :=
        (Node.below_of_child? hchild).trans (below_of_unwrapKinds hbody)
      refine Loads.of_below hbelow ?_
      -- the body is the call, or a block that returns it
      split at h
      · obtain ⟨value, hvalue, hspecifier⟩ := Option.bind_eq_some_iff.1 h
        obtain ⟨first, hfirst, hunwrap⟩ := Option.bind_eq_some_iff.1 hvalue
        obtain ⟨statement, hstatement, hhead⟩ := Option.bind_eq_some_iff.1 hfirst
        have hreturned : body.Below first :=
          (Node.below_of_mem_named (List.mem_of_find?_eq_some hstatement)).trans
            (Node.below_of_mem_named (List.mem_of_mem_head? hhead))
        exact Loads.of_below hreturned ⟨value, below_of_unwrapKinds hunwrap, hspecifier⟩
      · exact loads_of_unwrapped h

theorem loads_of_lazy {n : Node} {specifier : String} (h : lazySpecifier? n = some specifier) :
    Loads n specifier := by
  unfold lazySpecifier? at h
  split at h
  · cases h
  · split at h
    · next callee arguments _ harguments =>
      split at h
      · obtain ⟨loader, hloader, hspecifier⟩ := List.exists_of_findSome?_eq_some h
        have hbelow : n.Below loader :=
          (Node.below_of_child? harguments).trans (Node.below_of_mem_named hloader)
        exact Loads.of_below hbelow (loads_of_loader hspecifier)
      · cases h
    · cases h

/-- A declaration that binds a module loaded at run time holds the call that loads it. -/
theorem loads_of_lazyBinding {declarator : Node} {b : LazyBinding}
    (h : lazyBinding? declarator = some b) : Loads declarator b.specifier := by
  unfold lazyBinding? at h
  split at h
  · next name value _ hvalue =>
    obtain ⟨child, hchild, hunwrap⟩ := Option.bind_eq_some_iff.1 hvalue
    have hbelow : declarator.Below value :=
      (Node.below_of_child? hchild).trans (below_of_unwrapKinds hunwrap)
    split at h
    · cases h
    · split at h
      · next specifier hlazy =>
        cases h
        exact Loads.of_below hbelow (loads_of_lazy hlazy)
      · obtain ⟨specifier, hdynamic, rfl⟩ := Option.map_eq_some_iff.1 h
        exact ⟨value, hbelow, hdynamic⟩
  · cases h

theorem of_dynamicSpecifier {n : Node} {specifier : String}
    (h : dynamicSpecifier? n = some specifier) :
    n.kind = "call_expression" ∧ n.children ≠ [] := by
  unfold dynamicSpecifier? at h
  split at h
  · cases h
  · next hkind =>
    refine ⟨not_not.1 hkind, ?_⟩
    split at h
    · next callee arguments hcallee _ =>
      exact List.ne_nil_of_mem (List.mem_of_find?_eq_some hcallee)
    · cases h

end Fact

theorem FileFact.mem_resolvedImports {fact : FileFact} {x : String} :
    x ∈ fact.resolvedImports ↔ ∃ e ∈ fact.imports, e.source = some x := by
  rw [resolvedImports, Text.mem_distinct, List.mem_filterMap]

namespace ImportMap

variable {r : Resolver} {file text ending : String} {t : Tree}

/-! ### Imports of bindings -/

/-- A binding is made from a specifier of the tree. -/
theorem of_mem_bindings {b : ImportBinding} (hb : b ∈ bindings r file t) :
    b.specifier ∈ specifiers t ∧ b.resolvedPath = r.source? file b.specifier := by
  unfold bindings at hb
  generalize r.source? file = resolve at hb ⊢
  rcases List.mem_append.1 hb with hstatic | hlazy
  · obtain ⟨statement, hstatement, hb⟩ := List.mem_flatMap.1 hstatic
    unfold ofStatement at hb
    split at hb
    · cases hb
    · next specifier hspecifier =>
      obtain ⟨part, -, rfl⟩ := List.mem_map.1 hb
      exact ⟨List.mem_append_left _ (List.mem_filterMap.2 ⟨statement, hstatement, hspecifier⟩), rfl⟩
  · obtain ⟨loaded, hloaded, rfl⟩ := List.mem_map.1 hlazy
    exact ⟨List.mem_append_right _ (List.mem_map.2 ⟨loaded, hloaded, rfl⟩), rfl⟩

/-- **Every specifier of a parsed text that binds names is imported.** -/
theorem exists_node_of_mem_specifiers (h : parse text ending = .ok t) {specifier : String}
    (hspecifier : specifier ∈ specifiers t) :
    ∃ n ∈ Extractor.importNodes t, ∃ kind, Extractor.importOf? n = some (specifier, kind) := by
  rcases List.mem_append.1 hspecifier with hstatic | hlazy
  · obtain ⟨statement, hstatement, hspecifier⟩ := List.mem_filterMap.1 hstatic
    obtain ⟨hbelow, hnamed, hkind⟩ := Tree.of_mem_nodes h (by decide) hstatement
    rw [List.mem_singleton] at hkind
    have himport : Extractor.importOf? statement = some (specifier, "static") := by
      rw [Extractor.importOf?, if_neg (by rw [hkind]; decide), ← specifier?, hspecifier]
      rfl
    have hnode : statement ∈ Extractor.importNodes t := by
      refine Tree.mem_nodes_of_below h (by decide) hbelow ?_ (by simp [hkind])
      -- the statement has a source, so it has children
      obtain ⟨source, hsource, -⟩ := Option.bind_eq_some_iff.1 hspecifier
      exact List.ne_nil_of_mem (List.mem_of_find?_eq_some hsource)
    exact ⟨statement, hnode, _, himport⟩
  · obtain ⟨loaded, hloaded, rfl⟩ := List.mem_map.1 hlazy
    obtain ⟨declarator, hdeclarator, hbinding⟩ := List.mem_filterMap.1 hloaded
    -- the declaration was found by its own kind, the import is the call inside it
    obtain ⟨call, hcall, hspecifier⟩ := Fact.loads_of_lazyBinding hbinding
    obtain ⟨hkind, hchildren⟩ := Fact.of_dynamicSpecifier hspecifier
    have hbelow := (Tree.of_mem_nodes h (by decide) hdeclarator).1.trans hcall
    have hnode : call ∈ Extractor.importNodes t :=
      Tree.mem_nodes_of_below h (by decide) hbelow hchildren (by simp [hkind])
    have himport : Extractor.importOf? call = some (loaded.specifier, "dynamic") := by
      rw [Extractor.importOf?, if_pos hkind, hspecifier]
    exact ⟨call, hnode, _, himport⟩

/-- **Every binding of a parsed text is one of its imports.** -/
theorem exists_import_of_mem_bindings (h : parse text ending = .ok t) {b : ImportBinding}
    (hb : b ∈ bindings r file t) :
    ∃ e ∈ Extractor.imports r file t, e.specifier = b.specifier ∧ e.source = b.resolvedPath := by
  obtain ⟨hspecifier, hresolved⟩ := of_mem_bindings hb
  obtain ⟨n, hn, kind, himport⟩ := exists_node_of_mem_specifiers h hspecifier
  rw [hresolved]
  unfold Extractor.imports
  generalize r.source? file = resolve
  exact ⟨_, List.mem_filterMap.2 ⟨n, hn, by rw [himport]; rfl⟩, rfl, rfl⟩

/-- The tree of a file is that of its text. -/
theorem parse_of_tree {content : String} (h : Extractor.parse file content = some t) :
    Source.parse content (Path.splitExtension file).2 = .ok t := by
  rw [Extractor.parse] at h
  cases hparse : Source.parse content (Path.splitExtension file).2 with
  | error e => simp [hparse, Except.toOption] at h
  | ok tree =>
    rw [hparse] at h
    exact congrArg Except.ok (Option.some.inj h)

/-- The map of a tree holds bindings of the tree. -/
theorem mem_bindings_of_mem_values {b : ImportBinding}
    (h : b ∈ (collect r file t).values) : b ∈ bindings r file t := by
  obtain ⟨⟨name, b'⟩, hentry, rfl⟩ := List.mem_map.1 h
  have hmem := OrderedMap.mem_of_get?_ofList (OrderedMap.get?_eq_some_iff.2 hentry)
  obtain ⟨found, hfound, heq⟩ := List.mem_map.1 hmem
  cases heq
  exact hfound

/-- **Every entry of a map is an import of the tree it was collected from.** -/
theorem exists_import_of_mem_values (h : Extractor.parse file text = some t) {b : ImportBinding}
    (hb : b ∈ (collect r file t).values) :
    ∃ e ∈ Extractor.imports r file t, e.specifier = b.specifier ∧ e.source = b.resolvedPath :=
  exists_import_of_mem_bindings (parse_of_tree h) (mem_bindings_of_mem_values hb)

/-- The names that the text of a file binds; a text without a tree binds none. -/
def ofText (r : Resolver) (file text : String) : ImportMap :=
  (Extractor.parse file text).elim OrderedMap.empty (collect r file)

/-- **A name that resolves to a file is an import of that file**, in the fact of the text. -/
theorem mem_resolvedImports_factOf {x : Extractor} (hskip : x.isSkippable text = false)
    (now : Moment) {b : ImportBinding} (hb : b ∈ (ofText x.resolver file text).values)
    {target : String} (htarget : b.resolvedPath = some target) :
    target ∈ (x.factOf now file text).resolvedImports := by
  unfold ofText at hb
  cases htree : Extractor.parse file text with
  | none =>
    rw [htree] at hb
    cases hb
  | some tree =>
    rw [htree] at hb
    obtain ⟨e, he, -, hsource⟩ := exists_import_of_mem_values htree hb
    rw [FileFact.mem_resolvedImports, Extractor.factOf, if_neg (by simp [hskip]), htree]
    exact ⟨e, he, hsource.trans htarget⟩

/-- What goes into the map of a text can be resolved. -/
def Resolves (r : Resolver) (file text : String) : Prop :=
  ∀ tree, Extractor.parse file text = some tree → r.resolveEach file (specifiers tree) = .ok ()

/-- **A text whose fact is extracted has a map**: what is resolved for the map is resolved for the
fact. -/
theorem resolves_of_extract {x : Extractor} {now : Moment} {fact : FileFact}
    (hfact : x.extract now file text = .ok fact) (hskip : x.isSkippable text = false) :
    Resolves x.resolver file text := by
  intro tree htree
  have hresolved := (Extractor.extract_eq_ok.1 hfact).1
  rw [Extractor.Resolves, Extractor.specifiersOf, if_neg (by simp [hskip]), htree] at hresolved
  refine Resolver.resolveEach_eq_ok.2 fun specifier hspecifier => ?_
  obtain ⟨n, hn, kind, himport⟩ := exists_node_of_mem_specifiers (parse_of_tree htree) hspecifier
  exact hresolved specifier (List.mem_filterMap.2 ⟨n, hn, by rw [himport]; rfl⟩)

end ImportMap

end RouteImpact
