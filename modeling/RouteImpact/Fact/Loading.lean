import RouteImpact.Source.Parse

namespace RouteImpact.Fact

open Syntax Source

/-!
# Modules loaded at run time

The shapes by which a module is named in a call rather than in an import
statement: `import("x")`, functions that return such a call, and wrappers such as
`lazy(() => import("x"))` that take one.
-/

/-- The specifier of `import("x")`. -/
def dynamicSpecifier? (n : Node) : Option String :=
  if n.kind ≠ "call_expression" then none
  else
    match n.child? "function", n.child? "arguments" with
    | some callee, some arguments =>
      if callee.kind = "import" then arguments.namedChildren.head?.bind (·.stringValue?) else none
    | _, _ => none

/-- The specifier of `require("x")`. -/
def requireSpecifier? (n : Node) : Option String :=
  match n.child? "function", n.child? "arguments" with
  | some callee, some arguments =>
    if callee.kind = "identifier" ∧ callee.text = "require" then
      arguments.namedChildren.head?.bind (·.stringValue?)
    else none
  | _, _ => none

/-- The kinds of expression that stand around another without changing it. -/
def wrapperKinds : List String :=
  ["await_expression", "parenthesized_expression", "as_expression", "satisfies_expression",
   "non_null_expression"]

/-- Takes nodes of the given kinds away from around an expression. -/
def unwrapKinds (kinds : List String) (n : Node) : Option Node :=
  if kinds.contains n.kind then
    match _h : n.namedChildren with
    | [] => none
    | c :: _ => unwrapKinds kinds c
  else some n
termination_by sizeOf n
decreasing_by exact Node.sizeOf_lt_of_mem_named (by simp [_h])

/-- Takes `await`, parentheses and casts away from around an expression. -/
def unwrap (n : Node) : Option Node := unwrapKinds wrapperKinds n

/-- The specifier loaded by a function such as `() => import("x")`: its body is
the call, or a block that returns it. -/
def loaderSpecifier? (n : Node) : Option String :=
  if n.kind ≠ "arrow_function" then none
  else
    match (n.child? "body").bind (unwrapKinds ["parenthesized_expression"]) with
    | none => none
    | some body =>
      if body.kind = "statement_block" then
        let returned := body.namedChildren.find? fun s =>
          s.kind = "return_statement" ∧ s.namedChildren ≠ []
        ((returned.bind (·.namedChildren.head?)).bind unwrap).bind dynamicSpecifier?
      else (unwrap body).bind dynamicSpecifier?

/-- The specifier of a wrapper such as `lazy(() => import("x"))`. -/
def lazySpecifier? (n : Node) : Option String :=
  if n.kind ≠ "call_expression" then none
  else
    match n.child? "function", n.child? "arguments" with
    | some callee, some arguments =>
      if callee.kind = "identifier" ∨ callee.kind = "member_expression" then
        arguments.namedChildren.findSome? loaderSpecifier?
      else none
    | _, _ => none

/-- How a module loaded at run time gets its name. -/
inductive LoadKind where
  | lazy
  | dynamic
deriving Repr, DecidableEq

/-- The word for a kind. -/
def LoadKind.name : LoadKind → String
  | .lazy => "lazy"
  | .dynamic => "dynamic"

/-- A local name for a module loaded at run time. -/
structure LazyBinding where
  localName : String
  specifier : String
  kind : LoadKind
  line : Nat
deriving Repr, DecidableEq

/-- The binding that a variable declarator makes. -/
def lazyBinding? (declarator : Node) : Option LazyBinding :=
  match declarator.child? "name", (declarator.child? "value").bind unwrap with
  | some name, some value =>
    if name.kind ≠ "identifier" then none
    else
      match lazySpecifier? value with
      | some specifier => some ⟨name.text, specifier, .lazy, declarator.line⟩
      | none =>
        (dynamicSpecifier? value).map fun specifier =>
          ⟨name.text, specifier, .dynamic, declarator.line⟩
  | _, _ => none

/-- Every binding of a module loaded at run time, anywhere in a tree. -/
def lazyBindings (t : Tree) : List LazyBinding :=
  (t.nodes ["variable_declarator"]).filterMap lazyBinding?

end RouteImpact.Fact
