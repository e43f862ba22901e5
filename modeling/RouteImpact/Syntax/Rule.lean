import Std.Data.TreeMap
import RouteImpact.Syntax.Lexeme
import RouteImpact.Syntax.Node

namespace RouteImpact.Syntax

/-!
# Grammar rules and how they are read

A grammar is data: a `Rule` for each symbol, built from tokens, sequence, ordered
choice and repetition, plus three things that expression languages need:

* `Rule.grow` reads left-associative forms (`a.b(c)`, `a + b + c`) by wrapping
  what has been read so far as the first child of a new node;
* `Rule.lineBreak` is the place where a statement may end without a semicolon;
* `Rule.within` keeps a rule to some dialects of the language.

`read` interprets a rule from a position on.  It is total: `fuel` bounds the
nesting of rules, and `readAll` computes a bound from the length of the source
that no finite nesting reaches.  Results are remembered by symbol and position,
so trying the alternatives of a choice one after the other stays cheap.
-/

/-- The dialects of the language that share one grammar. -/
inductive Dialect where
  | typescript
  | tsx
  | javascript
deriving Repr, DecidableEq, Inhabited

/-- The name under which a dialect is reported. -/
def Dialect.name : Dialect → String
  | .typescript => "typescript"
  | .tsx => "tsx"
  | .javascript => "javascript"

/-- A grammar rule over the symbols `σ`. -/
inductive Rule (σ : Type) where
  /-- The given characters, after a gap. -/
  | text (spelling : List Char)
  /-- The given operator, after a gap, unless a longer operator stands there. -/
  | sign (spelling : List Char)
  /-- The given characters with no gap before them. -/
  | glued (spelling : List Char)
  /-- A token of variable spelling, after a gap, as a named leaf. -/
  | leaf (kind : String) (token : Lexeme)
  /-- A token of variable spelling with no gap before it, as a named leaf. -/
  | part (kind : String) (token : Lexeme)
  | seq (rules : List (Rule σ))
  /-- The first rule of the list that can be read. -/
  | choice (rules : List (Rule σ))
  | many (rule : Rule σ)
  /-- Reads nothing; succeeds when `rule` could be read. -/
  | ahead (rule : Rule σ)
  /-- Reads nothing; succeeds when `rule` could not be read. -/
  | unless (rule : Rule σ)
  | node (kind : String) (rule : Rule σ)
  | field (name : String) (rule : Rule σ)
  | use (symbol : σ)
  /-- Reads `seed`, then the steps as often as one can be read; a step `(kind,
  name, rule)` makes a node of that kind from what has been read, as the field
  `name` if there is one, and what `rule` reads. -/
  | grow (seed : Rule σ) (steps : List (String × Option String × Rule σ))
  | within (dialects : List Dialect) (rule : Rule σ)
  /-- Reads nothing; succeeds when no line break precedes the next token. -/
  | sameLine
  /-- Reads nothing; succeeds where a statement may end without a semicolon.
  After a type an opening bracket on the next line starts a new statement. -/
  | lineBreak (afterType : Bool)
  /-- What `rule` reads, if it is one node of one of the kinds. -/
  | ofKind (kinds : List String) (rule : Rule σ)

namespace Rule

variable {σ : Type}

instance : Coe String (Rule σ) := ⟨fun s => .text s.toList⟩

/-- An operator, see `Rule.sign`. -/
def op (s : String) : Rule σ := .sign s.toList

/-- The first of several operators. -/
def ops (ss : List String) : Rule σ := .choice (ss.map op)

/-- Nothing, or what `r` reads. -/
def opt (r : Rule σ) : Rule σ := .choice [r, .seq []]

/-- One or more `r`, divided by commas. -/
def list1 (r : Rule σ) : Rule σ := .seq [r, .many (.seq [",", r])]

/-- Any number of `r`, divided by commas; a place between commas may be empty. -/
def holes (r : Rule σ) : Rule σ := .seq [opt r, .many (.seq [",", opt r])]

/-- Any number of `r`, divided by commas, with an optional comma at the end. -/
def list (r : Rule σ) : Rule σ := opt (.seq [list1 r, opt ","])

end Rule

/-- What a rule has read: nodes, where its first token starts, and where it ends. -/
structure Reading where
  nodes : List Node
  start : Nat
  stop : Nat

/-- The order of positions, and of the symbols at one position. -/
def compareKeys (a b : Nat × Nat) : Ordering := (compare a.2 b.2).then (compare a.1 b.1)

/-- The readings found so far, by symbol and position, and the next node number. -/
structure Progress where
  known : Std.TreeMap (Nat × Nat) (Option Reading) compareKeys := {}
  nextId : Nat := 0

/-- The operators that a shorter operator must not be the start of. -/
def longOperators : List (List Char) :=
  ["=>", "==", "===", "!=", "!==", "<=", "<<", "<<=", ">=", ">>", ">>=", ">>>", ">>>=", "&&",
   "&&=", "&=", "||", "||=", "|=", "??", "??=", "?.", "+=", "++", "-=", "--", "*=", "**", "**=",
   "/=", "%=", "^="].map String.toList

/-- Whether the operator `spelling` stands at `i` and no longer operator does.  A
question mark and a point divide before a digit. -/
def signAt (s : Source) (spelling : List Char) (i : Nat) : Bool :=
  standsAt s spelling i &&
    !longOperators.any fun long =>
      spelling.length < long.length && spelling.isPrefixOf long && standsAt s long i &&
        !(long == ['?', '.'] && s[i + 2]?.any isDigit)

/-- Whether the characters stand at `i`; a word must not go on. -/
def textAt (s : Source) (spelling : List Char) (i : Nat) : Bool :=
  standsAt s spelling i &&
    !(spelling.getLast?.any isNameChar && s[i + spelling.length]?.any isNameChar)

/-- Whether a statement that ends before `i` may do without a semicolon: at the
end of the text, before a closing brace, or at a line break after which no
operator goes on with it. -/
def mayEndAt (s : Source) (afterType : Bool) (i : Nat) : Bool :=
  let gap := gapAt s i
  let j := gap.stop
  match s[j]? with
  | none => true
  | some c =>
    if c == '\x7d' then true
    else if !gap.newline then false
    else if c == '(' || c == '[' then afterType
    else if c == '.' then s[j + 1]?.any isDigit
    else if c == '+' || c == '-' then s[j + 1]? == some c
    else if c == '!' then s[j + 1]? != some '='
    else if c == 'i' then !(textAt s ['i', 'n'] j || textAt s "instanceof".toList j)
    else !("\x60,:;*%><=?^|&/".toList.contains c)

/-- What never changes while a source is read. -/
structure Grammar (σ : Type) where
  rule : σ → Rule σ
  index : σ → Nat

section

variable {σ : Type}

/-- A leaf that spans `i` to `j`. -/
def leafNode (s : Source) (lines : Array Nat) (kind : String) (named : Bool) (id i j : Nat) :
    Node :=
  { kind, named, field? := none, id, line := lines.getD i 1, text := slice s i j, children := [] }

/-- The comments of a gap as leaves. -/
def commentNodes (s : Source) (lines : Array Nat) (id : Nat) (gap : Gap) : List Node :=
  gap.comments.mapIdx fun k (i, j) => leafNode s lines "comment" true (id + k) i j

/-- A token that ends at `j` after the gap: its comments and itself. -/
def tokenReading (s : Source) (lines : Array Nat) (kind : String) (named : Bool) (gap : Gap)
    (j : Nat) (p : Progress) : Option Reading × Progress :=
  let comments := commentNodes s lines p.nextId gap
  let id := p.nextId + comments.length
  let token := leafNode s lines kind named id gap.stop j
  (some ⟨comments ++ [token], gap.stop, j⟩, { p with nextId := id + 1 })

/-- Divides nodes into the comments in front and the rest. -/
def leadingComments (nodes : List Node) : List Node × List Node :=
  nodes.span (·.kind == "comment")

/-- Makes a node of what has been read.  Comments in front of it stay outside. -/
def wrap (s : Source) (lines : Array Nat) (kind : String) (r : Reading) (p : Progress) :
    Reading × Progress :=
  let (before, inside) := leadingComments r.nodes
  let node : Node :=
    { kind, named := true, field? := none, id := p.nextId, line := lines.getD r.start 1,
      text := slice s r.start r.stop, children := inside }
  (⟨before ++ [node], r.start, r.stop⟩, { p with nextId := p.nextId + 1 })

/-- Reads each rule after the one before it. -/
def readSeq (step : Rule σ → Nat → Progress → Option Reading × Progress) :
    List (Rule σ) → Reading → Bool → Progress → Option Reading × Progress
  | [], acc, _, p => (some acc, p)
  | r :: rs, acc, begun, p =>
    match step r acc.stop p with
    | (none, p) => (none, p)
    | (some next, p) =>
      let moved := next.start < next.stop
      let start := if begun then acc.start else if moved then next.start else acc.start
      readSeq step rs ⟨acc.nodes ++ next.nodes, start, next.stop⟩ (begun || moved) p

/-- Reads the first rule that can be read. -/
def readChoice (step : Rule σ → Progress → Option Reading × Progress) :
    List (Rule σ) → Progress → Option Reading × Progress
  | [], p => (none, p)
  | r :: rs, p =>
    match step r p with
    | (none, p) => readChoice step rs p
    | found => found

/-- Reads a rule as often as it can be read and gets on; the readings are put
together at the end. -/
def readMany (step : Nat → Progress → Option Reading × Progress) :
    Nat → Nat → Nat → List (List Node) → Progress → Reading × Progress
  | 0, start, i, acc, p => (⟨acc.reverse.flatten, start, i⟩, p)
  | fuel + 1, start, i, acc, p =>
    match step i p with
    | (some r, p) =>
      if r.stop ≤ i then (⟨acc.reverse.flatten, start, i⟩, p)
      else readMany step fuel (if acc.isEmpty then r.start else start) r.stop (r.nodes :: acc) p
    | (none, p) => (⟨acc.reverse.flatten, start, i⟩, p)

/-- Wraps a reading by the first step that can be read after it. -/
def readStep (s : Source) (lines : Array Nat)
    (step : Rule σ → Nat → Progress → Option Reading × Progress) (r : Reading) :
    List (String × Option String × Rule σ) → Progress → Option Reading × Progress
  | [], p => (none, p)
  | (kind, name, rule) :: rest, p =>
    match step rule r.stop p with
    | (none, p) => readStep s lines step r rest p
    | (some next, p) =>
      let seed := name.elim r.nodes fun name => r.nodes.map (·.withField name)
      let (whole, p) := wrap s lines kind ⟨seed ++ next.nodes, r.start, next.stop⟩ p
      (some whole, p)

/-- Wraps a reading by steps as often as one can be read. -/
def readGrowth (s : Source) (lines : Array Nat)
    (step : Rule σ → Nat → Progress → Option Reading × Progress)
    (steps : List (String × Option String × Rule σ)) : Nat → Reading → Progress → Reading × Progress
  | 0, r, p => (r, p)
  | fuel + 1, r, p =>
    match readStep s lines step r steps p with
    | (some next, p) =>
      if next.stop ≤ r.stop then (r, p) else readGrowth s lines step steps fuel next p
    | (none, p) => (r, p)

/-- Reads `rule` from position `i` on. -/
def read (g : Grammar σ) (d : Dialect) (s : Source) (lines : Array Nat) :
    Nat → Rule σ → Nat → Progress → Option Reading × Progress
  | 0, _, _, p => (none, p)
  | fuel + 1, rule, i, p =>
    let nothing : Option Reading := some ⟨[], i, i⟩
    match rule with
    | .text spelling =>
      let gap := gapAt s i
      if textAt s spelling gap.stop then
        tokenReading s lines (String.ofList spelling) false gap (gap.stop + spelling.length) p
      else (none, p)
    | .sign spelling =>
      let gap := gapAt s i
      if signAt s spelling gap.stop then
        tokenReading s lines (String.ofList spelling) false gap (gap.stop + spelling.length) p
      else (none, p)
    | .glued spelling =>
      if standsAt s spelling i then
        tokenReading s lines (String.ofList spelling) false ⟨i, [], false⟩ (i + spelling.length) p
      else (none, p)
    | .leaf kind token =>
      let gap := gapAt s i
      match token.scan s gap.stop with
      | some j => tokenReading s lines kind true gap j p
      | none => (none, p)
    | .part kind token =>
      match token.scan s i with
      | some j => tokenReading s lines kind true ⟨i, [], false⟩ j p
      | none => (none, p)
    | .seq rules => readSeq (read g d s lines fuel) rules ⟨[], i, i⟩ false p
    | .choice rules => readChoice (fun r p => read g d s lines fuel r i p) rules p
    | .many rule =>
      let (r, p) := readMany (read g d s lines fuel rule) (s.size - i + 1) i i [] p
      (some r, p)
    | .ahead rule =>
      match read g d s lines fuel rule i p with
      | (some _, p) => (nothing, p)
      | (none, p) => (none, p)
    | .unless rule =>
      match read g d s lines fuel rule i p with
      | (some _, p) => (none, p)
      | (none, p) => (nothing, p)
    | .node kind rule =>
      match read g d s lines fuel rule i p with
      | (some r, p) => let (r, p) := wrap s lines kind r p; (some r, p)
      | (none, p) => (none, p)
    | .field name rule =>
      match read g d s lines fuel rule i p with
      | (some r, p) => (some { r with nodes := r.nodes.map (·.withField name) }, p)
      | (none, p) => (none, p)
    | .use symbol =>
      let key := (g.index symbol, i)
      match p.known[key]? with
      | some r => (r, p)
      | none =>
        let (r, p) := read g d s lines fuel (g.rule symbol) i p
        (r, { p with known := p.known.insert key r })
    | .grow seed steps =>
      match read g d s lines fuel seed i p with
      | (some r, p) =>
        let (r, p) := readGrowth s lines (read g d s lines fuel) steps (s.size - i + 1) r p
        (some r, p)
      | (none, p) => (none, p)
    | .within dialects rule =>
      if dialects.contains d then read g d s lines fuel rule i p else (none, p)
    | .sameLine => (if (gapAt s i).newline then none else nothing, p)
    | .lineBreak afterType => (if mayEndAt s afterType i then nothing else none, p)
    | .ofKind kinds rule =>
      match read g d s lines fuel rule i p with
      | (some r, p) =>
        if (leadingComments r.nodes).2.all (kinds.contains ·.kind) then (some r, p) else (none, p)
      | (none, p) => (none, p)

/-- The line of each position, counted from one; only a line feed ends a line. -/
def lineNumbers (s : Source) : Array Nat :=
  (s.foldl (fun (acc : Array Nat × Nat) c =>
    (acc.1.push acc.2, if c == '\n' then acc.2 + 1 else acc.2)) (Array.mkEmpty (s.size + 1), 1)
  ).1

/-- Reads the whole source by the rule of `symbol`, whose comments at the very
end belong to the outermost node. -/
def readAll (g : Grammar σ) (d : Dialect) (s : Source) (kind : String) (symbol : σ) : Node :=
  let lines := lineNumbers s
  let (r, p) := read g d s lines (400 * (s.size + 2)) (.use symbol) 0 {}
  let r := r.getD ⟨[], 0, 0⟩
  let comments := commentNodes s lines p.nextId (gapAt s r.stop)
  { kind, named := true, field? := none, id := p.nextId + comments.length,
    line := (r.nodes ++ comments).head?.elim 1 (·.line),
    text := slice s 0 s.size, children := r.nodes ++ comments }

end

end RouteImpact.Syntax
