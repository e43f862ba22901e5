import RouteImpact.Syntax.Grammar.Symbol

namespace RouteImpact.Syntax.SourceRule

open Rule

/-!
# Expressions

Expressions from the comma down to literals, one symbol per level of precedence,
and the patterns that stand on the left of an assignment or as a parameter.  A
function written with an arrow is tried before a parenthesised expression, and
type arguments of a call before a comparison, because each is recognised only by
what follows it.
-/

/-- One or more expressions divided by commas. -/
def expressions : SourceRule :=
  .choice [
    .node "sequence_expression"
      (.seq [.use .expression, ",", .use .expression, .many (.seq [",", .use .expression])]),
    .use .expression]

/-- The arguments of `yield`. -/
def yielded : SourceRule :=
  .node "yield_expression"
    (.seq ["yield",
      .choice [
        .seq [op "*", .use .expression],
        .seq [.unless (.lineBreak false), .use .expression],
        .seq []]])

def expression : SourceRule :=
  .choice [yielded, .use .assignment, .use .ternary]

/-- An expression that does not start with a function that declares its result. -/
def untypedExpression : SourceRule :=
  .choice [.use .untypedArrow, .use .expression]

/-- The parameters of an arrow function, a single name among them. -/
def arrowHead (result : SourceRule) : SourceRule :=
  .seq [
    opt (.seq ["async", .sameLine, .unless "=>"]),
    .choice [
      .seq [.field "parameter" name, .ahead "=>"],
      .seq [
        opt (.choice [
          .within [.typescript] (.field "type_parameters" (.use .typeParameters)),
          .within [.tsx]
            (.seq [.unless (.seq ["<", name, ">"]),
              .field "type_parameters" (.use .typeParameters)])]),
        .field "parameters" (.use .parameters),
        result]]]

/-- A brace, a name and a colon open a block with a label or an object; an object
is preferred wherever it can be read. -/
def labelledBrace : SourceRule := .ahead (.seq [openBrace, name, ":"])

def arrowTail : SourceRule :=
  .seq ["=>",
    .field "body" (.choice [.seq [labelledBrace, .use .expression], .use .block, .use .expression])]

def arrow : SourceRule :=
  .node "arrow_function"
    (.seq [arrowHead (optTyped (.field "return_type" (.use .resultClause))), arrowTail])

def untypedArrow : SourceRule :=
  .node "arrow_function" (.seq [arrowHead (.seq []), arrowTail])

/-- A destructuring pattern that is not the start of a longer expression, as in
`[].length` or `[][key]`. -/
def wholeDestructuring : SourceRule :=
  .seq [.use .destructuring, .unless (.choice [".", "?.", "[", "("])]

/-- What can be assigned to. -/
def assignable : SourceRule :=
  .choice [
    wholeDestructuring,
    .ofKind ["identifier", "undefined", "member_expression", "subscript_expression",
      "parenthesized_expression", "non_null_expression"] (.use .chain)]

def assignment : SourceRule :=
  .choice [
    .node "assignment_expression"
      (.seq [.field "left" assignable, op "=", .field "right" (.use .expression)]),
    .node "augmented_assignment_expression"
      (.seq [
        .field "left" (.ofKind ["identifier", "member_expression", "subscript_expression",
          "parenthesized_expression", "non_null_expression"] (.use .chain)),
        .field "operator" (ops ["+=", "-=", "*=", "/=", "%=", "^=", "&=", "|=", ">>=", ">>>=",
          "<<=", "**=", "&&=", "||=", "??="]),
        .field "right" (.use .expression)])]

def ternary : SourceRule :=
  .choice [
    .node "ternary_expression"
      (.seq [
        .field "condition" (.use .coalesce),
        op "?",
        .choice [
          .seq [.field "consequence" (.use .expression), ":"],
          .seq [.field "consequence" (.use .untypedExpression), ":"],
          .seq [.field "consequence" (.use .chain), ":"]],
        .field "alternative" (.use .expression)]),
    .use .coalesce]

/-- Left-associative operators over the next level of precedence. -/
def binary (next : Symbol) (operators : SourceRule) : SourceRule :=
  .grow (.use next)
    [("binary_expression", some "left",
      .seq [.field "operator" operators, .field "right" (.use next)])]

def coalesce : SourceRule := binary .disjunction (op "??")
def disjunction : SourceRule := binary .conjunction (op "||")
def conjunction : SourceRule := binary .bitOr (op "&&")
def bitOr : SourceRule := binary .bitXor (op "|")
def bitXor : SourceRule := binary .bitAnd (op "^")
def bitAnd : SourceRule := binary .equality (op "&")
def equality : SourceRule := binary .relation (ops ["===", "!==", "==", "!="])

/-- Comparisons, and the casts that bind as they do. -/
def relation : SourceRule :=
  .grow (.use .shift)
    [("binary_expression", some "left",
        .seq [.field "operator" (.choice [ops ["<=", ">=", "<", ">"], "instanceof", "in"]),
          .field "right" (.use .shift)]),
     ("as_expression", none, typed (.seq ["as", .choice ["const", .use .type]])),
     ("satisfies_expression", none, typed (.seq ["satisfies", .use .type]))]

def shift : SourceRule := binary .sum (ops [">>>", ">>", "<<"])
def sum : SourceRule := binary .product (ops ["+", "-"])
def product : SourceRule := binary .power (ops ["*", "/", "%"])

def power : SourceRule :=
  .choice [
    .node "binary_expression"
      (.seq [.field "left" (.use .unary), .field "operator" (op "**"),
        .field "right" (.use .power)]),
    .use .unary]

def unary : SourceRule :=
  .choice [
    .use .arrow,
    .node "update_expression"
      (.seq [.field "operator" (.choice ["++", "--"]), .field "argument" (.use .unary)]),
    .node "unary_expression"
      (.seq [
        .field "operator" (.choice ["!", "~", "-", "+", "typeof", "void", "delete"]),
        .field "argument" (.use .unary)]),
    .node "await_expression" (.seq ["await", .use .unary]),
    .within [.typescript] (.node "type_assertion" (.seq [.use .typeArguments, .use .unary])),
    .seq [privateName, .ahead "in"],
    .use .postfixed]

def postfixed : SourceRule :=
  .choice [
    .node "update_expression"
      (.seq [.field "argument" (.use .chain), .sameLine, .field "operator" (.choice ["++", "--"])]),
    .use .chain]

/-- A member after a point. -/
def member : SourceRule :=
  .field "property" (.choice [privateName, .leaf "property_identifier" .anyName])

def optionalChain : SourceRule := .node "optional_chain" "?."

/-- What shows that type arguments stand alone. -/
def afterInstantiation : SourceRule :=
  .ahead (.choice [")", "]", ",", ";", ":", closeBrace, .lineBreak true])

/-- Members, elements and calls, from left to right. -/
def chain : SourceRule :=
  .grow
    (.choice [
      .node "meta_property" (.seq ["import", ".", "meta"]),
      .seq [word "import" "import", .ahead "("],
      .use .constructed,
      .use .primary])
    [("member_expression", some "object", .seq [".", member]),
     ("call_expression", some "function",
        .seq [.field "optional_chain" optionalChain,
          optTyped (.field "type_arguments" (.use .typeArguments)),
          .field "arguments" (.use .arguments)]),
     ("subscript_expression", some "object",
        .seq [.field "optional_chain" optionalChain, "[", .field "index" (.use .expressions), "]"]),
     ("member_expression", some "object",
        .seq [.field "optional_chain" optionalChain, member]),
     ("subscript_expression", some "object",
        .seq ["[", .field "index" (.use .expressions), "]"]),
     ("call_expression", some "function", .field "arguments" (.use .arguments)),
     ("call_expression", some "function", .field "arguments" (.use .template)),
     ("call_expression", some "function",
        typed (.seq [.field "type_arguments" (.use .typeArguments),
          .field "arguments" (.choice [.use .arguments, .use .template])])),
     ("instantiation_expression", some "function",
        typed (.seq [.field "type_arguments" (.use .typeArguments), afterInstantiation])),
     ("non_null_expression", none, typed (.seq [.sameLine, op "!"]))]

/-- `new` with what it constructs; only the first arguments belong to it. -/
def constructed : SourceRule :=
  .choice [
    .node "meta_property" (.seq ["new", ".", "target"]),
    .node "new_expression"
      (.seq [
        "new",
        .field "constructor"
          (.grow (.choice [.use .constructed, .use .primary])
            [("member_expression", some "object", .seq [".", member]),
             ("subscript_expression", some "object",
                .seq ["[", .field "index" (.use .expressions), "]"]),
             ("non_null_expression", none, typed (.seq [.sameLine, op "!"]))]),
        opt (.choice [
          .seq [optTyped (.field "type_arguments" (.use .typeArguments)),
            .field "arguments" (.use .arguments)],
          typed (.field "type_arguments" (.use .typeArguments))])])]

/-- Plain characters and escape sequences between two quotes. -/
def quotedBy (quote : Char) : SourceRule :=
  .node "string"
    (.seq [.text [quote],
      .many (.choice [
        .part "string_fragment" (.stringChars quote),
        .part "escape_sequence" .escape]),
      .glued [quote]])

def string : SourceRule := .choice [quotedBy '"', quotedBy '\'']

def template : SourceRule :=
  .node "template_string"
    (.seq ["\x60",
      .many (.choice [
        .part "string_fragment" .templateChars,
        .part "escape_sequence" .escape,
        .node "template_substitution"
          (.seq [.glued ['$', '\x7b'], .use .expressions, closeBrace])]),
      .glued ['\x60']])

def regex : SourceRule :=
  .node "regex"
    (.seq [
      "/",
      .unless (.glued ['/']),
      .unless (.glued ['*']),
      .field "pattern" (.part "regex_pattern" .pattern),
      .glued ['/'],
      opt (.field "flags" (.part "regex_flags" .flags))])

def spread : SourceRule := .node "spread_element" (.seq ["...", .use .expression])

def arguments : SourceRule :=
  .node "arguments" (parens (holes (.choice [spread, .use .expression])))

def array : SourceRule :=
  .node "array" (.seq ["[", holes (.choice [spread, .use .expression]), "]"])

/-- A function with a name that is a member of an object or a class. -/
def method : SourceRule :=
  .node "method_definition"
    (.seq [functionWords, .field "name" (.use .propertyName), optTyped "?", .use .signature,
      .field "body" (.use .block)])
where
  /-- The words in front of the name. -/
  functionWords : SourceRule :=
    .seq [opt (looseModifier "async"),
      opt (.choice [looseModifier "get", looseModifier "set", op "*"])]

def object : SourceRule :=
  .node "object"
    (braced (holes (.choice [
      spread,
      .use .method,
      .node "pair"
        (.seq [.field "key" (.use .propertyName), ":", .field "value" (.use .expression)]),
      .leaf "shorthand_property_identifier" .name])))

def parenthesized : SourceRule :=
  .node "parenthesized_expression"
    (parens (.choice [
      .seq [.use .expressions, .ahead ")"],
      typed (.seq [.use .expression, .field "type" (.use .typeClause)])]))

def functionExpression : SourceRule :=
  .choice [
    .node "generator_function"
      (.seq [opt "async", "function", op "*", opt (.field "name" name), .use .signature,
        .field "body" (.use .block)]),
    .node "function_expression"
      (.seq [opt "async", "function", opt (.field "name" name), .use .signature,
        .field "body" (.use .block)])]

/-- The base class and the implemented interfaces of a class. -/
def heritage : SourceRule :=
  .node "class_heritage"
    (.choice [
      typed (.seq [
        .node "extends_clause"
          (.seq ["extends",
            list1 (.seq [.field "value" (.use .chain),
              opt (.field "type_arguments" (.use .typeArguments))])]),
        opt implements]),
      typed implements,
      untyped (.seq ["extends", .use .chain])])
where
  /-- The interfaces a class declares to have. -/
  implements : SourceRule :=
    .node "implements_clause" (.seq ["implements", list1 (.use .type)])

/-- What follows the word that opens a class and its name. -/
def classHead : SourceRule :=
  .seq [
    optTyped (.field "type_parameters" (.use .typeParameters)),
    opt heritage,
    .field "body" (.use .classBody)]

def classExpression : SourceRule :=
  .node "class"
    (.seq [
      .many (.field "decorator" (.use .decorator)),
      "class",
      opt (.field "name" (.seq [.unless "implements", .leaf "identifier" .name])),
      .use .classHead])

def primary : SourceRule :=
  .choice [
    parenthesized,
    functionExpression,
    classExpression,
    name,
    .use .string,
    .use .template,
    .leaf "number" .number,
    .use .object,
    .use .array,
    marked (.use .markup),
    regex,
    word "this" "this",
    word "super" "super",
    word "true" "true",
    word "false" "false",
    word "null" "null",
    word "undefined" "undefined"]

/-! ### Patterns -/

def restPattern : SourceRule :=
  .node "rest_pattern" (.seq ["...", .use .pattern])

/-- A place that a value is bound or assigned to. -/
def pattern : SourceRule :=
  .choice [
    wholeDestructuring,
    restPattern,
    .ofKind ["identifier", "undefined", "member_expression", "subscript_expression",
      "non_null_expression"] (.use .chain)]

/-- A pattern with an optional initial value. -/
def patternWithDefault : SourceRule :=
  .choice [
    .node "assignment_pattern"
      (.seq [.field "left" (.use .pattern), op "=", .field "right" (.use .expression)]),
    .use .pattern]

def destructuring : SourceRule :=
  .choice [
    .node "object_pattern"
      (braced (holes (.choice [
        .node "pair_pattern"
          (.seq [.field "key" (.use .propertyName), ":", .field "value" patternWithDefault]),
        restPattern,
        .node "object_assignment_pattern"
          (.seq [
            .field "left" (.choice [
              .leaf "shorthand_property_identifier_pattern" .name,
              .use .destructuring]),
            op "=",
            .field "right" (.use .expression)]),
        .leaf "shorthand_property_identifier_pattern" .name]))),
    .node "array_pattern" (.seq ["[", holes patternWithDefault, "]"])]

/-- What a parameter binds, with its modifiers. -/
def parameterHead : SourceRule :=
  .seq [
    .many (.field "decorator" (.use .decorator)),
    .many (.choice [
      .node "accessibility_modifier"
        (.choice [parameterWord "public", parameterWord "private", parameterWord "protected"]),
      .node "override_modifier" (parameterWord "override"),
      parameterWord "readonly"]),
    .field "pattern" (.choice [.use .pattern, word "this" "this"])]
where
  /-- A word that is a modifier, unless it is the parameter itself. -/
  parameterWord (spelling : String) : SourceRule :=
    .seq [spelling, .unless (.choice [",", ")", ":", "=", "?", "."])]

def parameter : SourceRule :=
  .choice [
    typed (.node "optional_parameter"
      (.seq [parameterHead, "?", opt (.field "type" (.use .typeClause)), opt initializer])),
    typed (.node "required_parameter"
      (.seq [parameterHead, opt (.field "type" (.use .typeClause)), opt initializer])),
    untyped patternWithDefault]

def parameters : SourceRule := .node "formal_parameters" (parens (list parameter))

end RouteImpact.Syntax.SourceRule
