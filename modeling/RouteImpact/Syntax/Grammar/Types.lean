import RouteImpact.Syntax.Grammar.Symbol

namespace RouteImpact.Syntax.SourceRule

open Rule

/-!
# Types

The type language: unions and intersections, function and constructor types,
object types with their member signatures, and the forms that only occur after a
function's parameters.  A module named inside a type, `import("./a").B`, is a
call like any other, because it makes the file depend on that module.
-/

/-- A type after a colon. -/
def typeClause : SourceRule := .node "type_annotation" (.seq [":", .use .type])

/-- `x is T`. -/
def typePredicate : SourceRule :=
  .node "type_predicate"
    (.seq [.field "name" (.choice [name, word "this" "this"]), "is",
      .field "type" (.use .type)])

/-- `asserts x` and `asserts x is T`. -/
def asserts : SourceRule :=
  .node "asserts"
    (.seq ["asserts", .choice [typePredicate, name, word "this" "this"]])

/-- What stands after the colon that follows a function's parameters. -/
def resultClause : SourceRule :=
  .choice [
    .node "type_predicate_annotation" (.seq [":", typePredicate]),
    .node "asserts_annotation" (.seq [":", asserts]),
    typeClause]

/-- Type parameters, parameters and the annotation of the result. -/
def signature : SourceRule :=
  .seq [
    optTyped (.field "type_parameters" (.use .typeParameters)),
    .field "parameters" (.use .parameters),
    optTyped (.field "return_type" (.use .resultClause))]

def typeParameter : SourceRule :=
  .node "type_parameter"
    (.seq [
      opt (looseModifier "const"),
      .field "name" typeName,
      opt (.field "constraint" (.node "constraint" (.seq ["extends", .use .type]))),
      opt (.field "value" (.node "default_type" (.seq [op "=", .use .type])))])

def typeParameters : SourceRule :=
  .node "type_parameters" (.seq ["<", list1 typeParameter, opt ",", ">"])

def typeArguments : SourceRule :=
  .node "type_arguments" (.seq ["<", list1 (.use .type), opt ",", ">"])

/-- The result of a function type. -/
def functionResult : SourceRule := .choice [typePredicate, asserts, .use .type]

def functionType : SourceRule :=
  .node "function_type"
    (.seq [
      opt (.field "type_parameters" (.use .typeParameters)),
      .field "parameters" (.use .parameters),
      "=>",
      .field "return_type" functionResult])

def constructorType : SourceRule :=
  .node "constructor_type"
    (.seq [
      opt "abstract",
      "new",
      opt (.field "type_parameters" (.use .typeParameters)),
      .field "parameters" (.use .parameters),
      "=>",
      .field "type" (.use .type)])

/-- `A extends B ? C : D`. -/
def conditionalType : SourceRule :=
  .node "conditional_type"
    (.seq [
      .field "left" (.use .unionType),
      "extends",
      .field "right" (.choice [functionType, constructorType, .use .unionType]),
      "?",
      .field "consequence" (.use .type),
      ":",
      .field "alternative" (.use .type)])

def type : SourceRule :=
  .choice [functionType, constructorType, conditionalType, .use .unionType]

def unionType : SourceRule :=
  .choice [
    .node "union_type" (.seq [op "|", .choice [functionType, constructorType, .use .unionType]]),
    .grow (.use .intersectionType)
      [("union_type", none,
        .seq [op "|", .choice [functionType, constructorType, .use .intersectionType]])]]

def intersectionType : SourceRule :=
  .choice [
    .node "intersection_type" (.seq [op "&", .use .intersectionType]),
    .grow (.use .operatorType)
      [("intersection_type", none, .seq [op "&", .choice [functionType, .use .operatorType]])]]

/-- The operand of `typeof` in a type. -/
def queried : SourceRule :=
  .grow
    (.choice [
      .seq [word "import" "import", .ahead "("],
      word "this" "this",
      name])
    [("member_expression", some "object",
        .seq [".", .field "property" (.choice [privateName, .leaf "property_identifier" .anyName])]),
     ("subscript_expression", some "object",
        .seq [.sameLine, "[", .field "index" (.choice [.use .string, .leaf "number" .number]), "]"]),
     ("call_expression", some "function", .seq [.sameLine, .field "arguments" (.use .arguments)]),
     ("instantiation_expression", some "function",
        .field "type_arguments" (.use .typeArguments))]

def operatorType : SourceRule :=
  .choice [
    .node "index_type_query" (.seq ["keyof", .unless endOfType, .use .operatorType]),
    .node "readonly_type" (.seq ["readonly", .unless endOfType, .use .operatorType]),
    .node "infer_type"
      (.seq ["infer", .unless endOfType, typeName,
        opt (.seq ["extends", .use .type])]),
    .use .suffixedType]
where
  /-- Shows that the word before is a name, not an operator. -/
  endOfType : SourceRule :=
    .choice [",", ";", ")", "]", ">", "=", "|", "&", "[", ":", "?", "<", ".", closeBrace,
      .lineBreak true]

/-- Array and lookup types: brackets after a type, on the same line. -/
def suffixedType : SourceRule :=
  .grow (.use .primaryType)
    [("array_type", none, .seq [.sameLine, "[", "]"]),
     ("lookup_type", none, .seq [.sameLine, "[", .use .type, "]"])]

/-- `A.B`, as the name of a type. -/
def nestedTypeName : SourceRule :=
  .node "nested_type_identifier"
    (.seq [
      .field "module" (.grow (.seq [name, .ahead "."])
        [("nested_identifier", some "object",
          .seq [".", .field "property" (.leaf "property_identifier" .anyName), .ahead "."])]),
      ".",
      .field "name" (.leaf "type_identifier" .anyName)])

/-- Words that name a type of the language. -/
def predefinedType : SourceRule :=
  .node "predefined_type"
    (.seq [
      .choice [.seq ["unique", "symbol"], "any", "number", "boolean", "string", "symbol", "void",
        "unknown", "never", "object"],
      .unless "."])

def literalType : SourceRule :=
  .node "literal_type"
    (.choice [
      .use .string,
      .leaf "number" .number,
      .node "unary_expression" (.seq [.choice ["-", "+"], .leaf "number" .number]),
      word "true" "true",
      word "false" "false",
      word "null" "null",
      word "undefined" "undefined"])

def templateType : SourceRule :=
  .node "template_literal_type"
    (.seq ["\x60",
      .many (.choice [
        .part "string_fragment" .templateChars,
        .part "escape_sequence" .escape,
        .node "template_type" (.seq [.glued ['$', '\x7b'], .use .type, closeBrace])]),
      .glued ['\x60']])

/-- An element of a tuple type: it may have a name, be optional, or stand for the
rest. -/
def tupleElement : SourceRule :=
  .choice [
    .node "rest_type" (.seq ["...", name, ":", .use .type]),
    .node "optional_parameter" (.seq [.field "name" name, "?", .field "type" typeClause]),
    .node "required_parameter" (.seq [.field "name" name, .field "type" typeClause]),
    .node "rest_type" (.seq ["...", .use .type]),
    .node "optional_type" (.seq [.use .type, "?"]),
    .use .type]

/-- A module named in a type. -/
def importType : SourceRule :=
  .grow (.seq [word "import" "import", .ahead "("])
    [("call_expression", some "function", .field "arguments" (.use .arguments)),
     ("member_expression", some "object",
        .seq [".", .field "property" (.leaf "property_identifier" .anyName)])]

def primaryType : SourceRule :=
  .choice [
    .node "parenthesized_type" (parens (.use .type)),
    .node "type_query" (.seq ["typeof", queried]),
    importType,
    predefinedType,
    literalType,
    templateType,
    word "this_type" "this",
    .use .objectType,
    .node "tuple_type" (.seq ["[", list tupleElement, "]"]),
    .node "flow_maybe_type" (.seq ["?", .use .primaryType]),
    .node "existential_type" "*",
    .choice [
      .node "generic_type"
        (.seq [.field "name" (.choice [nestedTypeName, typeName]),
          .field "type_arguments" (.use .typeArguments)]),
      nestedTypeName,
      typeName]]

/-- `[K in T as N]`, the head of a mapped type. -/
def mappedClause : SourceRule :=
  .node "mapped_type_clause"
    (.seq [.field "name" typeName, "in", .field "type" (.use .type),
      opt (.seq ["as", .field "alias" (.use .type)])])

def indexSignature : SourceRule :=
  .node "index_signature"
    (.seq [
      .many (.seq [opt (.choice ["-", "+"]), .choice ["readonly", "static"], .ahead "["]),
      opt (.seq [.choice ["-", "+"], "readonly"]),
      "[",
      .choice [mappedClause,
        .seq [.field "name" name, ":", .field "index_type" (.use .type)]],
      "]",
      opt (.choice [.seq [.choice ["-", "+"], "?"], "?"]),
      opt (.field "type" typeClause)])

/-- The words that may stand before a member of a class or an interface. -/
def memberModifiers : SourceRule :=
  .many (.choice [
    .node "accessibility_modifier"
      (.choice [modifier "public", modifier "private", modifier "protected"]),
    .node "override_modifier" (modifier "override"),
    modifier "static",
    modifier "readonly",
    modifier "declare",
    modifier "abstract",
    modifier "accessor"])

/-- The words that tell what kind of function a member is. -/
def functionModifiers : SourceRule :=
  .seq [opt (modifier "async"), opt (.choice [modifier "get", modifier "set", op "*"])]

def methodSignature : SourceRule :=
  .node "method_signature"
    (.seq [memberModifiers, functionModifiers, .field "name" (.use .propertyName), opt "?",
      .use .signature])

def propertySignature : SourceRule :=
  .node "property_signature"
    (.seq [memberModifiers, .field "name" (.use .propertyName), opt "?",
      opt (.field "type" typeClause)])

def typeMember : SourceRule :=
  .choice [
    indexSignature,
    .node "construct_signature"
      (.seq ["new", opt (.field "type_parameters" (.use .typeParameters)),
        .field "parameters" (.use .parameters), opt (.field "type" typeClause)]),
    .node "call_signature" (.use .signature),
    methodSignature,
    propertySignature]

/-- The members of an object type, each ended by a comma, a semicolon or a line
break. -/
def typeMembers : SourceRule :=
  braced (.seq [
    opt (.choice [",", ";"]),
    .many (.seq [typeMember, .choice [",", typeSemicolon]])])

def objectType : SourceRule := .node "object_type" typeMembers

end RouteImpact.Syntax.SourceRule
