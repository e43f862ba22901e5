import RouteImpact.Syntax.Rule

namespace RouteImpact.Syntax

/-!
# The symbols of the source grammar

Each recursive place of the grammar has a `Symbol`; the modules beside this one
give the rules, and `Syntax/Grammar` puts them into one table.  The vocabulary
here is shared by all of them: names, semicolons, property names and the words
that are modifiers only when a name follows.
-/

/-- The recursive places of the grammar. -/
inductive Symbol where
  | program
  | statement
  | block
  | declaration
  | expression
  | expressions
  | untypedExpression
  | arrow
  | untypedArrow
  | assignment
  | ternary
  | coalesce
  | disjunction
  | conjunction
  | bitOr
  | bitXor
  | bitAnd
  | equality
  | relation
  | shift
  | sum
  | product
  | power
  | unary
  | postfixed
  | chain
  | constructed
  | primary
  | string
  | template
  | object
  | array
  | method
  | classBody
  | classHead
  | decorator
  | arguments
  | parameters
  | pattern
  | destructuring
  | propertyName
  | markup
  | markupAttribute
  | type
  | unionType
  | intersectionType
  | operatorType
  | suffixedType
  | primaryType
  | objectType
  | typeArguments
  | typeParameters
  | typeClause
  | resultClause
  | signature
deriving Repr, DecidableEq, Inhabited

/-- A rule of the source grammar. -/
abbrev SourceRule := Rule Symbol

namespace SourceRule

open Rule

/-- The dialects that have types. -/
def typed (r : SourceRule) : SourceRule := .within [.typescript, .tsx] r

/-- The dialects that have markup. -/
def marked (r : SourceRule) : SourceRule := .within [.tsx, .javascript] r

/-- The dialect without types. -/
def untyped (r : SourceRule) : SourceRule := .within [.javascript] r

/-- What may stand only where types are known. -/
def optTyped (r : SourceRule) : SourceRule := opt (typed r)

def openBrace : SourceRule := "\x7b"

def closeBrace : SourceRule := "\x7d"

/-- A rule between braces. -/
def braced (r : SourceRule) : SourceRule := .seq [openBrace, r, closeBrace]

/-- A rule between parentheses. -/
def parens (r : SourceRule) : SourceRule := .seq ["(", r, ")"]

def name : SourceRule := .leaf "identifier" .name

def privateName : SourceRule := .leaf "private_property_identifier" .privateName

def typeName : SourceRule := .leaf "type_identifier" .name

/-- A word as a named node of its own. -/
def word (kind spelling : String) : SourceRule := .leaf kind (.word spelling.toList)

/-- The end of a statement: a semicolon, or a place where it may be left out. -/
def semicolon : SourceRule := .choice [";", .lineBreak false]

/-- The end of a statement that ends in a type. -/
def typeSemicolon : SourceRule := .choice [";", .lineBreak true]

/-- A word that is a modifier, unless what follows shows that it is a name. -/
def modifier (spelling : String) : SourceRule :=
  .seq [spelling,
    .unless (.choice ["(", ",", ":", ";", "=", "?", "!", "<", closeBrace, .lineBreak true])]

/-- A word that is a modifier, also before a line break. -/
def looseModifier (spelling : String) : SourceRule :=
  .seq [spelling, .unless (.choice ["(", ",", ":", ";", "=", "?", "!", "<", closeBrace])]

/-- An initial value. -/
def initializer : SourceRule := .seq [op "=", .field "value" (.use .expression)]

/-- A name with points, such as `A.B.C`. -/
def nestedName : SourceRule :=
  .grow name [("nested_identifier", some "object",
    .seq [".", .field "property" (.leaf "property_identifier" .anyName)])]

/-- The name of a property: a name, a string, a number or a computed name. -/
def propertyName : SourceRule :=
  .choice [
    .leaf "property_identifier" .anyName,
    privateName,
    .use .string,
    .leaf "number" .number,
    .node "computed_property_name" (.seq ["[", .use .expression, "]"])]

end SourceRule

end RouteImpact.Syntax
