import RouteImpact.Syntax.Grammar.Markup
import RouteImpact.Syntax.Grammar.Statements

namespace RouteImpact.Syntax

/-!
# The source grammar

The table of rules behind every parse, and the parse of a whole text.
-/

/-- The rule of each symbol. -/
def Symbol.rule : Symbol → SourceRule
  | .program => SourceRule.program
  | .statement => SourceRule.statement
  | .block => SourceRule.block
  | .declaration => SourceRule.declaration
  | .expression => SourceRule.expression
  | .expressions => SourceRule.expressions
  | .untypedExpression => SourceRule.untypedExpression
  | .arrow => SourceRule.arrow
  | .untypedArrow => SourceRule.untypedArrow
  | .assignment => SourceRule.assignment
  | .ternary => SourceRule.ternary
  | .coalesce => SourceRule.coalesce
  | .disjunction => SourceRule.disjunction
  | .conjunction => SourceRule.conjunction
  | .bitOr => SourceRule.bitOr
  | .bitXor => SourceRule.bitXor
  | .bitAnd => SourceRule.bitAnd
  | .equality => SourceRule.equality
  | .relation => SourceRule.relation
  | .shift => SourceRule.shift
  | .sum => SourceRule.sum
  | .product => SourceRule.product
  | .power => SourceRule.power
  | .unary => SourceRule.unary
  | .postfixed => SourceRule.postfixed
  | .chain => SourceRule.chain
  | .constructed => SourceRule.constructed
  | .primary => SourceRule.primary
  | .string => SourceRule.string
  | .template => SourceRule.template
  | .object => SourceRule.object
  | .array => SourceRule.array
  | .method => SourceRule.method
  | .classBody => SourceRule.classBody
  | .classHead => SourceRule.classHead
  | .decorator => SourceRule.decorator
  | .arguments => SourceRule.arguments
  | .parameters => SourceRule.parameters
  | .pattern => SourceRule.pattern
  | .destructuring => SourceRule.destructuring
  | .propertyName => SourceRule.propertyName
  | .markup => SourceRule.markup
  | .markupAttribute => SourceRule.markupAttribute
  | .type => SourceRule.type
  | .unionType => SourceRule.unionType
  | .intersectionType => SourceRule.intersectionType
  | .operatorType => SourceRule.operatorType
  | .suffixedType => SourceRule.suffixedType
  | .primaryType => SourceRule.primaryType
  | .objectType => SourceRule.objectType
  | .typeArguments => SourceRule.typeArguments
  | .typeParameters => SourceRule.typeParameters
  | .typeClause => SourceRule.typeClause
  | .resultClause => SourceRule.resultClause
  | .signature => SourceRule.signature

/-- The grammar of all dialects. -/
def sourceGrammar : Grammar Symbol := ⟨Symbol.rule, Symbol.ctorIdx⟩

/-- The syntax tree of a text in a dialect.  Every text has one: lines that
cannot be read are `ERROR` nodes. -/
def parseText (d : Dialect) (text : String) : Node :=
  readAll sourceGrammar d text.toList.toArray "program" .program

end RouteImpact.Syntax
