import RouteImpact.Syntax.Grammar.Symbol
import RouteImpact.Syntax.Grammar.Expressions
import RouteImpact.Syntax.Grammar.Types

namespace RouteImpact.Syntax.SourceRule

open Rule

/-!
# Statements and declarations

Imports and exports, declarations of values, functions, classes and types, and
the statements of control flow.  A line that cannot be read becomes an `ERROR`
node, after which reading goes on.
-/

/-! ### Imports and exports -/

/-- The module an import or export names. -/
def fromClause : SourceRule := .seq ["from", .field "source" (.use .string)]

/-- The name of an export, which may be a string. -/
def exportedName : SourceRule :=
  .choice [.use .string, .leaf "identifier" .anyName]

/-- A word that marks an import or export as one of types only. -/
def typeOnly : SourceRule := .choice ["type", "typeof"]

def importSpecifier : SourceRule :=
  .node "import_specifier"
    (.choice [.seq [typed typeOnly, bound], bound])
where
  /-- A name, or a name and the local name it gets, up to the next specifier. -/
  bound : SourceRule :=
    .seq [
      .choice [
        .seq [.field "name" exportedName, "as", .field "alias" name],
        .field "name" (.leaf "identifier" .anyName)],
      .ahead (.choice [",", closeBrace])]

def namedImports : SourceRule := .node "named_imports" (braced (list importSpecifier))

def namespaceImport : SourceRule := .node "namespace_import" (.seq [op "*", "as", name])

def importClause : SourceRule :=
  .node "import_clause"
    (.choice [
      namespaceImport,
      namedImports,
      .seq [name, opt (.seq [",", .choice [namespaceImport, namedImports]])]])

def importAttribute : SourceRule :=
  .node "import_attribute" (.seq [.choice ["with", "assert"], .use .object])

/-- `import x = require("y")`. -/
def importRequire : SourceRule :=
  .node "import_require_clause"
    (.seq [name, op "=", "require", parens (.field "source" (.use .string))])

def importStatement : SourceRule :=
  .node "import_statement"
    (.seq [
      "import",
      .choice [
        .seq [typed typeOnly, imported],
        imported],
      opt importAttribute,
      semicolon])
where
  /-- What is imported, and from where. -/
  imported : SourceRule :=
    .choice [
      .seq [importClause, fromClause],
      typed importRequire,
      .field "source" (.use .string)]

/-- `import x = A.B`. -/
def importAlias : SourceRule :=
  .node "import_alias"
    (.seq ["import", opt (.seq ["type", .unless "="]), name, op "=", nestedName, semicolon])

def exportSpecifier : SourceRule :=
  .node "export_specifier"
    (.choice [.seq [typed typeOnly, renamed], renamed])
where
  /-- A name, or a name and the name it is exported under, up to the next
  specifier. -/
  renamed : SourceRule :=
    .seq [
      .field "name" exportedName,
      opt (.seq ["as", .field "alias" exportedName]),
      .ahead (.choice [",", closeBrace])]

def exportClause : SourceRule := .node "export_clause" (braced (list exportSpecifier))

def exportStatement : SourceRule :=
  .node "export_statement"
    (.choice [
      .seq ["export",
        .choice [
          .seq [.node "namespace_export" (.seq [op "*", "as", exportedName]), fromClause],
          .seq [op "*", fromClause],
          .seq [exportClause, fromClause],
          exportClause],
        opt importAttribute,
        semicolon],
      typed (.seq ["export", "type",
        .choice [
          .seq [.node "namespace_export" (.seq [op "*", "as", exportedName]), fromClause],
          .seq [op "*", fromClause],
          .seq [exportClause, opt fromClause]],
        semicolon]),
      typed (.seq ["export", op "=", .use .expression, semicolon]),
      typed (.seq ["export", "as", "namespace", name, semicolon]),
      .seq [
        .many (.field "decorator" (.use .decorator)),
        "export",
        .choice [
          .seq ["default",
            .choice [
              .field "declaration" (.use .declaration),
              .seq [.field "value" (.use .expression), semicolon]]],
          .field "declaration" (.use .declaration)]]])

/-! ### Declarations -/

def variableDeclarator : SourceRule :=
  .node "variable_declarator"
    (.seq [
      .field "name" (.choice [name, .use .destructuring]),
      optTyped (.seq [opt "!", .field "type" (.use .typeClause)]),
      opt initializer])

/-- The words that open a declaration of variables with block scope. -/
def blockScoped : SourceRule :=
  .choice ["const", .seq ["let", .ahead (.choice [name, "[", openBrace])]]

def lexicalDeclaration : SourceRule :=
  .node "lexical_declaration"
    (.seq [.field "kind" blockScoped, list1 variableDeclarator, variableEnd])
where
  /-- A declaration that ends in a type may be followed by a bracket. -/
  variableEnd : SourceRule := semicolon

def variableDeclaration : SourceRule :=
  .node "variable_declaration" (.seq ["var", list1 variableDeclarator, semicolon])

/-- A declaration of resources that are released where its block ends. -/
def usingDeclaration : SourceRule :=
  .node "using_declaration"
    (.seq [.field "kind" (.choice ["using", .seq ["await", "using"]]), .sameLine,
      list1 variableDeclarator, semicolon])

def functionDeclaration : SourceRule :=
  .choice [
    .node "generator_function_declaration"
      (.seq [opt "async", "function", op "*", .field "name" name, .use .signature,
        .field "body" (.use .block)]),
    .node "function_declaration"
      (.seq [opt "async", "function", .field "name" name, .use .signature,
        .field "body" (.use .block)]),
    typed (.node "function_signature"
      (.seq [opt "async", "function", .field "name" name, .use .signature, typeSemicolon]))]

/-- The name of a class. -/
def className : SourceRule :=
  .field "name" (.choice [typed typeName, untyped name])

def classDeclaration : SourceRule :=
  .choice [
    .node "class_declaration"
      (.seq [.many (.field "decorator" (.use .decorator)), "class", className, .use .classHead]),
    typed (.node "abstract_class_declaration"
      (.seq [.many (.field "decorator" (.use .decorator)), "abstract", "class", className,
        .use .classHead]))]

def typeAlias : SourceRule :=
  .node "type_alias_declaration"
    (.seq ["type", .field "name" typeName,
      opt (.field "type_parameters" (.use .typeParameters)), op "=",
      .field "value" (.use .type), typeSemicolon])

def enumDeclaration : SourceRule :=
  .node "enum_declaration"
    (.seq [opt "const", "enum", .field "name" name,
      .field "body" (.node "enum_body"
        (braced (list (.choice [
          .node "enum_assignment"
            (.seq [.field "name" (.use .propertyName), initializer]),
          .field "name" (.use .propertyName)]))))])

def interfaceDeclaration : SourceRule :=
  .node "interface_declaration"
    (.seq ["interface", .field "name" typeName,
      opt (.field "type_parameters" (.use .typeParameters)),
      opt (.node "extends_type_clause"
        (.seq ["extends", list1 (.field "type" (.use .primaryType))])),
      .field "body" (.node "interface_body" typeMembers)])

def moduleDeclaration : SourceRule :=
  .choice [
    .node "internal_module"
      (.seq ["namespace", .sameLine, .field "name" (.choice [.use .string, nestedName]),
        .field "body" (.use .block)]),
    .node "module"
      (.seq ["module", .sameLine, .field "name" (.choice [.use .string, nestedName]),
        opt (.field "body" (.use .block))])]

def ambientDeclaration : SourceRule :=
  .node "ambient_declaration"
    (.seq ["declare",
      .choice [
        .seq ["global", .use .block],
        .seq ["module", ".", .leaf "property_identifier" .name, ":", .use .type, typeSemicolon],
        .seq [.use .declaration, opt ";"]]])

/-- Everything that declares a name. -/
def declaration : SourceRule :=
  .choice [
    functionDeclaration,
    classDeclaration,
    typed enumDeclaration,
    lexicalDeclaration,
    variableDeclaration,
    untyped usingDeclaration,
    typed (.choice [typeAlias, interfaceDeclaration, moduleDeclaration, importAlias,
      ambientDeclaration])]

/-! ### Class bodies -/

def decorator : SourceRule :=
  .node "decorator"
    (.seq ["@",
      .choice [
        .node "parenthesized_expression" (parens (.use .expressions)),
        .grow name
          [("member_expression", some "object",
              .seq [".", .field "property" (.leaf "property_identifier" .anyName)]),
           ("call_expression", some "function",
              .seq [optTyped (.field "type_arguments" (.use .typeArguments)),
                .field "arguments" (.use .arguments)])]]])

/-- Decorators in front of a member. -/
def decorators : SourceRule := .many (.field "decorator" (.use .decorator))

def staticBlock : SourceRule :=
  .node "class_static_block" (.seq ["static", .field "body" (.use .block)])

def classMethod : SourceRule :=
  .node "method_definition"
    (.seq [decorators, .choice [typed memberModifiers, opt (modifier "static")], functionModifiers,
      .field "name" (.use .propertyName), optTyped "?", .use .signature,
      .field "body" (.use .block)])

/-- A method that is declared without a body. -/
def methodWithoutBody : SourceRule :=
  .seq [
    .choice [
      .node "abstract_method_signature"
        (.seq [decorators, memberModifiers, functionModifiers,
          .field "name" (.use .propertyName), opt "?", .use .signature])],
    .choice [",", typeSemicolon]]

def classField : SourceRule :=
  .choice [
    typed (.seq [
      .node "public_field_definition"
        (.seq [decorators, memberModifiers, .field "name" (.use .propertyName),
          opt (.choice ["?", "!"]), opt (.field "type" (.use .typeClause)),
          opt initializer]),
      .choice [",", typeSemicolon]]),
    untyped (.seq [
      .node "field_definition"
        (.seq [decorators, opt (modifier "static"), opt (modifier "accessor"),
          .field "property" (.use .propertyName), opt initializer]),
      semicolon])]

def classBody : SourceRule :=
  .node "class_body"
    (braced (.many (.choice [
      ";",
      staticBlock,
      classMethod,
      typed methodWithoutBody,
      typed (.seq [indexSignature, .choice [",", typeSemicolon]]),
      classField])))

/-! ### Control flow -/

def block : SourceRule :=
  .node "statement_block" (braced (.many (.use .statement)))

/-- A condition between parentheses. -/
def condition : SourceRule :=
  .node "parenthesized_expression" (parens (.use .expressions))

def ifStatement : SourceRule :=
  .node "if_statement"
    (.seq ["if", .field "condition" condition, .field "consequence" (.use .statement),
      opt (.field "alternative" (.node "else_clause" (.seq ["else", .use .statement])))])

def switchStatement : SourceRule :=
  .node "switch_statement"
    (.seq ["switch", .field "value" condition,
      .field "body" (.node "switch_body"
        (braced (.many (.choice [
          .node "switch_case"
            (.seq ["case", .field "value" (.use .expressions), ":",
              .many (.field "body" (.use .statement))]),
          .node "switch_default"
            (.seq ["default", ":", .many (.field "body" (.use .statement))])]))))])

def forInStatement : SourceRule :=
  .node "for_in_statement"
    (.seq ["for", opt "await",
      "(",
      .choice [
        .seq [.field "kind" (.choice ["const", "let", "var"]),
          .field "left" (.choice [name, .use .destructuring]), opt initializer],
        .field "left" assignable],
      .field "operator" (.choice ["in", "of"]),
      .field "right" (.use .expressions),
      ")",
      .field "body" (.use .statement)])

def emptyStatement : SourceRule := .node "empty_statement" ";"

def forStatement : SourceRule :=
  .node "for_statement"
    (.seq ["for", "(",
      .choice [
        .field "initializer" (.choice [lexicalDeclaration, variableDeclaration]),
        .seq [.field "initializer" (.use .expressions), ";"],
        .field "initializer" emptyStatement],
      .choice [
        .seq [.field "condition" (.use .expressions), ";"],
        .field "condition" emptyStatement],
      opt (.field "increment" (.use .expressions)),
      ")",
      .field "body" (.use .statement)])

def tryStatement : SourceRule :=
  .node "try_statement"
    (.seq ["try", .field "body" (.use .block),
      opt (.field "handler" (.node "catch_clause"
        (.seq ["catch",
          opt (parens (.seq [.field "parameter" (.choice [name, .use .destructuring]),
            optTyped (.field "type" (.use .typeClause))])),
          .field "body" (.use .block)]))),
      opt (.field "finalizer" (.node "finally_clause"
        (.seq ["finally", .field "body" (.use .block)])))])

/-- A value that must start before the statement may end. -/
def sameStatement (r : SourceRule) : SourceRule :=
  opt (.seq [.unless (.lineBreak false), r])

def jumpStatement : SourceRule :=
  .choice [
    .node "return_statement" (.seq ["return", sameStatement (.use .expressions), semicolon]),
    .node "throw_statement" (.seq ["throw", .use .expressions, semicolon]),
    .node "break_statement"
      (.seq ["break", sameStatement (.field "label" (.leaf "statement_identifier" .name)),
        semicolon]),
    .node "continue_statement"
      (.seq ["continue", sameStatement (.field "label" (.leaf "statement_identifier" .name)),
        semicolon]),
    .node "debugger_statement" (.seq ["debugger", semicolon])]

def loopStatement : SourceRule :=
  .choice [
    .node "while_statement"
      (.seq ["while", .field "condition" condition, .field "body" (.use .statement)]),
    .node "do_statement"
      (.seq ["do", .field "body" (.use .statement), "while", .field "condition" condition,
        opt semicolon]),
    forInStatement,
    forStatement,
    .node "with_statement"
      (.seq ["with", .field "object" condition, .field "body" (.use .statement)])]

def statement : SourceRule :=
  .choice [
    .node "expression_statement" (.seq [labelledBrace, .use .expressions, semicolon]),
    .use .block,
    emptyStatement,
    importStatement,
    exportStatement,
    .use .declaration,
    ifStatement,
    switchStatement,
    loopStatement,
    tryStatement,
    jumpStatement,
    .node "labeled_statement"
      (.seq [.field "label" (.leaf "statement_identifier" .name), ":",
        .field "body" (.use .statement)]),
    .node "expression_statement" (.seq [.use .expressions, semicolon])]

def program : SourceRule :=
  .seq [
    opt (.part "hash_bang_line" .hashbang),
    .many (.choice [.use .statement, .leaf "ERROR" .restOfLine])]

end RouteImpact.Syntax.SourceRule
