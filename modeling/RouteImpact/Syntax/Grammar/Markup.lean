import RouteImpact.Syntax.Grammar.Symbol

namespace RouteImpact.Syntax.SourceRule

open Rule

/-!
# Markup

Elements written as tags inside an expression.  A paired element holds its
opening tag, its contents and its closing tag; the names of the two tags need not
agree.  A backslash in an attribute string is an ordinary character, and a
character reference stands apart from the plain text around it.
-/

/-- The name of a tag or an attribute, dashes included. -/
def tagName (kind : String) : SourceRule := .leaf kind .tagName

/-- A name with a namespace, such as `svg:path`. -/
def namespaced : SourceRule :=
  .node "jsx_namespace_name" (.seq [tagName "identifier", ":", tagName "identifier"])

/-- A tag name with points, such as `Menu.Item`. -/
def dottedTag : SourceRule :=
  .grow (tagName "identifier") [("member_expression", some "object",
    .seq [".", .field "property" (.leaf "property_identifier" .anyName)])]

/-- The name of an element, with type arguments where there are types. -/
def elementName : SourceRule :=
  .seq [.field "name" (.choice [namespaced, dottedTag]),
    opt (.within [.tsx] (.field "type_arguments" (.use .typeArguments)))]

/-- An attribute string between two quotes. -/
def attributeString (quote : Char) : SourceRule :=
  .node "string"
    (.seq [.text [quote],
      .many (.choice [
        .part "string_fragment" (.attributeChars quote),
        .part "html_character_reference" .reference]),
      .glued [quote]])

/-- An expression between braces; it may be empty or a spread. -/
def embedded : SourceRule :=
  .node "jsx_expression"
    (braced (opt (.choice [
      .node "spread_element" (.seq ["...", .use .expression]),
      .use .expressions])))

def markupAttribute : SourceRule :=
  .choice [
    .node "jsx_attribute"
      (.seq [
        .choice [namespaced, tagName "property_identifier"],
        opt (.seq ["=",
          .choice [attributeString '"', attributeString '\'', embedded, .use .markup]])]),
    embedded]

def markupAttributes : SourceRule := .many (.field "attribute" (.use .markupAttribute))

def openingTag : SourceRule :=
  .node "jsx_opening_element" (.seq ["<", opt (.seq [elementName, markupAttributes]), ">"])

def closingTag : SourceRule :=
  .node "jsx_closing_element"
    (.seq ["</", opt (.field "name" (.choice [namespaced, dottedTag])), ">"])

/-- What may stand between two tags. -/
def content : SourceRule :=
  .choice [
    .part "jsx_text" .markupText,
    .leaf "html_character_reference" .reference,
    .use .markup,
    embedded]

def markup : SourceRule :=
  .seq [.unless "</",
    .choice [
      .node "jsx_self_closing_element" (.seq ["<", elementName, markupAttributes, "/>"]),
      .node "jsx_element"
        (.seq [.field "open_tag" openingTag, .many content, .field "close_tag" closingTag])]]

end RouteImpact.Syntax.SourceRule
