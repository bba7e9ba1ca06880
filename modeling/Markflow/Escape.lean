/-!
# Escaping

Characters that mean something in HTML are written as references.  Text that later transforms have
to leave alone is escaped further: the characters that they match on are written as numeric
references, which a browser shows as the characters themselves.
-/

namespace Markflow.Escape

/-- The form of a character that means something in HTML; with `quote` the quotes do too. -/
def entity (quote : Bool) (c : Char) : List Char :=
  if c == '&' then "&amp;".toList
  else if c == '<' then "&lt;".toList
  else if c == '>' then "&gt;".toList
  else if quote && c == '"' then "&quot;".toList
  else if quote && c == '\'' then "&#x27;".toList
  else [c]

/-- The form of a character that inline markup uses. -/
def markup (c : Char) : List Char :=
  if c == '*' then "&#42;".toList
  else if c == '_' then "&#95;".toList
  else if c == '~' then "&#126;".toList
  else if c == '\x60' then "&#96;".toList
  else if c == '[' then "&#91;".toList
  else if c == ']' then "&#93;".toList
  else if c == '!' then "&#33;".toList
  else [c]

/-- Line breaks as references; a carriage return before a line feed is dropped. -/
def lineBreaks : List Char → List Char
  | '\r' :: '\n' :: rest => "&#10;".toList ++ lineBreaks rest
  | '\n' :: rest => "&#10;".toList ++ lineBreaks rest
  | c :: rest => c :: lineBreaks rest
  | [] => []

/-- Escapes text for HTML. -/
def html (text : List Char) (quote : Bool := true) : List Char :=
  text.flatMap (entity quote)

/-- Escapes code, so that later transforms find nothing in it.  Without `keepLines` the result is
one line. -/
def code (text : List Char) (keepLines : Bool := true) : List Char :=
  let escaped := (html text false).flatMap markup
  if keepLines then escaped else lineBreaks escaped

/-- Escapes the value of an attribute between double quotes. -/
def attributeValue (text : List Char) : List Char :=
  (html text).flatMap markup

end Markflow.Escape
