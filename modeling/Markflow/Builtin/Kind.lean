/-!
# The built-in transforms by name

`Builtin.all` lists them in the order in which they run: block structures first, inline markup next
and paragraphs, whose pattern is the most permissive, last.
-/

namespace Markflow

/-- A built-in transform. -/
inductive Builtin where
  | codeBlocks
  | headers
  | horizontalRule
  | unorderedList
  | orderedList
  | blockquote
  | inlineCode
  | images
  | links
  | bold
  | italic
  | strikethrough
  | paragraphs
  deriving DecidableEq, Repr, Inhabited

namespace Builtin

/-- The built-in transforms in the order in which they run. -/
def all : List Builtin :=
  [codeBlocks, headers, horizontalRule, unorderedList, orderedList, blockquote, inlineCode,
    images, links, bold, italic, strikethrough, paragraphs]

/-- The name of a built-in transform. -/
def name : Builtin → String
  | codeBlocks => "code-blocks"
  | headers => "headers"
  | horizontalRule => "horizontal-rule"
  | unorderedList => "unordered-list"
  | orderedList => "ordered-list"
  | blockquote => "blockquote"
  | inlineCode => "inline-code"
  | images => "images"
  | links => "links"
  | bold => "bold"
  | italic => "italic"
  | strikethrough => "strikethrough"
  | paragraphs => "paragraphs"

/-- The built-in transform of a name. -/
def ofName? (name : String) : Option Builtin :=
  all.find? (·.name == name)

end Builtin

end Markflow
