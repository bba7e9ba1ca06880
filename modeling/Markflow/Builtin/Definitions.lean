import Markflow.Builtin.Kind
import Markflow.Transform.Registry

/-!
# Definitions of the built-in transforms

The pattern of each built-in transform with what help says about it.  Bodies of inline spans never
cross a blank line; the body between paired marks may hold a single one, so that emphasis can stand
inside strong emphasis.
-/

namespace Markflow.Builtin

/-- The body of a span whose mark is one character.  It crosses no blank line. -/
def spanBody (mark : String) : String :=
  "(?:[^" ++ mark ++ "\\n]|\\n(?!\\s*\\n))+?"

/-- The body of a span between paired marks, which may hold a single mark.  It crosses no blank
line. -/
def pairedBody (mark : String) : String :=
  "(?:[^" ++ mark ++ "\\n]|" ++ mark ++ "(?!" ++ mark ++ ")|\\n(?!\\s*\\n))+?"

/-- The target of a link or an image with its title, between parentheses. -/
def targetPattern : String :=
  "\\((?<url>[^)\\s]+)(?:[ \\t]+\\\"(?<title>[^\\\"]*)\\\")?\\)"

/-- A body between two asterisks on each side, or three. -/
def strongPattern (asterisks group : String) : String :=
  "(?<![\\\\*])" ++ asterisks ++ "(?=[^\\s*])(?<" ++ group ++ ">" ++ pairedBody "\\*"
    ++ ")(?<=\\S)" ++ asterisks ++ "(?!\\*)"

/-- The pattern of a built-in transform. -/
def pattern : Builtin → String
  | codeBlocks => "^```[ \\t]*(?<lang>[\\w#+.-]+)?[ \\t]*\\r?\\n(?<code>[\\s\\S]*?)^```[ \\t]*\\r?$"
  | headers => "^(?<hashes>#\x7b1,6\x7d)[ \\t]+(?<text>.+?)(?:[ \\t]+#+)?[ \\t]*$"
  | horizontalRule =>
    "^ \x7b0,3\x7d(?:(?:-[ \\t]*)\x7b3,\x7d|(?:\\*[ \\t]*)\x7b3,\x7d|(?:_[ \\t]*)\x7b3,\x7d)$"
  | unorderedList => "(?:^ \x7b0,3\x7d[*+-][ \\t]+\\S.*$\\n?)+"
  | orderedList => "(?:^ \x7b0,3\x7d\\d\x7b1,9\x7d[.)][ \\t]+\\S.*$\\n?)+"
  | blockquote => "(?:^ \x7b0,3\x7d>.*$\\n?)+"
  | inlineCode => "(?<!`)(?<ticks>`+)(?!`)(?<code>[^\\n]+?)(?<!`)\\k<ticks>(?!`)"
  | images => "!\\[(?<alt>[^\\]]*)\\]" ++ targetPattern
  | links => "(?<!!)\\[(?<text>[^\\]]+)\\]" ++ targetPattern
  | bold => strongPattern "\\*\\*\\*" "combined" ++ "|" ++ strongPattern "\\*\\*" "text"
  | italic => "(?<![\\w\\\\*])\\*(?=[^\\s*])(?<text>" ++ spanBody "*" ++ ")(?<=\\S)\\*(?![\\w*])"
  | strikethrough =>
    "(?<![\\\\~])~~(?=[^\\s~])(?<text>" ++ pairedBody "~" ++ ")(?<=\\S)~~(?!~)"
  | paragraphs => "(?<text>[^\\S\\n]*\\S[^\\n]*(?:\\n[^\\S\\n]*\\S[^\\n]*)*)"

/-- What a built-in transform is for. -/
def description : Builtin → String
  | codeBlocks => "Fenced code blocks with an optional language hint"
  | headers => "Headers from h1 (# ) to h6 (######)"
  | horizontalRule => "Horizontal rule from three or more dashes, asterisks or underscores"
  | unorderedList => "Unordered list items starting with -, * or +"
  | orderedList => "Ordered list items starting with numbers"
  | blockquote => "Blockquote lines starting with >"
  | inlineCode => "Inline code wrapped in backticks"
  | images => "Images with alt text, URL and optional title"
  | links => "Hyperlinks with text, URL and optional title"
  | bold => "Bold text wrapped in double asterisks (triple for bold italic)"
  | italic => "Italic text wrapped in single asterisks"
  | strikethrough => "Strikethrough text wrapped in double tildes"
  | paragraphs => "Paragraphs separated by blank lines"

/-- An example of what a built-in transform matches. -/
def usage : Builtin → String
  | codeBlocks => "```python\nprint('hello')\n```"
  | headers => "## Heading Level 2"
  | horizontalRule => "---"
  | unorderedList => "- item one\n- item two"
  | orderedList => "1. first\n2. second"
  | blockquote => "> quoted text"
  | inlineCode => "`const x = 42;`"
  | images => "![alt text](image.jpg \"optional title\")"
  | links => "[link text](https://example.com)"
  | bold => "**bold text**"
  | italic => "*italic text*"
  | strikethrough => "~~deleted text~~"
  | paragraphs => "paragraph one\n\nparagraph two"

/-- Whether the lines of a text count one by one for the pattern of a built-in transform. -/
def isLinewise : Builtin → Bool
  | codeBlocks | headers | horizontalRule | unorderedList | orderedList | blockquote => true
  | _ => false

/-- The flags of a built-in transform. -/
def flags (kind : Builtin) : Flags :=
  if kind.isLinewise then .of [.everywhere, .multiline] else .of [.everywhere]

/-- The tags of a built-in transform. -/
def tags : Builtin → List String
  | codeBlocks => ["block", "code"]
  | headers => ["block"]
  | horizontalRule => ["block"]
  | unorderedList => ["block", "lists"]
  | orderedList => ["block", "lists"]
  | blockquote => ["block"]
  | inlineCode => ["inline", "code"]
  | images => ["inline", "images"]
  | links => ["inline", "links"]
  | bold => ["inline", "emphasis"]
  | italic => ["inline", "emphasis"]
  | strikethrough => ["inline", "emphasis"]
  | paragraphs => ["block"]

/-- The definition of a built-in transform. -/
def definition {ρ : Type} (kind : Builtin) : Definition ρ where
  name := .text kind.name
  pattern := .text kind.pattern
  render := .builtin kind
  description := .text kind.description
  usage := .text kind.usage
  flags := kind.flags
  tags := kind.tags.map .text

variable [Host]

/-- Registers the built-in transforms in order. -/
def registerAll {ρ : Type} : Action (Registry ρ) Unit :=
  all.forM fun kind => Registry.register { base := .definition kind.definition }

end Markflow.Builtin
