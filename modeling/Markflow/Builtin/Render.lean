import Markflow.Builtin.Kind
import Markflow.Captures
import Markflow.Escape
import Markflow.Text.Blank
import Markflow.Text.Lines

/-!
# Rendering of the built-in transforms

What each built-in transform puts in place of a match.  Code and the values of attributes are
escaped so that later transforms find nothing in them; all other text stays open to later
transforms.
-/

namespace Markflow.Builtin

/-- A line feed if a block ends with one. -/
def trailingNewline (block : List Char) : List Char :=
  if block.getLast? == some '\n' then ['\n'] else []

/-- The title attribute of a link or an image, if it has a title. -/
def titleAttribute (captures : Captures) : String :=
  let title := captures.namedOrEmpty "title"
  if title.isEmpty then ""
  else " title=\"" ++ String.ofList (Escape.attributeValue title.toList) ++ "\""

/-- A text without its last line break. -/
def dropLineBreak (text : List Char) : List Char :=
  match text.reverse with
  | '\n' :: '\r' :: rest => rest.reverse
  | '\n' :: rest => rest.reverse
  | _ => text

/-- A code block is one line; its language, if there is one, becomes a class. -/
def renderCodeBlock (captures : Captures) : String :=
  let language := captures.namedOrEmpty "lang"
  let code := dropLineBreak (captures.namedOrEmpty "code").toList
  let escaped := String.ofList (Escape.code code false)
  if language.isEmpty then "<pre><code>" ++ escaped ++ "</code></pre>"
  else
    let hint := String.ofList (Escape.attributeValue language.toList)
    "<pre><code class=\"" ++ hint ++ "\">" ++ escaped ++ "</code></pre>"

/-- The number of hashes of a header is its level. -/
def renderHeader (captures : Captures) : Except Fault String := do
  let level := (← captures.named "hashes").length
  let text ← captures.named "text"
  return s!"<h{level}>{text}</h{level}>"

/-- What follows an indentation of at most three spaces. -/
def afterIndent? (line : List Char) : Option (List Char) :=
  if (line.takeWhile (· == ' ')).length ≤ 3 then some (line.dropWhile (· == ' ')) else none

/-- Whether a character is a space or a tab. -/
def isSpaceOrTab (c : Char) : Bool :=
  c == ' ' || c == '\t'

/-- What follows spaces and tabs, of which there has to be one. -/
def afterGap? : List Char → Option (List Char)
  | c :: rest => if isSpaceOrTab c then some (rest.dropWhile isSpaceOrTab) else none
  | [] => none

/-- What follows the marker of an unordered item. -/
def afterBullet? (line : List Char) : Option (List Char) :=
  match afterIndent? line with
  | some (c :: rest) => if c == '*' || c == '+' || c == '-' then afterGap? rest else none
  | _ => none

/-- The number of an ordered item, and what follows its marker. -/
def afterNumber? (line : List Char) : Option (Nat × List Char) :=
  match afterIndent? line with
  | some rest =>
    let digits := rest.takeWhile Text.isDigit
    if 1 ≤ digits.length ∧ digits.length ≤ 9 then
      match rest.drop digits.length with
      | c :: rest =>
        if c == '.' || c == ')' then (afterGap? rest).map (Text.digitsValue digits, ·) else none
      | [] => none
    else none
  | none => none

/-- What follows the marker of a quote. -/
def afterQuote? (line : List Char) : Option (List Char) :=
  match afterIndent? line with
  | some ('>' :: c :: rest) => if isSpaceOrTab c then some rest else some (c :: rest)
  | some ['>'] => some []
  | _ => none

/-- The items of a list: its lines that are not blank, less their markers. -/
def listItems (after? : List Char → Option (List Char)) (block : List Char) :
    List (List Char) :=
  ((Text.lines block).filter Text.hasInk).map fun line =>
    Text.strip ((after? line).getD line)

/-- A list of items, one to a line. -/
def renderItems (tag start : String) (items : List (List Char)) (block : List Char) : String :=
  let lines := items.map fun item => "  <li>" ++ String.ofList item ++ "</li>"
  "<" ++ tag ++ start ++ ">\n" ++ "\n".intercalate lines ++ "\n</" ++ tag ++ ">"
    ++ String.ofList (trailingNewline block)

/-- A run of unordered items. -/
def renderUnorderedList (captures : Captures) : String :=
  let block := captures.full.toList
  renderItems "ul" "" (listItems afterBullet? block) block

/-- A run of ordered items; a list that does not start at one says where it starts. -/
def renderOrderedList (captures : Captures) : String :=
  let block := captures.full.toList
  let number := match afterNumber? block with
    | some (number, _) => number
    | none => 1
  let start := if number = 1 then "" else s!" start=\"{number}\""
  renderItems "ol" start (listItems (fun line => (afterNumber? line).map (·.2)) block) block

/-- Quoted lines become one line. -/
def renderBlockquote (captures : Captures) : String :=
  let block := captures.full.toList
  let lines := (Text.lines block).map fun line => Text.strip ((afterQuote? line).getD line)
  let text := Text.join [' '] (lines.filter (!·.isEmpty))
  "<blockquote>" ++ String.ofList text ++ "</blockquote>" ++ String.ofList (trailingNewline block)

/-- The content of a code span, without one space of padding on each side. -/
def unpadded (code : List Char) : List Char :=
  if 2 < code.length && code.head? == some ' ' && code.getLast? == some ' ' && Text.hasInk code then
    (code.drop 1).dropLast
  else code

/-- A code span. -/
def renderInlineCode (captures : Captures) : Except Fault String := do
  let code := unpadded (← captures.named "code").toList
  return "<code>" ++ String.ofList (Escape.code code) ++ "</code>"

/-- An image with its description and its title. -/
def renderImage (captures : Captures) : Except Fault String := do
  let source := String.ofList (Escape.attributeValue (← captures.named "url").toList)
  let description := String.ofList (Escape.attributeValue (← captures.named "alt").toList)
  return "<img src=\"" ++ source ++ "\" alt=\"" ++ description ++ "\"" ++ titleAttribute captures
    ++ ">"

/-- A link; its text stays open to later transforms. -/
def renderLink (captures : Captures) : Except Fault String := do
  let target := String.ofList (Escape.attributeValue (← captures.named "url").toList)
  let text ← captures.named "text"
  return "<a href=\"" ++ target ++ "\"" ++ titleAttribute captures ++ ">" ++ text ++ "</a>"

/-- Strong emphasis; three asterisks put it inside emphasis. -/
def renderBold (captures : Captures) : Except Fault String := do
  let combined := captures.namedOrEmpty "combined"
  if combined.isEmpty then
    return "<strong>" ++ (← captures.named "text") ++ "</strong>"
  else
    return "<em><strong>" ++ combined ++ "</strong></em>"

/-- The captured text inside an element. -/
def renderInside (tag : String) (captures : Captures) : Except Fault String := do
  return "<" ++ tag ++ ">" ++ (← captures.named "text") ++ "</" ++ tag ++ ">"

/-- The elements that paragraphs leave alone. -/
def blockTags : List String :=
  ["address", "article", "aside", "blockquote", "details", "div", "dl", "fieldset", "figure",
    "footer", "form", "h1", "h2", "h3", "h4", "h5", "h6", "header", "hr", "li", "main", "nav",
    "ol", "p", "pre", "section", "table", "ul"]

/-- What follows a tag's name in either letter case. -/
def afterTagName? : (name : List Char) → List Char → Option (List Char)
  | [], rest => some rest
  | letter :: name, c :: rest =>
    if (Regex.CharSet.single .unicode letter.toNat).holds c then afterTagName? name rest else none
  | _ :: _, [] => none

/-- Whether a text starts with the name of a block element, which must end there. -/
def startsWithBlockTag (text : List Char) : Bool :=
  blockTags.any fun tag => match afterTagName? tag.toList text with
    | some [] => true
    | some (c :: _) => Text.isBlank c || c == '/' || c == '>'
    | none => false

/-- Whether a line opens with a comment or with the tag of a block element. -/
def isBlockLine (line : List Char) : Bool :=
  match line.dropWhile isSpaceOrTab with
  | '<' :: '!' :: '-' :: '-' :: _ => true
  | '<' :: '/' :: rest => startsWithBlockTag rest
  | '<' :: rest => startsWithBlockTag rest
  | _ => false

/-- The lines of a paragraph, which are not there yet when there are none. -/
def paragraphLine (pending : List (List Char)) : List (List Char) :=
  if pending.isEmpty then []
  else ["<p>".toList ++ Text.join [' '] pending ++ "</p>".toList]

/-- Puts runs of lines that open no block into paragraphs; `pending` is the run so far. -/
def wrapLines (pending : List (List Char)) : List (List Char) → List (List Char)
  | [] => paragraphLine pending
  | line :: more =>
    if isBlockLine line then paragraphLine pending ++ line :: wrapLines [] more
    else wrapLines (pending ++ [Text.strip line]) more

/-- Runs of text lines become paragraphs of one line. -/
def renderParagraphs (captures : Captures) : Except Fault String := do
  let text ← captures.named "text"
  return String.ofList (Text.join ['\n'] (wrapLines [] (Text.lines text.toList)))

/-- What a built-in transform puts in place of a match. -/
def render : Builtin → Captures → Except Fault String
  | codeBlocks, captures => .ok (renderCodeBlock captures)
  | headers, captures => renderHeader captures
  | horizontalRule, _ => .ok "<hr>"
  | unorderedList, captures => .ok (renderUnorderedList captures)
  | orderedList, captures => .ok (renderOrderedList captures)
  | blockquote, captures => .ok (renderBlockquote captures)
  | inlineCode, captures => renderInlineCode captures
  | images, captures => renderImage captures
  | links, captures => renderLink captures
  | bold, captures => renderBold captures
  | italic, captures => renderInside "em" captures
  | strikethrough, captures => renderInside "del" captures
  | paragraphs, captures => renderParagraphs captures

end Markflow.Builtin
