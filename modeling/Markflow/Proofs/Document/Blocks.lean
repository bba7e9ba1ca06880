import Markflow.Proofs.Document.Words
import Markflow.Proofs.Passes.Blocks
import Mathlib.Algebra.Group.Nat.Defs

/-!
# Canonical documents

A canonical document is made of blocks with a blank line between each two.  `Block.source` is how a
block is written and `Block.html` what it stands for.
-/

namespace Markflow

/-- A character of an info word. -/
def isInfoChar (c : Char) : Bool :=
  c.isAlphanum || c == '_' || c == '#' || c == '+' || c == '.' || c == '-'

/-- What a fence holds: an info word, empty if there is none, and code that does not close the
fence. -/
structure Listing where
  info : List Char
  code : List Char
  info_all : ∀ c ∈ info, isInfoChar c = true
  ends : code.getLast? ≠ some '\r'
  noEnd : ∀ line ∈ Text.lines code, Builtin.isFenceEnd line = false

/-- A number of phrases that is not zero. -/
abbrev Phrases := { phrases : List Phrase // phrases ≠ [] }

/-- A block of a canonical document.  The numbers of a list have at most nine digits. -/
inductive Block where
  | header (level : Fin 6) (text : Phrase)
  | rule
  | bullets (items : Phrases)
  | numbers (start : Nat) (items : Phrases) (few : start + items.val.length ≤ 10 ^ 9)
  | quote (lines : Phrases)
  | fence (listing : Listing)
  | paragraph (lines : Phrases)

namespace Block

/-- The items of a list with their numbers. -/
def numbered (start : Nat) (items : List Phrase) : List (List Char) :=
  (items.zipIdx start).map fun (item, number) => Nat.toDigits 10 number ++ ". ".toList ++ item.text

/-- The lines of a block. -/
def lines : Block → List (List Char)
  | header level text => [List.replicate (level + 1) '#' ++ ' ' :: text.text]
  | rule => ["---".toList]
  | bullets items => items.val.map fun item => "- ".toList ++ item.text
  | numbers start items _ => numbered start items.val
  | quote lines => lines.val.map fun line => "> ".toList ++ line.text
  | fence listing => ("```".toList ++ listing.info) :: Text.lines listing.code ++ ["```".toList]
  | paragraph lines => lines.val.map Phrase.text

/-- The lines of the HTML of a block. -/
def htmlLines : Block → List (List Char)
  | header level text =>
    ["<h".toList ++ Nat.toDigits 10 (level + 1) ++ ">".toList ++ text.text ++
      "</h".toList ++ Nat.toDigits 10 (level + 1) ++ ">".toList]
  | rule => ["<hr>".toList]
  | bullets items => listHtml "<ul>".toList items.val "</ul>".toList
  | numbers start items _ =>
    listHtml ("<ol".toList ++ Builtin.startText start ++ ">".toList) items.val "</ol>".toList
  | quote lines =>
    ["<blockquote>".toList ++ Text.join [' '] (lines.val.map Phrase.text) ++ "</blockquote>".toList]
  | fence listing =>
    ["<pre><code".toList ++ Builtin.classText listing.info ++ ">".toList ++
      Escape.code listing.code false ++ "</code></pre>".toList]
  | paragraph
      lines => ["<p>".toList ++ Text.join [' '] (lines.val.map Phrase.text) ++ "</p>".toList]
where
  /-- The lines of a list. -/
  listHtml (opening : List Char) (items : List Phrase) (closing : List Char) : List (List Char) :=
    opening :: items.map (fun item => "  <li>".toList ++ item.text ++ "</li>".toList) ++ [closing]

/-- A block as it is written. -/
def source (block : Block) : List Char :=
  Text.join ['\n'] block.lines

/-- The HTML of a block. -/
def html (block : Block) : List Char :=
  Text.join ['\n'] block.htmlLines

/-- The built-in transform that a block is for. -/
def kind : Block → Builtin
  | header _ _ => .headers
  | rule => .horizontalRule
  | bullets _ => .unorderedList
  | numbers _ _ _ => .orderedList
  | quote _ => .blockquote
  | fence _ => .codeBlocks
  | paragraph _ => .paragraphs

end Block

end Markflow
