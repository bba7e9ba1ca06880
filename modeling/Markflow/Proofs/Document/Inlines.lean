import Markflow.Proofs.Document.Plain
import Markflow.Proofs.Passes.CodeSpans
import Markflow.Proofs.Passes.Emphasis

/-!
# Canonical lines

A canonical line is made of inline nodes with single spaces between them.  `Inline.source` is how a
node is written and `Inline.html` what it stands for.
-/

namespace Markflow

/-- A character of an address. -/
def isAddressChar (c : Char) : Bool :=
  !(Text.isBlank c || c == ')' || c == '\x60' || c == '[' || c == ']')

/-- The address of a link or an image. -/
structure Address where
  url : List Char
  nonempty : url ≠ []
  allowed : ∀ c ∈ url, isAddressChar c = true

/-- The length of the longest run of a character in a text. -/
def longestRun (mark : Char) : List Char → Nat
  | [] => 0
  | c :: text => max ((c :: text).takeWhile (· == mark)).length (longestRun mark text)

/-- Code within a line, and how many backticks stand on each side of it: more than anywhere in the
code. -/
structure Snippet where
  code : List Char
  ticks : Nat
  inLine : '\n' ∉ code
  hasInk : Text.hasInk code = true
  enough : longestRun '\x60' code < ticks

/-- An inline node of a canonical line. -/
inductive Inline where
  | phrase (text : Phrase)
  | strong (text : Phrase)
  | emphasis (text : Phrase)
  | both (text : Phrase)
  | deleted (text : Phrase)
  | link (text : Phrase) (address : Address) (title : Option Phrase)
  | image (text : Phrase) (address : Address) (title : Option Phrase)
  | code (snippet : Snippet)

namespace Inline

/-- A target with its title, if there is one, in parentheses. -/
def targetText (address : Address) (title : Option Phrase) : List Char :=
  "(".toList ++ address.url ++
    (title.elim [] fun title => " \"".toList ++ title.text ++ "\"".toList) ++ ")".toList

/-- A node as it is written. -/
def source : Inline → List Char
  | phrase text => text.text
  | strong text => "**".toList ++ text.text ++ "**".toList
  | emphasis text => "*".toList ++ text.text ++ "*".toList
  | both text => "***".toList ++ text.text ++ "***".toList
  | deleted text => "~~".toList ++ text.text ++ "~~".toList
  | link text address title => "[".toList ++ text.text ++ "]".toList ++ targetText address title
  | image text address title => "![".toList ++ text.text ++ "]".toList ++ targetText address title
  | code snippet =>
    List.replicate snippet.ticks '\x60' ++ " ".toList ++ snippet.code ++ " ".toList ++
      List.replicate snippet.ticks '\x60'

/-- The title attribute of a link or an image, if it has a title. -/
def titleHtml (title : Option Phrase) : List Char :=
  title.elim [] fun title => " title=\"".toList ++ title.text ++ "\"".toList

/-- The HTML of a node. -/
def html : Inline → List Char
  | phrase text => text.text
  | strong text => "<strong>".toList ++ text.text ++ "</strong>".toList
  | emphasis text => "<em>".toList ++ text.text ++ "</em>".toList
  | both text => "<em><strong>".toList ++ text.text ++ "</strong></em>".toList
  | deleted text => "<del>".toList ++ text.text ++ "</del>".toList
  | link text address title =>
    "<a href=\"".toList ++ Escape.attributeValue address.url ++ "\"".toList ++ titleHtml title ++
      ">".toList ++
      text.text ++ "</a>".toList
  | image text address title =>
    "<img src=\"".toList ++ Escape.attributeValue address.url ++ "\" alt=\"".toList ++ text.text ++
      "\"".toList ++
      titleHtml title ++ ">".toList
  | code snippet => "<code>".toList ++ Escape.code snippet.code ++ "</code>".toList

/-- The built-in transform that a node is for, if it is not plain. -/
def kind? : Inline → Option Builtin
  | phrase _ => none
  | strong _ | both _ => some .bold
  | emphasis _ => some .italic
  | deleted _ => some .strikethrough
  | link _ _ _ => some .links
  | image _ _ _ => some .images
  | code _ => some .inlineCode

end Inline

end Markflow
