import Markflow.Terminal.Style
import Markflow.Text.Blank

/-!
# Wrapping

Text is cut into lines of a width between words.  A word, with the blanks behind it, goes on the
line where it fits without those blanks.  A word that is longer than the width is cut into pieces,
or with `fold = false` left for the line to be cut off.
-/

namespace Markflow.Terminal

variable {α : Type} (glyph : α → Char)

/-- The words of a line: each with the blanks behind it, the first also with those before it.
Blanks alone are no word. -/
def wordsFrom : (fuel : Nat) → List α → List (List α)
  | 0, _ => []
  | fuel + 1, line =>
    let isBlank (a : α) : Bool := Text.isBlank (glyph a)
    let lead := line.takeWhile isBlank
    let rest := line.dropWhile isBlank
    let ink := rest.takeWhile (!isBlank ·)
    let rest := rest.dropWhile (!isBlank ·)
    if ink.isEmpty then []
    else (lead ++ ink ++ rest.takeWhile isBlank) :: wordsFrom fuel (rest.dropWhile isBlank)

/-- The length of a word without the blanks behind it. -/
def inkLength (word : List α) : Nat :=
  (word.reverse.dropWhile fun a => Text.isBlank (glyph a)).length

/-- The offsets at which a line is cut.  `start` is the offset of the next word and `column` where
the line being filled ends. -/
def breaks (width : Nat) (fold : Bool) : (start column : Nat) → List (List α) → List Nat
  | _, _, [] => []
  | start, column, word :: words =>
    let length := inkLength glyph word
    let next := start + word.length
    if column + length ≤ width then
      breaks width fold next (column + word.length) words
    else if width < length then
      if fold then
        let pieces := (word.length + width - 1) / width
        let cuts := (List.range pieces).map (start + width * ·)
        cuts.filter (0 < ·) ++ breaks width fold next (word.length - width * (pieces - 1)) words
      else
        (if 0 < start then [start] else []) ++ breaks width fold next word.length words
    else if 0 < column && 0 < start then
      start :: breaks width fold next word.length words
    else breaks width fold next column words

/-- The pieces of a line between the given offsets. -/
def cutAt (passed : Nat) (line : List α) : List Nat → List (List α)
  | [] => [line]
  | offset ::
      offsets => line.take (offset - passed) :: cutAt offset (line.drop (offset - passed)) offsets

/-- A line without trailing blanks beyond a width. -/
def trimBeyond (width : Nat) (line : List α) : List α :=
  let blanks := (line.reverse.takeWhile fun a => Text.isBlank (glyph a)).length
  line.take (line.length - min blanks (line.length - width))

/-- The lines of a text at line feeds. -/
def splitLines : List α → List (List α)
  | [] => [[]]
  | a :: rest =>
    if glyph a == '\n' then [] :: splitLines rest
    else match splitLines rest with
      | line :: more => (a :: line) :: more
      | [] => [[a]]

/-- Blanks in place of tabs, up to the next multiple of eight columns. -/
def expandTabs (blank : α → α) : (column : Nat) → List α → List α
  | _, [] => []
  | column, a :: rest =>
    if glyph a == '\t' then
      let count := 8 - column % 8
      List.replicate count (blank a) ++ expandTabs blank (column + count) rest
    else a :: expandTabs blank (column + 1) rest

/-- The lines of a text, wrapped to a width of at least one. -/
def wrap (blank : α → α) (width : Nat) (fold : Bool) (text : List α) : List (List α) :=
  (splitLines glyph text).flatMap fun line =>
    let line := expandTabs glyph blank 0 line
    let words := wordsFrom glyph (line.length + 1) line
    (cutAt 0 line (breaks glyph width fold 0 0 words)).map (trimBeyond glyph width)

/-- The lines of some runs, wrapped to a width; words that are too long are cut. -/
def wrapRuns (width : Nat) (runs : List Run) : List (List Run) :=
  let characters := (runs.flatMap Run.characters)
  (wrap (·.2) (fun (style, _) => (style, ' ')) width true characters).map fun line =>
    Run.ofCharacters (line.take width)

/-- A line cut off at a width, with an ellipsis as its last character. -/
def ellipsize (width : Nat) (line : List Char) : List Char :=
  if line.length ≤ width then line else line.take (width - 1) ++ ['…']

/-- The lines of a text in a column.  Words that are too long are cut with `fold`, else cut off. -/
def wrapCell (width : Nat) (fold : Bool) (text : String) : List String :=
  (wrap id (fun _ => ' ') width fold text.toList).map fun line =>
    String.ofList (if fold then line.take width else ellipsize width line)

end Markflow.Terminal
