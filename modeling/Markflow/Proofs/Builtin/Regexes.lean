import Markflow.Builtin.Definitions
import Markflow.Proofs.Regex.Extent
import Markflow.Proofs.Regex.Room

/-!
# The expressions of the built-in transforms

`Builtin.regex` is what reading the pattern of a built-in transform gives, which is the expression
that all statements about the transform start from (`compile_definition`).
-/

namespace Markflow.Builtin

open Regex Regex.Node

/-- One character. -/
def only (c : Char) : CharSet :=
  .single .exact c.toNat

/-- One given character. -/
def lit (c : Char) : Node :=
  one (only c)

/-- Any character but one. -/
def allBut (c : Char) : CharSet :=
  ⟨[.code c.toNat], true, .exact⟩

/-- Spaces and tabs. -/
def gapSet : CharSet :=
  ⟨[.code 0x20, .code 0x09], false, .exact⟩

/-- White space. -/
def blankSet : CharSet :=
  ⟨[.kind .blank false true], false, .exact⟩

/-- What is not white space. -/
def inkSet : CharSet :=
  ⟨[.kind .blank false false], false, .exact⟩

/-- White space within a line. -/
def lineBlankSet : CharSet :=
  ⟨[.kind .blank false false, .code 0x0A], true, .exact⟩

/-- As many as possible, and maybe none. -/
def many (set : CharSet) : Node :=
  loop .greedy 0 none (one set)

/-- As many as possible, and at least one. -/
def some1 (set : CharSet) : Node :=
  loop .greedy 1 none (one set)

/-- Once or not at all. -/
def optional (node : Node) : Node :=
  loop .greedy 0 (some 1) node

/-- At most three spaces. -/
def indent : Node :=
  loop .greedy 0 (some 3) (lit ' ')

/-- The rest of a line, and its line feed if it has one. -/
def lineRest : Node :=
  seq (many (allBut '\n')) (seq (anchor .lineEnd) (optional (lit '\n')))

/-- A mark `least` times or more, with spaces and tabs behind each. -/
def ruleRun (least : Nat) (mark : Char) : Node :=
  loop .greedy least none (seq (lit mark) (many gapSet))

/-- The characters of an info word. -/
def infoSet : CharSet :=
  ⟨[.kind .word false true, .code 0x23, .code 0x2B, .code 0x2E, .code 0x2D], false, .exact⟩

/-- A line that closes a fence. -/
def fenceEnd : Node :=
  seq (lit '\x60') (seq (lit '\x60') (seq (lit '\x60') (seq (many gapSet)
    (seq (optional (lit '\r')) (anchor .lineEnd)))))

/-- A line feed that no blank line follows. -/
def softBreak : Node :=
  seq (lit '\n') (ahead false (seq (many blankSet) (lit '\n')))

/-- A character between paired marks. -/
def pairedStep (mark : Char) : Node :=
  either (one ⟨[.code mark.toNat, .code 0x0A], true, .exact⟩)
    (either (seq (lit mark) (ahead false (lit mark))) softBreak)

/-- A character between single asterisks. -/
def singleStep : Node :=
  either (one ⟨[.code 0x2A, .code 0x0A], true, .exact⟩) softBreak

/-- A span: what may not stand before it, its marks, its body as a group and what may not follow. -/
def span (barred : List SetItem) (marks : List Char) (notFirst : Char) (index : Nat) (step : Node)
    (barredAfter : List SetItem) : Node :=
  sequence ([behind false 1 (one ⟨barred, false, .exact⟩)] ++ marks.map lit ++
    [ahead true (one ⟨[.kind .blank false true, .code notFirst.toNat], true, .exact⟩),
      group index (loop .lazy 1 none step), behind true 1 (one inkSet)] ++ marks.map lit ++
    [ahead false (one ⟨barredAfter, false, .exact⟩)])

/-- The target of a link or an image, whose groups are the second and the third. -/
def target : List Node :=
  [lit '(', group 2 (some1 ⟨[.code 0x29, .kind .blank false true], true, .exact⟩),
    optional (sequence [some1 gapSet, lit '"', group 3 (many (allBut '"')), lit '"']), lit ')']

/-- The expression of a built-in transform. -/
def node : Builtin → Node
  | codeBlocks => sequence [anchor .lineStart, lit '\x60', lit '\x60', lit '\x60', many gapSet,
      optional (group 1 (some1 infoSet)), many gapSet, optional (lit '\r'), lit '\n',
      group 2
        (loop .lazy 0 none
          (one ⟨[.kind .blank false true, .kind .blank false false], false, .exact⟩)),
      anchor .lineStart, fenceEnd]
  | headers => sequence [anchor .lineStart, group 1 (loop .greedy 1 (some 6) (lit '#')),
      some1 gapSet, group 2 (loop .lazy 1 none (one .allButNewline)),
      optional (seq (some1 gapSet) (some1 (only '#'))), many gapSet, anchor .lineEnd]
  | horizontalRule => sequence [anchor .lineStart, indent,
      choice [ruleRun 3 '-', ruleRun 3 '*', ruleRun 3 '_'], anchor .lineEnd]
  | unorderedList => loop .greedy 1 none (sequence [anchor .lineStart, indent,
      one ⟨[.code 0x2A, .code 0x2B, .code 0x2D], false, .exact⟩, some1 gapSet,
      one inkSet, lineRest])
  | orderedList => loop .greedy 1 none (sequence [anchor .lineStart, indent,
      loop .greedy 1 (some 9) (one ⟨[.kind .digit false true], false, .exact⟩),
      one ⟨[.code 0x2E, .code 0x29], false, .exact⟩, some1 gapSet, one inkSet, lineRest])
  | blockquote => loop .greedy 1 none (sequence [anchor .lineStart, indent, lit '>', lineRest])
  | inlineCode => sequence [behind false 1 (lit '\x60'), group 1 (some1 (only '\x60')),
      ahead false (lit '\x60'), group 2 (loop .lazy 1 none (one .allButNewline)),
      behind false 1 (lit '\x60'), sameAs 1 .exact, ahead false (lit '\x60')]
  | images => sequence ([lit '!', lit '[', group 1 (many (allBut ']')), lit ']'] ++ target)
  | links => sequence ([behind false 1 (lit '!'), lit '[', group 1 (some1 (allBut ']')), lit ']'] ++
      target)
  | bold =>
    choice [span [.code 0x5C, .code 0x2A] ['*', '*', '*'] '*' 1 (pairedStep '*') [.code 0x2A],
      span [.code 0x5C, .code 0x2A] ['*', '*'] '*' 2 (pairedStep '*') [.code 0x2A]]
  | italic => span [.kind .word false true, .code 0x5C, .code 0x2A] ['*'] '*' 1 singleStep
      [.kind .word false true, .code 0x2A]
  | strikethrough => span [.code 0x5C, .code 0x7E] ['~', '~'] '~' 1 (pairedStep '~') [.code 0x7E]
  | paragraphs => group 1 (sequence [many lineBlankSet, one inkSet, many (allBut '\n'),
      loop .greedy 0 none (sequence [lit '\n', many lineBlankSet, one inkSet, many (allBut '\n')])])

/-- The names of the groups of a built-in transform, in order. -/
def groupNames : Builtin → List String
  | codeBlocks => ["lang", "code"]
  | headers => ["hashes", "text"]
  | inlineCode => ["ticks", "code"]
  | images => ["alt", "url", "title"]
  | links => ["text", "url", "title"]
  | bold => ["combined", "text"]
  | italic | strikethrough | paragraphs => ["text"]
  | horizontalRule | unorderedList | orderedList | blockquote => []

/-- The expression of a built-in transform with its groups. -/
def regex (kind : Builtin) : Regex :=
  ⟨kind.node, kind.groupNames.length, kind.groupNames.zipIdx 1⟩

/-- The pattern of a built-in transform is read alike on every host. -/
theorem read?_pattern [Host] (kind : Builtin) :
    Regex.read? kind.flags.mode (Spelling.expand kind.pattern.toList) = .ok kind.regex := by
  apply read?_of_scant
  cases kind <;> decide +kernel

theorem read_flags (kind : Builtin) : Flags.read (.text kind.flags.letters) = .ok kind.flags := by
  cases kind <;> rfl

/-- The pattern of a built-in transform can be read, as the expression of the transform. -/
theorem compile_definition [Host] {ρ : Type} (kind : Builtin) :
    (kind.definition : Definition ρ).compile = .ok ⟨kind.pattern, kind.flags, kind.regex⟩ := by
  simp only [definition, Definition.compile, Pattern.compile, read_flags, Pattern.ofFlags,
    read?_pattern]

/-- No built-in transform has an empty match. -/
theorem consumes_regex (kind : Builtin) : kind.regex.root.consumes = true := by
  cases kind <;> rfl

theorem isGlobal_flags (kind : Builtin) : kind.flags.has .everywhere = true := by
  cases kind <;> rfl

end Markflow.Builtin
