import Markflow.Proofs.Builtin.Conversion
import Markflow.Proofs.Document.BlockPasses
import Markflow.Proofs.Document.Plain
import Markflow.Proofs.Passes.Inline

/-!
# Conversion of canonical documents

The passes go over a document of blocks one transform after another.  At each stage the blocks of
the transforms that have run are HTML and the others are as they were written (`Block.stage`), and
no inline transform finds a mark of its own.  The document converts to the HTML of its blocks
(`convert_blocks`).
-/

namespace Markflow

open Builtin

namespace Block

/-- The lines of a block when the transforms up to a number have run. -/
def stage (done : Nat) (block : Block) : List (List Char) :=
  if block.kind.rank < done then block.htmlLines else block.lines

theorem isPlain_join (phrases : List Phrase) :
    IsPlain (Text.join [' '] (phrases.map Phrase.text)) := by
  intro c mem
  rcases Text.mem_join mem with space | ⟨text, text_mem, inText⟩
  · obtain rfl : c = ' ' := by simpa using space
    decide
  · obtain ⟨phrase, _, rfl⟩ := List.mem_map.mp text_mem
    exact isPlain_text phrase c inText

theorem isPlain_toDigits (number : Nat) : IsPlain (Nat.toDigits 10 number) := by
  intro c mem
  have digit := Nat.isDigit_of_mem_toDigits (by decide) (by decide) mem
  by_contra foreign
  simp only [isForeign, Bool.not_eq_false, Bool.or_eq_true, beq_iff_eq] at foreign
  rcases foreign with ((((rfl | rfl) | rfl) | rfl) | rfl) | rfl <;> exact absurd digit (by decide)

theorem isPlain_startText (start : Nat) : IsPlain (startText start) := by
  by_cases one : start = 1
  · rw [startText, if_pos one]
    exact fun c mem => by simp at mem
  · rw [startText, if_neg one]
    exact (IsPlain.append (by decide) (isPlain_toDigits start)).append (by decide)

theorem isPlain_classText {info : List Char} (inLine : '\n' ∉ info) : IsPlain (classText info) := by
  by_cases none : info = []
  · rw [classText, if_pos none]
    exact fun c mem => by simp at mem
  · rw [classText, if_neg none]
    exact (IsPlain.append (by decide) (isPlain_attributeValue inLine)).append (by decide)

theorem isPlain_listHtml {opening closing : List Char} (opening_plain : IsPlain opening)
    (closing_plain : IsPlain closing)
    (items : List Phrase) : ∀ line ∈ htmlLines.listHtml opening items closing, IsPlain line := by
  intro line mem
  simp only [htmlLines.listHtml, List.cons_append, List.mem_cons, List.mem_append, List.mem_map,
    List.not_mem_nil, or_false] at mem
  rcases mem with rfl | ⟨item, _, rfl⟩ | rfl
  · exact opening_plain
  · exact (IsPlain.append (by decide) (isPlain_text item)).append (by decide)
  · exact closing_plain

/-- The HTML of a block has no line feeds within its lines and no marks of inline transforms. -/
theorem isPlain_of_mem_htmlLines {block : Block} {line : List Char} (mem : line ∈ block.htmlLines) :
    IsPlain line := by
  cases block with
  | header level text =>
    obtain rfl := List.mem_singleton.mp mem
    exact
      (((((IsPlain.append (by decide) (isPlain_toDigits _)).append (by decide)).append
        (isPlain_text text)).append
      (by decide)).append (isPlain_toDigits _)).append (by decide)
  | rule =>
    obtain rfl := List.mem_singleton.mp mem
    decide
  | bullets items => exact isPlain_listHtml (by decide) (by decide) items.val line mem
  | numbers start items few =>
    exact isPlain_listHtml
      ((IsPlain.append (by decide) (isPlain_startText start)).append (by decide)) (by decide)
      items.val line mem
  | quote lines =>
    obtain rfl := List.mem_singleton.mp mem
    exact (IsPlain.append (by decide) (isPlain_join lines.val)).append (by decide)
  | fence listing =>
    obtain rfl := List.mem_singleton.mp mem
    have noFeed : '\n' ∉ listing.info := fun mem => absurd (listing.info_all _ mem) (by decide)
    exact (((IsPlain.append (by decide) (isPlain_classText noFeed)).append (by decide)).append
      (isPlain_code listing.code (by simp))).append (by decide)
  | paragraph lines =>
    obtain rfl := List.mem_singleton.mp mem
    exact (IsPlain.append (by decide) (isPlain_join lines.val)).append (by decide)

theorem newline_not_mem_of_mem_lines {block : Block} {line : List Char} (mem : line ∈ block.lines) :
    '\n' ∉ line := by
  cases block with
  | header level text =>
    obtain rfl := List.mem_singleton.mp mem
    simp [text.newline_not_mem_text]
  | rule =>
    obtain rfl := List.mem_singleton.mp mem
    decide
  | bullets items =>
    obtain ⟨item, _, rfl⟩ := List.mem_map.mp mem
    simp [item.newline_not_mem_text]
  | numbers start items few =>
    obtain ⟨number, item, _, _, rfl⟩ := mem_numbered mem
    have digits : '\n' ∉ Nat.toDigits 10 number := fun inDigits =>
      absurd (isPlain_toDigits number _ inDigits) (by decide)
    simp [item.newline_not_mem_text, digits]
  | quote lines =>
    obtain ⟨text, _, rfl⟩ := List.mem_map.mp mem
    simp [text.newline_not_mem_text]
  | fence listing =>
    have info : '\n' ∉ listing.info := fun inInfo => absurd (listing.info_all _ inInfo) (by decide)
    simp only [lines, List.cons_append, List.mem_cons, List.mem_append, List.not_mem_nil,
      or_false] at mem
    rcases mem with rfl | mem | rfl
    · simp [info]
    · exact Text.newline_not_mem_of_mem_lines mem
    · decide
  | paragraph lines =>
    obtain ⟨text, _, rfl⟩ := List.mem_map.mp mem
    exact text.newline_not_mem_text

/-- Each transform that is for blocks turns its blocks into HTML and leaves the others as they
are. -/
theorem turns_stage (kind : Builtin) (block : Block) :
    Turns kind.blockTake (block.stage kind.rank) (block.stage (kind.rank + 1)) := by
  rcases Nat.lt_trichotomy block.kind.rank kind.rank with before | same | behind
  · rw [stage, stage, if_pos before, if_pos (by omega)]
    exact turns_html kind block
  · rw [stage, stage, if_neg (by omega), if_pos (by omega), ← rank_injective same]
    exact turns_own block
  · rw [stage, stage, if_neg (by omega), if_neg (by omega)]
    exact Turns.of_missed fun line mem => blockTake_of_earlier behind mem

theorem isBlock_kind (block : Block) : block.kind.isBlock = true := by
  cases block <;> rfl

theorem stage_ne_nil (done : Nat) (block : Block) : block.stage done ≠ [] := by
  unfold stage
  split
  · cases block <;> simp [htmlLines, htmlLines.listHtml]
  · cases block with
    | bullets items => simpa [lines] using items.property
    | numbers start items few => simpa [lines, numbered] using items.property
    | quote phrases => simpa [lines] using phrases.property
    | paragraph phrases => simpa [lines] using phrases.property
    | _ => simp [lines]

theorem newline_not_mem_of_mem_stage {done : Nat} {block : Block} {line : List Char}
    (mem : line ∈ block.stage done) :
    '\n' ∉ line := by
  unfold stage at mem
  split at mem
  · exact fun inLine => absurd (isPlain_of_mem_htmlLines mem _ inLine) (by decide)
  · exact newline_not_mem_of_mem_lines mem

/-- The block transforms but the one for paragraphs run before the inline transforms. -/
theorem rank_lt_of_inline {kind other : Builtin} (inline : kind.isBlock = false)
    (block : other.isBlock = true) (noParagraph : other ≠ paragraphs) : other.rank < kind.rank := by
  revert inline block noParagraph
  cases kind <;> cases other <;> decide

/-- Where the inline transforms run, the blocks but paragraphs are HTML. -/
theorem isPlain_of_mem_stage {kind : Builtin} (inline : kind.isBlock = false) {block : Block}
    {line : List Char} (mem : line ∈ block.stage kind.rank) : IsPlain line := by
  unfold stage at mem
  split at mem
  · exact isPlain_of_mem_htmlLines mem
  · next behind =>
    cases block with
    | paragraph phrases =>
      obtain ⟨text, _, rfl⟩ := List.mem_map.mp mem
      exact isPlain_text text
    | _ => exact absurd (rank_lt_of_inline inline (isBlock_kind _) (by simp [Block.kind])) behind

end Block

theorem mem_stack {blocks : List (List (List Char))} {line : List Char}
    (mem : line ∈ stack blocks) :
    line = [] ∨ ∃ block ∈ blocks, line ∈ block := by
  induction blocks with
  | nil => simp [stack] at mem
  | cons block more ih =>
    rcases more with _ | ⟨next, more⟩
    · exact .inr ⟨block, by simp, by simpa [stack] using mem⟩
    · rw [stack_cons_cons] at mem
      rcases List.mem_append.mp mem with mem | mem
      · exact .inr ⟨block, by simp, mem⟩
      · rcases List.mem_cons.mp mem with rfl | mem
        · exact .inl rfl
        · rcases ih mem with isEmpty | ⟨other, other_mem, inOther⟩
          · exact .inl isEmpty
          · exact .inr ⟨other, List.mem_cons_of_mem block other_mem, inOther⟩

/-- A document as a text when the transforms up to a number have run. -/
def stageText (done : Nat) (blocks : List Block) : List Char :=
  Text.join ['\n'] (stack (blocks.map (Block.stage done)))

/-- A transform takes a document from one stage to the next. -/
theorem pass_stageText (kind : Builtin) (blocks : List Block) :
    kind.pass (stageText kind.rank blocks) = stageText (kind.rank + 1) blocks := by
  by_cases blocks_ne : blocks = []
  · subst blocks_ne
    exact pass_nil kind
  by_cases isBlock : kind.isBlock = true
  · have inLine : ∀ line ∈ stack (blocks.map (Block.stage kind.rank)), '\n' ∉ line := by
      intro line mem
      rcases mem_stack mem with rfl | ⟨ls, ls_mem, inBlock⟩
      · simp
      · obtain ⟨block, _, rfl⟩ := List.mem_map.mp ls_mem
        exact Block.newline_not_mem_of_mem_stage inBlock
    have stack_ne : stack (blocks.map (Block.stage kind.rank)) ≠ [] := by
      obtain ⟨block, more, rfl⟩ := List.exists_cons_of_ne_nil blocks_ne
      have first := Block.stage_ne_nil kind.rank block
      rcases more with _ | ⟨next, more⟩
      · simpa [stack] using first
      · simp [stack_cons_cons]
    have turns : List.Forall₂ (Turns kind.blockTake) (blocks.map (Block.stage kind.rank))
        (blocks.map (Block.stage (kind.rank + 1))) := by
      rw [List.forall₂_map_left_iff, List.forall₂_map_right_iff, List.forall₂_same]
      exact fun block _ => Block.turns_stage kind block
    rw [pass_eq_lineScan isBlock, stageText, Text.lines_join inLine stack_ne,
      lineScan_stack (blockTake_nil kind) turns]
    rfl
  · have inline : kind.isBlock = false := by simpa using isBlock
    have same : blocks.map (Block.stage kind.rank) = blocks.map (Block.stage (kind.rank + 1)) := by
      apply List.map_congr_left
      intro block _
      have differs : block.kind.rank ≠ kind.rank := by
        have isBlock := block.isBlock_kind
        revert inline isBlock
        generalize block.kind = other
        cases kind <;> cases other <;> decide
      have sameRank : block.kind.rank < kind.rank ↔ block.kind.rank < kind.rank + 1 := by omega
      simp only [Block.stage, sameRank]
    obtain ⟨c, inMark, foreign⟩ : ∃ c ∈ kind.mark, c ≠ '\n' ∧ isForeign c = true := by
      revert inline
      cases kind <;> decide
    rw [pass_of_not_mem inMark, stageText, stageText, same]
    intro mem
    rcases Text.mem_join mem with newline | ⟨line, line_mem, inLine⟩
    · exact foreign.1 (by simpa using newline)
    · rcases mem_stack line_mem with rfl | ⟨ls, ls_mem, inBlock⟩
      · simp at inLine
      · obtain ⟨block, _, rfl⟩ := List.mem_map.mp ls_mem
        have plain := Block.isPlain_of_mem_stage inline inBlock c inLine
        simp [foreign.2] at plain

/-- A document of blocks converts to the HTML of the blocks, with a blank line between each two. -/
theorem convert_blocks [Host] (blocks : List Block) :
    convert {} (.text (String.ofList (Text.join ['\n', '\n'] (blocks.map Block.source)))) =
      .ok (String.ofList (Text.join ['\n', '\n'] (blocks.map Block.html))) := by
  have start : stageText 0 blocks = Text.join ['\n', '\n'] (blocks.map Block.source) := by
    rw [stageText, join_stack (by simpa using fun block _ => Block.stage_ne_nil 0 block),
      List.map_map]
    rfl
  have stop :
      stageText Builtin.all.length blocks = Text.join ['\n', '\n'] (blocks.map Block.html) := by
    rw [stageText, join_stack (by simpa using fun block _ => Block.stage_ne_nil _ block),
      List.map_map]
    congr 1
    apply List.map_congr_left
    intro block _
    have ran : block.kind.rank < Builtin.all.length := by
      generalize block.kind = kind
      cases kind <;> decide
    simp [Block.stage, Block.html, ran]
  have stages := @foldl_pass_of_stages (stageText · blocks) (pass_stageText · blocks)
  rw [convert_default, String.toList_ofList, ← start, ← stop]
  exact congrArg (fun text => Except.ok (String.ofList text)) stages

end Markflow
