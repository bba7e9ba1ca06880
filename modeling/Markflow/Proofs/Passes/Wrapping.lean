import Markflow.Proofs.Passes.Blocks
import Markflow.Proofs.Regex.Pieces
import Markflow.Proofs.Text.BlankLines

/-!
# Paragraphs around a piece of text

The pass of paragraphs goes over the lines of a text with a run of lines that wait (`wrapRuns`).  A
line of text joins the run, and a line that is blank or opens a block ends it and stays.  So the
lines above a run of lines of text and those below it are written as they are without it, save for
the paragraph that the run goes on with and the one that goes on with the run.  A piece of text
whose lines are all of this kind gets on one line with all of it.
-/

namespace Markflow

namespace Builtin

/-- A line that gets into a paragraph. -/
def isTextLine (line : List Char) : Bool :=
  Text.hasInk line && !isBlockLine line

/-- The lines of a text in paragraphs, where `pending` are those that wait for the end of their
paragraph. -/
def wrapRuns (pending : List (List Char)) : List (List Char) → List (List Char)
  | [] => paragraphLine pending
  | line :: more =>
    if isTextLine line then wrapRuns (pending ++ [Text.strip line]) more
    else paragraphLine pending ++ line :: wrapRuns [] more

section Runs

variable {pending run rest ls : List (List Char)} {line : List Char}

theorem wrapRuns_of_not_isTextLine (other : isTextLine line = false)
    (pending more : List (List Char)) :
    wrapRuns pending (line :: more) = paragraphLine pending ++ line :: wrapRuns [] more := by
  rw [wrapRuns, other]
  rfl

/-- In a run of lines that are not blank only the lines that open blocks are apart. -/
theorem wrapRuns_append_of_hasInk (inked : ∀ line ∈ run, Text.hasInk line = true)
    (ends : ∀ line ∈ rest.head?, Text.hasInk line = false) (pending : List (List Char)) :
    wrapRuns pending (run ++ rest) = wrapLines pending run ++ wrapRuns [] rest := by
  induction run generalizing pending with
  | nil =>
    rcases rest with _ | ⟨line, more⟩
    · exact (List.append_nil _).symm
    · have other : isTextLine line = false := by
        rw [isTextLine, ends line rfl]
        rfl
      rw [List.nil_append, wrapRuns_of_not_isTextLine other, wrapRuns_of_not_isTextLine other]
      rfl
  | cons line run ih =>
    have below := ih fun other mem => inked other (List.mem_cons_of_mem line mem)
    have ink := inked line List.mem_cons_self
    by_cases block : isBlockLine line = true
    · have other : isTextLine line = false := by simp [isTextLine, block]
      rw [List.cons_append, wrapRuns_of_not_isTextLine other, wrapLines, if_pos block, below]
      simp
    · have text : isTextLine line = true := by simp [isTextLine, ink, block]
      rw [List.cons_append, wrapRuns, if_pos text, wrapLines, if_neg block, below]

theorem lineScan_paragraphs (ls : List (List Char)) :
    lineScan paragraphs.blockTake ls = wrapRuns [] ls := by
  fun_induction lineScan paragraphs.blockTake ls with
  | case1 => rfl
  | case2 line more missed ih =>
    have other : isTextLine line = false := by
      rw [isTextLine, Bool.and_eq_false_iff]
      by_contra ink
      simp_all [blockTake, runTake]
    rw [wrapRuns_of_not_isTextLine other, ih]
    rfl
  | case3 line more out count taken ih =>
    simp only [blockTake, runTake] at taken
    split at taken
    case isFalse => cases taken
    case isTrue ink =>
      cases taken
      -- The run that is taken ends at a blank line or with the text, and there the lines that wait
      -- are written.
      have inked : ∀ other ∈ line :: more.takeWhile Text.hasInk, Text.hasInk other = true := by
        intro other mem
        rcases List.mem_cons.mp mem with rfl | mem
        · exact ink
        · exact List.mem_takeWhile_imp mem
      have ends : ∀ other ∈ (more.dropWhile Text.hasInk).head?, Text.hasInk other = false := by
        intro other mem
        have := List.head?_dropWhile_not Text.hasInk more
        rw [Option.mem_def.mp mem] at this
        simpa using this
      rw [Text.drop_length_takeWhile] at ih ⊢
      rw [ih, ← wrapRuns_append_of_hasInk inked ends, List.cons_append,
        List.takeWhile_append_dropWhile]

theorem newline_not_mem_wrapRuns (waiting : ∀ line ∈ pending, '\n' ∉ line)
    (inLine : ∀ line ∈ ls, '\n' ∉ line) :
    ∀ line ∈ wrapRuns pending ls, '\n' ∉ line := by
  induction ls generalizing pending with
  | nil => exact not_mem_paragraphLine (by decide) waiting
  | cons line more ih =>
    have line_in := inLine line List.mem_cons_self
    have more_in : ∀ other ∈ more, '\n' ∉ other := fun other mem =>
      inLine other (List.mem_cons_of_mem line mem)
    by_cases text : isTextLine line = true
    · rw [wrapRuns, if_pos text]
      apply ih _ more_in
      intro other mem
      rcases List.mem_append.mp mem with isWaiting | joins
      · exact waiting other isWaiting
      · rcases List.mem_singleton.mp joins with rfl
        exact fun mem => line_in (Text.strip_subset line mem)
    · rw [wrapRuns_of_not_isTextLine (eq_false_of_ne_true text)]
      intro other mem
      rcases List.mem_append.mp mem with flushed | rest
      · exact not_mem_paragraphLine (by decide) waiting other flushed
      · rcases List.mem_cons.mp rest with rfl | below
        · exact line_in
        · exact ih (fun _ none => absurd none List.not_mem_nil) more_in other below

/-- The lines that the pass of paragraphs writes. -/
theorem lines_pass_paragraphs (text : List Char) :
    Text.lines (paragraphs.pass text) = wrapRuns [] (Text.lines text) := by
  have lines_in : ∀ line ∈ Text.lines text, '\n' ∉ line :=
    fun _ => Text.newline_not_mem_of_mem_lines
  have inLine := newline_not_mem_wrapRuns (fun _ none => absurd none List.not_mem_nil) lines_in
  rw [← lineScan_paragraphs] at inLine
  rw [lines_pass rfl inLine, lineScan_paragraphs]

/-- What the lines above leave: the lines that are written, and those that wait. -/
theorem exists_wrapRuns_above (pending above : List (List Char)) :
    ∃ written waiting, ∀ ls, wrapRuns pending (above ++ ls) = written ++ wrapRuns waiting ls := by
  induction above generalizing pending with
  | nil => exact ⟨[], pending, fun _ => rfl⟩
  | cons line above ih =>
    by_cases text : isTextLine line = true
    · rcases ih (pending ++ [Text.strip line]) with ⟨written, waiting, above_eq⟩
      refine ⟨written, waiting, ?_⟩
      intro ls
      rw [List.cons_append, wrapRuns, if_pos text, above_eq]
    · rcases ih [] with ⟨written, waiting, above_eq⟩
      refine ⟨paragraphLine pending ++ line :: written, waiting, ?_⟩
      intro ls
      rw [List.cons_append, wrapRuns_of_not_isTextLine (eq_false_of_ne_true text), above_eq]
      simp

/-- What the lines below go on with: the lines that end the paragraph, and those that are written
behind it. -/
theorem exists_wrapRuns_below (below : List (List Char)) :
    ∃ next rest, ∀ pending, wrapRuns pending below = paragraphLine (pending ++ next) ++ rest := by
  induction below with
  | nil => exact ⟨[], [], fun pending => by rw [wrapRuns, List.append_nil, List.append_nil]⟩
  | cons line below ih =>
    by_cases text : isTextLine line = true
    · rcases ih with ⟨next, rest, below_eq⟩
      refine ⟨Text.strip line :: next, rest, ?_⟩
      intro pending
      rw [wrapRuns, if_pos text, below_eq, List.append_assoc, List.singleton_append]
    · refine ⟨[], line :: wrapRuns [] below, ?_⟩
      intro pending
      rw [wrapRuns_of_not_isTextLine (eq_false_of_ne_true text), List.append_nil]

theorem wrapRuns_append_of_isTextLine (run_text : ∀ line ∈ run, isTextLine line = true)
    (pending rest : List (List Char)) :
    wrapRuns pending (run ++ rest) = wrapRuns (pending ++ run.map Text.strip) rest := by
  induction run generalizing pending with
  | nil => rw [List.nil_append, List.map_nil, List.append_nil]
  | cons line run ih =>
    have below := ih fun other mem => run_text other (List.mem_cons_of_mem line mem)
    rw [List.cons_append, wrapRuns, if_pos (run_text line List.mem_cons_self), below]
    simp

end Runs

end Builtin

namespace Around

variable (around : Around)

/-- The lines above the piece. -/
def above : List (List Char) :=
  (Text.lines around.front).dropLast

/-- What stands before the piece on its first line. -/
def near : List Char :=
  (Text.lines around.front).getLastD []

/-- What stands behind the piece on its last line. -/
def far : List Char :=
  (Text.lines around.back).headD []

/-- The lines below the piece. -/
def below : List (List Char) :=
  (Text.lines around.back).tail

/-- The lines on which the piece stands. -/
def lines (piece : List Char) : List (List Char) :=
  Text.lines (around.near ++ (piece ++ around.far))

theorem lines_front : Text.lines around.front = around.above ++ [around.near] := by
  rcases Text.exists_lines_concat around.front with ⟨above, last, split⟩
  rw [Around.above, near, split]
  simp

theorem lines_back : Text.lines around.back = around.far :: around.below := by
  rcases Text.exists_lines_cons around.back with ⟨first, below, split⟩
  rw [far, Around.below, split]
  rfl

theorem newline_not_mem_near : '\n' ∉ around.near :=
  @Text.newline_not_mem_of_mem_lines around.front _ (by simp [lines_front])

theorem newline_not_mem_far : '\n' ∉ around.far :=
  @Text.newline_not_mem_of_mem_lines around.back _ (by simp [lines_back])

theorem lines_text (piece : List Char) :
    Text.lines (around.text piece) = around.above ++ (around.lines piece ++ around.below) := by
  have near_eq := Text.lines_of_inLine around.newline_not_mem_near
  have far_eq := Text.lines_of_inLine around.newline_not_mem_far
  rcases Text.exists_lines_cons (piece ++ around.back) with ⟨first, more, behind_eq⟩
  rcases Text.exists_lines_concat (around.near ++ piece) with ⟨others, last, before_eq⟩
  have down : Text.lines (around.text piece) =
      around.above ++ Text.lines (around.near ++ (piece ++ around.back)) := by
    have near_behind := @Text.lines_append around.near (piece ++ around.back) [] more around.near
      first near_eq behind_eq
    rw [text, Text.lines_append around.lines_front behind_eq, near_behind]
    rfl
  have up :
      Text.lines (around.near ++ (piece ++ around.back)) = around.lines piece ++ around.below := by
    rw [lines, ← List.append_assoc, ← List.append_assoc,
      Text.lines_append before_eq around.lines_back,
      Text.lines_append before_eq far_eq]
    simp
  rw [down, up]

theorem lines_of_inLine {piece : List Char} (inLine : '\n' ∉ piece) :
    around.lines piece = [around.near ++ (piece ++ around.far)] := by
  apply Text.lines_of_inLine
  exact List.not_mem_append around.newline_not_mem_near
    (List.not_mem_append inLine around.newline_not_mem_far)

end Around

namespace Builtin

/-- A piece of a text is on one line of the HTML.  The lines before it are written for what is above
the piece, without the paragraph that may wait there, and those behind it for what is below, without
the paragraph that this starts with. -/
def OnOneLine (around : Around) (piece html : List Char) : Prop :=
  ∃ written waiting line next rest, wrapRuns [] around.above = written ++ paragraphLine waiting ∧
    wrapRuns [] around.below = paragraphLine next ++ rest ∧
      Text.lines html = written ++ line :: rest ∧
      Text.unbroken piece <:+: line

section OnOneLine

variable {around : Around} {piece : List Char}

theorem paragraphLine_of_ne_nil {pending : List (List Char)} (pending_ne : pending ≠ []) :
    paragraphLine pending = ["<p>".toList ++ Text.join [' '] pending ++ "</p>".toList] := by
  rw [paragraphLine, if_neg (by simpa using pending_ne)]

/-- Lines of text are in one paragraph. -/
theorem onOneLine_of_isTextLine (trimmed : Text.Trimmed piece)
    (all : ∀ line ∈ around.lines piece, isTextLine line = true) :
    OnOneLine around piece (paragraphs.pass (around.text piece)) := by
  rcases exists_wrapRuns_above [] around.above with ⟨written, waiting, above_eq⟩
  rcases exists_wrapRuns_below around.below with ⟨next, rest, below_eq⟩
  have run_ne : (around.lines piece).map Text.strip ≠ [] := by
    simpa [Around.lines] using Text.lines_ne_nil _
  have alone := above_eq []
  rw [List.append_nil, wrapRuns] at alone
  have whole : Text.unbroken piece <:+: Text.join [' '] ((around.lines piece).map Text.strip) := by
    have lines_eq :=
      Text.unbroken_around trimmed around.newline_not_mem_near around.newline_not_mem_far
    exact ⟨_, _, (lines_eq.trans (List.append_assoc _ _ _).symm).symm⟩
  refine ⟨written, waiting,
    "<p>".toList ++ Text.join [' '] (waiting ++ (around.lines piece).map Text.strip ++ next) ++
      "</p>".toList, next, rest, alone,
    below_eq [], ?_, ?_⟩
  · rw [lines_pass_paragraphs, Around.lines_text, above_eq, wrapRuns_append_of_isTextLine all,
      below_eq, paragraphLine_of_ne_nil (by simp [run_ne])]
    rfl
  · have inRun := whole.trans (Text.infix_join run_ne waiting next)
    exact Text.infix_append_right _ (Text.infix_append_left _ inRun)

/-- A line that opens a block is as it is. -/
theorem onOneLine_of_isBlockLine (trimmed : Text.Trimmed piece) (inLine : '\n' ∉ piece)
    (block : isBlockLine (around.near ++ (piece ++ around.far)) = true) :
    OnOneLine around piece (paragraphs.pass (around.text piece)) := by
  rcases exists_wrapRuns_above [] around.above with ⟨written, waiting, above_eq⟩
  have alone := above_eq []
  rw [List.append_nil, wrapRuns] at alone
  have other : isTextLine (around.near ++ (piece ++ around.far)) = false := by
    simp [isTextLine, block]
  refine ⟨written ++ paragraphLine waiting, [], around.near ++ (piece ++ around.far), [],
    wrapRuns [] around.below, ?_, rfl, ?_, ?_⟩
  · rw [alone]
    exact (List.append_nil _).symm
  · rw [lines_pass_paragraphs, Around.lines_text, around.lines_of_inLine inLine, above_eq,
      List.singleton_append, wrapRuns_of_not_isTextLine other, List.append_assoc]
  · rw [Text.unbroken_eq_self trimmed inLine]
    exact ⟨around.near, around.far, List.append_assoc _ _ _⟩

/-- A piece within a line, and one without blank lines on lines of which none opens a block. -/
theorem onOneLine (trimmed : Text.Trimmed piece) (held : '\n' ∉ piece ∨
      ¬ Text.HasBlankLine piece ∧ ∀ line ∈ around.lines piece, isBlockLine line = false) :
    OnOneLine around piece (paragraphs.pass (around.text piece)) := by
  have inked : ¬ Text.HasBlankLine piece → ∀ line ∈ around.lines piece, Text.hasInk line = true :=
    fun whole _ =>
    Text.hasInk_of_mem_lines trimmed whole around.newline_not_mem_near around.newline_not_mem_far
  -- The first line on which the piece stands may open a block when it is the last one too.
  rcases held with inLine | ⟨whole, noBlock⟩
  · by_cases block : isBlockLine (around.near ++ (piece ++ around.far)) = true
    · exact onOneLine_of_isBlockLine trimmed inLine block
    · apply onOneLine_of_isTextLine trimmed
      intro line mem
      have ink := inked (Text.not_hasBlankLine inLine) line mem
      rw [around.lines_of_inLine inLine] at mem
      rcases List.mem_singleton.mp mem with rfl
      rw [isTextLine, ink, eq_false_of_ne_true block]
      rfl
  · apply onOneLine_of_isTextLine trimmed
    intro line mem
    rw [isTextLine, inked whole line mem, noBlock line mem]
    rfl

end OnOneLine

end Builtin

end Markflow
