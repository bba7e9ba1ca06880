import Markflow.Proofs.Builtin.Conversion
import Markflow.Proofs.Passes.Wrapping

/-!
# The scan for paragraphs

What the pass of paragraphs does to the lines of a text, said without its expression.  Blank lines
and lines that open a block are kept, and each run of other lines becomes one line
(`ParagraphScan`).  So the lines of the text go in groups, in their order, into the lines of the
result; none of these gets into a paragraph, and a second pass changes nothing.
-/

namespace Markflow.Builtin

/-- A text spells a name where letter case is ignored. -/
def Spells (name text : List Char) : Prop :=
  List.Forall₂ (fun letter c => (Regex.CharSet.single .unicode letter.toNat).holds c = true) name
    text

/-- A line opens, behind spaces and tabs, with a comment or with the opening or closing tag of a
block element, whose name is followed by white space, a slash, a closing bracket or the end of the
line. -/
def OpensBlock (line : List Char) : Prop :=
  ∃ gap rest, line = gap ++ rest ∧ (∀ c ∈ gap, c = ' ' ∨ c = '\t') ∧
    ("<!--".toList <+: rest ∨
      ∃ slash tag name tail, rest = '<' :: (slash ++ (name ++ tail)) ∧
        (slash = [] ∨ slash = ['/']) ∧ tag ∈ blockTags ∧
        Spells tag.toList name ∧ ∀ c ∈ tail.head?, Text.isBlank c = true ∨ c = '/' ∨ c = '>')

/-- A line that gets into a paragraph: it is not blank and opens no block. -/
def IsText (line : List Char) : Prop :=
  Text.hasInk line = true ∧ ¬ OpensBlock line

/-- The line that some lines of text become. -/
def paragraphOf (run : List (List Char)) : List Char :=
  "<p>".toList ++ Text.join [' '] (run.map Text.strip) ++ "</p>".toList

/-- What a scan for paragraphs makes of some lines. -/
inductive ParagraphScan : List (List Char) → List (List Char) → Prop
  | done : ParagraphScan [] []
  | keep {line : List Char} {more out : List (List Char)} (apart : ¬ IsText line)
      (below : ParagraphScan more out) :
      ParagraphScan (line :: more) (line :: out)
  | paragraph {run rest out : List (List Char)} (run_ne : run ≠ [])
      (text : ∀ line ∈ run, IsText line)
      (ends : ∀ line ∈ rest.head?, ¬ IsText line) (below : ParagraphScan rest out) :
      ParagraphScan (run ++ rest) (paragraphOf run :: out)

/-- Some lines that follow each other become one line: a single line that is kept, or lines of
text. -/
inductive Becomes : List (List Char) → List Char → Prop
  | keep {line : List Char} (apart : ¬ IsText line) : Becomes [line] line
  | paragraph {run : List (List Char)} (run_ne : run ≠ []) (text : ∀ line ∈ run, IsText line) :
      Becomes run (paragraphOf run)

section OpensBlock

variable {name text rest line : List Char}

theorem afterTagName?_eq_some :
    afterTagName? name text = some rest ↔ ∃ front, text = front ++ rest ∧ Spells name front := by
  induction name generalizing text with
  | nil =>
    constructor
    · intro after
      cases after
      exact ⟨[], rfl, .nil⟩
    · rintro ⟨front, rfl, spells⟩
      cases spells
      rfl
  | cons letter name ih =>
    constructor
    · intro after
      rcases text with _ | ⟨c, text⟩
      · cases after
      · rw [afterTagName?] at after
        split at after
        case isFalse => cases after
        case isTrue holds =>
          rcases ih.mp after with ⟨front, rfl, spells⟩
          exact ⟨c :: front, rfl, .cons holds spells⟩
    · rintro ⟨front, rfl, spells⟩
      cases spells with
      | cons holds spells =>
        rw [List.cons_append, afterTagName?, if_pos holds]
        exact ih.mpr ⟨_, rfl, spells⟩

theorem startsWithBlockTag_iff : startsWithBlockTag text = true ↔
    ∃ tag name tail, text = name ++ tail ∧ tag ∈ blockTags ∧ Spells tag.toList name ∧
      ∀ c ∈ tail.head?, Text.isBlank c = true ∨ c = '/' ∨ c = '>' := by
  rw [startsWithBlockTag, List.any_eq_true]
  constructor
  · rintro ⟨tag, mem, ends⟩
    split at ends
    · next after =>
      rcases afterTagName?_eq_some.mp after with ⟨name, text_eq, spells⟩
      exact ⟨tag, name, [], text_eq, mem, spells, by simp⟩
    · next c rest after =>
      rcases afterTagName?_eq_some.mp after with ⟨name, text_eq, spells⟩
      exact ⟨tag, name, c :: rest, text_eq, mem, spells, by simpa [or_assoc] using ends⟩
    · cases ends
  · rintro ⟨tag, name, tail, text_eq, mem, spells, ends⟩
    refine ⟨tag, mem, ?_⟩
    rw [afterTagName?_eq_some.mpr ⟨name, text_eq, spells⟩]
    rcases tail with _ | ⟨c, tail⟩
    · rfl
    · simpa [or_assoc] using ends

theorem isBlockLine_iff : isBlockLine line = true ↔ OpensBlock line := by
  constructor
  · intro block
    have gap_all : ∀ c ∈ line.takeWhile isSpaceOrTab, c = ' ' ∨ c = '\t' := by
      intro c mem
      exact isSpaceOrTab_iff.mp (List.mem_takeWhile_imp mem)
    refine ⟨line.takeWhile isSpaceOrTab, line.dropWhile isSpaceOrTab,
      List.takeWhile_append_dropWhile.symm, gap_all, ?_⟩
    unfold isBlockLine at block
    split at block
    · next rest_eq =>
      left
      rw [rest_eq]
      exact List.prefix_append "<!--".toList _
    · next rest rest_eq =>
      right
      rcases startsWithBlockTag_iff.mp block with ⟨tag, name, tail, rfl, mem, spells, ends⟩
      exact ⟨['/'], tag, name, tail, rest_eq, .inr rfl, mem, spells, ends⟩
    · next rest _ _ rest_eq =>
      right
      rcases startsWithBlockTag_iff.mp block with ⟨tag, name, tail, rfl, mem, spells, ends⟩
      exact ⟨[], tag, name, tail, rest_eq, .inl rfl, mem, spells, ends⟩
    · cases block
  · rintro ⟨gap, rest, rfl, gap_all, opens⟩
    have all_gap : ∀ c ∈ gap, isSpaceOrTab c = true := by
      intro c mem
      exact isSpaceOrTab_iff.mpr (gap_all c mem)
    have gap_eq : ∀ text, (gap ++ '<' :: text).dropWhile isSpaceOrTab = '<' :: text := by
      intro text
      exact Text.dropWhile_cut all_gap (Text.stops_cons.mpr (by decide))
    rcases opens with ⟨comment, rfl⟩ | ⟨slash, tag, name, tail, rfl, slash_eq, mem, spells, ends⟩
    · unfold isBlockLine
      rw [show gap ++ ("<!--".toList ++ comment) = gap ++ '<' :: ('!' :: '-' :: '-' :: comment) from
        rfl, gap_eq]
      rfl
    · have starts := startsWithBlockTag_iff.mpr ⟨tag, name, tail, rfl, mem, spells, ends⟩
      unfold isBlockLine
      rw [gap_eq]
      rcases slash_eq with rfl | rfl
      · -- No name of a block element begins with a slash, so the first character tells the two
        -- kinds of tags apart.
        have noSlash : ∀ text, startsWithBlockTag ('/' :: text) = false := fun _ => rfl
        rw [List.nil_append]
        split
        · rfl
        · next text_eq =>
          rcases List.cons.inj text_eq with ⟨-, text_eq⟩
          rw [text_eq, noSlash] at starts
          cases starts
        · next text_eq =>
          rcases List.cons.inj text_eq with ⟨-, rfl⟩
          exact starts
        · next other => exact absurd rfl (other _)
      · exact starts

theorem isTextLine_iff : isTextLine line = true ↔ IsText line := by
  rw [isTextLine, IsText, ← isBlockLine_iff]
  simp

theorem isTextLine_eq_false_iff : isTextLine line = false ↔ ¬ IsText line := by
  rw [← isTextLine_iff, Bool.not_eq_true]

end OpensBlock

section Scan

variable {ls result run rest : List (List Char)}

theorem paragraphLine_map_strip (run_ne : run ≠ []) :
    paragraphLine (run.map Text.strip) = [paragraphOf run] :=
  paragraphLine_of_ne_nil (by simpa using run_ne)

/-- Lines that wait become a paragraph where the text goes on with another kind of line or ends. -/
theorem wrapRuns_of_ends (ends : ∀ line ∈ rest.head?, ¬ IsText line) (pending : List (List Char)) :
    wrapRuns pending rest = paragraphLine pending ++ wrapRuns [] rest := by
  rcases rest with _ | ⟨line, more⟩
  · exact (List.append_nil _).symm
  · have other := isTextLine_eq_false_iff.mpr (ends line rfl)
    rw [wrapRuns_of_not_isTextLine other, wrapRuns_of_not_isTextLine other]
    rfl

theorem wrapRuns_append_of_ends (run_ne : run ≠ []) (text : ∀ line ∈ run, IsText line)
    (ends : ∀ line ∈ rest.head?, ¬ IsText line) :
    wrapRuns [] (run ++ rest) = paragraphOf run :: wrapRuns [] rest := by
  rw [wrapRuns_append_of_isTextLine fun line mem => isTextLine_iff.mpr (text line mem),
    List.nil_append, wrapRuns_of_ends ends, paragraphLine_map_strip run_ne, List.singleton_append]

theorem paragraphScan_iff : ParagraphScan ls result ↔ wrapRuns [] ls = result := by
  constructor
  · intro scan
    induction scan with
    | done => rfl
    | keep apart below ih =>
      rw [wrapRuns_of_not_isTextLine (isTextLine_eq_false_iff.mpr apart), ih]
      rfl
    | paragraph run_ne text ends below ih => rw [wrapRuns_append_of_ends run_ne text ends, ih]
  · rintro rfl
    induction sized : ls.length using Nat.strongRecOn generalizing ls with
    | _ size ih =>
      rcases ls with _ | ⟨line, more⟩
      · exact .done
      by_cases text : IsText line
      · have run_text : ∀ other ∈ (line :: more).takeWhile isTextLine, IsText other := by
          intro other mem
          exact isTextLine_iff.mp (List.mem_takeWhile_imp mem)
        have ends : ∀ other ∈ ((line :: more).dropWhile isTextLine).head?, ¬ IsText other := by
          intro other mem
          have stops := List.head?_dropWhile_not isTextLine (line :: more)
          rw [Option.mem_def.mp mem] at stops
          exact isTextLine_eq_false_iff.mp stops
        have run_ne : (line :: more).takeWhile isTextLine ≠ [] := by
          rw [List.takeWhile_cons_of_pos (isTextLine_iff.mpr text)]
          exact List.cons_ne_nil _ _
        have shorter : ((line :: more).dropWhile isTextLine).length < size := by
          rw [List.dropWhile_cons_of_pos (isTextLine_iff.mpr text), ← sized, List.length_cons]
          exact Nat.lt_succ_of_le (List.dropWhile_suffix isTextLine).length_le
        have scan := ParagraphScan.paragraph run_ne run_text ends (ih _ shorter rfl)
        rwa [← wrapRuns_append_of_ends run_ne run_text ends, List.takeWhile_append_dropWhile]
          at scan
      · rw [wrapRuns_of_not_isTextLine (isTextLine_eq_false_iff.mpr text)]
        exact .keep text (ih more.length (by rw [← sized]; exact Nat.lt_succ_self _) rfl)

theorem opensBlock_paragraphOf (run : List (List Char)) : OpensBlock (paragraphOf run) := by
  have tag : "p" ∈ blockTags := by decide
  have ends : (Text.isBlank '>' || '>' == '/' || '>' == '>') = true := by decide
  exact isBlockLine_iff.mp
    (isBlockLine_tag tag (Text.join [' '] (run.map Text.strip) ++ "</p>".toList) ends)

/-- No line that a scan for paragraphs writes is a line of text. -/
theorem ParagraphScan.apart (scan : ParagraphScan ls result) : ∀ line ∈ result, ¬ IsText line := by
  induction scan with
  | done =>
    intro line mem
    cases mem
  | keep apart below ih =>
    intro line mem
    rcases List.mem_cons.mp mem with rfl | mem
    · exact apart
    · exact ih line mem
  | @paragraph run rest out run_ne text ends below ih =>
    intro line mem
    rcases List.mem_cons.mp mem with rfl | mem
    · exact fun isText => isText.2 (opensBlock_paragraphOf run)
    · exact ih line mem

theorem ParagraphScan.of_apart (apart : ∀ line ∈ ls, ¬ IsText line) : ParagraphScan ls ls := by
  induction ls with
  | nil => exact .done
  | cons line more ih =>
    exact .keep (apart line List.mem_cons_self)
      (ih fun other mem => apart other (List.mem_cons_of_mem line mem))

theorem ParagraphScan.exists_groups (scan : ParagraphScan ls result) :
    ∃ groups, groups.flatten = ls ∧ List.Forall₂ Becomes groups result := by
  induction scan with
  | done => exact ⟨[], rfl, .nil⟩
  | @keep line more out apart below ih =>
    rcases ih with ⟨groups, rfl, becomes⟩
    exact ⟨[line] :: groups, rfl, .cons (.keep apart) becomes⟩
  | @paragraph run rest out run_ne text ends below ih =>
    rcases ih with ⟨groups, rfl, becomes⟩
    exact ⟨run :: groups, rfl, .cons (.paragraph run_ne text) becomes⟩

end Scan

/-- A run of paragraphs scans a text for paragraphs.  The lines of the text go in groups, in their
order, into the lines of the result, of which all that are not blank open a block; a second run
changes nothing. -/
theorem apply_paragraphs [Host] {ρ σ : Type} (call : Caller ρ σ) (text : String) (state : σ) :
    ∃ html, ((paragraphs.definition : Definition ρ).apply call text).Gives state html state ∧
      (∀ result, ParagraphScan (Text.lines text.toList) result ↔ Text.lines html.toList = result) ∧
      (∃ groups, groups.flatten = Text.lines text.toList ∧
        List.Forall₂ Becomes groups (Text.lines html.toList)) ∧
      (∀ line ∈ Text.lines html.toList, Text.hasInk line = true → OpensBlock line) ∧
      ((paragraphs.definition : Definition ρ).apply call html).Gives state html state := by
  have scans : ∀ text result, ParagraphScan (Text.lines text) result ↔
      Text.lines (paragraphs.pass text) = result := by
    intro text result
    rw [paragraphScan_iff, lines_pass_paragraphs]
  have scan := (scans text.toList _).mpr rfl
  refine ⟨_, gives_apply call paragraphs text state, ?_⟩
  rw [String.toList_ofList]
  refine ⟨scans text.toList, scan.exists_groups, ?_, ?_⟩
  · intro line mem ink
    by_contra other
    exact scan.apart line mem ⟨ink, other⟩
  · have again := (scans (paragraphs.pass text.toList) _).mp (.of_apart scan.apart)
    have settled : paragraphs.pass (paragraphs.pass text.toList) = paragraphs.pass text.toList := by
      rw [← Text.join_lines (paragraphs.pass (paragraphs.pass text.toList)), again, Text.join_lines]
    have ran := gives_apply call paragraphs (String.ofList (paragraphs.pass text.toList)) state
    rwa [String.toList_ofList, settled] at ran

end Markflow.Builtin
