import Markflow.Proofs.Builtin.Conversion
import Markflow.Proofs.Document.Sealed
import Markflow.Proofs.Text.BlankLines

/-!
# Emphasis on the two sides of a blank line

The body of a span does not go on over a blank line, so no span begins above it and ends below.  Nor
does a blank line make a difference to the spans on either side: whether a body goes on is decided
by what stands before the marks that close it, and the line feeds at the two ends are none of the
characters that may not stand around a span.  So a pass of emphasis changes the text above a blank
line and the text below it each on its own.
-/

namespace Markflow.Builtin

open Regex

/-- A blank line with the line feeds around it. -/
def IsSeparator (separator : List Char) : Prop :=
  ∃ blanks, separator = '\n' :: (blanks ++ ['\n']) ∧ ∀ c ∈ blanks, Text.isBlank c = true

theorem inked_emphasisMarks :
    ∀ marks ∈ emphasisMarks, marks ≠ [] ∧ ∀ c ∈ marks, Text.isBlank c = false := by
  decide

section Rest

variable {kind : Builtin} {marks body rest rest' text : List Char}

theorem opensBlankLine_append {c : Char} (ink : Text.isBlank c = false) (text rest : List Char) :
    opensBlankLine (text ++ c :: rest) = opensBlankLine text := by
  rw [opensBlankLine, List.takeWhile_append, List.takeWhile_cons_of_neg (by simp [ink])]
  split
  · next whole =>
      rw [List.append_nil, opensBlankLine, (List.takeWhile_prefix Text.isBlank).eq_of_length whole]
  · rfl

/-- Whether a body goes on is decided before the marks that close it. -/
theorem goesOn_append (isEmphasis : kind ∈ emphasis) (isMarks : marks ∈ emphasisMarks) (c : Char)
    (text rest rest' : List Char) :
    kind.goesOn c (text ++ (marks ++ rest)) = kind.goesOn c (text ++ (marks ++ rest')) := by
  rcases inked_emphasisMarks marks isMarks with ⟨marks_ne, inked⟩
  rcases List.exists_cons_of_ne_nil marks_ne with ⟨m, more, rfl⟩
  have ink := inked m List.mem_cons_self
  rcases emphasis_cases isEmphasis with rfl | rfl | rfl <;>
    simp [goesOn, pairedPasses, singlePasses, opensBlankLine_append ink, List.head?_append]

theorem passed_of_rest (isEmphasis : kind ∈ emphasis) (isMarks : marks ∈ emphasisMarks)
    (passed : Passed kind.goesOn body (marks ++ rest)) (rest' : List Char) :
    Passed kind.goesOn body (marks ++ rest') := by
  induction body with
  | nil => trivial
  | cons c body ih => exact ⟨goesOn_append isEmphasis isMarks c body rest rest' ▸ passed.1,
      ih passed.2⟩

/-- What stands behind a span matters only when it begins with a character that may not. -/
theorem IsSpan.of_rest (isSpan : kind.IsSpan marks body rest) (isEmphasis : kind ∈ emphasis)
    (isMarks : marks ∈ emphasisMarks)
    (same : rest'.head?.any (CharSet.holds ⟨kind.barredAfter, false, .exact⟩) =
      rest.head?.any (CharSet.holds ⟨kind.barredAfter, false, .exact⟩)) :
      kind.IsSpan marks body rest' := by
  have shortest := isSpan.shortest
  refine ⟨isSpan.starts, shortest.nonempty, passed_of_rest isEmphasis isMarks shortest.passed rest',
    ?_, ?_⟩
  · have closed := shortest.closed
    rwa [endsSpan, ← same] at closed
  · intro shorter after split shorter_ne isShorter
    rcases Text.exists_more split (Nat.le_of_lt isShorter) with ⟨more, rfl, after_eq⟩
    have more_lt : 0 < more.length := by
      rw [List.length_append] at isShorter
      exact Nat.lt_of_add_lt_add_left isShorter
    -- The marks behind the shorter body end before the closing marks, so the same characters follow
    -- them.
    rw [← List.append_assoc more] at after_eq
    rcases Text.exists_more after_eq.symm (by simp) with ⟨between, between_eq, rfl⟩
    have between_ne : between ≠ [] := by
      rintro rfl
      have lengths := congrArg List.length between_eq
      simp only [List.length_append, List.length_nil] at lengths
      omega
    have missed := shortest.least shorter (between ++ rest) (by
      rw [List.append_assoc, ← List.append_assoc more, between_eq, List.append_assoc])
        shorter_ne isShorter
    rcases List.exists_cons_of_ne_nil between_ne with ⟨c, between, rfl⟩
    exact missed

end Rest

section Separator

variable {kind : Builtin} {marks body rest separator : List Char}

theorem not_goesOn_newline (isEmphasis : kind ∈ emphasis) {blanks : List Char}
    (blank : ∀ c ∈ blanks, Text.isBlank c = true)
    (below : List Char) : kind.goesOn '\n' (blanks ++ '\n' :: below) = false := by
  have opens : opensBlankLine (blanks ++ '\n' :: below) = true := by
    rw [opensBlankLine, List.takeWhile_append_of_pos blank,
      List.takeWhile_cons_of_pos Text.isBlank_newline]
    simp
  rcases emphasis_cases isEmphasis with
    rfl | rfl | rfl <;> simp [goesOn, pairedPasses, singlePasses, opens]

/-- No span goes on over a blank line. -/
theorem IsSpan.not_across (isSpan : kind.IsSpan marks body rest) (isEmphasis : kind ∈ emphasis)
    (isMarks : marks ∈ emphasisMarks) {back blanks below more : List Char}
    (blank : ∀ c ∈ blanks, Text.isBlank c = true)
    (within : marked marks body = back ++ '\n' :: more) :
    more ++ rest ≠ blanks ++ '\n' :: below := by
  have inked := (inked_emphasisMarks marks isMarks).2
  have newline_not_mem : '\n' ∉ marks := by
    intro mem
    have ink := inked '\n' mem
    rw [Text.isBlank_newline] at ink
    cases ink
  intro behind
  rcases Text.exists_of_append_eq within with ⟨_, marks_eq, -⟩ | ⟨front, -, inside⟩
  · exact newline_not_mem (by simp [marks_eq])
  rcases Text.exists_of_append_eq inside with ⟨after, body_eq, rfl⟩ | ⟨_, -, marks_eq⟩
  swap
  · exact newline_not_mem (by simp [marks_eq])
  have passed := isSpan.shortest.passed
  rw [body_eq, passed_append] at passed
  have goes := passed.2.1
  rw [← List.append_assoc, behind, not_goesOn_newline isEmphasis blank] at goes
  cases goes

theorem newline_not_barred (isEmphasis : kind ∈ emphasis) :
    CharSet.holds ⟨kind.barredBefore, false, .exact⟩ '\n' = false ∧
      CharSet.holds ⟨kind.barredAfter, false, .exact⟩ '\n' = false := by
  revert isEmphasis
  cases kind <;> decide

/-- The spans above a blank line are those that are there without what is below. -/
theorem exists_span_iff (isEmphasis : kind ∈ emphasis) (isMarks : marks ∈ emphasisMarks)
    (separates : IsSeparator separator) (back below body : List Char) :
    (∃ rest, back ++ (separator ++ below) = marked marks body ++ rest ∧
      kind.IsSpan marks body rest) ↔
      ∃ rest, back = marked marks body ++ rest ∧ kind.IsSpan marks body rest := by
  rcases separates with ⟨blanks, rfl, blank⟩
  have same : ∀ rest : List Char,
      (rest ++ ('\n' :: (blanks ++ ['\n']) ++ below)).head?.any
        (CharSet.holds ⟨kind.barredAfter, false, .exact⟩) =
        rest.head?.any (CharSet.holds ⟨kind.barredAfter, false, .exact⟩) := by
    intro rest
    rcases rest with _ | ⟨c, rest⟩
    · exact (newline_not_barred isEmphasis).2
    · rfl
  constructor
  · rintro ⟨rest, split, isSpan⟩
    by_cases within : (marked marks body).length ≤ back.length
    · rcases Text.exists_more split within with ⟨more, back_eq, rfl⟩
      exact ⟨more, back_eq, isSpan.of_rest isEmphasis isMarks (same more).symm⟩
    · rcases Text.exists_more split.symm (by omega) with ⟨more, marked_eq, below_eq⟩
      rcases more with _ | ⟨c, more⟩
      · rw [List.append_nil] at marked_eq
        exact absurd (Nat.le_of_eq (congrArg List.length marked_eq)) within
      · rcases List.cons.inj below_eq with ⟨rfl, behind⟩
        have same : more ++ rest = blanks ++ '\n' :: below := by simpa using behind.symm
        exact absurd same (isSpan.not_across isEmphasis isMarks blank marked_eq)
  · rintro ⟨rest, rfl, isSpan⟩
    exact ⟨_, List.append_assoc _ rest _, isSpan.of_rest isEmphasis isMarks (same rest)⟩

/-- A match above a blank line is one without what is below. -/
theorem findAt?_above (isEmphasis : kind ∈ emphasis) (separates : IsSeparator separator)
    (before back below : List Char) :
    kind.regex.findAt? before (back ++ (separator ++ below)) = kind.regex.findAt? before back := by
  have spans := fun marks (isMarks : marks ∈ emphasisMarks) body =>
    exists_span_iff isEmphasis isMarks separates back below body
  apply Option.ext
  intro found
  rcases emphasis_cases isEmphasis with rfl | rfl | rfl
  · have noSpan : ∀ body,
        (∀ rest, back ++ (separator ++ below) = marked ['*', '*', '*'] body ++ rest →
        ¬ bold.IsSpan ['*', '*', '*'] body rest) ↔
          ∀ rest, back = marked ['*', '*', '*'] body ++ rest →
            ¬ bold.IsSpan ['*', '*', '*'] body rest := by
      intro body
      simpa only [not_exists, not_and] using not_congr (spans ['*', '*', '*'] (by decide) body)
    rw [findAt?_bold, findAt?_bold]
    simp only [noSpan]
    simp only [← and_assoc, exists_and_right, spans ['*', '*', '*'] (by decide),
      spans ['*', '*'] (by decide)]
  · rw [findAt?_italic, findAt?_italic]
    simp only [← and_assoc, exists_and_right, spans ['*'] (by decide)]
  · rw [findAt?_strikethrough, findAt?_strikethrough]
    simp only [← and_assoc, exists_and_right, spans ['~', '~'] (by decide)]

/-- Of what stands before a match only a character that may not stand there matters. -/
theorem findAt?_of_before (isEmphasis : kind ∈ emphasis) {before before' : List Char}
    (same : before.head?.any (CharSet.holds ⟨kind.barredBefore, false, .exact⟩) =
      before'.head?.any (CharSet.holds ⟨kind.barredBefore, false, .exact⟩)) (after : List Char) :
    kind.regex.findAt? before after = kind.regex.findAt? before' after := by
  apply Option.ext
  intro found
  rcases emphasis_cases isEmphasis with rfl | rfl | rfl
  · rw [findAt?_bold, findAt?_bold, same]
  · rw [findAt?_italic, findAt?_italic, same]
  · rw [findAt?_strikethrough, findAt?_strikethrough, same]

theorem IsSeparator.blank (separates : IsSeparator separator) :
    ∀ c ∈ separator, Text.isBlank c = true := by
  rcases separates with ⟨blanks, rfl, blank⟩
  intro c mem
  simp only [List.mem_cons, List.mem_append, List.not_mem_nil, or_false] at mem
  rcases mem with rfl | inBlanks | rfl
  · exact Text.isBlank_newline
  · exact blank c inBlanks
  · exact Text.isBlank_newline

theorem rewrite_separator (isEmphasis : kind ∈ emphasis) (separates : IsSeparator separator)
    (before below : List Char) :
    kind.regex.rewrite kind.written before (separator ++ below) =
      separator ++ kind.regex.rewrite kind.written (separator.reverse ++ before) below := by
  apply rewrite_of_no_mark
  rintro front back rfl back_ne isMark
  rcases inked_emphasisMarks kind.mark (mark_mem_emphasisMarks isEmphasis) with ⟨mark_ne, inked⟩
  rcases List.exists_cons_of_ne_nil mark_ne with ⟨m, marks, mark_eq⟩
  rcases List.exists_cons_of_ne_nil back_ne with ⟨c, more, rfl⟩
  rw [mark_eq] at isMark inked
  have same : m = c := (List.cons_prefix_cons.mp isMark).1
  have ink := inked m List.mem_cons_self
  rw [same, separates.blank c (by simp)] at ink
  cases ink

/-- Below a blank line a pass starts anew. -/
theorem rewrite_below (isEmphasis : kind ∈ emphasis) (separates : IsSeparator separator)
    (above below : List Char) :
    kind.regex.rewrite kind.written (separator.reverse ++ above) below = kind.pass below := by
  have same : ∀ front back : List Char, below = front ++ back → back ≠ [] →
      kind.regex.findAt? (front.reverse ++ (separator.reverse ++ above)) (back ++ []) =
        kind.regex.findAt? (front.reverse ++ []) back := by
    intro front back _ _
    rw [List.append_nil back]
    apply findAt?_of_before isEmphasis
    rcases front.reverse with _ | ⟨c, others⟩
    · rcases separates with ⟨blanks, rfl, -⟩
      simpa using (newline_not_barred isEmphasis).1
    · rfl
  rw [← List.append_nil below, rewrite_append_of_findAt?_eq (consumes_regex kind) same, rewrite_nil,
    List.append_nil, List.append_nil, pass]

/-- A pass of emphasis changes the texts above and below a blank line each on its own. -/
theorem pass_separated (isEmphasis : kind ∈ emphasis) (separates : IsSeparator separator)
    (above below : List Char) :
    kind.pass (above ++ (separator ++ below)) =
      kind.pass above ++ (separator ++ kind.pass below) := by
  have same : ∀ front back : List Char, above = front ++ back → back ≠ [] →
      kind.regex.findAt? (front.reverse ++ []) (back ++ (separator ++ below)) =
        kind.regex.findAt? (front.reverse ++ []) back :=
    fun front back _ _ => findAt?_above isEmphasis separates (front.reverse ++ []) back below
  rw [pass, rewrite_append_of_findAt?_eq (consumes_regex kind) same,
    rewrite_separator isEmphasis separates, rewrite_below isEmphasis separates, ← pass]

end Separator

/-- Emphasis never crosses a blank line: a run on two texts with a blank line between them gives
what the runs on each of them give. -/
theorem apply_emphasis_separated [Host] {ρ σ : Type} (call : Caller ρ σ) {kind : Builtin}
    (isEmphasis : kind ∈ emphasis)
    {separator : String} (separates : IsSeparator separator.toList) (above below : String)
    (state : σ) :
    ∃ first second, ((kind.definition : Definition ρ).apply call above).Gives state first state ∧
      ((kind.definition : Definition ρ).apply call below).Gives state second state ∧
      ((kind.definition : Definition ρ).apply call (above ++ separator ++ below)).Gives state
        (first ++ separator ++ second)
        state := by
  refine ⟨_, _, gives_apply call kind above state, gives_apply call kind below state, ?_⟩
  have gives := gives_apply call kind (above ++ separator ++ below) state
  rw [String.toList_append, String.toList_append, List.append_assoc,
    pass_separated isEmphasis separates] at gives
  rw [String.ofList_append, String.ofList_append, String.ofList_toList,
    ← String.append_assoc] at gives
  exact gives

attribute [local instance] Host.standard

/-- The marks of the two texts would belong together without the blank line between them. -/
theorem apply_emphasis_separated_bold :
    bold ∈ emphasis ∧ IsSeparator "\n \n".toList ∧
      ∃ first second, ((bold.definition : Definition Empty).apply noCaller "**a *b*").Gives
        () first () ∧
        ((bold.definition : Definition Empty).apply noCaller "c** **d**").Gives () second () ∧
        ((bold.definition : Definition Empty).apply noCaller
          ("**a *b*" ++ "\n \n" ++ "c** **d**")).Gives ()
          (first ++ "\n \n" ++ second) () := by
  have isEmphasis : bold ∈ emphasis := by decide
  have separates : IsSeparator "\n \n".toList := ⟨[' '], rfl, by decide⟩
  exact ⟨isEmphasis, separates, apply_emphasis_separated noCaller isEmphasis separates "**a *b*"
    "c** **d**" ()⟩

end Markflow.Builtin
