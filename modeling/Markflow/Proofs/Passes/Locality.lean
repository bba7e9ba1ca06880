import Markflow.Proofs.Passes.Headers
import Markflow.Proofs.Passes.Rules
import Markflow.Proofs.Scans.CodeSpans

/-!
# Passes that change each line on its own

Headers, rules and code spans stand within a line.  Their expressions see the line feed around a
line as they see the end of a text: where a line starts and ends they find what they find in that
line alone (`SeesLine`).  So no match of one line takes anything of another line or stands in the
way of its matches, and a pass of one of these transforms over lines gives what it makes of each of
them.
-/

namespace Markflow

open Regex

/-- What an expression finds at a place of a line does not depend on the lines above and below. -/
def SeesLine (regex : Regex) : Prop :=
  ∀ ⦃before front back tail : List Char⦄, opensLine before = true → closesLine tail = true →
    '\n' ∉ back →
    regex.findAt? (front ++ before) (back ++ tail) = regex.findAt? front back

/-- Within a line a line starts where it starts in the line alone. -/
theorem opensLine_append {before : List Char} (opens : opensLine before = true)
    (front : List Char) :
    opensLine (front ++ before) = opensLine front := by
  cases front with
  | nil => exact opens
  | cons c front => rfl

namespace SeesLine

variable {regex : Regex} {write : Found → List Char} {before line tail : List Char}

/-- No match begins with a line feed. -/
theorem findAt?_newline (sees : SeesLine regex) (consumes : regex.root.consumes = true)
    (before below : List Char) :
    regex.findAt? before ('\n' :: below) = none := by
  have nothing : regex.findAt? before [] = none := by
    rcases found_eq : regex.findAt? before [] with _ | found
    · rfl
    · rcases findAt?_eq_some consumes found_eq with ⟨found_ne, rest, split⟩
      exact absurd (List.append_eq_nil_iff.mp split.symm).1 found_ne
  have same := @sees [] before [] ('\n' :: below) opensLine_nil rfl List.not_mem_nil
  rwa [List.append_nil, List.nil_append, nothing] at same

/-- A line is changed as the line alone is. -/
theorem rewrite_line (sees : SeesLine regex) (consumes : regex.root.consumes = true)
    (opens : opensLine before = true) (closes : closesLine tail = true) (inLine : '\n' ∉ line) :
    regex.rewrite write before (line ++ tail) =
      regex.rewrite write [] line ++ regex.rewrite write (line.reverse ++ before) tail := by
  apply rewrite_append_of_findAt?_eq consumes
  rintro front back rfl -
  have back_inLine : '\n' ∉ back := fun mem => inLine (List.mem_append_right front mem)
  rw [List.append_nil]
  exact sees opens closes back_inLine

/-- A pass over lines changes each of them as if it were the whole text. -/
theorem rewrite_join (sees : SeesLine regex) (consumes : regex.root.consumes = true)
    {lines : List (List Char)}
    (inLine : ∀ line ∈ lines, '\n' ∉ line) {before : List Char} (opens : opensLine before = true) :
    regex.rewrite write before (Text.join ['\n'] lines) =
      Text.join ['\n'] (lines.map (regex.rewrite write [])) := by
  induction lines generalizing before with
  | nil => exact rewrite_nil before
  | cons line more ih =>
    have line_inLine := inLine line List.mem_cons_self
    have more_inLine : ∀ other ∈ more, '\n' ∉ other := fun other mem =>
      inLine other (List.mem_cons_of_mem line mem)
    have below : ∀ before, regex.rewrite write before (Text.lineTail more) =
        Text.lineTail (more.map (regex.rewrite write [])) := by
      intro before
      by_cases last : more = []
      · rw [last]
        exact rewrite_nil before
      · have written_ne : more.map (regex.rewrite write []) ≠ [] := fun none =>
          last (List.map_eq_nil_iff.mp none)
        rw [Text.lineTail_eq_cons_join last,
          rewrite_of_none (sees.findAt?_newline consumes before _),
          ih more_inLine rfl, Text.lineTail_eq_cons_join written_ne]
    rw [Text.join_cons, sees.rewrite_line consumes opens (closesLine_lineTail more) line_inLine,
      below, List.map_cons, Text.join_cons]

end SeesLine

namespace Builtin

/-- The transforms whose matches stand within a line. -/
def withinLines : List Builtin :=
  [headers, horizontalRule, inlineCode]

theorem seesLine_headers : SeesLine headers.regex := by
  intro before front back tail opens closes inLine
  have alone := @findAt?_headers front back [] closesLine_nil inLine
  rw [List.append_nil] at alone
  rw [findAt?_headers closes inLine, opensLine_append opens, alone]

theorem seesLine_horizontalRule : SeesLine horizontalRule.regex := by
  intro before front back tail opens closes inLine
  have alone := @findAt?_horizontalRule front back [] closesLine_nil inLine
  rw [List.append_nil] at alone
  rw [findAt?_horizontalRule closes inLine, opensLine_append opens, alone]

/-- A backtick stands before a place within a line where one stands there in the line alone. -/
theorem tick_before_iff {before : List Char} (opens : opensLine before = true) (front : List Char) :
    (front ++ before).head? = some '\x60' ↔ front.head? = some '\x60' := by
  rcases front with _ | ⟨c, front⟩
  · rcases before with _ | ⟨c, before⟩
    · rfl
    · rw [opensLine_cons, beq_iff_eq] at opens
      subst opens
      exact iff_of_false (by simp) (by simp)
  · rfl

/-- What follows the line does not matter to a code span. -/
theorem isCode_append_iff {count : Nat} {content rest tail : List Char}
    (closes : closesLine tail = true) :
    IsCode count content (rest ++ tail) ↔ IsCode count content rest := by
  have apart_iff : (rest ++ tail).head? ≠ some '\x60' ↔ rest.head? ≠ some '\x60' := by
    rcases rest with _ | ⟨c, rest⟩
    · exact iff_of_true (apart_of_closesLine closes) (by simp)
    · rfl
  rw [isCode_iff, isCode_iff, apart_iff]

theorem seesLine_inlineCode : SeesLine inlineCode.regex := by
  intro before front back tail opens closes _
  apply Option.ext
  intro found
  rw [findAt?_inlineCode, findAt?_inlineCode, ne_eq, tick_before_iff opens]
  apply and_congr_right
  intro _
  constructor
  · rintro ⟨count, content, rest, split, isCode, found_eq⟩
    have ticks_inLine := newline_not_mem_tickRun count
    have span_inLine : '\n' ∉ marked (tickRun count) content := by
      simp [marked, ticks_inLine, isCode.newline_not_mem]
    rcases exists_more_of_closesLine span_inLine closes split with ⟨more, back_eq, rfl⟩
    exact ⟨count, content, more, back_eq, (isCode_append_iff closes).mp isCode, found_eq⟩
  · rintro ⟨count, content, rest, rfl, isCode, found_eq⟩
    exact ⟨count, content, rest ++ tail, List.append_assoc _ rest tail,
      (isCode_append_iff closes).mpr isCode, found_eq⟩

theorem seesLine_regex {kind : Builtin} (isWithin : kind ∈ withinLines) : SeesLine kind.regex := by
  simp only [withinLines, List.mem_cons, List.not_mem_nil, or_false] at isWithin
  rcases isWithin with rfl | rfl | rfl
  · exact seesLine_headers
  · exact seesLine_horizontalRule
  · exact seesLine_inlineCode

/-- A pass of a transform whose matches stand within a line changes each line on its own. -/
theorem pass_join {kind : Builtin} (isWithin : kind ∈ withinLines) {lines : List (List Char)}
    (inLine : ∀ line ∈ lines, '\n' ∉ line) :
    kind.pass (Text.join ['\n'] lines) = Text.join ['\n'] (lines.map kind.pass) :=
  SeesLine.rewrite_join (seesLine_regex isWithin) (consumes_regex kind) inLine opensLine_nil

/-- A run of a transform whose matches stand within a line, over lines with line feeds between them,
gives what its runs on each of the lines give, with line feeds between. -/
theorem apply_intercalate [Host] {ρ σ : Type} (call : Caller ρ σ) {kind : Builtin}
    (isWithin : kind ∈ withinLines)
    {lines : List String} (inLine : ∀ line ∈ lines, '\n' ∉ line.toList) (state : σ) :
    ∃ results,
      List.Forall₂
      (fun line result => ((kind.definition : Definition ρ).apply call line).Gives state
        result state)
        lines results ∧
      ((kind.definition : Definition ρ).apply call ("\n".intercalate lines)).Gives state
        ("\n".intercalate results) state := by
  have feed : "\n".toList = ['\n'] := rfl
  let results := lines.map fun line => String.ofList (kind.pass line.toList)
  have chars_eq : results.map String.toList = (lines.map String.toList).map kind.pass := by
    simp [results]
  have chars_inLine : ∀ line ∈ lines.map String.toList, '\n' ∉ line := by
    simpa using inLine
  have joined : String.ofList (kind.pass ("\n".intercalate lines).toList) =
      "\n".intercalate results := by
    rw [String.ext_iff, String.toList_ofList, String.toList_intercalate, String.toList_intercalate,
      feed, Text.intercalate_eq_join, Text.intercalate_eq_join, pass_join isWithin chars_inLine,
      chars_eq]
  refine ⟨results, ?_, ?_⟩
  · rw [List.forall₂_map_right_iff, List.forall₂_same]
    exact fun line _ => gives_apply call kind line state
  · rw [← joined]
    exact gives_apply call kind ("\n".intercalate lines) state

attribute [local instance] Host.standard

/-- The backticks of the first two lines would belong together without the line feed between
them. -/
theorem apply_intercalate_ticks :
    inlineCode ∈ withinLines ∧ (∀ line ∈ ["`a", "b` ``c``", "", "`d`"], '\n' ∉ line.toList) ∧
      ∃ results, List.Forall₂
          (fun line result => ((inlineCode.definition : Definition Empty).apply noCaller line).Gives
            () result ())
          ["`a", "b` ``c``", "", "`d`"] results ∧
        ((inlineCode.definition : Definition Empty).apply noCaller
          ("\n".intercalate ["`a", "b` ``c``", "", "`d`"])).Gives ()
          ("\n".intercalate results) () := by
  have isWithin : inlineCode ∈ withinLines := by decide
  have inLine : ∀ line ∈ ["`a", "b` ``c``", "", "`d`"], '\n' ∉ line.toList := by decide
  exact ⟨isWithin, inLine, apply_intercalate noCaller isWithin inLine ()⟩

end Builtin

end Markflow
