import Markflow.Proofs.Builtin.Sets
import Markflow.Proofs.Passes.LineScan

/-!
# Horizontal rules

A rule is a line of its own: three marks or more, all the same, behind an indentation and with
spaces and tabs between them.
-/

namespace Markflow.Builtin

open Regex Regex.Node

/-- Whether a text consists of a mark and more of it, with spaces and tabs between and `least` of
them in all. -/
def isRuleRun (mark : Char) (least : Nat) (text : List Char) : Bool :=
  text.all (fun c => c == mark || isSpaceOrTab c) && text.head?.all (· == mark) &&
    decide (least ≤ text.count mark)

/-- Whether a line is a rule. -/
def isRule (line : List Char) : Bool :=
  match afterIndent? line with
  | some text => isRuleRun '-' 3 text || isRuleRun '*' 3 text || isRuleRun '_' 3 text
  | none => false

theorem isRuleRun_cons {mark : Char} {least : Nat} {gap rest : List Char}
    (gap_all : ∀ c ∈ gap, isSpaceOrTab c = true) (gap_stops : Text.Stops isSpaceOrTab rest)
    (isMark : isSpaceOrTab mark = false) :
    isRuleRun mark least (mark :: (gap ++ rest)) = isRuleRun mark (least - 1) rest := by
  have gap_count : gap.count mark = 0 := by
    rw [List.count_eq_zero]
    intro mem
    simp [gap_all mark mem] at isMark
  have gap_ok : gap.all (fun c => c == mark || isSpaceOrTab c) = true := by
    simpa using fun c mem => .inr (gap_all c mem)
  have counted :
      decide (least ≤ (mark :: (gap ++ rest)).count mark) =
        decide (least - 1 ≤ rest.count mark) := by
    simp only [List.count_cons_self, List.count_append, gap_count, decide_eq_decide]
    omega
  simp only [isRuleRun, counted, List.all_cons, List.all_append, gap_ok, beq_self_eq_true,
    Bool.true_or, Bool.true_and, List.head?_cons, Option.all_some, Bool.and_true]
  cases rest with
  | nil => simp
  | cons d rest =>
    have : isSpaceOrTab d = false := by simpa using gap_stops
    simp only [List.all_cons, this, Bool.or_false, List.head?_cons, Option.all_some]
    cases d == mark <;> simp

section Run

variable {mark : Char} {marks : List GroupMark}

/-- A run stands still where no mark comes next. -/
theorem ways_ruleRun_body {before after : List Char} (stops : Text.Stops (· == mark) after) :
    (seq (lit mark) (many gapSet)).ways ⟨.amid before after, marks⟩ = [] := by
  rcases after with _ | ⟨c, after⟩
  · simp [lit]
  · have : c ≠ mark := by simpa using stops
    simp [lit, this]

theorem flatMap_ruleRun_step (next : State → List State) (least : Nat) (s : State) :
    ((ruleRun least mark).ways s).flatMap next =
      (((seq (lit mark) (many gapSet)).ways s).flatMap fun t =>
        ((ruleRun (least - 1) mark).ways t).flatMap next) ++
        if least = 0 then next s else [] :=
  flatMap_greedy rfl next least s

variable (isMark : isSpaceOrTab mark = false) (isInLine : mark ≠ '\n') {tail : List Char}
  (closes : closesLine tail = true)

include isMark isInLine closes

/-- A run of marks up to the end of the line. -/
theorem flatMap_ruleRun (least : Nat) {before text : List Char} (inLine : '\n' ∉ text) :
    ((ruleRun least mark).ways ⟨.amid before (text ++ tail), marks⟩).flatMap
      (anchor .lineEnd).ways =
      if isRuleRun mark least text then [⟨.amid (text.reverse ++ before) tail, marks⟩] else [] := by
  induction sized : text.length using Nat.strongRecOn generalizing before text least with
  | _ size ih =>
    have tail_stops : Text.Stops (· == mark) tail :=
      stops_of_closesLine (by simpa using isInLine.symm) closes
    rw [flatMap_ruleRun_step]
    rcases text with _ | ⟨c, text⟩
    · rw [List.nil_append, ways_ruleRun_body tail_stops]
      by_cases none_required : least = 0 <;> simp [isRuleRun, none_required, closes]
    have here :
        (if least = 0 then (anchor .lineEnd).ways ⟨.amid before (c :: text ++ tail), marks⟩
          else []) = [] := by
      have : c ≠ '\n' := by
        rintro rfl
        exact inLine (by simp)
      simp [this]
    by_cases c_eq : c = mark
    · subst c_eq
      obtain ⟨gap, rest, rfl, gap_all, gap_stops⟩ := Text.exists_cut isSpaceOrTab text
      have refused : ∀ (before : List Char) (d : Char) (after : List Char), isSpaceOrTab d = true →
          ((ruleRun (least - 1) c).ways ⟨.amid before (d :: after), marks⟩).flatMap
            (anchor .lineEnd).ways = [] := by
        intro before d after holds
        have d_ne : d ≠ c := by
          rintro rfl
          simp [isMark] at holds
        have := ne_newline_of_isSpaceOrTab holds
        rw [flatMap_ruleRun_step, ways_ruleRun_body (by simpa using d_ne)]
        simp [this]
      have below :
          ((seq (lit c) (many gapSet)).ways ⟨.amid before (c :: (gap ++ rest) ++ tail),
            marks⟩).flatMap
          (fun t => ((ruleRun (least - 1) c).ways t).flatMap (anchor .lineEnd).ways) =
            ((ruleRun (least - 1) c).ways ⟨.amid (gap.reverse ++ c :: before) (rest ++ tail),
              marks⟩).flatMap
              (anchor .lineEnd).ways := by
        have gap_tail := gap_stops.append (stops_of_closesLine isSpaceOrTab_newline closes)
        rw [ways_seq, List.flatMap_assoc]
        simp only [lit, List.cons_append, ways_one_cons, holds_only, beq_self_eq_true, if_true,
          List.flatMap_cons, List.flatMap_nil, List.append_nil, List.append_assoc]
        exact flatMap_many (by simpa using refused) (by simpa using gap_all)
          (by simpa using gap_tail)
      have shorter : rest.length < size := by
        simp only [List.length_cons, List.length_append] at sized
        omega
      rw [below, ih rest.length shorter (least - 1) (by simp_all) rfl, here, List.append_nil,
        isRuleRun_cons gap_all gap_stops isMark]
      simp
    · rw [ways_ruleRun_body (by simpa using c_eq), here]
      simp [isRuleRun, c_eq]

end Run

/-- The three runs that make a rule. -/
def ruleBody : Node :=
  seq (either (ruleRun 3 '-') (either (ruleRun 3 '*') (ruleRun 3 '_'))) (anchor .lineEnd)

theorem ways_ruleBody {before text tail : List Char} {marks : List GroupMark}
    (closes : closesLine tail = true) (inLine : '\n' ∉ text) :
    (ruleBody.ways ⟨.amid before (text ++ tail), marks⟩).head? =
      if isRuleRun '-' 3 text || isRuleRun '*' 3 text || isRuleRun '_' 3 text then
        some ⟨.amid (text.reverse ++ before) tail, marks⟩
      else none := by
  simp only [ruleBody, ways_seq, ways_either, List.flatMap_append,
    flatMap_ruleRun (show isSpaceOrTab '-' = false from rfl) (by decide) closes 3 inLine,
    flatMap_ruleRun (show isSpaceOrTab '*' = false from rfl) (by decide) closes 3 inLine,
    flatMap_ruleRun (show isSpaceOrTab '_' = false from rfl) (by decide) closes 3 inLine]
  cases isRuleRun '-' 3 text <;> cases isRuleRun '*' 3 text <;> cases isRuleRun '_' 3 text <;> rfl

theorem ways_ruleBody_space {before after : List Char} {marks : List GroupMark} :
    ruleBody.ways ⟨.amid before (' ' :: after), marks⟩ = [] := by
  have stuck : ∀ mark : Char, mark ≠ ' ' →
      ((ruleRun 3 mark).ways ⟨.amid before (' ' :: after), marks⟩).flatMap
      (anchor .lineEnd).ways = [] := by
    intro mark differs
    rw [flatMap_ruleRun_step, ways_ruleRun_body (by simpa using differs.symm)]
    simp
  simp only [ruleBody, ways_seq, ways_either, List.flatMap_append, stuck '-' (by decide),
    stuck '*' (by decide), stuck '_' (by decide), List.append_nil]

/-- A rule is read where a line starts, and it is the whole line. -/
theorem findAt?_horizontalRule {before line tail : List Char} (closes : closesLine tail = true)
    (inLine : '\n' ∉ line) :
    horizontalRule.regex.findAt? before (line ++ tail) =
      if opensLine before = true ∧ isRule line = true then some ⟨line, []⟩ else none := by
  by_cases opens : opensLine before = true
  · have opened : horizontalRule.regex.root.ways
        (.begin (.amid before (line ++ tail)) horizontalRule.regex.groupCount) =
          (indent.ways ⟨.amid before (line ++ tail), []⟩).flatMap ruleBody.ways := by
      simp [regex, node, Node.sequence, choice, groupNames, ruleBody, State.begin, opens]
    rw [flatMap_indent (fun _ _ => ways_ruleBody_space) closes] at opened
    rcases indented : afterIndent? line with _ | text
    · rw [findAt?_eq_none_of_ways (by simpa [indented] using opened)]
      simp [isRule, indented]
    · have line_eq := eq_append_of_afterIndent? indented
      have rule_eq :
          isRule line = (isRuleRun '-' 3 text || isRuleRun '*' 3 text || isRuleRun '_' 3 text) := by
        simp [isRule, indented]
      generalize line.takeWhile (· == ' ') = spaces at line_eq opened
      subst line_eq
      have text_in : '\n' ∉ text := fun mem => inLine (List.mem_append_right _ mem)
      have first := congrArg List.head? opened
      rw [indented, Option.elim_some, ways_ruleBody closes text_in, ← rule_eq] at first
      by_cases rule : isRule (spaces ++ text) = true
      · rw [if_pos ⟨opens, rule⟩]
        exact findAt?_of_head? (by simpa [rule] using first) .nil rfl
      · rw [if_neg (by simp [rule])]
        exact findAt?_eq_none_of_ways (by simpa [rule] using first)
  · rw [findAt?_of_lineStart rfl _ _ (by simpa using opens), if_neg (by simp [opens])]

/-- The pass over rules at a line. -/
def ruleTake : Take :=
  fun line _ => if isRule line then some (["<hr>".toList], 0) else none

theorem scansLines_horizontalRule :
    ScansLines horizontalRule.regex horizontalRule.written ruleTake where
  consumes := consumes_regex horizontalRule
  noBreak := by
    intro before after
    have nothing := @findAt?_horizontalRule before [] ('\n' :: after) (by simp)
      (by simp)
    simpa [isRule, afterIndent?, isRuleRun] using nothing
  missed := by
    intro before line more opens line_in _ missed
    apply findAt?_within_line (findAt?_of_lineStart rfl) line_in
    rw [findAt?_horizontalRule (closesLine_lineTail more) line_in]
    simpa [ruleTake, opens] using missed
  nonempty := by
    rintro line more out count taken
    obtain ⟨_, rfl, _⟩ : isRule line = true ∧ ["<hr>".toList] = out ∧ 0 = count := by
      simpa [ruleTake] using taken
    simp
  taken := by
    rintro before line more out count opens line_in _ taken
    obtain ⟨rule, rfl, rfl⟩ : isRule line = true ∧ ["<hr>".toList] = out ∧ 0 = count := by
      simpa [ruleTake] using taken
    refine ⟨_, by
      rw [findAt?_horizontalRule (closesLine_lineTail more) line_in, if_pos ⟨opens, rule⟩],
        .inl ⟨?_, ?_⟩⟩
    · simp [Text.join]
    · simp [written, render, Text.join]

end Markflow.Builtin
