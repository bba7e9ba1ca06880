import Markflow.Proofs.Builtin.Pass
import Markflow.Proofs.Builtin.Sets

/-!
# Inline passes

Every match of an inline transform begins with a mark of its own.  So a text without the mark is
left alone.
-/

namespace Markflow.Builtin

open Regex Regex.Node

/-- The characters that the matches of an inline transform begin with. -/
def mark : Builtin → List Char
  | inlineCode => ['\x60']
  | images => ['!', '[']
  | links => ['[']
  | bold => ['*', '*']
  | italic => ['*']
  | strikethrough => ['~', '~']
  | _ => []

/-- The marks of a span, its body, and the marks once more. -/
def marked (marks body : List Char) : List Char :=
  marks ++ (body ++ marks)

theorem marked_append (marks body rest : List Char) :
    marked marks body ++ rest = marks ++ (body ++ (marks ++ rest)) := by
  simp [marked]

/-- An expression behind some given characters. -/
def afterMark (mark : List Char) (rest : Node) : Node :=
  mark.foldr (fun c node => seq (lit c) node) rest

section Marks

variable {rest : Node} {before after : List Char} {marks : List GroupMark}

theorem ways_afterMark (mark : List Char) :
    (afterMark mark rest).ways ⟨.amid before (mark ++ after), marks⟩ =
      rest.ways ⟨.amid (mark.reverse ++ before) after, marks⟩ := by
  induction mark generalizing before with
  | nil => rfl
  | cons c mark ih =>
    have below := @ih (c :: before)
    simp only [afterMark] at below
    simpa [afterMark] using below

theorem ways_afterMark_of_missing {mark : List Char} (without : ¬ mark <+: after) :
    (afterMark mark rest).ways ⟨.amid before after, marks⟩ = [] := by
  induction mark generalizing before after with
  | nil => simp at without
  | cons c mark ih =>
    rcases after with _ | ⟨d, after⟩
    · simp [afterMark]
    · by_cases same : d = c
      · subst same
        have below := @ih (d :: before) after (by simpa using without)
        simp only [afterMark] at below
        simpa [afterMark] using below
      · simp [afterMark, same]

/-- A condition on the character before an expression. -/
theorem ways_seq_behind_false (set : CharSet) :
    (seq (behind false 1 (one set)) rest).ways ⟨.amid before after, marks⟩ =
      if before.head?.any set.holds then [] else rest.ways ⟨.amid before after, marks⟩ := by
  rw [ways_seq, ways_behind_false_one]
  by_cases barred : before.head?.any set.holds = true <;> simp [barred]

theorem ways_seq_behind_afterMark (set : CharSet) {mark : List Char} (without : ¬ mark <+: after) :
    (seq (behind false 1 (one set)) (afterMark mark rest)).ways ⟨.amid before after, marks⟩ =
      [] := by
  rw [ways_seq_behind_false, ways_afterMark_of_missing without, ite_self]

/-- A group that is left behind a text. -/
theorem leave_enter (text rest : List Char) (index : Nat) :
    (State.mk (.amid (text.reverse ++ before) rest)
      (State.enter ⟨.amid before (text ++ rest), marks⟩ index).marks).leave index =
        ⟨.amid (text.reverse ++ before) rest, marks.modify (index - 1) fun _ =>
          ⟨some (.amid before (text ++ rest)), some (.amid (text.reverse ++ before) rest)⟩⟩ := by
  simp [State.leave, State.enter, List.modify_modify_eq, Function.comp_def]

end Marks

/-- A body before some marks, the shortest behind which a match can end. -/
structure Shortest (marks : List Char) (passes : Char → List Char → Bool)
    (ends : List Char → List Char → Bool) (body rest : List Char) : Prop where
  nonempty : body ≠ []
  passed : Passed passes body (marks ++ rest)
  closed : ends body rest = true
  least : ∀ shorter after, body ++ (marks ++ rest) = shorter ++ (marks ++ after) → shorter ≠ [] →
    shorter.length < body.length → ends shorter after = false

/-- A body that is read character by character ends before the first marks that what follows it
accepts. -/
theorem head?_ways_body {step closing : Node} {passes : Char → List Char → Bool}
    (steps : step.Steps passes)
    (consumes : step.consumes = true) (index : Nat) (groups : List GroupMark)
    {marks opened after : List Char} {ends : List Char → List Char → Bool}
    (closes : ∀ text rest group, text ≠ [] →
      closing.ways ⟨.amid (text.reverse ++ opened) (marks ++ rest),
        groups.modify (index - 1) fun _ => group⟩ =
        if ends text rest then
          [⟨.amid (marks.reverse ++ (text.reverse ++ opened)) rest,
            groups.modify (index - 1) fun _ => group⟩] else [])
    (refuses : ∀ before after group, ¬ marks <+: after →
      closing.ways ⟨.amid before after, groups.modify (index - 1) fun _ => group⟩ =
        []) {t : State} :
    ((seq (group index (loop .lazy 1 none step)) closing).ways ⟨.amid opened after, groups⟩).head? =
      some t ↔
      ∃ body rest, after = body ++ (marks ++ rest) ∧ Shortest marks passes ends body rest ∧
        t =
          ⟨.amid (marks.reverse ++ (body.reverse ++ opened)) rest,
            groups.modify (index - 1) fun _ =>
          ⟨some (.amid opened (body ++ (marks ++ rest))),
            some (.amid (body.reverse ++ opened) (marks ++ rest))⟩⟩ := by
  have steps_eq :
      (seq (group index (loop .lazy 1 none step)) closing).ways ⟨.amid opened after, groups⟩ =
      ((loop .lazy 1 none step).ways ⟨.amid opened after,
        (State.enter ⟨.amid opened after, groups⟩ index).marks⟩).flatMap
        fun u => closing.ways (u.leave index) := by
    rw [ways_seq, ways_group, List.flatMap_map]
    rfl
  rw [steps_eq, head?_flatMap_lazy_eq_some consumes steps (by simp)]
  constructor
  · rintro ⟨body, rest, rfl, passed, allowed, goesOn, least⟩
    have body_ne : body ≠ [] := by
      rintro rfl
      simp [allows] at allowed
    rw [leave_enter] at goesOn
    by_cases isPrefix : marks <+: rest
    swap
    · rw [refuses _ _ _ isPrefix] at goesOn
      simp at goesOn
    obtain ⟨rest, rfl⟩ := isPrefix
    rw [closes _ _ _ body_ne] at goesOn
    by_cases closed : ends body rest = true
    swap
    · simp [closed] at goesOn
    refine ⟨body, rest, rfl, ⟨body_ne, passed, closed, ?_⟩, by simpa [closed, eq_comm] using goesOn⟩
    intro shorter after same shorter_ne isShorter
    obtain ⟨more, rfl, rest_eq⟩ := Text.exists_more same (by omega)
    have refused :=
      least shorter (marks ++ after) same (by rw [rest_eq]; exact (passed_append.mp passed).1)
      (by simpa [allows] using Nat.succ_le_of_lt (List.length_pos_iff.mpr shorter_ne)) isShorter
    rw [same, leave_enter, closes _ _ _ shorter_ne] at refused
    simpa using refused
  · rintro ⟨body, rest, rfl, shortest, rfl⟩
    refine ⟨body, marks ++ rest, rfl, shortest.passed, ?_, ?_, ?_⟩
    · simpa [allows] using Nat.succ_le_of_lt (List.length_pos_iff.mpr shortest.nonempty)
    · rw [leave_enter, closes _ _ _ shortest.nonempty, if_pos shortest.closed]
      rfl
    · intro shorter after same passed allowed isShorter
      have shorter_ne : shorter ≠ [] := by
        rintro rfl
        simp [allows] at allowed
      rw [same, leave_enter]
      by_cases isPrefix : marks <+: after
      · obtain ⟨after, rfl⟩ := isPrefix
        rw [closes _ _ _ shorter_ne, shortest.least shorter after same shorter_ne isShorter]
        rfl
      · exact refuses _ _ _ isPrefix

/-- A match of a span, given the first way of its expression. -/
theorem findAt?_of_span (regex : Regex) {before marks body rest : List Char}
    {groups : List GroupMark} {texts : List (Option (List Char))}
    (first :
      (regex.root.ways
        (.begin (.amid before (marks ++ (body ++ (marks ++ rest)))) regex.groupCount)).head? =
      some ⟨.amid (marks.reverse ++ (body.reverse ++ (marks.reverse ++ before))) rest, groups⟩)
    (holds : List.Forall₂ GroupMark.Holds groups texts) (count : texts.length = regex.groupCount) :
    regex.findAt? before (marked marks body ++ rest) = some ⟨marked marks body, texts⟩ := by
  rw [← marked_append] at first
  apply findAt?_of_head? _ holds count
  simpa [marked] using first

/-- No match of an inline transform begins without its mark. -/
theorem findAt?_of_not_mark {kind : Builtin} {before after : List Char}
    (without : ¬ kind.mark <+: after) :
    kind.regex.findAt? before after = none := by
  apply findAt?_eq_none_of_ways
  cases kind with
  | inlineCode =>
    have noTicks : Text.Stops (only '\x60').holds after := by
      rcases after with _ | ⟨c, after⟩
      · simp
      · have : '\x60' ≠ c := by simpa [mark] using without
        simpa using this.symm
    have stuck : ∀ marks, (some1 (only '\x60')).ways ⟨.amid before after, marks⟩ = [] :=
      fun marks => ways_some1_of_stops noTicks
    refine (ways_seq_behind_false _).trans ?_
    simp [Node.sequence, State.enter, stuck]
  | images => exact ways_afterMark_of_missing without
  | links => exact ways_seq_behind_afterMark _ without
  | bold =>
    have longer : ¬ ['*', '*', '*'] <+: after := fun three =>
      without ((List.prefix_append _ ['*']).trans three)
    refine (ways_either _ _ _).trans (List.append_eq_nil_iff.mpr ⟨?_, ?_⟩)
    · exact ways_seq_behind_afterMark _ longer
    · exact ways_seq_behind_afterMark _ without
  | italic => exact ways_seq_behind_afterMark _ without
  | strikethrough => exact ways_seq_behind_afterMark _ without
  | _ => simp [mark] at without

/-- Where the mark of an inline transform does not stand nothing is replaced. -/
theorem rewrite_of_no_mark {kind : Builtin} {write : Found → List Char}
    {before piece after : List Char}
    (without : ∀ front back, piece = front ++ back → back ≠ [] → ¬ kind.mark <+: back ++ after) :
    kind.regex.rewrite write before (piece ++ after) =
      piece ++ kind.regex.rewrite write (piece.reverse ++ before) after :=
  rewrite_append_of_missed fun front c back split =>
    findAt?_of_not_mark (without front (c :: back) split (by simp))

/-- A text in which a character of its mark is missing is left alone by an inline transform. -/
theorem pass_of_not_mem {kind : Builtin} {text : List Char} {c : Char} (inMark : c ∈ kind.mark)
    (missing : c ∉ text) :
    kind.pass text = text := by
  have kept := @rewrite_of_no_mark kind kind.written [] text []
    fun front back split _ atMark => missing (by
      rw [List.append_nil] at atMark
      exact split ▸ List.mem_append_right _ (atMark.subset inMark))
  simpa [pass] using kept

end Markflow.Builtin
