import Markflow.Proofs.Regex.Ways

/-!
# Places between two texts

A cursor is determined by the text on its two sides: `Cursor.amid before after` is the place behind
the first and before the second, where the first is given backwards.  The ways of the simple
expressions are stated for such places, so that a text is read by matching on the list of its
characters.
-/

namespace Markflow.Regex

namespace Cursor

theorem eq_amid (c : Cursor) : c = amid c.before c.after := by
  obtain ⟨before, after, offset, ahead, rfl, rfl⟩ := c
  rfl

@[simp]
theorem before_amid (before after : List Char) : (amid before after).before = before := rfl

@[simp]
theorem after_amid (before after : List Char) : (amid before after).after = after := rfl

@[simp]
theorem offset_amid (before after : List Char) : (amid before after).offset = before.length := rfl

@[simp]
theorem ahead_amid (before after : List Char) : (amid before after).ahead = after.length := rfl

@[simp]
theorem next?_amid_nil (before : List Char) : (amid before []).next? = none := rfl

@[simp]
theorem next?_amid_cons (before after : List Char) (x : Char) :
    (amid before (x :: after)).next? = some (x, amid (x :: before) after) := rfl

@[simp]
theorem back?_amid_nil (after : List Char) : (amid [] after).back? = none := rfl

@[simp]
theorem back?_amid_cons (before after : List Char) (x : Char) :
    (amid (x :: before) after).back? = some (amid before (x :: after)) := rfl

@[simp]
theorem between_amid (before text after : List Char) :
    (amid before (text ++ after)).between (amid (text.reverse ++ before) after) = text := by
  simp [between]

/-- A text is skipped where it comes next. -/
theorem skip?_amid (text before after : List Char) :
    (amid before after).skip? .exact text =
      if text <+: after then some (amid (text.reverse ++ before) (after.drop text.length))
        else none := by
  induction text generalizing before after with
  | nil => simp [skip?]
  | cons x text ih =>
    cases after with
    | nil => simp [skip?]
    | cons y after =>
      by_cases same : x = y
      · subst same
        simp [skip?, CaseMode.alike, CaseMode.fold, ih]
      · have differs : CaseMode.exact.alike x y = false := by
          simpa [CaseMode.alike, CaseMode.fold, Char.toNat_inj] using same
        simp [skip?, differs, same]

/-- From a place a text leads to another place. -/
def Leads (start : Cursor) (text : List Char) (stop : Cursor) : Prop :=
  start.after = text ++ stop.after ∧ stop.before = text.reverse ++ start.before

namespace Leads

theorem refl (c : Cursor) : c.Leads [] c := ⟨rfl, rfl⟩

theorem trans {c d e : Cursor} {first second : List Char} (start : c.Leads first d)
    (next : d.Leads second e) : c.Leads (first ++ second) e := by
  refine ⟨?_, ?_⟩
  · rw [start.1, next.1, List.append_assoc]
  · rw [next.2, start.2, List.reverse_append, List.append_assoc]

theorem of_next? {c d : Cursor} {x : Char} (h : c.next? = some (x, d)) : c.Leads [x] d := by
  rw [eq_amid c] at h ⊢
  cases after : c.after with
  | nil => simp [after] at h
  | cons y rest =>
    simp only [after, next?_amid_cons, Option.some.injEq, Prod.mk.injEq] at h
    obtain ⟨rfl, rfl⟩ := h
    exact ⟨rfl, rfl⟩

theorem of_skip? {mode : CaseMode} {text : List Char} {c d : Cursor}
    (h : c.skip? mode text = some d) : ∃ passed, c.Leads passed d := by
  induction text generalizing c with
  | nil =>
    obtain rfl : c = d := by simpa [skip?] using h
    exact ⟨[], refl c⟩
  | cons x text ih =>
    rcases moved : c.next? with _ | ⟨y, e⟩
    · simp [skip?, moved] at h
    · simp only [skip?, moved] at h
      split at h
      · obtain ⟨passed, leads⟩ := ih h
        exact ⟨_, (of_next? moved).trans leads⟩
      · simp at h

theorem offset_eq {c d : Cursor} {text : List Char} (h : c.Leads text d) :
    d.offset = c.offset + text.length := by
  rw [d.offset_eq, c.offset_eq, h.2]
  simp [Nat.add_comm]

theorem ahead_eq {c d : Cursor} {text : List Char} (h : c.Leads text d) :
    c.ahead = d.ahead + text.length := by
  rw [d.ahead_eq, c.ahead_eq, h.1]
  simp [Nat.add_comm]

theorem between_eq {c d : Cursor} {text : List Char} (h : c.Leads text d) : c.between d = text := by
  simp [between, h.offset_eq, h.1]

/-- A text leads from a place to one place alone. -/
theorem eq_amid {c d : Cursor} {text : List Char} (h : c.Leads text d) :
    c = amid c.before (text ++ d.after) ∧ d = amid (text.reverse ++ c.before) d.after := by
  refine ⟨?_, ?_⟩
  · rw [← h.1, ← Cursor.eq_amid]
  · rw [← h.2, ← Cursor.eq_amid]

end Leads

end Cursor

/-- A group extends over a text. -/
def GroupMark.Spans (mark : GroupMark) (text : List Char) : Prop :=
  ∃ start stop, mark = ⟨some start, some stop⟩ ∧ start.Leads text stop

theorem GroupMark.spans_amid (before text after : List Char) :
    GroupMark.Spans ⟨some (.amid before (text ++ after)),
      some (.amid (text.reverse ++ before) after)⟩
      text :=
  ⟨_, _, rfl, rfl, rfl⟩

/-- A group has a text, or it was never entered. -/
def GroupMark.Holds (mark : GroupMark) : Option (List Char) → Prop
  | some text => mark.Spans text
  | none => mark = {}

/-- The text of a group that extends over it. -/
theorem State.groupText?_eq_some {s : State} {index : Nat} {mark : GroupMark} {text : List Char}
    (atIndex : s.marks[index - 1]? = some mark) (spans : mark.Spans text) :
    s.groupText? index = some text := by
  obtain ⟨start, stop, rfl, leads⟩ := spans
  have ordered : start.offset ≤ stop.offset := by
    have := leads.offset_eq
    omega
  simp [groupText?, extent?, atIndex, GroupMark.extent?, ordered, leads.between_eq]

theorem State.groupText?_eq_none {s : State} {index : Nat}
    (atIndex : s.marks[index - 1]? = some {}) :
    s.groupText? index = none := by
  simp [groupText?, extent?, atIndex, GroupMark.extent?]

theorem State.groupText?_of_holds {s : State} {index : Nat} {mark : GroupMark}
    {group : Option (List Char)}
    (atIndex : s.marks[index]? = some mark) (holds : mark.Holds group) :
    s.groupText? (index + 1) = group := by
  cases group with
  | some text => exact groupText?_eq_some atIndex holds
  | none => exact groupText?_eq_none (holds ▸ atIndex)

/-- Whether a line starts behind a text that is given backwards. -/
def opensLine (before : List Char) : Bool :=
  before.isEmpty || before.head? == some '\n'

/-- Whether a line ends before a text. -/
def closesLine (after : List Char) : Bool :=
  after.isEmpty || after.head? == some '\n'

@[simp]
theorem opensLine_nil : opensLine [] = true := rfl

@[simp]
theorem opensLine_cons (x : Char) (before : List Char) :
    opensLine (x :: before) = (x == '\n') := rfl

@[simp]
theorem closesLine_nil : closesLine [] = true := rfl

@[simp]
theorem closesLine_cons (x : Char) (after : List Char) :
    closesLine (x :: after) = (x == '\n') := rfl

namespace Node

variable (before after : List Char) (marks : List GroupMark)

@[simp]
theorem ways_empty (s : State) : empty.ways s = [s] := rfl

@[simp]
theorem ways_seq (first second : Node) (s : State) :
    (seq first second).ways s = (first.ways s).flatMap second.ways := rfl

@[simp]
theorem ways_either (first second : Node) (s : State) :
    (either first second).ways s = first.ways s ++ second.ways s := rfl

@[simp]
theorem ways_group (index : Nat) (body : Node) (s : State) :
    (group index body).ways s = (body.ways (s.enter index)).map (·.leave index) := rfl

@[simp]
theorem ways_one_nil (set : CharSet) : (one set).ways ⟨.amid before [], marks⟩ = [] := rfl

@[simp]
theorem ways_one_cons (set : CharSet) (x : Char) :
    (one set).ways ⟨.amid before (x :: after), marks⟩ =
      if set.holds x then [⟨.amid (x :: before) after, marks⟩] else [] := rfl

@[simp]
theorem ways_lineStart :
    (anchor .lineStart).ways ⟨.amid before after, marks⟩ =
      if opensLine before then [⟨.amid before after, marks⟩] else [] := rfl

@[simp]
theorem ways_lineEnd :
    (anchor .lineEnd).ways ⟨.amid before after, marks⟩ =
      if closesLine after then [⟨.amid before after, marks⟩] else [] := rfl

/-- A condition on the next character. -/
@[simp]
theorem ways_ahead_true_one (set : CharSet) :
    (ahead true (one set)).ways ⟨.amid before after, marks⟩ =
      if after.head?.any set.holds then [⟨.amid before after, marks⟩] else [] := by
  cases after with
  | nil => rfl
  | cons x after => by_cases holds : set.holds x <;> simp [ways, holds]

@[simp]
theorem ways_ahead_false_one (set : CharSet) :
    (ahead false (one set)).ways ⟨.amid before after, marks⟩ =
      if after.head?.any set.holds then [] else [⟨.amid before after, marks⟩] := by
  cases after with
  | nil => rfl
  | cons x after => by_cases holds : set.holds x <;> simp [ways, holds]

/-- A condition on the previous character. -/
@[simp]
theorem ways_behind_true_one (set : CharSet) :
    (behind true 1 (one set)).ways ⟨.amid before after, marks⟩ =
      if before.head?.any set.holds then [⟨.amid before after, marks⟩] else [] := by
  cases before with
  | nil => rfl
  | cons x before => by_cases holds : set.holds x <;> simp [ways, Cursor.backBy?, holds]

@[simp]
theorem ways_behind_false_one (set : CharSet) :
    (behind false 1 (one set)).ways ⟨.amid before after, marks⟩ =
      if before.head?.any set.holds then [] else [⟨.amid before after, marks⟩] := by
  cases before with
  | nil => rfl
  | cons x before => by_cases holds : set.holds x <;> simp [ways, Cursor.backBy?, holds]

end Node

end Markflow.Regex
