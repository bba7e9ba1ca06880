import Markflow.Proofs.Passes.Inline

/-!
# Emphasis

Strong emphasis, emphasis and deletions are spans: marks, a body of at least one character, and the
same marks.  A body is read character by character, and it ends before the first marks that can
close the span.
-/

namespace Markflow.Builtin

open Regex Regex.Node

/-- Whether a blank line follows a line feed. -/
def opensBlankLine (after : List Char) : Bool :=
  (after.takeWhile Text.isBlank).contains '\n'

/-- Whether a body between paired marks goes on with a character. -/
def pairedPasses (mark c : Char) (after : List Char) : Bool :=
  (c != mark && c != '\n') || (c == mark && after.head? != some mark) ||
    (c == '\n' && !opensBlankLine after)

/-- Whether a body between single asterisks goes on with a character. -/
def singlePasses (c : Char) (after : List Char) : Bool :=
  (c != '*' && c != '\n') || (c == '\n' && !opensBlankLine after)

section Steps

variable {before after : List Char} {marks : List GroupMark}

theorem ways_blankLine :
    (seq (many blankSet) (lit '\n')).ways ⟨.amid before after, marks⟩ = [] ↔
      opensBlankLine after = false := by
  rw [ways_seq, List.flatMap_eq_nil_iff]
  constructor
  · intro refused
    by_contra opens
    have mem : '\n' ∈ after.takeWhile Text.isBlank := by simpa [opensBlankLine] using opens
    obtain ⟨front, back, split⟩ := List.append_of_mem mem
    have after_eq : after = front ++ ('\n' :: (back ++ after.dropWhile Text.isBlank)) := by
      conv_lhs => rw [← List.takeWhile_append_dropWhile (p := Text.isBlank) (l := after), split]
      simp
    have front_all : ∀ c ∈ front, Text.isBlank c = true := fun c c_mem =>
      List.mem_takeWhile_imp (l := after) (by rw [split]; exact List.mem_append_left _ c_mem)
    have reached :=
      refused ⟨.amid (front.reverse ++ before) ('\n' :: (back ++ after.dropWhile Text.isBlank)),
        marks⟩
      ((mem_ways_loop_of_steps (by simp) rfl (steps_one _) (by simp)).mpr
        ⟨front, _, after_eq, passed_one.mpr (by simpa using front_all), by simp [allows], rfl⟩)
    simp at reached
  · intro noBlank t t_mem
    obtain ⟨front, rest, rfl, passed, _, rfl⟩ :=
      (mem_ways_loop_of_steps (by simp) rfl (steps_one _) (by simp)).mp t_mem
    have front_all : ∀ c ∈ front, Text.isBlank c = true := by simpa using passed_one.mp passed
    rcases rest with _ | ⟨c, rest⟩
    · simp
    · have : c ≠ '\n' := by
        rintro rfl
        have blank : Text.isBlank '\n' = true := by decide
        simp [opensBlankLine, List.takeWhile_append_of_pos front_all, blank] at noBlank
      simp [this]

theorem ways_softBreak :
    softBreak.ways ⟨.amid before after, marks⟩ =
      match after with
      | [] => []
      | c ::
          after => if c == '\n' && !opensBlankLine after then [⟨.amid (c :: before) after, marks⟩]
          else [] := by
  rcases after with _ | ⟨c, after⟩
  · rfl
  · by_cases newline : c = '\n'
    · subst newline
      have blank := @ways_blankLine ('\n' :: before) after marks
      have goesOn :
          (ahead false (seq (many blankSet) (lit '\n'))).ways ⟨.amid ('\n' :: before) after,
            marks⟩ =
          if ((seq (many blankSet) (lit '\n')).ways ⟨.amid ('\n' :: before) after, marks⟩).isEmpty
            then
            [⟨.amid ('\n' :: before) after, marks⟩] else [] := rfl
      rw [softBreak, ways_seq, ways_lit_cons, if_pos rfl, List.flatMap_singleton, goesOn]
      generalize (seq (many blankSet) (lit '\n')).ways ⟨.amid ('\n' :: before) after, marks⟩ =
        states at blank
      by_cases opens : opensBlankLine after = true
      · obtain ⟨t, more, rfl⟩ :=
          List.exists_cons_of_ne_nil (show states ≠ [] by simp [blank, opens])
        simp [opens]
      · obtain rfl : states = [] := by simpa [blank] using opens
        simp [opens]
    · simp [softBreak, newline]

end Steps

theorem steps_paired {mark : Char} (noFeed : mark ≠ '\n') :
    (pairedStep mark).Steps (pairedPasses mark) := by
  intro before marks after
  rw [pairedStep, ways_either, ways_either, ways_softBreak]
  rcases after with _ | ⟨c, after⟩
  · simp
  · have plain : CharSet.holds ⟨[.code mark.toNat, .code 0x0A], true, .exact⟩ c =
        (c != mark && c != '\n') := by
      have feed : (c.toNat == 0x0A) = (c == '\n') := toNat_beq_toNat c '\n'
      simp [CharSet.holds, SetItem.holds, toNat_beq_toNat, feed, bne, Bool.not_or]
    have alone : (ahead false (lit mark)).ways ⟨.amid (c :: before) after, marks⟩ =
        if after.head? == some mark then [] else [⟨.amid (c :: before) after, marks⟩] := by
      rw [lit, ways_ahead_false_one]
      rcases after with _ | ⟨d, after⟩ <;> simp
    rw [ways_one_cons, plain, ways_seq, ways_lit_cons]
    by_cases isMark : c = mark
    · subst isMark
      rw [if_pos rfl, List.flatMap_singleton, alone]
      by_cases again : after.head? = some c <;> simp [pairedPasses, noFeed, again]
    · by_cases newline : c = '\n' <;> simp [isMark, newline, pairedPasses, noFeed.symm]

theorem steps_single : singleStep.Steps singlePasses := by
  intro before marks after
  rw [singleStep, ways_either, ways_softBreak]
  rcases after with _ | ⟨c, after⟩
  · simp
  · have plain : CharSet.holds ⟨[.code 0x2A, .code 0x0A], true, .exact⟩ c =
        (c != '*' && c != '\n') := by
      have star : (c.toNat == 0x2A) = (c == '*') := toNat_beq_toNat c '*'
      have feed : (c.toNat == 0x0A) = (c == '\n') := toNat_beq_toNat c '\n'
      simp [CharSet.holds, SetItem.holds, star, feed, bne, Bool.not_or]
    rw [ways_one_cons, plain]
    by_cases newline : c = '\n' <;> simp [newline, singlePasses]

/-- What follows the body of a span. -/
def spanEnd (marks : List Char) (barredAfter : CharSet) : Node :=
  seq (behind true 1 (one inkSet)) (afterMark marks (ahead false (one barredAfter)))

theorem sequence_map_lit (mark : List Char) {nodes : List Node} (more : nodes ≠ []) :
    sequence (mark.map lit ++ nodes) = afterMark mark (sequence nodes) := by
  induction mark with
  | nil => rfl
  | cons c mark ih =>
    obtain ⟨next, rest, split⟩ :=
      List.exists_cons_of_ne_nil (show mark.map lit ++ nodes ≠ [] by simp [more])
    rw [List.map_cons, List.cons_append, split, Node.sequence, ← split, ih]
    · rfl
    · simp

theorem span_eq (barred : List SetItem) (marks : List Char) (notFirst : Char) (index : Nat)
    (step : Node) (barredAfter : List SetItem) :
    span barred marks notFirst index step barredAfter =
      seq (behind false 1 (one ⟨barred, false, .exact⟩)) (afterMark marks
        (seq (ahead true (one ⟨[.kind .blank false true, .code notFirst.toNat], true, .exact⟩))
          (seq (group index (loop .lazy 1 none step))
            (spanEnd marks ⟨barredAfter, false, .exact⟩)))) := by
  have more : marks.map lit ++ [ahead false (one ⟨barredAfter, false, .exact⟩)] ≠ [] := by simp
  obtain ⟨next, rest, split⟩ := List.exists_cons_of_ne_nil more
  have closing :
      sequence (next :: rest) =
        afterMark marks (ahead false (one ⟨barredAfter, false, .exact⟩)) := by
    rw [← split, sequence_map_lit marks (by simp)]
    rfl
  have opening :=
    @sequence_map_lit marks (ahead true (one ⟨[.kind .blank false true, .code notFirst.toNat],
    true, .exact⟩) :: group index (loop .lazy 1 none step) :: behind true 1 (one inkSet) :: next ::
      rest) (by simp)
  obtain ⟨first, others, opens⟩ := List.exists_cons_of_ne_nil (show marks.map lit ++ ahead true (one
    ⟨[.kind .blank false true, .code notFirst.toNat], true, .exact⟩) :: group index
      (loop .lazy 1 none step) ::
    behind true 1 (one inkSet) :: next :: rest ≠ [] by simp)
  have nodes_eq : [behind false 1 (one ⟨barred, false, .exact⟩)] ++ marks.map lit ++
      [ahead true (one ⟨[.kind .blank false true, .code notFirst.toNat], true, .exact⟩),
        group index (loop .lazy 1 none step), behind true 1 (one inkSet)] ++ marks.map lit ++
      [ahead false (one ⟨barredAfter, false, .exact⟩)] =
        behind false 1 (one ⟨barred, false, .exact⟩) :: first :: others := by
    rw [← opens, ← split]
    simp
  rw [opens] at opening
  rw [span, nodes_eq, Node.sequence, opening]
  · simp only [Node.sequence, closing, spanEnd]
  · simp

theorem ways_spanEnd {marks : List Char} {barredAfter : CharSet} {before after : List Char}
    {groups : List GroupMark} :
    (spanEnd marks barredAfter).ways ⟨.amid before (marks ++ after), groups⟩ =
      if before.head?.any (!Text.isBlank ·) && !after.head?.any barredAfter.holds then
        [⟨.amid (marks.reverse ++ before) after, groups⟩] else [] := by
  rw [spanEnd, ways_seq, ways_behind_true_one, holds_inkSet]
  by_cases ink : before.head?.any (!Text.isBlank ·) = true
  · rw [if_pos ink, List.flatMap_singleton, ways_afterMark, ways_ahead_false_one]
    by_cases barred : after.head?.any barredAfter.holds = true <;> simp [ink, barred]
  · simp [ink]

theorem ways_spanEnd_of_missing {marks : List Char} {barredAfter : CharSet}
    {before after : List Char} {groups : List GroupMark} (without : ¬ marks <+: after) :
    (spanEnd marks barredAfter).ways ⟨.amid before after, groups⟩ = [] := by
  rw [spanEnd, ways_seq, ways_behind_true_one]
  split
  · rw [List.flatMap_singleton, ways_afterMark_of_missing without]
  · simp

/-- Whether a span whose body is given can end before some text. -/
def endsSpan (barredAfter : CharSet) (body rest : List Char) : Bool :=
  body.getLast?.any (!Text.isBlank ·) && !rest.head?.any barredAfter.holds

/-- A body between two marks, the first that can be closed. -/
structure IsBody (marks : List Char) (notFirst : Char) (passes : Char → List Char → Bool)
    (barredAfter : CharSet) (body rest : List Char) : Prop where
  starts : body.head?.any (fun c => !Text.isBlank c && c != notFirst) = true
  shortest : Shortest marks passes (endsSpan barredAfter) body rest

/-- A span starts behind nothing that is barred and ends behind the first marks that can close
it. -/
theorem head?_ways_span (barred : List SetItem) (marks : List Char) (notFirst : Char) (index : Nat)
    (barredAfter : List SetItem) {step : Node} {passes : Char → List Char → Bool}
    (steps : step.Steps passes)
    (consumes : step.consumes = true) (before after : List Char) (groups : List GroupMark)
    (t : State) :
    ((span barred marks notFirst index step barredAfter).ways ⟨.amid before after, groups⟩).head? =
      some t ↔
      before.head?.any (CharSet.holds ⟨barred, false, .exact⟩) = false ∧
        ∃ body rest, after = marks ++ (body ++ (marks ++ rest)) ∧
          IsBody marks notFirst passes ⟨barredAfter, false, .exact⟩ body rest ∧
          t = ⟨.amid (marks.reverse ++ (body.reverse ++ (marks.reverse ++ before))) rest,
            groups.modify (index - 1) fun _ =>
              ⟨some (.amid (marks.reverse ++ before) (body ++ (marks ++ rest))),
                some (.amid (body.reverse ++ (marks.reverse ++ before)) (marks ++ rest))⟩⟩ := by
  have first : CharSet.holds ⟨[.kind .blank false true, .code notFirst.toNat], true, .exact⟩ =
      fun c => !Text.isBlank c && c != notFirst := by
    funext c
    simp [CharSet.holds, SetItem.holds, CharKind.holds, toNat_beq_toNat, bne, Bool.not_or]
  rw [span_eq, ways_seq_behind_false]
  by_cases isBarred : before.head?.any (CharSet.holds ⟨barred, false, .exact⟩) = true
  · simp [isBarred]
  rw [if_neg isBarred]
  by_cases opens : marks <+: after
  swap
  · rw [ways_afterMark_of_missing opens]
    constructor
    · simp
    · rintro ⟨_, body, rest, rfl, _⟩
      exact absurd (List.prefix_append _ _) opens
  obtain ⟨after, rfl⟩ := opens
  rw [ways_afterMark, ways_seq, ways_ahead_true_one, first]
  by_cases starts : after.head?.any (fun c => !Text.isBlank c && c != notFirst) = true
  swap
  · rw [if_neg starts]
    constructor
    · simp
    · rintro ⟨_, body, rest, after_eq, isBody, _⟩
      obtain rfl : after = body ++ (marks ++ rest) := by simpa using after_eq
      have := isBody.starts
      rcases body with _ | ⟨c, body⟩ <;> simp_all
  have ending : ∀ (text rest : List Char) (groups : List GroupMark), text ≠ [] →
      (spanEnd marks ⟨barredAfter, false, .exact⟩).ways
        ⟨.amid (text.reverse ++ (marks.reverse ++ before)) (marks ++ rest), groups⟩ =
          if endsSpan ⟨barredAfter, false, .exact⟩ text rest then
            [⟨.amid (marks.reverse ++ (text.reverse ++ (marks.reverse ++ before))) rest, groups⟩]
              else [] := by
    intro text rest groups text_ne
    rw [ways_spanEnd, endsSpan, List.head?_append, List.head?_reverse]
    obtain ⟨c, last⟩ :=
      Option.ne_none_iff_exists'.mp (show text.getLast? ≠ none by simpa using text_ne)
    simp [last]
  rw [if_pos starts, List.flatMap_singleton, head?_ways_body steps consumes index groups
    (fun text rest group => ending text rest _)
    (fun _ _ _ => ways_spanEnd_of_missing)]
  constructor
  · rintro ⟨body, rest, rfl, shortest, rfl⟩
    obtain ⟨c, more, rfl⟩ := List.exists_cons_of_ne_nil shortest.nonempty
    exact ⟨by simpa using isBarred, _, rest, rfl, ⟨starts, shortest⟩, rfl⟩
  · rintro ⟨_, body, rest, after_eq, isBody, rfl⟩
    exact ⟨body, rest, by simpa using after_eq, isBody.shortest, rfl⟩

/-- What may not stand before a span. -/
def barredBefore : Builtin → List SetItem
  | bold => [.code 0x5C, .code 0x2A]
  | italic => [.kind .word false true, .code 0x5C, .code 0x2A]
  | strikethrough => [.code 0x5C, .code 0x7E]
  | _ => []

/-- What may not follow a span. -/
def barredAfter : Builtin → List SetItem
  | bold => [.code 0x2A]
  | italic => [.kind .word false true, .code 0x2A]
  | strikethrough => [.code 0x7E]
  | _ => []

/-- Whether a body goes on with a character. -/
def goesOn : Builtin → Char → List Char → Bool
  | bold => pairedPasses '*'
  | italic => singlePasses
  | strikethrough => pairedPasses '~'
  | _ => fun _ _ => false

/-- A span of a transform, between given marks. -/
def IsSpan (kind : Builtin) (marks body rest : List Char) : Prop :=
  IsBody marks (kind.mark.headD ' ') kind.goesOn ⟨kind.barredAfter, false, .exact⟩ body rest

section Found

variable {before after : List Char} {found : Found}

theorem findAt?_eq_some_of_span {regex : Regex} {barred after' : List SetItem} {marks : List Char}
    {notFirst : Char}
    {step : Node} {passes : Char → List Char → Bool} (steps : step.Steps passes)
    (consumes : step.consumes = true)
    (root_eq : regex.root = span barred marks notFirst 1 step after')
    (count : regex.groupCount = 1) :
    regex.findAt? before after = some found ↔
      before.head?.any (CharSet.holds ⟨barred, false, .exact⟩) = false ∧
        ∃ body rest, after = marked marks body ++ rest ∧
          IsBody marks notFirst passes ⟨after', false, .exact⟩ body rest ∧
          found = ⟨marked marks body, [some body]⟩ := by
  have first := head?_ways_span barred marks notFirst 1 after' steps consumes before after [{}]
  rw [← root_eq] at first
  have holds : ∀ body rest,
      GroupMark.Holds ⟨some (.amid (marks.reverse ++ before) (body ++ (marks ++ rest))),
      some (.amid (body.reverse ++ (marks.reverse ++ before)) (marks ++ rest))⟩ (some body) :=
    fun body rest => GroupMark.spans_amid _ body _
  constructor
  · intro found_eq
    obtain ⟨t, t_eq, rfl⟩ := Option.map_eq_some_iff.mp found_eq
    rw [count] at t_eq
    obtain ⟨free, body, rest, rfl, isBody, rfl⟩ := (first t).mp t_eq
    refine ⟨free, body, rest, by simp [marked], isBody, ?_⟩
    have again := findAt?_of_span regex (by rw [count]; exact t_eq) (.cons (holds body rest) .nil)
      (by simp [count])
    rw [marked_append, found_eq] at again
    exact Option.some.inj again
  · rintro ⟨free, body, rest, rfl, isBody, rfl⟩
    rw [marked_append] at first
    refine findAt?_of_span regex ?_ (.cons (holds body rest) .nil) (by simp [count])
    rw [count]
    exact (first _).mpr ⟨free, body, rest, rfl, isBody, rfl⟩

theorem findAt?_italic :
    italic.regex.findAt? before after = some found ↔
      before.head?.any (CharSet.holds ⟨italic.barredBefore, false, .exact⟩) = false ∧
        ∃ body rest, after = marked ['*'] body ++ rest ∧ italic.IsSpan ['*'] body rest ∧
          found = ⟨marked ['*'] body, [some body]⟩ :=
  findAt?_eq_some_of_span steps_single rfl rfl rfl

theorem findAt?_strikethrough :
    strikethrough.regex.findAt? before after = some found ↔
      before.head?.any (CharSet.holds ⟨strikethrough.barredBefore, false, .exact⟩) = false ∧
        ∃ body rest, after = marked ['~', '~'] body ++ rest ∧
          strikethrough.IsSpan ['~', '~'] body rest ∧
          found = ⟨marked ['~', '~'] body, [some body]⟩ :=
  findAt?_eq_some_of_span (steps_paired (by decide)) rfl rfl rfl

/-- Strong emphasis between two asterisks is read where none between three is. -/
theorem findAt?_bold :
    bold.regex.findAt? before after = some found ↔
      before.head?.any (CharSet.holds ⟨bold.barredBefore, false, .exact⟩) = false ∧
        ((∃ body rest, after = marked ['*', '*', '*'] body ++ rest ∧
          bold.IsSpan ['*', '*', '*'] body rest ∧
            found = ⟨marked ['*', '*', '*'] body, [some body, none]⟩) ∨
          (∀ body rest, after = marked ['*', '*', '*'] body ++ rest →
            ¬ bold.IsSpan ['*', '*', '*'] body rest) ∧
            ∃ body rest, after = marked ['*', '*'] body ++ rest ∧ bold.IsSpan ['*', '*'] body rest ∧
              found = ⟨marked ['*', '*'] body, [none, some body]⟩) := by
  have steps := steps_paired (show '*' ≠ '\n' by decide)
  have three := head?_ways_span bold.barredBefore ['*', '*', '*'] '*' 1 bold.barredAfter steps rfl
    before after [{}, {}]
  have two := head?_ways_span bold.barredBefore ['*', '*'] '*' 2 bold.barredAfter steps rfl before
    after [{}, {}]
  generalize first_eq : span bold.barredBefore ['*', '*', '*'] '*' 1 (pairedStep '*')
    bold.barredAfter = first at three
  generalize second_eq : span bold.barredBefore ['*', '*'] '*' 2 (pairedStep '*') bold.barredAfter =
    second at two
  have root_eq : bold.regex.root = either first second := by
    rw [← first_eq, ← second_eq]
    rfl
  have ways_eq : (bold.regex.root.ways (.begin (.amid before after) bold.regex.groupCount)).head? =
      ((first.ways ⟨.amid before after, [{}, {}]⟩).head?).or
        (second.ways ⟨.amid before after, [{}, {}]⟩).head? := by
    rw [root_eq, ← List.head?_append]
    rfl
  have holds : ∀ (marks body rest : List Char), GroupMark.Holds
      ⟨some (.amid (marks.reverse ++ before) (body ++ (marks ++ rest))),
        some (.amid (body.reverse ++ (marks.reverse ++ before)) (marks ++ rest))⟩ (some body) :=
    fun marks body rest => GroupMark.spans_amid _ body _
  constructor
  · intro found_eq
    obtain ⟨t, t_eq, _⟩ := Option.map_eq_some_iff.mp found_eq
    rcases first_head : (first.ways ⟨.amid before after, [{}, {}]⟩).head? with _ | u
    · have second_head : (second.ways ⟨.amid before after, [{}, {}]⟩).head? = some t := by
        simpa [ways_eq, first_head] using t_eq
      obtain ⟨free, body, rest, rfl, isBody, rfl⟩ := (two t).mp second_head
      refine ⟨free, .inr ⟨?_, body, rest, by rw [marked_append], isBody, ?_⟩⟩
      · intro body' rest' after_eq isSpan
        have := (three _).mpr ⟨free, body', rest', by rw [after_eq, marked_append], isSpan, rfl⟩
        exact absurd (first_head.symm.trans this) (by simp)
      · have again := findAt?_of_span bold.regex t_eq
          (.cons (show GroupMark.Holds {} none from rfl) (.cons (holds _ body rest) .nil)) rfl
        rw [marked_append, found_eq] at again
        exact Option.some.inj again
    · obtain rfl : u = t := by simpa [ways_eq, first_head] using t_eq
      obtain ⟨free, body, rest, rfl, isBody, rfl⟩ := (three u).mp first_head
      refine ⟨free, .inl ⟨body, rest, by rw [marked_append], isBody, ?_⟩⟩
      have again := findAt?_of_span bold.regex t_eq
        (.cons (holds _ body rest) (.cons (show GroupMark.Holds {} none from rfl) .nil)) rfl
      rw [marked_append, found_eq] at again
      exact Option.some.inj again
  · rintro ⟨free, ⟨body, rest, rfl, isSpan, rfl⟩ | ⟨noThree, body, rest, rfl, isSpan, rfl⟩⟩
    · rw [marked_append] at three ways_eq
      refine findAt?_of_span bold.regex ?_
        (.cons (holds ['*', '*', '*'] body rest)
          (.cons (show GroupMark.Holds {} none from rfl) .nil)) rfl
      rw [ways_eq, (three _).mpr ⟨free, body, rest, rfl, isSpan, rfl⟩, Option.some_or]
      rfl
    · have first_head :
          (first.ways ⟨.amid before (marked ['*', '*'] body ++ rest), [{}, {}]⟩).head? = none := by
        by_contra some_head
        obtain ⟨t, t_eq⟩ := Option.ne_none_iff_exists'.mp some_head
        obtain ⟨_, body', rest', after_eq, isBody, _⟩ := (three t).mp t_eq
        exact noThree body' rest' (by rw [after_eq, marked_append]) isBody
      rw [marked_append] at two ways_eq first_head
      refine findAt?_of_span bold.regex ?_
        (.cons (show GroupMark.Holds {} none from rfl) (.cons (holds ['*', '*'] body rest) .nil))
          rfl
      rw [ways_eq, first_head, (two _).mpr ⟨free, body, rest, rfl, isSpan, rfl⟩, Option.none_or]
      rfl

end Found

end Markflow.Builtin
