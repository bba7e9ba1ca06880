import Markflow.Proofs.Passes.Links

/-!
# Code spans

A code span is a run of backticks, a content within the line, and the next run of as many backticks.
-/

namespace Markflow.Builtin

open Regex Regex.Node

/-- A run of backticks. -/
def tickRun (count : Nat) : List Char :=
  List.replicate count '\x60'

/-- What follows the content of a code span. -/
def codeEnd : Node :=
  sequence [behind false 1 (lit '\x60'), sameAs 1 .exact, ahead false (lit '\x60')]

/-- What follows the opening run of a code span. -/
def codeBody : Node :=
  seq (ahead false (lit '\x60')) (seq (group 2 (loop .lazy 1 none (one .allButNewline))) codeEnd)

/-- Whether a code span whose content is given can end before some text. -/
def endsCode (content rest : List Char) : Bool :=
  content.getLast? != some '\x60' && rest.head? != some '\x60'

/-- A content between two runs of backticks, the first that can be closed. -/
structure IsCode (count : Nat) (content rest : List Char) : Prop where
  pos : 0 < count
  starts : content.head? ≠ some '\x60'
  shortest : Shortest (tickRun count) (fun c _ => c != '\n') endsCode content rest

section Code

variable {before after : List Char} {first second : GroupMark}

theorem ways_ahead_false_lit {c : Char} {marks : List GroupMark} :
    (ahead false (lit c)).ways ⟨.amid before after, marks⟩ =
      if after.head? = some c then [] else [⟨.amid before after, marks⟩] := by
  rw [lit, ways_ahead_false_one]
  rcases after with _ | ⟨d, after⟩ <;> simp

theorem ways_seq_behind_false_lit {c : Char} {rest : Node} {marks : List GroupMark} :
    (seq (behind false 1 (lit c)) rest).ways ⟨.amid before after, marks⟩ =
      if before.head? = some c then [] else rest.ways ⟨.amid before after, marks⟩ := by
  rw [lit, ways_seq_behind_false]
  rcases before with _ | ⟨d, before⟩ <;> simp

theorem ways_sameAs_exact {text : List Char} (holds : first.Holds (some text)) :
    (sameAs 1 .exact).ways ⟨.amid before after, [first, second]⟩ =
      if text <+: after then [⟨.amid (text.reverse ++ before) (after.drop text.length),
        [first, second]⟩] else [] := by
  have group_eq : State.groupText? ⟨.amid before after, [first, second]⟩ 1 = some text :=
    State.groupText?_eq_some rfl holds
  simp only [ways, group_eq, Cursor.skip?_amid]
  by_cases isPrefix : text <+: after <;> simp [isPrefix]

theorem ways_codeEnd {count : Nat} {content rest : List Char} (content_ne : content ≠ [])
    (holds : first.Holds (some (tickRun count))) :
    codeEnd.ways ⟨.amid (content.reverse ++ before) (tickRun count ++ rest), [first, second]⟩ =
      if endsCode content rest then
        [⟨.amid ((tickRun count).reverse ++ (content.reverse ++ before)) rest, [first, second]⟩]
          else [] := by
  have last_eq : (content.reverse ++ before).head? = content.getLast? := by
    rw [List.head?_append, List.head?_reverse]
    obtain ⟨c, last⟩ :=
      Option.ne_none_iff_exists'.mp (show content.getLast? ≠ none by simpa using content_ne)
    simp [last]
  rw [show codeEnd =
    seq (behind false 1 (lit '\x60')) (seq (sameAs 1 .exact) (ahead false (lit '\x60'))) from rfl,
    ways_seq_behind_false_lit, last_eq, ways_seq, ways_sameAs_exact holds,
    if_pos (List.prefix_append _ _), List.drop_left, List.flatMap_singleton, ways_ahead_false_lit,
    endsCode]
  by_cases tickBefore : content.getLast? = some '\x60' <;> by_cases tickAfter : rest.head? =
    some '\x60' <;>
    simp [tickBefore, tickAfter]

theorem ways_codeEnd_of_missing {count : Nat} (holds : first.Holds (some (tickRun count)))
    (without : ¬ tickRun count <+: after) :
    codeEnd.ways ⟨.amid before after, [first, second]⟩ = [] := by
  rw [show codeEnd =
    seq (behind false 1 (lit '\x60')) (seq (sameAs 1 .exact) (ahead false (lit '\x60'))) from rfl,
    ways_seq_behind_false_lit, ways_seq, ways_sameAs_exact holds, if_neg without]
  simp

/-- Behind the opening run of a code span the first content is read that can be closed. -/
theorem head?_ways_codeBody {count : Nat} (pos : 0 < count)
    (holds : first.Holds (some (tickRun count))) {t : State} :
    (codeBody.ways ⟨.amid before after, [first, {}]⟩).head? = some t ↔
      ∃ content rest, after = content ++ (tickRun count ++ rest) ∧ IsCode count content rest ∧
        t = ⟨.amid ((tickRun count).reverse ++ (content.reverse ++ before)) rest, [first,
          ⟨some (.amid before (content ++ (tickRun count ++ rest))),
            some (.amid (content.reverse ++ before) (tickRun count ++ rest))⟩]⟩ := by
  have steps : (one .allButNewline).Steps fun c _ => c != '\n' := by
    simpa using steps_one .allButNewline
  rw [codeBody, ways_seq, ways_ahead_false_lit]
  by_cases tick : after.head? = some '\x60'
  · rw [if_pos tick]
    constructor
    · simp
    · rintro ⟨content, rest, rfl, isCode, _⟩
      obtain ⟨c, more, rfl⟩ := List.exists_cons_of_ne_nil isCode.shortest.nonempty
      exact absurd tick isCode.starts
  · rw [if_neg tick, List.flatMap_singleton, head?_ways_body steps rfl 2 [first, {}]
      (fun text rest group text_ne => ways_codeEnd text_ne holds)
        (fun _ _ _ => ways_codeEnd_of_missing holds)]
    constructor
    · rintro ⟨content, rest, rfl, shortest, rfl⟩
      obtain ⟨c, more, rfl⟩ := List.exists_cons_of_ne_nil shortest.nonempty
      exact ⟨_, rest, rfl, ⟨pos, tick, shortest⟩, rfl⟩
    · rintro ⟨content, rest, rfl, isCode, rfl⟩
      exact ⟨content, rest, rfl, isCode.shortest, rfl⟩

theorem tickRun_all (count : Nat) : ∀ c ∈ tickRun count, (c == '\x60') = true := by
  intro c mem
  simp [(List.mem_replicate.mp mem).2]

theorem eq_tickRun {run : List Char} (run_all : ∀ c ∈ run, (c == '\x60') = true) :
    run = tickRun run.length :=
  List.eq_replicate_iff.mpr ⟨rfl, by simpa using run_all⟩

theorem length_tickRun (count : Nat) : (tickRun count).length = count :=
  List.length_replicate

/-- A code span starts where a run of backticks starts. -/
theorem findAt?_inlineCode {found : Found} :
    inlineCode.regex.findAt? before after = some found ↔
      before.head? ≠ some '\x60' ∧ ∃ count content rest,
        after = marked (tickRun count) content ++ rest ∧
        IsCode count content rest ∧
          found = ⟨marked (tickRun count) content, [some (tickRun count), some content]⟩ := by
  have root_eq : inlineCode.regex.root =
      seq (behind false 1 (lit '\x60')) (seq (group 1 (some1 (only '\x60'))) codeBody) := rfl
  obtain ⟨run, other, rfl, run_all, other_stops⟩ := Text.exists_cut (· == '\x60') after
  obtain ⟨count, rfl⟩ : ∃ count, run = tickRun count := ⟨_, eq_tickRun run_all⟩
  have refused : ∀ before c after marks, (only '\x60').holds c = true →
      codeBody.ways ⟨.amid before (c :: after), marks⟩ = [] := by
    intro before c after marks tick
    obtain rfl : c = '\x60' := by simpa using tick
    rw [codeBody, ways_seq, ways_ahead_false_lit, if_pos (by simp)]
    rfl
  have ways_eq : 0 < count → before.head? ≠ some '\x60' →
      inlineCode.regex.root.ways
        (.begin (.amid before (tickRun count ++ other)) inlineCode.regex.groupCount) =
        codeBody.ways ⟨.amid ((tickRun count).reverse ++ before) other,
          [⟨some (.amid before (tickRun count ++ other)),
          some (.amid ((tickRun count).reverse ++ before) other)⟩, {}]⟩ := by
    intro pos free
    rw [root_eq]
    refine (ways_seq_behind_false_lit).trans ?_
    rw [if_neg free, some1]
    exact ways_seq_group_of_stops refused (by simpa using run_all) (by simpa using other_stops)
      (by rw [length_tickRun]; omega)
  have run_holds : GroupMark.Holds ⟨some (.amid before (tickRun count ++ other)),
      some (.amid ((tickRun count).reverse ++ before) other)⟩ (some (tickRun count)) :=
    GroupMark.spans_amid before (tickRun count) other
  have content_holds : ∀ content rest : List Char, GroupMark.Holds
      ⟨some (.amid ((tickRun count).reverse ++ before) (content ++ (tickRun count ++ rest))),
        some
          (.amid (content.reverse ++ ((tickRun count).reverse ++ before)) (tickRun count ++ rest))⟩
          (some content) :=
    fun content rest => GroupMark.spans_amid _ content _
  constructor
  · intro found_eq
    have pos : 0 < count := by
      by_contra none_left
      obtain rfl : count = 0 := by omega
      rw [findAt?_of_not_mark] at found_eq
      · simp at found_eq
      · rcases other with _ | ⟨c, other⟩
        · simp [mark, tickRun]
        · have : '\x60' ≠ c := by
            rintro rfl
            simp at other_stops
          simpa [mark, tickRun] using this
    have free : before.head? ≠ some '\x60' := by
      intro tick
      rw [findAt?_eq_none_of_ways] at found_eq
      · simp at found_eq
      · exact (ways_seq_behind_false_lit).trans (if_pos tick)
    obtain ⟨t, t_eq, _⟩ := Option.map_eq_some_iff.mp found_eq
    obtain ⟨content, rest, rfl, isCode, rfl⟩ :=
      (head?_ways_codeBody pos run_holds).mp
        ((congrArg List.head? (ways_eq pos free)).symm.trans t_eq)
    refine ⟨free, count, content, rest, by rw [marked_append], isCode, ?_⟩
    have again := findAt?_of_span inlineCode.regex t_eq
      (.cons run_holds (.cons (content_holds content rest) .nil)) rfl
    rw [marked_append, found_eq] at again
    exact Option.some.inj again
  · rintro ⟨free, count', content, rest, same, isCode, rfl⟩
    rw [marked_append] at same
    have content_stops : Text.Stops (· == '\x60') (content ++ (tickRun count' ++ rest)) := by
      obtain ⟨c, more, rfl⟩ := List.exists_cons_of_ne_nil isCode.shortest.nonempty
      simpa using isCode.starts
    obtain ⟨runs, rfl⟩ :=
      Text.cut_unique run_all other_stops (tickRun_all count') content_stops same
    obtain rfl : count = count' := by simpa [length_tickRun] using congrArg List.length runs
    rw [← marked_append]
    refine findAt?_of_span inlineCode.regex ?_
      (.cons run_holds (.cons (content_holds content rest) .nil)) rfl
    rw [ways_eq isCode.pos free]
    exact (head?_ways_codeBody isCode.pos run_holds).mpr ⟨content, rest, rfl, isCode, rfl⟩

end Code

/-- The HTML of a code span. -/
theorem written_inlineCode (text ticks content : List Char) :
    inlineCode.written ⟨text, [some ticks, some content]⟩ =
      "<code>".toList ++ Escape.code (unpadded content) ++ "</code>".toList :=
  written_of_render (render_inlineCode _)

end Markflow.Builtin
