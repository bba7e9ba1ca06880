import Markflow.Proofs.Passes.LineScan

/-!
# Pieces that are lines

A pass over lines leaves a line alone at which nothing is taken and with which nothing is taken
(`Spares`).  The line is a line of what the pass writes too.  What is written for a match is made of
lines as well, and a line starts where it starts.
-/

namespace Markflow

open Regex

/-- A way of taking lines takes nothing at a line, and this line with no other. -/
structure Spares (take : Take) (piece : List Char) : Prop where
  missed : ∀ more, take piece more = none
  apart : ∀ line more out count, take line more = some (out, count) → piece ∉ more.take count

/-- A line starts where the piece does, and ends where it does. -/
structure Around.IsLine (around : Around) : Prop where
  opens : opensLine around.front.reverse = true
  closes : closesLine around.back = true

theorem opensLine_reverse_append {first second : List Char} (opens : opensLine first.reverse = true)
    (opens' : opensLine second.reverse = true) : opensLine (first ++ second).reverse = true := by
  rw [List.reverse_append]
  cases reversed : second.reverse with
  | nil => exact opens
  | cons c others =>
    rw [reversed] at opens'
    exact opens'

theorem opensLine_ended (above : List (List Char)) :
    opensLine (Text.ended above).reverse = true := by
  rcases Text.ended_eq_nil_or above with nil | ⟨before, split⟩
  · rw [nil]
    rfl
  · rw [split]
    simp

theorem exists_ended {front : List Char} (opens : opensLine front.reverse = true) :
    ∃ above, front = Text.ended above ∧ ∀ line ∈ above, '\n' ∉ line := by
  rcases front.eq_nil_or_concat with rfl | ⟨ahead, c, rfl⟩
  · exact ⟨[], rfl, fun _ none => absurd none List.not_mem_nil⟩
  · have feed : c = '\n' := by simpa using opens
    refine ⟨Text.lines ahead, ?_, fun _ => Text.newline_not_mem_of_mem_lines⟩
    rw [Text.ended_eq_join (Text.lines_ne_nil ahead), Text.join_lines, feed, List.concat_eq_append]

theorem exists_lineTail {back : List Char} (closes : closesLine back = true) :
    ∃ below, back = Text.lineTail below ∧ ∀ line ∈ below, '\n' ∉ line := by
  rcases back with _ | ⟨c, rest⟩
  · exact ⟨[], rfl, fun _ none => absurd none List.not_mem_nil⟩
  · have feed : c = '\n' := by simpa using closes
    refine ⟨Text.lines rest, ?_, fun _ => Text.newline_not_mem_of_mem_lines⟩
    rw [Text.lineTail_eq_cons_join (Text.lines_ne_nil rest), Text.join_lines, feed]

/-- What is taken at a line ends above a piece that is spared. -/
theorem LineStep.count_le {regex : Regex} {write : Found → List Char} {take : Take}
    {before line piece : List Char}
    {above below out : List (List Char)} {edits : List Edit} {count : Nat}
    (spares : Spares take piece)
    (step : LineStep regex write take before line (above ++ piece :: below) edits out count) :
    count ≤ above.length := by
  by_contra beyond
  have held : piece ∈ (above ++ piece :: below).take count := by
    rcases Nat.exists_eq_add_of_lt (Nat.lt_of_not_le beyond) with ⟨left, count_eq⟩
    have behind : count - above.length = left + 1 := by omega
    rw [List.take_append, List.mem_append, behind]
    exact .inr (by simp)
  rcases step.taken with none | taken
  · omega
  · exact spares.apart _ _ _ _ taken held

namespace ScansLines

variable {regex : Regex} {write : Found → List Char} {take : Take}
    (scans : ScansLines regex write take)

include scans

/-- The lines below a line stay below it. -/
theorem closesLine_targets (before : List Char) (below : List (List Char)) :
    closesLine (Edit.targets write (regex.edits before (Text.lineTail below))) = true := by
  rcases below with _ | ⟨line, more⟩
  · simp
  · rw [Text.lineTail_cons, edits_of_none (scans.noBreak _ _)]
    rfl

theorem exists_leaves_lines {piece : List Char} (spares : Spares take piece) (inLine : '\n' ∉ piece)
    {above below : List (List Char)} (above_in : ∀ line ∈ above, '\n' ∉ line)
    (below_in : ∀ line ∈ below, '\n' ∉ line)
    {before : List Char} (opens : opensLine before = true) :
    ∃ around, Leaves regex write before piece ⟨Text.ended above, Text.lineTail below⟩ around ∧
      around.IsLine := by
  induction sized : above.length using Nat.strongRecOn generalizing before above with
  | _ size ih =>
    rcases above with _ | ⟨line, more⟩
    · have missed := scans.missed before piece below opens inLine below_in (spares.missed below)
      have edits_eq : regex.edits before (piece ++ Text.lineTail below) =
          piece.map .keep ++ regex.edits (piece.reverse ++ before) (Text.lineTail below) :=
        edits_append_of_missed fun front c back split => missed front (c :: back) split
      have leaves :=
        @Leaves.beside regex write before piece []
          (regex.edits (piece.reverse ++ before) (Text.lineTail below))
      rw [sources_edits scans.consumes] at leaves
      exact ⟨_, leaves edits_eq, rfl, scans.closesLine_targets _ _⟩
    · have line_in := above_in line List.mem_cons_self
      have more_in : ∀ other ∈ more, '\n' ∉ other := fun other mem =>
        above_in other (List.mem_cons_of_mem line mem)
      have others_in : ∀ other ∈ more ++ piece :: below, '\n' ∉ other := by
        intro other mem
        rcases List.mem_append.mp mem with mem | mem
        · exact more_in other mem
        · rcases List.mem_cons.mp mem with rfl | mem
          · exact inLine
          · exact below_in other mem
      rcases scans.exists_lineStep opens line_in others_in with ⟨edits, out, count, step⟩
      have within := step.count_le spares
      have drop_eq : (more ++ piece :: below).drop count = more.drop count ++ piece :: below :=
        List.drop_append_of_le_length within
      have take_eq : (more ++ piece :: below).take count = more.take count :=
        List.take_append_of_le_length within
      have shorter : (more.drop count).length < size := by
        simp only [List.length_cons, List.length_drop] at sized ⊢
        omega
      rcases step.further (by simp [drop_eq]) with
        ⟨before', opens', edits_eq, targets_eq, sources_eq⟩
      rcases ih _ shorter (fun other mem => more_in other (List.mem_of_mem_drop mem)) opens'
        rfl with ⟨around, leaves, isLine⟩
      have text_eq : ∀ ls : List (List Char), Text.join ['\n'] (ls ++ piece :: below) =
          (⟨Text.ended ls, Text.lineTail below⟩ : Around).text piece :=
        fun ls => Text.join_around ls piece below
      have front_eq :
          Text.ended (line :: more) = Edit.sources edits ++ Text.ended (more.drop count) := by
        rw [sources_eq, take_eq, ← Text.ended_append, List.cons_append, List.take_append_drop]
      rw [drop_eq, text_eq, ← List.cons_append, text_eq] at edits_eq
      rw [front_eq]
      refine ⟨_, leaves.append edits ?_, ?_, isLine.closes⟩
      · rw [← edits_eq, Around.text, Around.text, front_eq, List.append_assoc]
      · rw [targets_eq]
        exact opensLine_reverse_append (opensLine_ended out) isLine.opens

/-- A pass over lines leaves a line alone that it spares. -/
theorem exists_leaves {piece : List Char} (spares : Spares take piece) (inLine : '\n' ∉ piece)
    {around : Around}
    (isLine : around.IsLine) : ∃ around', Leaves regex write [] piece around around' ∧
      around'.IsLine := by
  rcases exists_ended isLine.opens with ⟨above, front_eq, above_in⟩
  rcases exists_lineTail isLine.closes with ⟨below, back_eq, below_in⟩
  have leaves := scans.exists_leaves_lines spares inLine above_in below_in opensLine_nil
  rwa [← front_eq, ← back_eq] at leaves

/-- A match takes lines of the text, and a line starts where it is written.  What is written for it
ends at the end of a line or with a line feed. -/
theorem exists_take_of_swap {before : List Char} (opens : opensLine before = true)
    {ls : List (List Char)}
    (inLine : ∀ line ∈ ls, '\n' ∉ line) {earlier later : List Edit} {found : Found}
    (edits_eq : regex.edits before (Text.join ['\n'] ls) = earlier ++ .swap found :: later) :
    ∃ line more out count, take line more = some (out, count) ∧
      opensLine (Edit.targets write earlier).reverse = true ∧
      (write found = Text.join ['\n'] out ∧ closesLine (Edit.targets write later) = true ∨
        write found = Text.join ['\n'] out ++ ['\n']) := by
  induction sized : ls.length using Nat.strongRecOn generalizing before ls earlier with
  | _ size ih =>
    rcases ls with _ | ⟨line, more⟩
    · simp [Text.join] at edits_eq
    have more_in : ∀ other ∈ more, '\n' ∉ other := fun other mem =>
      inLine other (List.mem_cons_of_mem line mem)
    rcases scans.exists_lineStep opens (inLine line List.mem_cons_self) more_in with
      ⟨edits, out, count, step⟩
    by_cases rest_nil : more.drop count = []
    · rw [(step.last rest_nil).1] at edits_eq
      rcases step.swap _ _ _ edits_eq with ⟨rfl, taken, ⟨written_eq, ⟨rfl, -⟩ | rfl⟩ | written_eq⟩
      · exact ⟨line, more, out, count, taken, rfl, .inl ⟨written_eq, rfl⟩⟩
      · exact ⟨line, more, out, count, taken, rfl, .inl ⟨written_eq, rfl⟩⟩
      · exact ⟨line, more, out, count, taken, rfl, .inr written_eq⟩
    rcases step.further rest_nil with ⟨before', opens', onward, targets_eq, -⟩
    rw [onward] at edits_eq
    have further : ∀ {passed : List Edit}, earlier = edits ++ passed →
        regex.edits before' (Text.join ['\n'] (more.drop count)) = passed ++ .swap found :: later →
        ∃ line more out count, take line more = some (out, count) ∧
          opensLine (Edit.targets write earlier).reverse = true ∧
          (write found = Text.join ['\n'] out ∧ closesLine (Edit.targets write later) = true ∨
            write found = Text.join ['\n'] out ++ ['\n']) := by
      intro passed split below
      have shorter : (more.drop count).length < size := by
        simp only [List.length_cons, List.length_drop] at sized ⊢
        omega
      rcases ih _ shorter opens' (fun other mem => more_in other (List.mem_of_mem_drop mem))
        below rfl with
        ⟨first, others, out', count', taken, opens'', written⟩
      refine ⟨first, others, out', count', taken, ?_, written⟩
      rw [split, Edit.targets_append, targets_eq]
      exact opensLine_reverse_append (opensLine_ended out) opens''
    rcases List.append_eq_append_iff.mp edits_eq with ⟨passed, split, below⟩
      | ⟨behind, split, below⟩
    · exact further split below
    · rcases behind with _ | ⟨edit, behind⟩
      · exact @further [] (by rw [split, List.append_nil, List.append_nil]) below.symm
      · rcases List.cons.inj below with ⟨rfl, rfl⟩
        rcases step.swap _ _ _ split with ⟨rfl, taken, ⟨written_eq, ⟨-, none⟩ | rfl⟩ | written_eq⟩
        · exact absurd none rest_nil
        · exact ⟨line, more, out, count, taken, rfl, .inl ⟨written_eq, rfl⟩⟩
        · exact ⟨line, more, out, count, taken, rfl, .inr written_eq⟩

end ScansLines

end Markflow
