import Markflow.Proofs.Text.Lines

/-!
# Places in a text of lines

What stands before a line are the lines above it, each with its line feed (`ended`), and what stands
behind it are those below it.  A character of a text other than a line feed has its place in one of
the lines.
-/

namespace Markflow.Text

/-- A character of two texts put together stands in one of them. -/
theorem exists_of_append_eq {α : Type} {first second front back : List α} {c : α}
    (split : first ++ second = front ++ c :: back) :
    (∃ more, first = front ++ c :: more ∧ back = more ++ second) ∨
      ∃ more, front = first ++ more ∧ second = more ++ c :: back := by
  rcases List.append_eq_append_iff.mp split with ⟨more, front_eq, second_eq⟩
    | ⟨more, first_eq, back_eq⟩
  · exact .inr ⟨more, front_eq, second_eq⟩
  · rcases more with _ | ⟨d, more⟩
    · exact .inr ⟨[], by rw [first_eq, List.append_nil, List.append_nil], back_eq.symm⟩
    · rcases List.cons.inj back_eq with ⟨rfl, rfl⟩
      exact .inl ⟨more, first_eq, rfl⟩

theorem ended_eq_nil_or (above : List (List Char)) :
    ended above = [] ∨ ∃ before, ended above = before ++ ['\n'] := by
  rcases above.eq_nil_or_concat with rfl | ⟨above, line, rfl⟩
  · exact .inl rfl
  · exact .inr ⟨ended above ++ line, by simp⟩

theorem lineTail_eq_nil_or (below : List (List Char)) :
    lineTail below = [] ∨ ∃ behind, lineTail below = '\n' :: behind := by
  cases below with
  | nil => exact .inl rfl
  | cons line below => exact .inr ⟨line ++ lineTail below, lineTail_cons line below⟩

/-- A text around one of its lines. -/
theorem join_around (above : List (List Char)) (line : List Char) (below : List (List Char)) :
    join ['\n'] (above ++ line :: below) = ended above ++ (line ++ lineTail below) := by
  rw [join_append_eq_ended above (List.cons_ne_nil line below), join_cons]

theorem exists_of_mem_lines {text line : List Char} (mem : line ∈ lines text) :
    ∃ above below, lines text = above ++ line :: below ∧
      text = ended above ++ (line ++ lineTail below) := by
  rcases List.append_of_mem mem with ⟨above, below, split⟩
  refine ⟨above, below, split, ?_⟩
  rw [← join_around, ← split, join_lines]

theorem infix_of_mem_lines {text line : List Char} (mem : line ∈ lines text) : line <:+: text := by
  rcases exists_of_mem_lines mem with ⟨above, below, -, text_eq⟩
  exact ⟨ended above, lineTail below, by rw [List.append_assoc, ← text_eq]⟩

theorem subset_of_mem_lines {text line : List Char} (mem : line ∈ lines text) : line ⊆ text :=
  (infix_of_mem_lines mem).subset

/-- A character that is no line feed has its place in one of the lines. -/
theorem exists_place {ls : List (List Char)} {front back : List Char} {c : Char} (inLine : c ≠ '\n')
    (split : join ['\n'] ls = front ++ c :: back) :
    ∃ above near far below, ls = above ++ (near ++ c :: far) :: below ∧
      front = ended above ++ near ∧
      back = far ++ lineTail below := by
  induction ls generalizing front with
  | nil => exact absurd split (by simp [join])
  | cons line more ih =>
    rw [join_cons] at split
    rcases exists_of_append_eq split with ⟨far, line_eq, back_eq⟩ | ⟨rest, front_eq, tail_eq⟩
    · exact ⟨[], front, far, more, by rw [line_eq]; rfl, rfl, back_eq⟩
    · by_cases more_nil : more = []
      · simp [more_nil] at tail_eq
      · rw [lineTail_eq_cons_join more_nil] at tail_eq
        rcases rest with _ | ⟨d, rest⟩
        · exact absurd (List.cons.inj tail_eq).1.symm inLine
        · rcases List.cons.inj tail_eq with ⟨rfl, below_eq⟩
          rcases ih below_eq with ⟨above, near, far, below, more_eq, rest_eq, back_eq⟩
          refine ⟨line :: above, near, far, below, by rw [more_eq]; rfl, ?_, back_eq⟩
          simp [front_eq, rest_eq]

end Markflow.Text
