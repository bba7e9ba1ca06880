import Markflow.Proofs.Text.Cuts

/-!
# Texts as lines

A text is a line and what follows it, which is made of the further lines, a line feed before each
(`lineTail`).  The lines of a text are the one list of lines without line feeds that makes it
(`lines_join`).
-/

namespace Markflow.Text

/-- The further lines of a text, a line feed before each. -/
def lineTail (more : List (List Char)) : List Char :=
  more.flatMap fun line => '\n' :: line

@[simp]
theorem lineTail_nil : lineTail [] = [] := rfl

@[simp]
theorem lineTail_cons (line : List Char) (more : List (List Char)) :
    lineTail (line :: more) = '\n' :: (line ++ lineTail more) := by
  simp [lineTail]

@[simp]
theorem lineTail_append (first second : List (List Char)) :
    lineTail (first ++ second) = lineTail first ++ lineTail second := by
  simp [lineTail]

theorem join_cons (line : List Char) (more : List (List Char)) :
    join ['\n'] (line :: more) = line ++ lineTail more := by
  induction more generalizing line with
  | nil => simp [join]
  | cons next more ih => simp [join, ih]

theorem intercalate_eq_join (lines : List (List Char)) :
    List.intercalate ['\n'] lines = join ['\n'] lines := by
  induction lines with
  | nil => rfl
  | cons line more ih => cases more <;> simp_all [List.intercalate_cons_cons, join]

theorem lineTail_eq_cons_join {more : List (List Char)} (nonempty : more ≠ []) :
    lineTail more = '\n' :: join ['\n'] more := by
  obtain ⟨line, more, rfl⟩ := List.exists_cons_of_ne_nil nonempty
  rw [lineTail_cons, join_cons]

theorem mem_join {separator : List Char} {texts : List (List Char)} {c : Char}
    (mem : c ∈ join separator texts) :
    c ∈ separator ∨ ∃ text ∈ texts, c ∈ text := by
  induction texts with
  | nil => simp [join] at mem
  | cons text more ih =>
    rcases more with _ | ⟨next, more⟩
    · exact .inr ⟨text, by simp, by simpa [join] using mem⟩
    · rw [join] at mem
      · rcases List.mem_append.mp mem with mem | mem
        · rcases List.mem_append.mp mem with mem | mem
          · exact .inr ⟨text, by simp, mem⟩
          · exact .inl mem
        · rcases ih mem with inSeparator | ⟨other, other_mem, inOther⟩
          · exact .inl inSeparator
          · exact .inr ⟨other, by simp [other_mem], inOther⟩
      · simp

theorem not_mem_join {separator : List Char} {texts : List (List Char)} {c : Char}
    (apart : c ∉ separator) (missing : ∀ text ∈ texts, c ∉ text) : c ∉ join separator texts := by
  intro mem
  rcases mem_join mem with inSeparator | ⟨text, text_mem, inText⟩
  · exact apart inSeparator
  · exact missing text text_mem inText

/-- Two lists of lines, one below the other. -/
theorem join_append {first second : List (List Char)} (first_ne : first ≠ []) :
    join ['\n'] (first ++ second) = join ['\n'] first ++ lineTail second := by
  obtain ⟨line, more, rfl⟩ := List.exists_cons_of_ne_nil first_ne
  simp [join_cons]

theorem lines_append_newline {line : List Char} (inLine : '\n' ∉ line) (rest : List Char) :
    lines (line ++ '\n' :: rest) = line :: lines rest := by
  induction line with
  | nil => rfl
  | cons c line ih =>
    have c_ne : c ≠ '\n' := by
      rintro rfl
      exact inLine (by simp)
    have rest_eq := ih (by simp_all)
    rw [List.cons_append, lines.eq_def]
    simp [rest_eq]

theorem lines_of_inLine {line : List Char} (inLine : '\n' ∉ line) : lines line = [line] := by
  induction line with
  | nil => rfl
  | cons c line ih =>
    have c_ne : c ≠ '\n' := by
      rintro rfl
      exact inLine (by simp)
    have rest_eq := ih (by simp_all)
    rw [lines.eq_def]
    simp [rest_eq]

/-- The lines of a text that is made of lines. -/
theorem lines_join {ls : List (List Char)} (inLine : ∀ line ∈ ls, '\n' ∉ line)
    (nonempty : ls ≠ []) :
    lines (join ['\n'] ls) = ls := by
  obtain ⟨line, more, rfl⟩ := List.exists_cons_of_ne_nil nonempty
  induction more generalizing line with
  | nil => simpa [join] using lines_of_inLine (inLine line (by simp))
  | cons next more ih =>
    rw [join_cons, lineTail_cons, lines_append_newline (inLine line (by simp)), ← join_cons,
      ih next (fun other mem => inLine other (by simp_all)) (by simp)]

theorem newline_not_mem_of_mem_lines {text line : List Char} (mem : line ∈ lines text) :
    '\n' ∉ line := by
  induction text generalizing line with
  | nil => simp_all [lines]
  | cons c text ih =>
    rw [lines.eq_def] at mem
    by_cases c_eq : c = '\n'
    · subst c_eq
      rcases List.mem_cons.mp mem with rfl | mem
      · simp
      · exact ih mem
    · rcases split : lines text with _ | ⟨first, more⟩
      · exact absurd split (lines_ne_nil text)
      · simp only [split] at mem
        rcases List.mem_cons.mp mem with rfl | mem
        · have := @ih first (by simp [split])
          simp_all [eq_comm]
        · exact ih (by simp [split, mem])

/-- Lines with a line feed behind each. -/
def ended (ls : List (List Char)) : List Char :=
  ls.flatMap (· ++ ['\n'])

@[simp]
theorem ended_nil : ended [] = [] := rfl

@[simp]
theorem ended_cons (line : List Char) (more : List (List Char)) :
    ended (line :: more) = line ++ '\n' :: ended more := by
  simp [ended]

@[simp]
theorem ended_append (first second : List (List Char)) :
    ended (first ++ second) = ended first ++ ended second := by
  simp [ended]

theorem ended_eq_join {ls : List (List Char)} (ls_ne : ls ≠ []) :
    ended ls = join ['\n'] ls ++ ['\n'] := by
  induction ls with
  | nil => exact absurd rfl ls_ne
  | cons line more ih =>
    rcases more with _ | ⟨next, more⟩
    · simp [join]
    · rw [ended_cons, ih (by simp)]
      simp [join]

theorem join_append_eq_ended (first : List (List Char)) {second : List (List Char)}
    (second_ne : second ≠ []) :
    join ['\n'] (first ++ second) = ended first ++ join ['\n'] second := by
  induction first with
  | nil => rfl
  | cons line more ih =>
    rw [List.cons_append, join_cons, lineTail_eq_cons_join (by simp [second_ne]), ih]
    simp

/-- A text is cut at a line feed. -/
theorem lines_append_cons (text rest : List Char) :
    lines (text ++ '\n' :: rest) = lines text ++ lines rest := by
  have split : text ++ '\n' :: rest = join ['\n'] (lines text ++ lines rest) := by
    rw [join_append (lines_ne_nil text), lineTail_eq_cons_join (lines_ne_nil rest),
      join_lines, join_lines]
  have inLine : ∀ line ∈ lines text ++ lines rest, '\n' ∉ line := by
    intro line mem
    rcases List.mem_append.mp mem with mem | mem
    · exact newline_not_mem_of_mem_lines mem
    · exact newline_not_mem_of_mem_lines mem
  rw [split, lines_join inLine (by simp [lines_ne_nil])]

end Markflow.Text
