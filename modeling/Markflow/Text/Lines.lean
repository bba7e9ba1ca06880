/-!
# Lines

A text is cut into lines at line feeds alone; the empty text is one empty line.  Texts from outside
may end their lines otherwise, which `unifyBreaks` mends.
-/

namespace Markflow.Text

/-- The lines of a text. -/
def lines : List Char → List (List Char)
  | [] => [[]]
  | '\n' :: rest => [] :: lines rest
  | c :: rest => match lines rest with
    | line :: more => (c :: line) :: more
    | [] => [[c]]

/-- Lines, put together with a separator between them. -/
def join (separator : List Char) : List (List Char) → List Char
  | [] => []
  | [line] => line
  | line :: more => line ++ separator ++ join separator more

/-- A text with a line feed for each of its line breaks, which are carriage returns, line feeds and
the two together. -/
def unifyBreaks : List Char → List Char
  | [] => []
  | '\r' :: '\n' :: rest => '\n' :: unifyBreaks rest
  | '\r' :: rest => '\n' :: unifyBreaks rest
  | c :: rest => c :: unifyBreaks rest

theorem lines_ne_nil (text : List Char) : lines text ≠ [] := by
  fun_cases lines text <;> simp_all

/-- A text is its lines with line feeds between them. -/
theorem join_lines (text : List Char) : join ['\n'] (lines text) = text := by
  fun_induction lines text with
  | case1 => rfl
  | case2 rest ih =>
    cases h : lines rest with
    | nil => exact absurd h (lines_ne_nil rest)
    | cons line more =>
      rw [h] at ih
      simp [join, ih]
  | case3 c rest _ line more h ih =>
    rw [h] at ih
    cases more with
    | nil => simpa [join] using ih
    | cons next more => simpa [join] using ih
  | case4 c rest _ h ih => exact absurd h (lines_ne_nil rest)

end Markflow.Text
