import Markflow.Proofs.Builtin.Conversion
import Markflow.Proofs.Document.Plain
import Markflow.Proofs.Passes.CodeSpans
import Markflow.Proofs.Passes.Emphasis
import Markflow.Proofs.Passes.Links
import Markflow.Proofs.Regex.Pieces
import Markflow.Proofs.Text.BlankLines

/-!
# Pieces that the later passes keep

The HTML of code holds no character of inline markup.  The passes that run on it later find no match
that begins inside such a piece.  A match of emphasis that reaches into it goes over all of it then,
as no mark ends in it, and writes it again between the tags.
-/

namespace Markflow

/-- HTML within a line that holds no character of inline markup. -/
structure Sealed (piece : List Char) : Prop where
  opens : ∃ inside, piece = '<' :: inside
  closes : ∃ inside, piece = inside ++ ['>']
  plain : IsPlain piece
  noBracket : ']' ∉ piece

namespace Sealed

variable {piece : List Char}

theorem ne_nil (isSealed : Sealed piece) : piece ≠ [] := by
  rcases isSealed.opens with ⟨inside, rfl⟩
  simp

theorem not_mem (isSealed : Sealed piece) {c : Char} (foreign : isForeign c = true) :
    c ∉ piece := by
  intro mem
  rw [isSealed.plain c mem] at foreign
  cases foreign

theorem of_tags {opening closing first inside last : List Char}
    (opening_eq : opening = '<' :: first)
    (closing_eq : closing = last ++ ['>']) (plain : IsPlain (opening ++ inside ++ closing))
    (noBracket : ']' ∉ opening ++ inside ++ closing) : Sealed (opening ++ inside ++ closing) where
  opens := ⟨first ++ inside ++ closing, by simp [opening_eq]⟩
  closes := ⟨opening ++ inside ++ last, by simp [closing_eq]⟩
  plain := plain
  noBracket := noBracket

theorem inLine (isSealed : Sealed piece) : '\n' ∉ piece :=
  isSealed.not_mem (by decide)

theorem trimmed (isSealed : Sealed piece) : Text.Trimmed piece :=
  .of_ends (by decide) (by decide) isSealed.opens isSealed.closes

end Sealed

section Lists

variable {piece back : List Char}

theorem exists_before_of_head {text rest : List Char} {c : Char} (missing : c ∉ piece)
    (same : text ++ c :: rest = piece ++ back) : ∃ more, text = piece ++ more := by
  rcases List.append_eq_append_iff.mp same with ⟨more, piece_eq, rest_eq⟩ | ⟨more, text_eq, -⟩
  · rcases more with _ | ⟨d, more⟩
    · exact ⟨[], by simpa using piece_eq.symm⟩
    · rcases List.cons.inj rest_eq with ⟨rfl, -⟩
      simp [piece_eq] at missing
  · exact ⟨more, text_eq⟩

/-- When an opening, a body and a closing begin before a piece and end behind its first character,
the body holds the piece, if what opens and what closes does not begin inside it. -/
theorem exists_body {opening body closing front reach rest : List Char} {c : Char}
    (piece_ne : piece ≠ [])
    (split : opening ++ (body ++ c :: closing) = front ++ reach)
    (same : reach ++ rest = piece ++ back)
    (opening_out : ∀ d ∈ opening, d ∉ piece) (closing_out : c ∉ piece)
    (inside : front.length ≤ (opening ++ body).length) :
    ∃ near far, front = opening ++ near ∧ body = near ++ (piece ++ far) := by
  rw [← List.append_assoc] at split
  rcases Text.exists_more split inside with ⟨more, held, rfl⟩
  rw [List.append_assoc, List.cons_append] at same
  rcases exists_before_of_head closing_out same with ⟨far, rfl⟩
  rcases List.append_eq_append_iff.mp held with ⟨near, front_eq, body_eq⟩
    | ⟨left, opening_eq, body_eq⟩
  · exact ⟨near, far, front_eq, body_eq⟩
  · rcases left with _ | ⟨d, left⟩
    · rw [List.append_nil] at opening_eq
      exact ⟨[], far, by rw [opening_eq, List.append_nil], body_eq.symm⟩
    · -- Here the piece would begin in what opens.
      rcases List.exists_cons_of_ne_nil piece_ne with ⟨e, piece, rfl⟩
      rcases List.cons.inj body_eq with ⟨rfl, -⟩
      exact absurd (by simp) (opening_out e (by simp [opening_eq]))

/-- The body between two marks holds a piece that begins behind the start of the first and before
the end of the second, if it has none of their characters. -/
theorem exists_body_marked {marks body front reach rest : List Char} (piece_ne : piece ≠ [])
    (marks_ne : marks ≠ [])
    (reach_ne : reach ≠ []) (split : Builtin.marked marks body = front ++ reach)
    (same : reach ++ rest = piece ++ back)
    (marks_out : ∀ d ∈ marks, d ∉ piece) :
    ∃ near far, front = marks ++ near ∧ body = near ++ (piece ++ far) := by
  rcases List.exists_cons_of_ne_nil marks_ne with ⟨c, others, marks_eq⟩
  have opened : marks ++ (body ++ c :: others) = front ++ reach := by
    rw [← marks_eq]
    exact split
  apply exists_body piece_ne opened same marks_out (marks_out c (by simp [marks_eq]))
  -- A piece that begins behind the body would begin among the marks that close it.
  by_contra beyond
  rw [← List.append_assoc, ← marks_eq] at opened
  rcases Text.exists_more opened.symm (by omega) with ⟨more, -, closing_eq⟩
  rcases List.exists_cons_of_ne_nil reach_ne with ⟨e, reach, rfl⟩
  rcases List.exists_cons_of_ne_nil piece_ne with ⟨d, piece, rfl⟩
  rcases List.cons.inj same with ⟨rfl, -⟩
  exact marks_out e (by simp [closing_eq]) List.mem_cons_self

end Lists

namespace Builtin

variable {piece : List Char}

/-- No match begins in a piece without the character that its mark starts with. -/
theorem missed_of_head {kind : Builtin} {c : Char} (first : kind.mark.head? = some c)
    (missing : c ∉ piece)
    (before near : List Char) (d : Char) (far back : List Char) (split : piece = near ++ d :: far) :
    kind.regex.findAt? before (d :: (far ++ back)) = none := by
  rcases List.head?_eq_some_iff.mp first with ⟨others, mark_eq⟩
  apply findAt?_of_not_mark
  rw [mark_eq]
  intro isMark
  rcases (List.cons_prefix_cons.mp isMark).1 with rfl
  exact missing (by simp [split])

def emphasis : List Builtin :=
  [bold, italic, strikethrough]

theorem emphasis_cases {kind : Builtin} (isEmphasis : kind ∈ emphasis) :
    kind = bold ∨ kind = italic ∨ kind = strikethrough := by
  simpa [emphasis] using isEmphasis

theorem written_italic (text body : List Char) :
    italic.written ⟨text, [some body]⟩ = "<em>".toList ++ body ++ "</em>".toList :=
  written_of_render (render_italic _)

theorem written_strikethrough (text body : List Char) :
    strikethrough.written ⟨text, [some body]⟩ = "<del>".toList ++ body ++ "</del>".toList :=
  written_of_render (render_strikethrough _)

theorem written_bold (text : List Char) (both strong : Option (List Char)) :
    bold.written ⟨text, [both, strong]⟩ =
      if both.getD [] = [] then "<strong>".toList ++ strong.getD [] ++ "</strong>".toList
      else "<em><strong>".toList ++ both.getD [] ++ "</strong></em>".toList :=
  written_of_render (render_bold _)

/-- The marks of emphasis. -/
def emphasisMarks : List (List Char) :=
  [['*'], ['*', '*'], ['*', '*', '*'], ['~', '~']]

theorem emphasisMarks_spec : ∀ marks ∈ emphasisMarks,
    marks ≠ [] ∧ ∀ c ∈ marks, Escape.isMarkup c = true ∧ isForeign c = true := by
  decide

theorem mark_mem_emphasisMarks {kind : Builtin} (isEmphasis : kind ∈ emphasis) :
    kind.mark ∈ emphasisMarks := by
  revert isEmphasis
  cases kind <;> decide

/-- The tags that are written for marks of emphasis. -/
def emphasisTags : List (List Char) :=
  ["<strong>".toList, "</strong>".toList, "<em>".toList, "</em>".toList, "<em><strong>".toList,
    "</strong></em>".toList, "<del>".toList, "</del>".toList]

/-- For emphasis tags are written in place of the marks, and what is between them is kept. -/
theorem exists_emphasis {kind : Builtin} (isEmphasis : kind ∈ emphasis) {before after : List Char}
    {found : Found} (found_eq : kind.regex.findAt? before after = some found) :
    ∃ marks body opening closing, found.text = marked marks body ∧
      kind.written found = opening ++ body ++ closing ∧
      marks ∈ emphasisMarks ∧ opening ∈ emphasisTags ∧ closing ∈ emphasisTags := by
  rcases emphasis_cases isEmphasis with rfl | rfl | rfl
  · rcases findAt?_bold.mp found_eq with
      ⟨-, ⟨body, rest, -, isSpan, rfl⟩ | ⟨-, body, rest, -, -, rfl⟩⟩
    · refine ⟨['*', '*', '*'], body, "<em><strong>".toList, "</strong></em>".toList, rfl, ?_, by
        decide, by decide, by decide⟩
      rw [written_bold, Option.getD_some, if_neg isSpan.shortest.nonempty]
    · refine ⟨['*', '*'], body, "<strong>".toList, "</strong>".toList, rfl, ?_, by decide, by
        decide, by decide⟩
      rw [written_bold]
      rfl
  · rcases findAt?_italic.mp found_eq with ⟨-, body, rest, -, -, rfl⟩
    exact ⟨['*'], body, "<em>".toList, "</em>".toList, rfl, written_italic _ body, by decide, by
      decide, by decide⟩
  · rcases findAt?_strikethrough.mp found_eq with ⟨-, body, rest, -, -, rfl⟩
    exact ⟨['~', '~'], body, "<del>".toList, "</del>".toList, rfl, written_strikethrough _ body, by
      decide, by decide, by decide⟩

/-- A pass of emphasis leaves a piece without its marks alone. -/
theorem exists_leaves_emphasis {kind : Builtin} (isEmphasis : kind ∈ emphasis)
    (piece_ne : piece ≠ [])
    (marks_out : ∀ marks ∈ emphasisMarks, ∀ c ∈ marks, c ∉ piece) (around : Around) :
    ∃ around', Regex.Leaves kind.regex kind.written [] piece around around' := by
  have mark_mem := mark_mem_emphasisMarks isEmphasis
  rcases List.exists_cons_of_ne_nil (emphasisMarks_spec _ mark_mem).1 with ⟨c, others, mark_eq⟩
  have first : kind.mark.head? = some c := by rw [mark_eq, List.head?_cons]
  apply Regex.exists_leaves (consumes_regex kind)
  · intro before near d far split
    exact missed_of_head first (marks_out _ mark_mem c (by simp [mark_eq])) _ near d far
      around.back split
  intro before near reach rest found _ _ reach_ne text_eq same found_eq
  rcases exists_emphasis isEmphasis found_eq with
    ⟨marks, body, opening, closing, marked_eq, written_eq, marks_mem, -, -⟩
  have marks_ne := (emphasisMarks_spec marks marks_mem).1
  rw [marked_eq] at text_eq
  rcases exists_body_marked piece_ne marks_ne reach_ne text_eq same (marks_out marks marks_mem) with
    ⟨inner, far, near_eq, body_eq⟩
  refine ⟨⟨inner, far⟩, marks, marks, opening, closing, near_eq, marks_ne, marks_ne, ?_, ?_⟩
  · rw [marked_eq, marked, body_eq]
    rfl
  · rw [written_eq, body_eq, List.append_assoc]
    rfl

end Builtin

end Markflow
