import Markflow.Proofs.Escape.Decoding
import Mathlib.Tactic.SplitIfs

/-!
# Escaped text

What escaped text does not contain: the characters that inline markup uses, those that mean
something in HTML, and, where code is one line, line feeds.
-/

namespace Markflow.Escape

/-- Whether inline markup uses a character. -/
def isMarkup (c : Char) : Bool :=
  c == '*' || c == '_' || c == '~' || c == '\x60' || c == '[' || c == ']' || c == '!'

/-- The references that characters are written as. -/
def references : List (List Char) :=
  ["&amp;".toList, "&lt;".toList, "&gt;".toList, "&quot;".toList, "&#x27;".toList, "&#42;".toList,
    "&#95;".toList, "&#126;".toList, "&#96;".toList, "&#91;".toList, "&#93;".toList, "&#33;".toList,
    "&#10;".toList]

/-- A character is written as a reference, or as it is when inline markup does not use it. -/
theorem markup_cases (c : Char) :
    markup c ∈ references ∨ (markup c = [c] ∧ isMarkup c = false) := by
  unfold markup
  split_ifs <;> simp_all [references, isMarkup]

/-- A character is written as a reference, or as it is when it means nothing in HTML. -/
theorem entity_cases (quote : Bool) (c : Char) :
    entity quote c ∈ references ∨
      (entity quote c = [c] ∧ c ≠ '<' ∧ c ≠ '>' ∧ (quote = true → c ≠ '"')) := by
  unfold entity
  split_ifs <;> simp_all [references]

theorem mem_lineBreaks {text : List Char} {c : Char} (mem : c ∈ lineBreaks text) :
    c ∈ text ∨ c ∈ "&#10;".toList := by
  fun_induction lineBreaks text with
  | case1 rest ih =>
    rcases List.mem_append.mp mem with reference | mem
    · exact .inr reference
    · exact (ih mem).imp_left fun inRest => by simp [inRest]
  | case2 rest ih =>
    rcases List.mem_append.mp mem with reference | mem
    · exact .inr reference
    · exact (ih mem).imp_left fun inRest => by simp [inRest]
  | case3 d rest _ _ ih =>
    rcases List.mem_cons.mp mem with rfl | mem
    · exact .inl (by simp)
    · exact (ih mem).imp_left fun inRest => by simp [inRest]
  | case4 => simp at mem

/-- The characters of text that is escaped for inline markup and HTML. -/
theorem mem_flatMap_markup {quote : Bool} {text : List Char} {c : Char}
    (mem : c ∈ (html text quote).flatMap markup) :
    (c ∈ text ∧ isMarkup c = false ∧ c ≠ '<' ∧ c ≠ '>' ∧ (quote = true → c ≠ '"')) ∨
      ∃ reference ∈ references, c ∈ reference := by
  obtain ⟨d, d_mem, c_mem⟩ := List.mem_flatMap.mp mem
  obtain ⟨e, e_mem, inEntity⟩ := List.mem_flatMap.mp d_mem
  rcases markup_cases d with isReference | ⟨markup_eq, plain⟩
  · exact .inr ⟨_, isReference, c_mem⟩
  · obtain rfl : c = d := by simpa [markup_eq] using c_mem
    rcases entity_cases quote e with isReference | ⟨entity_eq, meansNothing⟩
    · exact .inr ⟨_, isReference, inEntity⟩
    · obtain rfl : c = e := by simpa [entity_eq] using inEntity
      exact .inl ⟨e_mem, plain, meansNothing⟩

theorem mem_code {text : List Char} {keepLines : Bool} {c : Char} (mem : c ∈ code text keepLines) :
    (c ∈ text ∧ isMarkup c = false ∧ c ≠ '<' ∧ c ≠ '>') ∨ ∃ reference ∈ references,
      c ∈ reference := by
  have escaped : c ∈ (html text false).flatMap markup ∨ c ∈ "&#10;".toList := by
    cases keepLines
    · exact mem_lineBreaks mem
    · exact .inl mem
  rcases escaped with escaped | reference
  · rcases mem_flatMap_markup escaped with ⟨inText, plain, notOpen, notClose, _⟩ | reference
    · exact .inl ⟨inText, plain, notOpen, notClose⟩
    · exact .inr reference
  · exact .inr ⟨"&#10;".toList, by simp [references], reference⟩

/-- No character of inline markup or HTML is left in code. -/
theorem not_mem_code {c : Char} (special : (isMarkup c || c == '<' || c == '>') = true)
    (text : List Char) (keepLines : Bool) : c ∉ code text keepLines := by
  have barred : c ∈ "<>*_~\x60[]!".toList ∧ c ∈ "<>*_~\x60[]!\n".toList := by
    simp only [isMarkup, Bool.or_eq_true, beq_iff_eq] at special
    rcases special with ((((((((rfl | rfl) | rfl) | rfl) | rfl) | rfl) | rfl)) | rfl) | rfl <;>
      decide
  cases keepLines
  · exact (escaped_code_line text).without c barred.2
  · exact (escaped_code text).without c barred.1

theorem newline_not_mem_code (text : List Char) : '\n' ∉ code text false :=
  (escaped_code_line text).without '\n' (by decide)

/-- No character of inline markup or HTML is left in the value of an attribute. -/
theorem not_mem_attributeValue {c : Char}
    (special : (isMarkup c || c == '<' || c == '>' || c == '"') = true)
    (text : List Char) : c ∉ attributeValue text := by
  apply (escaped_attributeValue text).without
  simp only [isMarkup, Bool.or_eq_true, beq_iff_eq] at special
  rcases special with ((((((((rfl | rfl) | rfl) | rfl) | rfl) | rfl) | rfl) | rfl) | rfl) | rfl <;>
    decide

end Markflow.Escape
