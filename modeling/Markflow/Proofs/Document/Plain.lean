import Markflow.Proofs.Document.Words
import Markflow.Proofs.Escape

/-!
# Plain text

Text in which no inline transform finds a mark and that stands within one line.  Phrases are plain,
and so is escaped text.
-/

namespace Markflow

/-- Whether a character is one that stands in no phrase, tag or number. -/
def isForeign (c : Char) : Bool :=
  c == '\n' || c == '\x60' || c == '*' || c == '~' || c == '[' || c == '!'

/-- A text without line feeds and marks of inline transforms. -/
abbrev IsPlain (text : List Char) : Prop :=
  ∀ c ∈ text, isForeign c = false

theorem IsPlain.append {first second : List Char} (left : IsPlain first) (right : IsPlain second) :
    IsPlain (first ++ second) := by
  intro c mem
  exact (List.mem_append.mp mem).elim (left c) (right c)

theorem isPlain_text (text : Phrase) : IsPlain text.text := by
  intro c mem
  by_contra foreign
  simp only [isForeign, Bool.not_eq_false, Bool.or_eq_true, beq_iff_eq] at foreign
  rcases foreign with ((((rfl | rfl) | rfl) | rfl) | rfl) | rfl <;>
    exact text.not_mem_text (by decide) (by decide) mem

theorem isPlain_of_mem_references {reference : List Char}
    (isReference : reference ∈ Escape.references) :
    IsPlain reference := by
  have all : ∀ reference ∈ Escape.references, IsPlain reference := by decide
  exact all reference isReference

theorem isPlain_code (code : List Char) {keepLines : Bool}
    (inLine : keepLines = true → '\n' ∉ code) :
    IsPlain (Escape.code code keepLines) := by
  intro c mem
  by_contra foreign
  simp only [isForeign, Bool.not_eq_false, Bool.or_eq_true, beq_iff_eq] at foreign
  rcases foreign with ((((rfl | rfl) | rfl) | rfl) | rfl) | rfl
  · cases keepLines with
    | false => exact Escape.newline_not_mem_code code mem
    | true =>
      rcases Escape.mem_code mem with ⟨inCode, _⟩ | ⟨reference, isReference, inReference⟩
      · exact inLine rfl inCode
      · exact absurd (isPlain_of_mem_references isReference _ inReference) (by decide)
  all_goals exact Escape.not_mem_code (by decide) code keepLines mem

theorem isPlain_attributeValue {text : List Char} (inLine : '\n' ∉ text) :
    IsPlain (Escape.attributeValue text) := by
  intro c mem
  by_contra foreign
  simp only [isForeign, Bool.not_eq_false, Bool.or_eq_true, beq_iff_eq] at foreign
  rcases foreign with ((((rfl | rfl) | rfl) | rfl) | rfl) | rfl
  · rcases Escape.mem_flatMap_markup mem with ⟨inText, _⟩ | ⟨reference, isReference, inReference⟩
    · exact inLine inText
    · exact absurd (isPlain_of_mem_references isReference _ inReference) (by decide)
  all_goals exact Escape.not_mem_attributeValue (by decide) text mem

end Markflow
