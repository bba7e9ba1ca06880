import Markflow.Proofs.Text.Case
import Markflow.Proofs.Text.Lines
import Markflow.Text.Blank

/-!
# Words and phrases

Plain text for canonical documents: words of ASCII letters with single spaces between them.
-/

namespace Markflow

namespace Text

theorem isBlank_of_isAlpha {c : Char} (letter : c.isAlpha = true) : isBlank c = false := by
  have range := isAsciiLetter_iff.mp letter
  simp only [isBlank, blankRanges, List.any_cons, List.any_nil, Bool.or_false, Bool.or_eq_false_iff,
    Bool.and_eq_false_imp, decide_eq_true_eq, decide_eq_false_iff_not]
  omega

/-- A text that neither starts nor ends with white space is not stripped of anything. -/
theorem strip_eq_self {text : List Char} (starts : Stops isBlank text)
    (ends : Stops isBlank text.reverse) :
    strip text = text := by
  have left : text.dropWhile isBlank = text := by
    simpa using dropWhile_cut (show ∀ c ∈ ([] : List Char), isBlank c = true by simp) starts
  have right : text.reverse.dropWhile isBlank = text.reverse := by
    simpa using dropWhile_cut (show ∀ c ∈ ([] : List Char), isBlank c = true by simp) ends
  rw [strip, stripLeft, left, stripRight, right, List.reverse_reverse]

theorem strip_subset (text : List Char) : strip text ⊆ text := by
  have left : stripLeft text ⊆ text := (List.dropWhile_suffix isBlank).subset
  intro c mem
  apply left
  have behind := (List.dropWhile_suffix isBlank).subset (List.mem_reverse.mp mem)
  exact List.mem_reverse.mp behind

/-- What joined texts start with. -/
theorem exists_join_cons (separator text : List Char) (more : List (List Char)) :
    ∃ rest, join separator (text :: more) = text ++ rest := by
  rcases more with _ | ⟨next, more⟩
  · exact ⟨[], by simp [join]⟩
  · exact ⟨separator ++ join separator (next :: more), by simp [join]⟩

/-- What joined texts end with. -/
theorem exists_join_concat (separator last : List Char) (front : List (List Char)) :
    ∃ rest, join separator (front ++ [last]) = rest ++ last := by
  induction front with
  | nil => exact ⟨[], by simp [join]⟩
  | cons text front ih =>
    obtain ⟨rest, join_eq⟩ := ih
    obtain ⟨next, more, split⟩ := List.exists_cons_of_ne_nil (show front ++ [last] ≠ [] by simp)
    refine ⟨text ++ separator ++ rest, ?_⟩
    rw [List.cons_append, split, join, ← split, join_eq]
    · simp
    · simp

end Text

/-- A word of ASCII letters. -/
structure Word where
  letters : List Char
  nonempty : letters ≠ []
  alphabetic : ∀ c ∈ letters, c.isAlpha = true

/-- Words with single spaces between them. -/
structure Phrase where
  words : List Word
  nonempty : words ≠ []

namespace Phrase

variable (phrase : Phrase)

/-- A phrase as it is written. -/
def text : List Char :=
  Text.join [' '] (phrase.words.map Word.letters)

theorem mem_text {c : Char} (mem : c ∈ phrase.text) : c.isAlpha = true ∨ c = ' ' := by
  rcases Text.mem_join mem with space | ⟨letters, letters_mem, inLetters⟩
  · exact .inr (by simpa using space)
  · obtain ⟨word, _, rfl⟩ := List.mem_map.mp letters_mem
    exact .inl (word.alphabetic c inLetters)

/-- A character that is neither a letter nor a space does not occur in a phrase. -/
theorem not_mem_text {c : Char} (noLetter : c.isAlpha = false) (noSpace : c ≠ ' ') :
    c ∉ phrase.text := by
  intro mem
  rcases phrase.mem_text mem with letter | space
  · simp [noLetter] at letter
  · exact noSpace space

theorem exists_text_cons : ∃ c rest, phrase.text = c :: rest ∧ c.isAlpha = true := by
  obtain ⟨word, words, words_eq⟩ := List.exists_cons_of_ne_nil phrase.nonempty
  obtain ⟨c, letters, letters_eq⟩ := List.exists_cons_of_ne_nil word.nonempty
  obtain ⟨rest, join_eq⟩ := Text.exists_join_cons [' '] word.letters (words.map Word.letters)
  refine ⟨c, letters ++ rest, ?_, word.alphabetic c (by simp [letters_eq])⟩
  rw [text, words_eq, List.map_cons, join_eq, letters_eq, List.cons_append]

theorem exists_text_concat : ∃ front c, phrase.text = front ++ [c] ∧ c.isAlpha = true := by
  obtain ⟨words, word, words_eq⟩ : ∃ words word, phrase.words = words ++ [word] :=
    ⟨_, _, (List.dropLast_concat_getLast phrase.nonempty).symm⟩
  obtain ⟨letters, c, letters_eq⟩ : ∃ letters c, word.letters = letters ++ [c] :=
    ⟨_, _, (List.dropLast_concat_getLast word.nonempty).symm⟩
  obtain ⟨rest, join_eq⟩ := Text.exists_join_concat [' '] word.letters (words.map Word.letters)
  refine ⟨rest ++ letters, c, ?_, word.alphabetic c (by simp [letters_eq])⟩
  rw [text, words_eq, List.map_append, List.map_cons, List.map_nil, join_eq, letters_eq,
    List.append_assoc]

theorem text_ne_nil : phrase.text ≠ [] := by
  obtain ⟨c, rest, text_eq, _⟩ := phrase.exists_text_cons
  simp [text_eq]

theorem stops_text : Text.Stops Text.isBlank phrase.text := by
  obtain ⟨c, rest, text_eq, letter⟩ := phrase.exists_text_cons
  simpa [text_eq] using Text.isBlank_of_isAlpha letter

theorem stops_text_reverse : Text.Stops Text.isBlank phrase.text.reverse := by
  obtain ⟨front, c, text_eq, letter⟩ := phrase.exists_text_concat
  simpa [text_eq] using Text.isBlank_of_isAlpha letter

theorem strip_text : Text.strip phrase.text = phrase.text :=
  Text.strip_eq_self phrase.stops_text phrase.stops_text_reverse

theorem hasInk_text : Text.hasInk phrase.text = true := by
  obtain ⟨c, rest, text_eq, letter⟩ := phrase.exists_text_cons
  simp [text_eq, Text.hasInk, Text.isBlank_of_isAlpha letter]

theorem newline_not_mem_text : '\n' ∉ phrase.text :=
  phrase.not_mem_text (by decide) (by decide)

end Phrase

end Markflow
