import Markflow.Text.Lines
import Mathlib.Data.List.TakeWhile

/-!
# Cutting texts

A text is cut behind its longest beginning of characters that satisfy a test.  The cut is determined
by what it gives: characters that satisfy the test, and a rest that does not go on with one
(`Stops`).
-/

namespace Markflow.Text

/-- What holds of all characters of a text is decided on these, not on all characters there are. -/
instance decidableForallMem {holds : Char → Prop} [DecidablePred holds] (text : List Char) :
    Decidable (∀ c ∈ text, holds c) :=
  List.decidableBAll holds text

instance decidableExistsMem {holds : Char → Prop} [DecidablePred holds] (text : List Char) :
    Decidable (∃ c ∈ text, holds c) :=
  List.decidableBEx holds text

/-- Whether a text does not start with a character that satisfies a test. -/
def Stops (test : Char → Bool) (rest : List Char) : Prop :=
  ∀ c ∈ rest.head?, test c = false

theorem take_length_takeWhile {α : Type} (test : α → Bool) (items : List α) :
    items.take (items.takeWhile test).length = items.takeWhile test :=
  (List.prefix_iff_eq_take.mp (List.takeWhile_prefix test)).symm

theorem drop_length_takeWhile {α : Type} (test : α → Bool) (items : List α) :
    items.drop (items.takeWhile test).length = items.dropWhile test := by
  have split := List.take_append_drop (items.takeWhile test).length items
  rw [take_length_takeWhile] at split
  exact List.append_cancel_left (split.trans List.takeWhile_append_dropWhile.symm)

theorem infix_append_left {piece text : List Char} (front : List Char) (inText : piece <:+: text) :
    piece <:+: front ++ text :=
  inText.trans (List.suffix_append front text).isInfix

theorem infix_append_right {piece text : List Char} (back : List Char) (inText : piece <:+: text) :
    piece <:+: text ++ back :=
  inText.trans (List.prefix_append text back).isInfix

/-- Of two ways to cut a text the earlier cut leaves more. -/
theorem exists_more {text rest text' rest' : List Char} (same : text ++ rest = text' ++ rest')
    (shorter : text'.length ≤ text.length) :
    ∃ more, text = text' ++ more ∧ rest' = more ++ rest := by
  rcases List.append_eq_append_iff.mp same with ⟨more, longer, rest_eq⟩ | ⟨more, text_eq, rest'_eq⟩
  · obtain rfl : more = [] := by
      rw [longer, List.length_append] at shorter
      exact List.length_eq_zero_iff.mp (by omega)
    exact ⟨[], by simpa using longer.symm, by simpa using rest_eq.symm⟩
  · exact ⟨more, text_eq, rest'_eq⟩

section Stops

variable {test : Char → Bool} {front back : List Char}

@[simp]
theorem stops_nil : Stops test [] := by
  simp [Stops]

@[simp]
theorem stops_cons {c : Char} {rest : List Char} : Stops test (c :: rest) ↔ test c = false := by
  simp [Stops]

theorem Stops.append (first : Stops test front) (second : Stops test back) :
    Stops test (front ++ back) := by
  cases front with
  | nil => simpa using second
  | cons c front => simpa using first

theorem stops_append_iff (front_ne : front ≠ []) :
    Stops test (front ++ back) ↔ Stops test front := by
  obtain ⟨c, rest, rfl⟩ := List.exists_cons_of_ne_nil front_ne
  rw [List.cons_append, stops_cons, stops_cons]

theorem stops_dropWhile (text : List Char) : Stops test (text.dropWhile test) := by
  intro c mem
  have := List.head?_dropWhile_not test text
  rw [Option.mem_def.mp mem] at this
  simpa using this

/-- A text can be cut behind the characters that satisfy a test. -/
theorem exists_cut (test : Char → Bool) (text : List Char) :
    ∃ front back, text = front ++ back ∧ (∀ c ∈ front, test c = true) ∧ Stops test back :=
  ⟨text.takeWhile test, text.dropWhile test, List.takeWhile_append_dropWhile.symm,
    fun _ => List.mem_takeWhile_imp, stops_dropWhile text⟩

variable (passed : ∀ c ∈ front, test c = true) (stops : Stops test back)

include passed stops

theorem takeWhile_cut : (front ++ back).takeWhile test = front := by
  rw [List.takeWhile_append_of_pos passed]
  cases back with
  | nil => simp
  | cons c rest => simp [stops_cons.mp stops]

theorem dropWhile_cut : (front ++ back).dropWhile test = back := by
  rw [List.dropWhile_append_of_pos passed]
  cases back with
  | nil => simp
  | cons c rest => simp [stops_cons.mp stops]

omit passed in
/-- No longer beginning satisfies a test throughout. -/
theorem length_le_of_stops {text rest : List Char} (all : ∀ c ∈ text, test c = true)
    (same : front ++ back = text ++ rest) : text.length ≤ front.length := by
  by_contra longer
  obtain ⟨more, text_eq, back_eq⟩ := exists_more same.symm (by omega)
  rcases more with _ | ⟨c, more⟩
  · simp [text_eq] at longer
  · have goesOn := all c (by simp [text_eq])
    simp [back_eq, goesOn] at stops

/-- A text is cut in one way alone. -/
theorem cut_unique {front' back' : List Char} (passed' : ∀ c ∈ front', test c = true)
    (stops' : Stops test back') (same : front ++ back = front' ++ back') :
    front = front' ∧ back = back' := by
  refine ⟨?_, ?_⟩
  · rw [← takeWhile_cut passed stops, same, takeWhile_cut passed' stops']
  · rw [← dropWhile_cut passed stops, same, dropWhile_cut passed' stops']

omit passed stops in
/-- A text is cut in one way alone before the characters at its end that satisfy a test. -/
theorem cut_unique_end {front' back' : List Char} (ends : Stops test front.reverse)
    (passed : ∀ c ∈ back, test c = true)
    (ends' : Stops test front'.reverse) (passed' : ∀ c ∈ back', test c = true)
    (same : front ++ back = front' ++ back') :
    front = front' ∧ back = back' := by
  have reversed : back.reverse ++ front.reverse = back'.reverse ++ front'.reverse := by
    rw [← List.reverse_append, same, List.reverse_append]
  have cut := cut_unique (fun c mem => passed c (List.mem_reverse.mp mem)) ends
    (fun c mem => passed' c (List.mem_reverse.mp mem)) ends' reversed
  exact ⟨List.reverse_inj.mp cut.2, List.reverse_inj.mp cut.1⟩

end Stops

end Markflow.Text
