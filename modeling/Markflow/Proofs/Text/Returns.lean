import Markflow.Proofs.Text.Lines
import Markflow.Text.Blank
import Mathlib.Data.List.Forall2

/-!
# Carriage returns

A text may end its lines with a carriage return and a line feed.  Its lines are those of the same
text with line feeds alone, with a carriage return at the end of each but the last (`Returned`).
-/

namespace Markflow.Text

/-- A text with a carriage return before each line feed. -/
def withReturns (text : List Char) : List Char :=
  text.flatMap fun c => if c = '\n' then ['\r', '\n'] else [c]

/-- A text without its carriage returns. -/
def withoutReturns (text : List Char) : List Char :=
  text.filter (· != '\r')

/-- A line without carriage returns, and the line that it may become where line endings have
them. -/
structure Returned (line other : List Char) : Prop where
  bare : '\r' ∉ line
  ending : other = line ∨ other = line ++ ['\r']

section WithoutReturns

variable {text line other : List Char} {ls others : List (List Char)}

@[simp]
theorem withoutReturns_nil : withoutReturns [] = [] := rfl

@[simp]
theorem withoutReturns_append (first second : List Char) :
    withoutReturns (first ++ second) = withoutReturns first ++ withoutReturns second :=
  List.filter_append first second

@[simp]
theorem withoutReturns_return (text : List Char) :
    withoutReturns ('\r' :: text) = withoutReturns text := rfl

theorem withoutReturns_cons {c : Char} (other : c ≠ '\r') (text : List Char) :
    withoutReturns (c :: text) = c :: withoutReturns text :=
  List.filter_cons_of_pos (by simpa using other)

theorem return_not_mem_withoutReturns (text : List Char) : '\r' ∉ withoutReturns text := by
  simp [withoutReturns]

theorem withoutReturns_eq_self (bare : '\r' ∉ text) : withoutReturns text = text := by
  apply List.filter_eq_self.mpr
  intro c mem
  simpa using ne_of_mem_of_not_mem mem bare

theorem withoutReturns_between {front back : List Char} (front_bare : '\r' ∉ front)
    (back_bare : '\r' ∉ back)
    (text : List Char) :
    withoutReturns (front ++ text ++ back) = front ++ withoutReturns text ++ back := by
  rw [withoutReturns_append, withoutReturns_append, withoutReturns_eq_self front_bare,
    withoutReturns_eq_self back_bare]

theorem withoutReturns_join (ls : List (List Char)) :
    withoutReturns (join ['\n'] ls) = join ['\n'] (ls.map withoutReturns) := by
  have feed : ∀ text, withoutReturns ('\n' :: text) = '\n' :: withoutReturns text :=
    withoutReturns_cons (by decide)
  fun_induction join ['\n'] ls with
  | case1 => rfl
  | case2 line => rfl
  | case3 line more apart ih =>
    rcases List.exists_cons_of_ne_nil apart with ⟨next, below, rfl⟩
    simp [ih, join, feed]

theorem Returned.withoutReturns (returned : Returned line other) : withoutReturns other = line := by
  rcases returned.ending with rfl | rfl
  · exact withoutReturns_eq_self returned.bare
  · simp [withoutReturns_eq_self returned.bare]

section Reading

variable {β : Type} (read : List Char → β)
    (unread : ∀ line, '\r' ∉ line → read (line ++ ['\r']) = read line)

include unread

/-- What is read of a line is read of it with a carriage return at its end. -/
theorem Returned.congr (returned : Returned line other) : read other = read line := by
  rcases returned.ending with rfl | rfl
  · rfl
  · exact unread line returned.bare

theorem map_returned (returned : List.Forall₂ Returned ls others) :
    others.map read = ls.map read := by
  induction returned with
  | nil => rfl
  | cons first below ih => rw [List.map_cons, List.map_cons, first.congr read unread, ih]

end Reading

theorem map_withoutReturns (returned : List.Forall₂ Returned ls others) :
    others.map withoutReturns = ls := by
  induction returned with
  | nil => rfl
  | cons first below ih => rw [List.map_cons, first.withoutReturns, ih]

theorem return_not_mem_of_returned (returned : List.Forall₂ Returned ls others) :
    ∀ line ∈ ls, '\r' ∉ line := by
  rw [← map_withoutReturns returned]
  intro line mem
  rcases List.mem_map.mp mem with ⟨other, -, rfl⟩
  exact return_not_mem_withoutReturns other

theorem map_withoutReturns_eq_self (bare : ∀ line ∈ ls, '\r' ∉ line) :
    ls.map withoutReturns = ls := by
  rw [List.map_congr_left fun line mem => withoutReturns_eq_self (bare line mem), List.map_id']

/-- The lines of a text with a carriage return before each line feed. -/
theorem returned_lines (bare : '\r' ∉ text) :
    List.Forall₂ Returned (lines text) (lines (withReturns text)) := by
  fun_induction lines text with
  | case1 => exact .cons ⟨bare, .inl rfl⟩ .nil
  | case2 rest ih =>
    have below := ih (List.not_mem_of_not_mem_cons bare)
    exact .cons ⟨List.not_mem_nil, .inr rfl⟩ below
  | case3 c rest apart line more split ih =>
    have below := ih (List.not_mem_of_not_mem_cons bare)
    have front : '\r' ∉ [c] := by simpa using (List.ne_of_not_mem_cons bare)
    have kept : withReturns (c :: rest) = c :: withReturns rest := by
      rw [withReturns, List.flatMap_cons, if_neg apart]
      rfl
    rw [split] at below
    rcases lines_eq : lines (withReturns rest) with _ | ⟨other, others⟩
    · exact absurd lines_eq (lines_ne_nil _)
    · rw [lines_eq] at below
      cases below with
      | cons first below =>
        have longer : lines (c :: withReturns rest) = (c :: other) :: others := by
          rw [lines.eq_def]
          simp [lines_eq]
        rw [kept, longer]
        refine .cons ⟨?_, ?_⟩ below
        · exact List.not_mem_append front first.bare
        · exact first.ending.imp (congrArg (c :: ·)) (congrArg (c :: ·))
  | case4 c rest apart split ih => exact absurd split (lines_ne_nil rest)

end WithoutReturns

section Concat

variable {test : Char → Bool} {c : Char}

theorem takeWhile_concat (stops : test c = false) (text : List Char) :
    (text ++ [c]).takeWhile test = text.takeWhile test := by
  rcases exists_cut test text with ⟨front, back, rfl, passed, ends⟩
  rw [List.append_assoc, takeWhile_cut passed ends,
    takeWhile_cut passed (ends.append (stops_cons.mpr stops))]

theorem dropWhile_concat (stops : test c = false) (text : List Char) :
    (text ++ [c]).dropWhile test = text.dropWhile test ++ [c] := by
  rcases exists_cut test text with ⟨front, back, rfl, passed, ends⟩
  rw [List.append_assoc, dropWhile_cut passed ends,
    dropWhile_cut passed (ends.append (stops_cons.mpr stops))]

theorem strip_concat (blank : isBlank c = true) (text : List Char) :
    strip (text ++ [c]) = strip text := by
  have right : ∀ text, stripRight (text ++ [c]) = stripRight text := by
    intro text
    simp [stripRight, blank]
  rw [strip, strip, stripLeft, List.dropWhile_append]
  split
  · next none_left =>
    have left : stripLeft text = [] := List.isEmpty_iff.mp none_left
    simp [blank, left]
  · exact right _

theorem hasInk_concat (blank : isBlank c = true) (text : List Char) :
    hasInk (text ++ [c]) = hasInk text := by
  simp [hasInk, blank]

end Concat

end Markflow.Text
