/-!
# Places in a text

A cursor is a text with a place in it: the characters before the place, nearest first, and those
after it.  Going forward and back and looking at either neighbour take constant time, and what a
cursor sees ahead of it is a plain list.
-/

namespace Markflow.Regex

/-- A place in a text. -/
structure Cursor where
  /-- The characters before the place, nearest first. -/
  before : List Char
  after : List Char
  offset : Nat
  /-- How many characters are ahead. -/
  ahead : Nat
  offset_eq : offset = before.length
  ahead_eq : ahead = after.length

namespace Cursor

/-- The start of a text. -/
def atStart (text : List Char) : Cursor :=
  ⟨[], text, 0, text.length, rfl, rfl⟩

/-- The place between two texts, the first of which is given backwards. -/
def amid (before after : List Char) : Cursor :=
  ⟨before, after, before.length, after.length, rfl, rfl⟩

instance : Inhabited Cursor := ⟨atStart []⟩

/-- The whole text. -/
def text (c : Cursor) : List Char :=
  c.before.reverse ++ c.after

/-- The next character, and the place behind it. -/
def next? : Cursor → Option (Char × Cursor)
  | ⟨_, [], _, _, _, _⟩ => none
  | ⟨before, x :: after, offset, ahead, passed, coming⟩ =>
    some (x, ⟨x :: before, after, offset + 1, ahead - 1, by simp [passed], by simp [coming]⟩)

/-- The place before the previous character. -/
def back? : Cursor → Option Cursor
  | ⟨[], _, _, _, _, _⟩ => none
  | ⟨x :: before, after, offset, ahead, passed, coming⟩ =>
    some ⟨before, x :: after, offset - 1, ahead + 1, by simp [passed], by simp [coming]⟩

/-- The place some characters back, if there are so many. -/
def backBy? : Nat → Cursor → Option Cursor
  | 0, c => some c
  | n + 1, c => c.back?.bind (backBy? n)

/-- The text between two places, the second not before the first. -/
def between (start stop : Cursor) : List Char :=
  start.after.take (stop.offset - start.offset)

@[simp] theorem text_atStart (text : List Char) : (atStart text).text = text := by
  simp [atStart, Cursor.text]

end Cursor

end Markflow.Regex
