import Markflow.Terminal.Wrap

/-!
# Tables

A table has a title, columns with headers and rows of cells.  A column is as wide as its longest
line; when the table is wider than it may be, the widest columns give up the excess, first down to
the next widest and then together.
-/

namespace Markflow.Terminal

namespace Table

/-- The quotient of two numbers rounded to the nearest, a half to the even neighbour. -/
def roundedQuotient (dividend divisor : Nat) : Nat :=
  let quotient := dividend / divisor
  let twice := 2 * (dividend % divisor)
  if divisor < twice || (twice == divisor && quotient % 2 == 1) then quotient + 1 else quotient

/-- Takes an excess from the chosen widths in equal shares, at most `most` from each; `count` is the
number of chosen widths that are left. -/
def reduce (chosen : Nat → Bool) (most : Nat) : (excess count : Nat) → List Nat → List Nat
  | _, _, [] => []
  | excess, count, width :: widths =>
    if chosen width && 0 < count then
      let share := min most (roundedQuotient excess count)
      (width - share) :: reduce chosen most (excess - share) (count - 1) widths
    else width :: reduce chosen most excess count widths

/-- The greatest of some numbers, zero for none. -/
def greatest (numbers : List Nat) : Nat :=
  numbers.foldl max 0

/-- The sum of some numbers. -/
def total (numbers : List Nat) : Nat :=
  numbers.foldl (· + ·) 0

/-- The widths with the excess over a limit taken from the widest columns. -/
def collapse (limit : Nat) : (fuel : Nat) → List Nat → List Nat
  | 0, widths => widths
  | fuel + 1, widths =>
    let excess := total widths - limit
    if excess = 0 then widths
    else
      let widest := greatest widths
      let second := greatest (widths.filter (· != widest))
      if widest = second then widths
      else
        let count := (widths.filter (· == widest)).length
        collapse limit fuel
          (reduce (· == widest) (min excess (widest - second)) excess count widths)

/-- The width of the longest line of a text. -/
def longestLine (text : String) : Nat :=
  greatest ((splitLines id text.toList).map List.length)

/-- The widths that the columns would take, with a blank on either side. -/
def naturalWidths (table : Table) (rows : List (List String)) : List Nat :=
  table.columns.mapIdx fun i column =>
    greatest ((column.header :: rows.map fun row => (row[i]?).getD "").map longestLine) + 2

/-- The widths of the columns in a table that may have the given width. -/
def widths (table : Table) (rows : List (List String)) (width : Nat) : List Nat :=
  let natural := table.naturalWidths rows
  let limit := width - (table.columns.length + 1)
  collapse limit (natural.length + total natural + 1) natural

/-- A text with blanks up to a width, on its left or its right. -/
def justify (right : Bool) (width : Nat) (text : String) : String :=
  let text := if right then String.ofList (Text.stripRight text.toList) else text
  let blanks := repeated ' ' (width - text.length)
  if right then blanks ++ text else text ++ blanks

/-- The lines of a cell of a width. -/
def cellLines (column : Column) (style : Style) (width : Nat) (text : String) : List (List Run) :=
  (wrapCell (width - 2) column.fold text).map fun line =>
    [⟨style, " "⟩, ⟨style, justify column.right (width - 2) line⟩, ⟨style, " "⟩]

/-- The lines of a row between its borders.  A cell with fewer lines than the others has blank lines
below its text, or with `bottom` above it. -/
def rowLines (bottom : Bool) (border : String) (cells : List (Style × Nat × List (List Run))) :
    List (List Run) :=
  let height := greatest (cells.map fun (_, _, lines) => lines.length)
  let full := cells.map fun (style, width, lines) =>
    let blank := List.replicate (height - lines.length) [(⟨style, repeated ' ' width⟩ : Run)]
    if bottom then blank ++ lines else lines ++ blank
  (List.range height).map fun i =>
    [Run.plain border] ++ (full.flatMap fun lines => (lines[i]?).getD [] ++ [.plain border])

/-- A horizontal border. -/
def rule (left line cross right : String) (widths : List Nat) : List Run :=
  [.plain (left ++ cross.intercalate (widths.map fun width =>
    String.join (List.replicate width line)) ++ right)]

/-- The title in the middle above the table. -/
def titleLine (table : Table) (width : Nat) : List Run :=
  let left := (width - table.title.text.length) / 2
  let right := width - table.title.text.length - left
  [⟨table.title.style, repeated ' ' left ++ table.title.text ++ repeated ' ' right⟩]

/-- The lines of a table with the given rows that may have the given width. -/
def lines (table : Table) (rows : List (List String)) (width : Nat) : List (List Run) :=
  let widths := table.widths rows width
  let header := (table.columns.zip widths).map fun (column, width) =>
    (Style.bold, width, cellLines column .bold width column.header)
  let rows := rows.flatMap fun row =>
    rowLines false "│" (((table.columns.zip widths).zip row).map fun ((column, width), text) =>
      (column.style, width, cellLines column column.style width text))
  [table.titleLine (total widths + table.columns.length + 1), rule "┏" "━" "┳" "┓" widths]
    ++ rowLines true "┃" header ++ [rule "┡" "━" "╇" "┩" widths] ++ rows
    ++ [rule "└" "─" "┴" "┘" widths]

end Table

end Markflow.Terminal
