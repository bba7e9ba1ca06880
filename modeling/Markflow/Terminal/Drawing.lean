/-!
# Drawings

What is handed over to be drawn for a terminal: text in styles, panels and tables.
-/

namespace Markflow.Terminal

/-- The style of a run of text. -/
inductive Style where
  | plain
  | green
  | yellow
  | cyan
  | white
  | bold
  | dim
  | boldBlue
  deriving DecidableEq, Repr, Inhabited

/-- Text in one style. -/
structure Run where
  style : Style
  text : String
  deriving DecidableEq, Repr, Inhabited

/-- A run without style. -/
def Run.plain (text : String) : Run :=
  ⟨.plain, text⟩

/-- A title or the text of a cell. -/
inductive Label where
  /-- Text that is drawn as it is. -/
  | text (run : Run)
  /-- Text in which square brackets mark styles. -/
  | markup (source : String)
  deriving DecidableEq, Repr, Inhabited

/-- Text in a box. -/
structure Panel where
  title : Label
  /-- Whether the title stands in the middle of the border and not at its start. -/
  centred : Bool
  body : List Run
  deriving Repr, Inhabited

/-- A column of a table. -/
structure Column where
  header : String
  style : Style := .plain
  right : Bool := false
  /-- Whether words that are too long are cut into pieces; else the line is cut off. -/
  fold : Bool := false
  deriving Repr, Inhabited

/-- A table. -/
structure Table where
  title : Run
  columns : List Column
  rows : List (List Label)
  deriving Repr, Inhabited

/-- One of the things that are drawn one below the other. -/
inductive Piece where
  | text (runs : List Run)
  | panel (panel : Panel)
  | table (table : Table)
  deriving Repr, Inhabited

/-- What is drawn on: a text for help with colours, or the standard output. -/
inductive Screen where
  | help
  | output
  deriving DecidableEq, Repr, Inhabited

end Markflow.Terminal
