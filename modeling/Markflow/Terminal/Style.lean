import Markflow.Terminal.Drawing

/-!
# Styled text

Text for a terminal is made of runs, each in one style.  Where colours are shown a run stands
between the escape code of its style and the code that ends it.
-/

namespace Markflow.Terminal

/-- The escape code of a style. -/
def Style.code? : Style → Option String
  | plain => none
  | green => some "32"
  | yellow => some "33"
  | cyan => some "36"
  | white => some "37"
  | bold => some "1"
  | dim => some "2"
  | boldBlue => some "1;34"

namespace Run

/-- The form of a run, which is nothing for no text. -/
def write (colours : Bool) (run : Run) : String :=
  if run.text.isEmpty then ""
  else match run.style.code? with
    | some code => if colours then s!"\x1b[{code}m{run.text}\x1b[0m" else run.text
    | none => run.text

/-- The characters of a run, each with its style. -/
def characters (run : Run) : List (Style × Char) :=
  run.text.toList.map fun c => (run.style, c)

/-- The longest runs of some characters. -/
def ofCharacters : List (Style × Char) → List Run
  | [] => []
  | (style, c) :: rest => match ofCharacters rest with
    | run :: runs =>
      if run.style = style then ⟨style, String.singleton c ++ run.text⟩ :: runs
      else ⟨style, String.singleton c⟩ :: run :: runs
    | [] => [⟨style, String.singleton c⟩]

/-- How many columns some runs take. -/
def width (runs : List Run) : Nat :=
  runs.foldl (fun width run => width + run.text.length) 0

/-- Some runs with blanks after them up to a width. -/
def pad (width : Nat) (runs : List Run) : List Run :=
  runs ++ [plain (String.ofList (List.replicate (width - Run.width runs) ' '))]

end Run

/-- The form of a line with its end. -/
def writeLine (colours : Bool) (runs : List Run) : String :=
  String.join (runs.map (·.write colours)) ++ "\n"

/-- A text of as many equal characters as wanted. -/
def repeated (c : Char) (count : Nat) : String :=
  String.ofList (List.replicate count c)

/-- Text without the control characters that move a terminal's cursor or ring its bell; line feeds
and tabs stay. -/
def withoutControls (text : String) : String :=
  let controls := [0x07, 0x08, 0x0B, 0x0C, 0x0D]
  String.ofList (text.toList.filter fun c => !controls.contains c.toNat)

/-- A run without control characters. -/
def Run.clean (run : Run) : Run :=
  { run with text := withoutControls run.text }

end Markflow.Terminal
