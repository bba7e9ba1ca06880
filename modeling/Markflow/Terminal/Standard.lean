import Markflow.Data.Yaml.Reader
import Markflow.Terminal.Markup
import Markflow.Terminal.Panel
import Markflow.Terminal.Table
import Markflow.Text.Lines
import Markflow.Text.Utf8

/-!
# Libraries to run with

A reader of the plain part of YAML, without anchors, tags and directives, and drawings of a fixed
width.
-/

namespace Markflow

namespace Terminal

/-- How wide drawings are. -/
def Screen.width : Screen → Nat
  | help => 100
  | output => 80

/-- The lines of a piece. -/
def Piece.lines (width : Nat) : Piece → Except Fault (List (List Run))
  | text runs => return wrapRuns width (runs.map Run.clean)
  | panel p => return p.lines (← p.title.resolve) width
  | table t => do
    let rows ← t.rows.mapM fun row => row.mapM fun label => (·.text) <$> label.resolve
    return t.lines rows width

/-- The form of some pieces. -/
def drawPieces (screen : Screen) (pieces : List Piece) : Except Fault String := do
  let lines ← pieces.mapM (Piece.lines screen.width)
  return String.join (lines.flatten.map (writeLine (screen = .help)))

/-- The width of the column of levels. -/
def levelWidth : Nat := 8

/-- The width of the column of messages. -/
def messageWidth : Nat := 71

/-- A text with blanks behind it up to a width. -/
def padded (width : Nat) (text : String) : String :=
  text ++ repeated ' ' (width - text.length)

/-- A record in columns; a long message goes on in its column. -/
def columnLines (entry : Record) : String :=
  let lines := wrapCell messageWidth true entry.message
  String.join (lines.mapIdx fun i line =>
    let level := if i = 0 then entry.level.name else ""
    padded levelWidth level ++ " " ++ padded messageWidth line ++ "\n")

end Terminal

/-- The characters of a file that is decoded piece by piece: when its end cuts a sequence short,
nothing but that sequence is left to be decoded, so that the failure is at offset zero. -/
def decodeStream (bytes : List UInt8) : Except ReadFault (List Char) :=
  (Text.Utf8.decode bytes).mapError fun cause =>
    let cause := if cause.fault = .unexpectedEnd then { cause with offset := 0 } else cause
    .raised "UnicodeDecodeError" cause.message

/-- Libraries to run with. -/
@[reducible]
def Libraries.standard : Libraries where
  yaml bytes := do ReadFault.ofOption (Yaml.read? (Text.unifyBreaks (← decodeStream bytes)))
  cellText
    | .text text => .ok text
    | value => .error (.noAttribute value.kindName "translate")
  draw := Terminal.drawPieces
  logLines _ := Terminal.columnLines

end Markflow
