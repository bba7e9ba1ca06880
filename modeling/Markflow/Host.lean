import Markflow.Text.CharacterName
import Markflow.Text.Digit

/-!
# What the program runs on

Two things that readers of text depend on are settled below the program: which names characters
have, and for how many calls inside each other there is room.  The theory takes them as they come,
in the class `Host`.  A limit that is known is that of the digits of a number.
-/

namespace Markflow

/-- A construct whose reader calls itself for what stands inside. -/
inductive Nesting where
  /-- A group of a regular expression, save a condition. -/
  | group
  /-- A group of a regular expression that is a condition. -/
  | condition
  | jsonList
  | jsonTable
  | tomlList
  | tomlTable
  deriving DecidableEq, Repr, Inhabited

/-- What the program runs on. -/
class Host where
  /-- The character that has a name. -/
  character? : (name : String) → Option Char
  /-- Whether there is no room for one more call of a reader inside some constructs, the innermost
  first. -/
  exhausted : (around : List Nesting) → Bool
  /-- Whether there is no room for so many calls inside each other that go through what is read of
  an expression. -/
  overrun : (calls : Nat) → Bool

/-- A limit that something goes beyond. -/
inductive Excess where
  /-- A number has more digits than are read. -/
  | digits (count : Nat)
  /-- A number has more digits than are written. -/
  | form
  /-- There is no room for the calls of a reader. -/
  | calls
  deriving DecidableEq, Repr, Inhabited

namespace Excess

/-- The greatest number of digits that are read and written in base ten. -/
def digitLimit : Nat := 4300

/-- The wording of a limit that something goes beyond. -/
def message : Excess → String
  | digits count =>
    s!"Exceeds the limit ({digitLimit} digits) for integer string conversion: "
      ++ s!"value has {count} digits; use sys.set_int_max_str_digits() to increase the limit"
  | form =>
    s!"Exceeds the limit ({digitLimit} digits) for integer string conversion; "
      ++ "use sys.set_int_max_str_digits() to increase the limit"
  | calls => "maximum recursion depth exceeded"

end Excess

/-- Why a text cannot be read as data. -/
inductive ReadFault where
  /-- The text is not of the format. -/
  | malformed
  | excess (cause : Excess)
  /-- A failure of another kind. -/
  | raised (kind message : String)
  deriving DecidableEq, Repr, Inhabited

namespace ReadFault

/-- What a reader comes to whose only failure is that the text is not of the format. -/
def ofOption {α : Type} : Option α → Except ReadFault α
  | some result => .ok result
  | none => .error .malformed

end ReadFault

/-- The number that digits denote in base ten. -/
def Text.decimal (digits : List Char) : Except Excess Nat :=
  if Excess.digitLimit < digits.length then .error (.digits digits.length)
  else .ok (Text.baseValue 10 digits)

namespace Host

/-- How many constructs inside each other there is always room for, and how many calls. -/
def assuredNesting : Nat := 32

/-- Whether there is no room for the call of a reader inside some constructs. -/
def isTooDeep [Host] (around : List Nesting) : Bool :=
  assuredNesting < around.length && exhausted around

/-- Whether there is no room for so many calls that go through what is read of an expression. -/
def isTooTall [Host] (calls : Nat) : Bool :=
  assuredNesting < calls && overrun calls

/-- How many calls the reader of a construct makes inside each other. -/
def frames : Nesting → Nat
  | .group => 2
  | .condition => 1
  | .jsonList => 1
  | .jsonTable => 1
  | .tomlList => 2
  | .tomlTable => 3

/-- A host that knows the names of the printable characters of Latin-1 and has room for a number
of calls. -/
@[reducible]
def withRoom (calls : Nat) : Host where
  character? := Text.characterNamed?
  exhausted around := calls < around.foldl (fun count nesting => count + frames nesting) 0
  overrun height := calls < height

/-- The host with the usual room for calls. -/
@[reducible]
def standard : Host :=
  withRoom 980

end Host

end Markflow
