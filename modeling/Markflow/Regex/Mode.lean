import Markflow.Regex.CharSet

/-!
# Modes

What letters, dots and line anchors mean at a place of an expression.  The flags given with an
expression set the mode of the whole; flags written inside set it for a part.
-/

namespace Markflow.Regex

/-- The options that decide how an expression is read at a place. -/
structure Mode where
  ignoreCase : Bool := false
  /-- Line anchors hold at every line. -/
  multiline : Bool := false
  /-- A dot matches a line feed too. -/
  dotAll : Bool := false
  /-- White space and comments in the expression are skipped. -/
  verbose : Bool := false
  /-- The character classes hold characters of ASCII alone. -/
  ascii : Bool := false
  deriving DecidableEq, Repr, Inhabited

namespace Mode

/-- How letters are compared. -/
def caseMode (mode : Mode) : CaseMode :=
  if mode.ignoreCase then (if mode.ascii then .ascii else .unicode) else .exact

/-- The mode with a flag set or taken back; the flags `a` and `u` exclude each other. -/
def set (mode : Mode) (value : Bool) : Char → Mode
  | 'i' => { mode with ignoreCase := value }
  | 'm' => { mode with multiline := value }
  | 's' => { mode with dotAll := value }
  | 'x' => { mode with verbose := value }
  | 'a' => { mode with ascii := value }
  | 'u' => { mode with ascii := !value }
  | _ => mode

/-- The mode with some flags set and then some taken back. -/
def adjust (mode : Mode) (on off : List Char) : Mode :=
  off.foldl (·.set false ·) (on.foldl (·.set true ·) mode)

end Mode

end Markflow.Regex
