import Markflow.Captures
import Markflow.Pattern.Compiled

/-!
# Replacing matches

The matches of a pattern are found first and then rendered from left to right; the outputs take the
places of the matches, and all other text stays.  So what is put in is never searched in turn.
-/

namespace Markflow

/-- The text from a place on, with outputs in place of the matches. -/
def splice (place : Regex.Cursor) : List (Match × String) → List Char
  | [] => place.after
  | (found, output) :: more =>
    place.between found.start ++ output.toList ++ splice found.stop more

namespace Pattern

/-- The captures of a match. -/
def capturesOf (pattern : Pattern) (found : Match) : Captures :=
  .ofMatch pattern.regex.names found

/-- Replaces the matches by what `output` makes of their captures; also the number of matches. -/
def replace {m : Type → Type} [Monad m] (pattern : Pattern) (output : Captures → m String)
    (text : String) : m (String × Nat) := do
  let found := pattern.findIn text.toList
  let outputs ← found.mapM fun one => output (pattern.capturesOf one)
  let replaced := splice (.atStart text.toList) (found.zip outputs)
  return (String.ofList replaced, found.length)

end Pattern

end Markflow
