import Markflow.Fault
import Markflow.Log
import Markflow.Terminal.Drawing

/-!
# Libraries

The program leaves the reading of YAML and the drawing for terminals to libraries of others.  What
they do is taken as it comes, failures of any kind included.
-/

namespace Markflow

/-- What the libraries of others do. -/
class Libraries where
  /-- The value of the document in a file of YAML. -/
  yaml : (bytes : List UInt8) → Except ReadFault Value
  /-- The text to be drawn that a value makes. -/
  cellText : Value → Except Fault String
  /-- How some pieces look. -/
  draw : Terminal.Screen → List Terminal.Piece → Except Fault String
  /-- How a record looks in columns, with the time if it is shown. -/
  logLines : (time : Option String) → Record → String

end Markflow
