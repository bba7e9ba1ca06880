import Markflow.Data.Value
import Markflow.Log
import Markflow.Text.Case

/-!
# Verbosity

Records below a level are left out.  A level is a number, or one of several names in any case; a
name that is unknown stands for warnings.
-/

namespace Markflow.CommandLine

/-- The names of levels with their numbers. -/
def levelNumbers : List (String × Int) :=
  [("CRITICAL", 50), ("FATAL", 50), ("ERROR", 40), ("WARN", 30), ("WARNING", 30), ("INFO", 20),
    ("DEBUG", 10), ("NOTSET", 0)]

/-- The level that a value stands for.  Numbers, among which are truth values, stand for
themselves. -/
def resolveLevel : Value → Value
  | .number n => .number n
  | .bool b => .bool b
  | .text name => .number ((levelNumbers.lookup (Text.upper name)).getD Level.warning.number)
  | _ => .number Level.warning.number

end Markflow.CommandLine
