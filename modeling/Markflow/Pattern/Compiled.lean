import Markflow.Action
import Markflow.Pattern.Flags
import Markflow.Regex.Reader
import Markflow.Regex.Scan

/-!
# Patterns

A pattern is a regular expression as it was written, with its flags and the expression read.  Its
matches in a text are all that a scan finds, or only the first.
-/

namespace Markflow

/-- A pattern that can be matched. -/
structure Pattern where
  source : String
  flags : Flags
  regex : Regex
  deriving Inhabited

namespace Pattern

/-- Whether every match is replaced and not only the first. -/
def isGlobal (pattern : Pattern) : Bool :=
  pattern.flags.has .everywhere

/-- The names of the groups in the order of their numbers. -/
def groupNames (pattern : Pattern) : List String :=
  pattern.regex.names.map (·.1)

variable [Host]

/-- Reads the expression of a pattern whose flags are known. -/
def ofFlags (source : String) (flags : Flags) (owner : Value) : Except Fault Pattern :=
  match Regex.read? flags.mode (Spelling.expand source.toList) with
  | .ok regex => .ok { source, flags, regex }
  | .error (.malformed problem) => .error (.pattern (.malformed problem source flags owner))
  | .error .clashingModes => .error .clashingModes
  | .error .repeatTooLarge => .error .repeatTooLarge
  | .error (.excess cause) => .error (.excess cause)

/-- The pattern of a source and flags; the owner is the name of the transform that has it. -/
def compile (source flags owner : Value) : Except Fault Pattern :=
  match source with
  | .text text => match Flags.read flags with
    | .ok flags => ofFlags text flags owner
    | .error (.pattern (.flags fault)) => .error (.pattern (.flagsOf fault source owner))
    | .error fault => .error fault
  | source => .error (.pattern (.notText source.kindName owner))

/-- The record of a failure to read an expression; other failures make none. -/
def failureRecord? : Fault → Option Record
  | .pattern (.malformed _ source _ owner) =>
    some ⟨.debug, .patterns,
      s!"Pattern compilation failed{PatternFault.ownerMention owner}: {Text.quoted source}"⟩
  | _ => none

/-- The pattern of a source and flags, with a record when the expression is malformed. -/
def compiled {σ : Type} (source flags owner : Value) : Action σ Pattern :=
  match compile source flags owner with
  | .ok pattern => pure pattern
  | .error fault => do
    match failureRecord? fault with
    | some entry => Action.record entry
    | none => pure ()
    throw fault

/-- The matches that are replaced. -/
def findIn (pattern : Pattern) (text : List Char) : List Match :=
  if pattern.isGlobal then pattern.regex.scan text else pattern.regex.scanOnce text

end Pattern

end Markflow
