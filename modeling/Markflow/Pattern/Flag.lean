import Markflow.Regex.Mode

/-!
# Flags

The options of a pattern.  Each has a letter, and the letters have one order, in which flags are
always written.  `Flags.of` is the normal form: the flags of a list, each once and in that order.
-/

namespace Markflow

/-- An option of a pattern. -/
inductive Flag where
  /-- Every match is replaced and not only the first. -/
  | everywhere
  | ignoreCase
  | multiline
  | dotAll
  /-- Accepted and without effect: patterns know all of Unicode anyway. -/
  | unicode
  | verbose
  | ascii
  deriving DecidableEq, Repr, Inhabited

namespace Flag

/-- All flags in the order in which they are written. -/
def all : List Flag :=
  [everywhere, ignoreCase, multiline, dotAll, unicode, verbose, ascii]

/-- The letter of a flag. -/
def letter : Flag → Char
  | everywhere => 'g'
  | ignoreCase => 'i'
  | multiline => 'm'
  | dotAll => 's'
  | unicode => 'u'
  | verbose => 'x'
  | ascii => 'a'

/-- The flag of a letter. -/
def ofLetter? (letter : Char) : Option Flag :=
  all.find? (·.letter == letter)

/-- The flag of a long name in lower case. -/
def ofName? : String → Option Flag
  | "global" => some everywhere
  | "multiline" => some multiline
  | "ignorecase" => some ignoreCase
  | "case_insensitive" => some ignoreCase
  | "dotall" => some dotAll
  | "unicode" => some unicode
  | "verbose" => some verbose
  | "ascii" => some ascii
  | _ => none

end Flag

/-- The flags of a pattern, each once and in the order of `Flag.all`. -/
structure Flags where
  chosen : List Flag
  deriving DecidableEq, Repr, Inhabited

namespace Flags

/-- The normal form of a list of flags. -/
def of (wanted : List Flag) : Flags :=
  ⟨Flag.all.filter wanted.contains⟩

/-- The flags of a pattern that has none of its own. -/
def default : Flags :=
  of [.everywhere]

/-- Whether a flag is chosen. -/
def has (flags : Flags) (flag : Flag) : Bool :=
  flags.chosen.contains flag

/-- The letters of the flags. -/
def letters (flags : Flags) : String :=
  String.ofList (flags.chosen.map Flag.letter)

/-- The mode in which a pattern with the flags is read. -/
def mode (flags : Flags) : Regex.Mode where
  ignoreCase := flags.has .ignoreCase
  multiline := flags.has .multiline
  dotAll := flags.has .dotAll
  verbose := flags.has .verbose
  ascii := flags.has .ascii

end Flags

end Markflow
