import Markflow.Host
import Markflow.Text.Quoted

/-!
# What can be wrong with a regular expression

A malformed expression has a problem at a place.  Three refusals are no problems of form: asking for
ASCII and for Unicode classes at once, a number of repetitions that is too large, and a limit of
what the program runs on.
-/

namespace Markflow.Regex

/-- What makes an expression malformed. -/
inductive Problem where
  | danglingEscape
  | badEscape (escape : String)
  | incompleteEscape (escape : String)
  | octalTooLarge (escape : String)
  | missingBrace
  | missingName (what : String)
  | unterminatedName (closer : Char)
  | unknownCharacter (name : String)
  | unterminatedSet
  | badRange (first last : String)
  | nothingToRepeat
  | multipleRepeat
  | leastAboveMost
  | unexpectedEnd
  | badGroupName (name : String)
  | unknownGroup (name : String)
  | badGroupNumber
  | openGroup
  | noSuchGroup (index : Nat)
  | groupOfSameLookbehind
  | groupNameTaken (name : String) (index former : Nat)
  | unknownExtension (written : String)
  | unterminatedComment
  | unterminatedGroup
  | unbalanced
  | tooManyBranches
  | misplacedFlags
  | unendedFlags
  | missingFlag
  | missingColon
  | unknownFlag
  | localeFlag
  | clashingFlags
  | classFlagOff
  | globalFlagOn
  | globalFlagOff
  | flagOnAndOff
  | variableLookbehind
  | lookbehindTooFar
  | templateRepeat (operator : String)
  deriving DecidableEq, Repr, Inhabited

/-- The wording of a problem, without its place. -/
def Problem.message : Problem → String
  | danglingEscape => "bad escape (end of pattern)"
  | badEscape escape => s!"bad escape {escape}"
  | incompleteEscape escape => s!"incomplete escape {escape}"
  | octalTooLarge escape => s!"octal escape value {escape} outside of range 0-0o377"
  | missingBrace => "missing \x7b"
  | missingName what => s!"missing {what}"
  | unterminatedName closer => s!"missing {closer}, unterminated name"
  | unknownCharacter name => s!"undefined character name {Text.quoted name}"
  | unterminatedSet => "unterminated character set"
  | badRange first last => s!"bad character range {first}-{last}"
  | nothingToRepeat => "nothing to repeat"
  | multipleRepeat => "multiple repeat"
  | leastAboveMost => "min repeat greater than max repeat"
  | unexpectedEnd => "unexpected end of pattern"
  | badGroupName name => s!"bad character in group name {Text.quoted name}"
  | unknownGroup name => s!"unknown group name {Text.quoted name}"
  | badGroupNumber => "bad group number"
  | openGroup => "cannot refer to an open group"
  | noSuchGroup index => s!"invalid group reference {index}"
  | groupOfSameLookbehind => "cannot refer to group defined in the same lookbehind subpattern"
  | groupNameTaken name index former =>
    s!"redefinition of group name {Text.quoted name} as group {index}; was group {former}"
  | unknownExtension written => s!"unknown extension ?{written}"
  | unterminatedComment => "missing ), unterminated comment"
  | unterminatedGroup => "missing ), unterminated subpattern"
  | unbalanced => "unbalanced parenthesis"
  | tooManyBranches => "conditional backref with more than two branches"
  | misplacedFlags => "global flags not at the start of the expression"
  | unendedFlags => "missing -, : or )"
  | missingFlag => "missing flag"
  | missingColon => "missing :"
  | unknownFlag => "unknown flag"
  | localeFlag => "bad inline flags: cannot use 'L' flag with a str pattern"
  | clashingFlags => "bad inline flags: flags 'a', 'u' and 'L' are incompatible"
  | classFlagOff => "bad inline flags: cannot turn off flags 'a', 'u' and 'L'"
  | globalFlagOn => "bad inline flags: cannot turn on global flag"
  | globalFlagOff => "bad inline flags: cannot turn off global flag"
  | flagOnAndOff => "bad inline flags: flag turned on and off"
  | variableLookbehind => "look-behind requires fixed-width pattern"
  | lookbehindTooFar => "looks too much behind"
  | templateRepeat operator => s!"internal: unsupported template operator {operator}"

/-- A problem, and the offset in the expression where it was found, if it has one. -/
structure Malformed where
  problem : Problem
  position : Option Nat
  deriving DecidableEq, Repr, Inhabited

/-- The wording of a problem with its place; in an expression of several lines the place is also
given by line and column, counted from one. -/
def Malformed.message (m : Malformed) (expression : String) : String :=
  match m.position with
  | none => m.problem.message
  | some position =>
    let passed := expression.toList.take position
    let line := passed.count '\n' + 1
    let column := (passed.reverse.takeWhile (· != '\n')).length + 1
    let place := s!"{m.problem.message} at position {position}"
    if expression.toList.contains '\n' then s!"{place} (line {line}, column {column})" else place

/-- Why an expression is not accepted. -/
inductive Refusal where
  | malformed (m : Malformed)
  | clashingModes
  | repeatTooLarge
  | excess (cause : Excess)
  deriving DecidableEq, Repr, Inhabited

end Markflow.Regex
