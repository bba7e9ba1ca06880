/-!
# Spellings of group names

A pattern may write a named group as `(?<name>…)` and a reference to it as `\k<name>`.  These short
spellings stand for the long ones that expressions have, `(?P<name>…)` and `(?P=name)`.  A name
consists of ASCII letters, digits and low lines and does not start with a digit.

A short spelling counts only after an even number of backslashes.  Groups are spelled out first and
references in the result.
-/

namespace Markflow.Spelling

/-- Whether a name can start with a character. -/
def isNameStart (c : Char) : Bool :=
  c.isAlpha || c == '_'

/-- Whether a name can go on with a character. -/
def isNameRest (c : Char) : Bool :=
  c.isAlpha || c.isDigit || c == '_'

/-- Whether a text starts with a name and a closing angle bracket. -/
def opensName : List Char → Bool
  | [] => false
  | c :: rest => isNameStart c && (rest.dropWhile isNameRest).head? == some '>'

/-- Spells out named groups.  `escaped` tells that an odd number of backslashes precedes. -/
def expandGroups (escaped : Bool) : List Char → List Char
  | '(' :: '?' :: '<' :: rest =>
    if !escaped && opensName rest then '(' :: '?' :: 'P' :: '<' :: expandGroups false rest
    else '(' :: '?' :: '<' :: expandGroups false rest
  | '\\' :: rest => '\\' :: expandGroups (!escaped) rest
  | c :: rest => c :: expandGroups false rest
  | [] => []

/-- Spells out references.  `escaped` tells that an odd number of backslashes precedes, `inName`
that the name of a reference is being copied, whose closing bracket becomes a parenthesis. -/
def expandReferences (escaped inName : Bool) : List Char → List Char
  | '\\' :: 'k' :: '<' :: rest =>
    if !escaped && opensName rest then
      '(' :: '?' :: 'P' :: '=' :: expandReferences false true rest
    else '\\' :: 'k' :: '<' :: expandReferences false false rest
  | '\\' :: rest => '\\' :: expandReferences (!escaped) false rest
  | '>' :: rest =>
    if inName then ')' :: expandReferences false false rest
    else '>' :: expandReferences false false rest
  | c :: rest => c :: expandReferences false inName rest
  | [] => []

/-- A pattern with all group names in their long spelling. -/
def expand (pattern : List Char) : List Char :=
  expandReferences false false (expandGroups false pattern)

end Markflow.Spelling
