import Markflow.Fault
import Markflow.Text.Blank

/-!
# Reading flags

Flags are given as a text of letters, or as a list whose items are long names or runs of letters.
White space between letters is skipped; a value that counts as missing stands for the default.
-/

namespace Markflow.Flags

/-- The letters that an item of a list denotes: the letter of a long name in any letter case, or the
item's own characters. -/
def itemLetters : Value → Except Fault (List Char)
  | .text item =>
    let key := Text.strip item.toList
    match Flag.ofName? (String.ofList (key.map Char.toLower)) with
    | some flag => .ok [flag.letter]
    | none => .ok key
  | item => .error (.pattern (.flags (.notText item.kindName)))

/-- The letters that a value denotes. -/
def lettersOf : Value → Except Fault (List Char)
  | .text letters => .ok letters.toList
  | .list items => List.flatten <$> items.mapM itemLetters
  | .table entries => List.flatten <$> entries.mapM fun entry => itemLetters entry.1
  | .bag _ _ items => List.flatten <$> items.mapM itemLetters
  | value => .error (.kind (.notIterable value.kindName))

/-- The flags of some letters. -/
def ofLetters (letters : List Char) : Except Fault Flags :=
  of <$> (letters.filter (!Text.isBlank ·)).mapM fun letter =>
    match Flag.ofLetter? letter with
    | some flag => .ok flag
    | none => .error (.pattern (.flags (.unsupported letter)))

/-- The flags that a value denotes. -/
def read (value : Value) : Except Fault Flags :=
  if value.isSet then lettersOf value >>= ofLetters else .ok default

end Markflow.Flags
