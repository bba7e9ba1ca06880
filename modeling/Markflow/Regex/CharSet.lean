import Markflow.Text.Blank
import Markflow.Text.Case
import Markflow.Text.Digit
import Markflow.Text.Letter

/-!
# Character sets

The sets of characters that a regular expression names: single code points, ranges and the classes
of digits, white space and word characters, as they are or complemented.  When case is ignored a set
is asked about the lower case form of a character and holds the lower case forms of its members,
together with the letters that count as the same (`Text.caseClass`).
-/

namespace Markflow.Regex

/-- How letters are compared: as they are, or without regard to the case of ASCII or all letters. -/
inductive CaseMode where
  | exact
  | ascii
  | unicode
  deriving DecidableEq, Repr, Inhabited

namespace CaseMode

/-- The form of a code point that is compared. -/
def fold : CaseMode → Nat → Nat
  | exact, code => code
  | ascii, code => Text.asciiLowerCode code
  | unicode, code => Text.lowerCode code

/-- Whether two characters count as equal. -/
def alike (mode : CaseMode) (a b : Char) : Bool :=
  mode.fold a.toNat == mode.fold b.toNat

end CaseMode

/-- A named class of characters. -/
inductive CharKind where
  | digit
  | blank
  | word
  deriving DecidableEq, Repr, Inhabited

/-- Whether a character is of a kind, among all characters or those of ASCII alone. -/
def CharKind.holds : CharKind → (ascii : Bool) → Char → Bool
  | digit, true, c => c.isDigit
  | digit, false, c => Text.isDigit c
  | blank, true, c => Text.isAsciiBlank c
  | blank, false, c => Text.isBlank c
  | word, true, c => Text.isAsciiWordChar c
  | word, false, c => Text.isWordChar c

/-- A member of a set as it is written. -/
inductive SetItem where
  | code (n : Nat)
  | range (first last : Nat)
  /-- The characters of a kind, or with `among = false` all others. -/
  | kind (k : CharKind) (ascii : Bool) (among : Bool)
  deriving DecidableEq, Repr, Inhabited

namespace SetItem

/-- Whether an item holds the character whose compared form is `c`. -/
def holds (mode : CaseMode) (c : Char) : SetItem → Bool
  | code n => match mode with
    | .exact => c.toNat == n
    | .ascii => c.toNat == Text.asciiLowerCode n
    | .unicode => (Text.caseClass (Text.lowerCode n)).contains c.toNat
  | range first last => match mode with
    | .exact => first ≤ c.toNat && c.toNat ≤ last
    | .ascii => (first ≤ c.toNat && c.toNat ≤ last)
        || (c.isLower && first ≤ c.toNat - 0x20 && c.toNat - 0x20 ≤ last)
    | .unicode => ((Text.caseClass c.toNat).flatMap Text.lowerPreimages).any
        fun n => first ≤ n && n ≤ last
  | kind k ascii among => k.holds ascii c == among

end SetItem

/-- A set of characters: the items, or all characters that no item holds. -/
structure CharSet where
  items : List SetItem
  complement : Bool := false
  mode : CaseMode := .exact
  deriving DecidableEq, Repr, Inhabited

namespace CharSet

/-- Whether a set holds a character. -/
def holds (set : CharSet) (c : Char) : Bool :=
  let folded := match set.mode with
    | .exact => c
    | mode => Char.ofNat (mode.fold c.toNat)
  set.items.any (·.holds set.mode folded) != set.complement

/-- The set of one code point. -/
def single (mode : CaseMode) (code : Nat) : CharSet :=
  ⟨[.code code], false, mode⟩

/-- All characters. -/
def all : CharSet :=
  ⟨[], true, .exact⟩

/-- All characters but the line feed. -/
def allButNewline : CharSet :=
  ⟨[.code 0x0A], true, .exact⟩

end CharSet

end Markflow.Regex
