import Markflow.Data.Moment
import Markflow.Text.Digit

/-!
# Plain scalars

What a scalar without quotes stands for: null, a truth value, a number, a date or else its text.
Whole numbers can be in base two, eight, ten, sixteen or sixty.
-/

namespace Markflow.Yaml

/-- The words for true. -/
def trueWords : List String :=
  ["yes", "Yes", "YES", "true", "True", "TRUE", "on", "On", "ON"]

/-- The words for false. -/
def falseWords : List String :=
  ["no", "No", "NO", "false", "False", "FALSE", "off", "Off", "OFF"]

/-- The words for null. -/
def nullWords : List String :=
  ["", "~", "null", "Null", "NULL"]

/-- Whether a text consists of low lines and characters that satisfy a test, and is not empty. -/
def isRun (test : Char → Bool) (text : List Char) : Bool :=
  !text.isEmpty && text.all fun c => c == '_' || test c

/-- The number of a text in a base, less its low lines. -/
def runValue (base : Nat) (text : List Char) : Nat :=
  Text.baseValue base (text.filter (· != '_'))

/-- The parts of a text between colons. -/
def colonParts : List Char → List (List Char)
  | [] => [[]]
  | c :: rest => match colonParts rest with
    | part :: parts => if c == ':' then [] :: part :: parts else (c :: part) :: parts
    | [] => [[c]]

/-- Whether a text is a place of a number in base sixty. -/
def isSixtieth (text : List Char) : Bool :=
  match text with
  | [a] => a.isDigit
  | [a, b] => '0' ≤ a && a ≤ '5' && b.isDigit
  | _ => false

/-- The whole number that a text without sign spells. -/
def magnitude? (text : List Char) : Option Nat :=
  match text with
  | '0' :: 'b' :: rest =>
    if isRun (fun c => c == '0' || c == '1') rest then some (runValue 2 rest) else none
  | '0' :: 'x' :: rest =>
    if isRun (fun c => (Text.hexValue? c).isSome) rest then some (runValue 16 rest) else none
  | ['0'] => some 0
  | '0' :: rest =>
    if isRun (fun c => '0' ≤ c && c ≤ '7') rest then some (runValue 8 rest) else none
  | c :: rest =>
    if !c.isDigit then none
    else match colonParts (c :: rest) with
      | [whole] => if isRun Char.isDigit whole then some (runValue 10 whole) else none
      | whole :: places =>
        if isRun Char.isDigit whole && places.all isSixtieth then
          some (places.foldl (fun value place => value * 60 + runValue 10 place)
            (runValue 10 whole))
        else none
      | [] => none
  | [] => none

/-- The whole number that a text spells. -/
def integer? (text : List Char) : Option Int :=
  match text with
  | '-' :: rest => (magnitude? rest).map fun n => -Int.ofNat n
  | '+' :: rest => (magnitude? rest).map Int.ofNat
  | rest => (magnitude? rest).map Int.ofNat

/-- Whether a text is an exponent, or nothing. -/
def isExponent (text : List Char) : Bool :=
  match text with
  | [] => true
  | e :: sign :: digits =>
    (e == 'e' || e == 'E') && (sign == '+' || sign == '-') && !digits.isEmpty
      && digits.all Char.isDigit
  | _ => false

/-- Whether a text is a number with a point. -/
def isFraction (text : List Char) : Bool :=
  let body := match text with
    | '-' :: rest => rest
    | '+' :: rest => rest
    | rest => rest
  let whole := body.takeWhile fun c => c.isDigit || c == '_' || c == ':'
  match body.drop whole.length with
  | '.' :: rest =>
    let places := rest.takeWhile fun c => c.isDigit || c == '_'
    let tail := rest.drop places.length
    if whole.isEmpty then
      [".inf", ".Inf", ".INF"].any (·.toList == body)
        || (text == body && ([".nan", ".NaN", ".NAN"].any (·.toList == body)
          || (places.head?.any Char.isDigit && isExponent tail)))
    else match colonParts whole with
      | [whole] => whole.head?.any Char.isDigit && isExponent tail
      | whole :: sixtieths =>
        whole.head?.any Char.isDigit && sixtieths.all isSixtieth && tail.isEmpty
      | [] => false
  | _ => false

/-- The value that a plain scalar stands for. -/
def plainValue (text : String) : Value :=
  if nullWords.contains text then .null
  else if trueWords.contains text then .bool true
  else if falseWords.contains text then .bool false
  else match integer? text.toList with
    | some n => .number n
    | none =>
      if isFraction text.toList then .other "float" text
      else if text.endsWith "z" then .text text
      else match Moment.read? text.toList with
        | some (.other "time" _, _) => .text text
        | some (value, []) => value
        | _ => .text text

end Markflow.Yaml
