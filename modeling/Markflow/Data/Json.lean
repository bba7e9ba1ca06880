import Markflow.Data.Value
import Markflow.Host

/-!
# JSON

Reading and writing of JSON text.  A table keeps the order of its entries, and a later entry
replaces an earlier one of its key.  Numbers with a fraction or an exponent are kept as their text.
-/

namespace Markflow.Json

/-- White space between tokens. -/
def isSpace (c : Char) : Bool :=
  c == ' ' || c == '\t' || c == '\n' || c == '\r'

/-- A text without white space at its start. -/
def skip (text : List Char) : List Char :=
  text.dropWhile isSpace

/-- The number that the first four characters denote in base sixteen, and the rest. -/
def readUnit? : List Char → Option (Nat × List Char)
  | a :: b :: c :: d :: rest =>
    if [a, b, c, d].all fun x => (Text.hexValue? x).isSome then
      some (Text.baseValue 16 [a, b, c, d], rest)
    else none
  | _ => none

/-- The character that a letter stands for after a backslash. -/
def simpleEscape? : Char → Option Char
  | '"' => some '"'
  | '\\' => some '\\'
  | '/' => some '/'
  | 'b' => some '\x08'
  | 'f' => some '\x0c'
  | 'n' => some '\n'
  | 'r' => some '\r'
  | 't' => some '\t'
  | _ => none

/-- The character of a numbered escape whose first unit is read, and the rest.  Two units of a pair
are one character; half a pair becomes the replacement character. -/
def pairUp (unit : Nat) (rest : List Char) : Char × List Char :=
  if 0xD800 ≤ unit ∧ unit ≤ 0xDBFF then
    match rest with
    | '\\' :: 'u' :: after => match readUnit? after with
      | some (low, after) =>
        if 0xDC00 ≤ low ∧ low ≤ 0xDFFF then
          (Char.ofNat (0x10000 + (unit - 0xD800) * 0x400 + (low - 0xDC00)), after)
        else ('\ufffd', rest)
      | none => ('\ufffd', rest)
    | _ => ('\ufffd', rest)
  else if 0xDC00 ≤ unit ∧ unit ≤ 0xDFFF then ('\ufffd', rest)
  else (Char.ofNat unit, rest)

/-- Reads a text whose opening quote is passed; `taken` is what was read, the latest first. -/
def readText? : (fuel : Nat) → (taken : List Char) → List Char → Option (String × List Char)
  | 0, _, _ => none
  | _, _, [] => none
  | fuel + 1, taken, c :: rest =>
    if c == '"' then some (String.ofList taken.reverse, rest)
    else if c == '\\' then match rest with
      | 'u' :: rest => match readUnit? rest with
        | some (unit, rest) =>
          let (c, rest) := pairUp unit rest
          readText? fuel (c :: taken) rest
        | none => none
      | e :: rest => match simpleEscape? e with
        | some c => readText? fuel (c :: taken) rest
        | none => none
      | [] => none
    else if c.toNat < 0x20 then none
    else readText? fuel (c :: taken) rest

/-- The part of a number behind its digits that makes it a fraction: a point with digits, and an
exponent. -/
def fractionPart (text : List Char) : List Char :=
  let fraction := match text with
    | '.' :: more =>
      let part := more.takeWhile Char.isDigit
      if part.isEmpty then [] else '.' :: part
    | _ => []
  let power := match text.drop fraction.length with
    | e :: more =>
      if e == 'e' || e == 'E' then
        let sign := match more with
          | '+' :: _ => ['+']
          | '-' :: _ => ['-']
          | _ => []
        let part := (more.drop sign.length).takeWhile Char.isDigit
        if part.isEmpty then [] else e :: sign ++ part
      else []
    | [] => []
  fraction ++ power

/-- Reads a number. -/
def readNumber (text : List Char) : Except ReadFault (Value × List Char) := do
  let (negative, body) := match text with
    | '-' :: rest => (true, rest)
    | rest => (false, rest)
  let digits := match body with
    | '0' :: _ => ['0']
    | _ => body.takeWhile Char.isDigit
  if digits.isEmpty then throw .malformed
  let rest := body.drop digits.length
  let fraction := fractionPart rest
  if fraction.isEmpty then
    let magnitude ← (Text.decimal digits).mapError .excess
    return (.number (if negative then -Int.ofNat magnitude else Int.ofNat magnitude), rest)
  else
    let sign := if negative then ['-'] else []
    return (.other "float" (String.ofList (sign ++ digits ++ fraction)), rest.drop fraction.length)

/-- The words that stand for a value. -/
def words : List (List Char × Value) :=
  [("null".toList, .null), ("true".toList, .bool true), ("false".toList, .bool false),
    ("NaN".toList, .other "float" "nan"), ("Infinity".toList, .other "float" "inf"),
    ("-Infinity".toList, .other "float" "-inf")]

/-- Reads a word. -/
def readWord? (text : List Char) : Option (Value × List Char) :=
  (words.find? fun (word, _) => word.isPrefixOf text).map fun (word, value) =>
    (value, text.drop word.length)

variable [Host]

mutual

/-- Reads the value that a text starts with, inside the lists and tables around it. -/
def readValue : (fuel : Nat) → (around : List Nesting) → List Char →
    Except ReadFault (Value × List Char)
  | 0, _, _ => throw .malformed
  | fuel + 1, around, text => match text with
    | '"' :: rest => do
      let (s, rest) ← ReadFault.ofOption (readText? (rest.length + 1) [] rest)
      return (.text s, rest)
    | '[' :: rest => do
      if Host.isTooDeep (.jsonList :: around) then throw (.excess .calls)
      match skip rest with
      | ']' :: rest => return (.list [], rest)
      | rest => do
        let (items, rest) ← readItems fuel (.jsonList :: around) [] rest
        return (.list items, rest)
    | '{' :: rest => do
      if Host.isTooDeep (.jsonTable :: around) then throw (.excess .calls)
      match skip rest with
      | '}' :: rest => return (.table [], rest)
      | rest => do
        let (entries, rest) ← readEntries fuel (.jsonTable :: around) [] rest
        return (.table (Entries.ofPairs entries), rest)
    | text => match readWord? text with
      | some read => return read
      | none => readNumber text

/-- Reads the items of a list up to its end. -/
def readItems : (fuel : Nat) → (around : List Nesting) → (items : List Value) → List Char →
    Except ReadFault (List Value × List Char)
  | 0, _, _, _ => throw .malformed
  | fuel + 1, around, items, text => do
    let (item, rest) ← readValue fuel around (skip text)
    match skip rest with
    | ',' :: rest => readItems fuel around (items ++ [item]) (skip rest)
    | ']' :: rest => return (items ++ [item], rest)
    | _ => throw .malformed

/-- Reads the entries of a table up to its end. -/
def readEntries : (fuel : Nat) → (around : List Nesting) → (entries : List (Value × Value)) →
    List Char → Except ReadFault (List (Value × Value) × List Char)
  | 0, _, _, _ => throw .malformed
  | fuel + 1, around, entries, text => match skip text with
    | '"' :: rest => do
      let (key, rest) ← ReadFault.ofOption (readText? (rest.length + 1) [] rest)
      match skip rest with
      | ':' :: rest => do
        let (value, rest) ← readValue fuel around (skip rest)
        match skip rest with
        | ',' :: rest => readEntries fuel around (entries ++ [(.text key, value)]) (skip rest)
        | '}' :: rest => return (entries ++ [(.text key, value)], rest)
        | _ => throw .malformed
      | _ => throw .malformed
    | _ => throw .malformed

end

/-- The value that a text spells, with nothing but white space around it. -/
def read (text : List Char) : Except ReadFault Value := do
  let (value, rest) ← readValue (2 * text.length + 2) [] (skip text)
  if (skip rest).isEmpty then return value else throw .malformed

/-- The form of a text: quotes, backslashes and control characters are escaped, and so is every
character that is not ASCII, as one or two units. -/
def writeText (text : String) : String :=
  "\"" ++ String.ofList (text.toList.flatMap escape) ++ "\""
where
  /-- A unit of sixteen bits. -/
  unit (code : Nat) : List Char :=
    let digits := Nat.toDigits 16 code
    '\\' :: 'u' :: (List.replicate (4 - digits.length) '0' ++ digits)
  /-- The form of one character. -/
  escape (c : Char) : List Char :=
    if c == '"' || c == '\\' then ['\\', c]
    else if c == '\n' then ['\\', 'n']
    else if c == '\r' then ['\\', 'r']
    else if c == '\t' then ['\\', 't']
    else if c == '\x08' then ['\\', 'b']
    else if c == '\x0c' then ['\\', 'f']
    else if 0x20 ≤ c.toNat && c.toNat < 0x7F then [c]
    else if c.toNat < 0x10000 then unit c.toNat
    else unit (0xD800 + (c.toNat - 0x10000) / 0x400) ++ unit (0xDC00 + (c.toNat - 0x10000) % 0x400)

mutual

/-- The JSON text of a value.  Keys of a table are written as texts. -/
def write : Value → String
  | .null => "null"
  | .bool b => if b then "true" else "false"
  | .number n => toString n
  | .text s => writeText s
  | .list items => "[" ++ ", ".intercalate (writeItems items) ++ "]"
  | .table entries => "\x7b" ++ ", ".intercalate (writeEntries entries) ++ "\x7d"
  | .bag _ _ items => "[" ++ ", ".intercalate (writeItems items) ++ "]"
  | .other _ written => written

/-- The JSON texts of the items of a list. -/
def writeItems : List Value → List String
  | [] => []
  | item :: items => write item :: writeItems items

/-- The JSON texts of the entries of a table. -/
def writeEntries : List (Value × Value) → List String
  | [] => []
  | (key, value) :: entries => (writeText key.shown ++ ": " ++ write value) :: writeEntries entries

end

end Markflow.Json
