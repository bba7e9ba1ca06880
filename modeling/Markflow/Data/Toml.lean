import Markflow.Data.Moment
import Markflow.Host

/-!
# TOML

Reading of TOML text.  A key may be set once; a table may be opened once, and neither a table nor a
list that is written as a value can be added to later.
-/

namespace Markflow.Toml

/-- The keys that lead to a value. -/
abbrev Keys := List String

/-! ### Tokens -/

/-- A space or a tab. -/
def isSpace (c : Char) : Bool :=
  c == ' ' || c == '\t'

/-- A character that needs no quotes in a key. -/
def isBare (c : Char) : Bool :=
  c.isAlphanum || c == '-' || c == '_'

/-- A control character other than the tab. -/
def isControl (c : Char) : Bool :=
  (c.toNat < 0x20 && c != '\t') || c.toNat == 0x7F

/-- A text without spaces and tabs at its start. -/
def skip (text : List Char) : List Char :=
  text.dropWhile isSpace

/-- A text without the comment at its start, which must have no control characters. -/
def skipComment? (text : List Char) : Option (List Char) :=
  match text with
  | '#' :: rest =>
    let comment := rest.takeWhile (· != '\n')
    if comment.any isControl then none else some (rest.drop comment.length)
  | text => some text

/-- A text without the blanks, line breaks and comments at its start. -/
def skipBlanks? : (fuel : Nat) → List Char → Option (List Char)
  | 0, text => some text
  | fuel + 1, text =>
    match text.dropWhile fun c => isSpace c || c == '\n' with
    | '#' :: rest => (skipComment? ('#' :: rest)).bind (skipBlanks? fuel)
    | rest => some rest

/-- The character of a number, if it is one. -/
def scalar? (code : Nat) : Option Char :=
  if code < 0xD800 ∨ (0xDFFF < code ∧ code ≤ 0x10FFFF) then some (Char.ofNat code) else none

/-- The character of an escape whose backslash is passed. -/
def readEscape? : List Char → Option (Char × List Char)
  | 'b' :: rest => some ('\x08', rest)
  | 't' :: rest => some ('\t', rest)
  | 'n' :: rest => some ('\n', rest)
  | 'f' :: rest => some ('\x0c', rest)
  | 'r' :: rest => some ('\r', rest)
  | '"' :: rest => some ('"', rest)
  | '\\' :: rest => some ('\\', rest)
  | 'u' :: rest => number 4 rest
  | 'U' :: rest => number 8 rest
  | _ => none
where
  /-- The character whose number the next digits are. -/
  number (count : Nat) (rest : List Char) : Option (Char × List Char) :=
    let digits := rest.take count
    if digits.length = count ∧ digits.all fun c => (Text.hexValue? c).isSome then
      (scalar? (Text.baseValue 16 digits)).map (·, rest.drop count)
    else none

/-- Reads a basic string whose quote is passed; `taken` is what was read, the latest first. -/
def readBasic? : (fuel : Nat) → (taken : List Char) → List Char → Option (String × List Char)
  | 0, _, _ => none
  | _, _, [] => none
  | fuel + 1, taken, c :: rest =>
    if c == '"' then some (String.ofList taken.reverse, rest)
    else if c == '\\' then match readEscape? rest with
      | some (c, rest) => readBasic? fuel (c :: taken) rest
      | none => none
    else if isControl c then none
    else readBasic? fuel (c :: taken) rest

/-- Reads a literal string whose quote is passed. -/
def readLiteral? (text : List Char) : Option (String × List Char) :=
  let body := text.takeWhile fun c => c != '\'' && !isControl c
  match text.drop body.length with
  | '\'' :: rest => some (String.ofList body, rest)
  | _ => none

/-- At most two quotes more belong to a string that three quotes end. -/
def extraQuotes (quote : Char) (rest : List Char) : List Char × List Char :=
  let extra := (rest.take 2).takeWhile (· == quote)
  (extra, rest.drop extra.length)

/-- Reads a basic string of several lines whose quotes are passed. -/
def readBasicLines? : (fuel : Nat) → (taken : List Char) → List Char →
    Option (String × List Char)
  | 0, _, _ => none
  | _, _, [] => none
  | fuel + 1, taken, c :: rest =>
    if ['"', '"', '"'].isPrefixOf (c :: rest) then
      let (extra, rest) := extraQuotes '"' (rest.drop 2)
      some (String.ofList (taken.reverse ++ extra), rest)
    else if c == '\\' then
      match skip rest with
      | '\n' :: after =>
        readBasicLines? fuel taken (after.dropWhile fun c => isSpace c || c == '\n')
      | _ => match readEscape? rest with
        | some (c, rest) => readBasicLines? fuel (c :: taken) rest
        | none => none
    else if isControl c && c != '\n' then none
    else readBasicLines? fuel (c :: taken) rest

/-- Reads a literal string of several lines whose quotes are passed. -/
def readLiteralLines? : (fuel : Nat) → (taken : List Char) → List Char →
    Option (String × List Char)
  | 0, _, _ => none
  | _, _, [] => none
  | fuel + 1, taken, c :: rest =>
    if ['\'', '\'', '\''].isPrefixOf (c :: rest) then
      let (extra, rest) := extraQuotes '\'' (rest.drop 2)
      some (String.ofList (taken.reverse ++ extra), rest)
    else if isControl c && c != '\n' then none
    else readLiteralLines? fuel (c :: taken) rest

/-- A text without the line break at its start. -/
def dropLineBreak : List Char → List Char
  | '\n' :: rest => rest
  | rest => rest

/-- Reads a string of any kind. -/
def readString? (text : List Char) : Option (String × List Char) :=
  match text with
  | '"' :: '"' :: '"' :: rest => readBasicLines? (rest.length + 1) [] (dropLineBreak rest)
  | '\'' :: '\'' :: '\'' :: rest => readLiteralLines? (rest.length + 1) [] (dropLineBreak rest)
  | '"' :: rest => readBasic? (rest.length + 1) [] rest
  | '\'' :: rest => readLiteral? rest
  | _ => none

/-- Digits that single low lines may separate, and the rest. -/
def digitRun (isDigit : Char → Bool) : List Char → List Char × List Char
  | [] => ([], [])
  | '_' :: c :: rest =>
    if isDigit c then
      let (digits, rest) := digitRun isDigit rest
      (c :: digits, rest)
    else ([], '_' :: c :: rest)
  | c :: rest =>
    if isDigit c then
      let (digits, rest) := digitRun isDigit rest
      (c :: digits, rest)
    else ([], c :: rest)

/-- Digits that start with a digit. -/
def digits (isDigit : Char → Bool) (text : List Char) : List Char × List Char :=
  match text with
  | c :: _ => if isDigit c then digitRun isDigit text else ([], text)
  | [] => ([], [])

/-- A number in a base other than ten. -/
def readBased? (base : Nat) (isDigit : Char → Bool) (text : List Char) :
    Option (Value × List Char) :=
  let (run, rest) := digits isDigit text
  if run.isEmpty then none else some (.number (Text.baseValue base run), rest)

/-- The part of a number behind its digits that makes it a fraction, and the rest. -/
def readFraction (text : List Char) : List Char × List Char :=
  let (fraction, rest) := match text with
    | '.' :: more =>
      let (run, rest) := digits Char.isDigit more
      if run.isEmpty then ([], text) else ('.' :: run, rest)
    | _ => ([], text)
  match rest with
  | e :: more =>
    if e == 'e' || e == 'E' then
      let (sign, more) := match more with
        | '+' :: more => (['+'], more)
        | '-' :: more => (['-'], more)
        | more => ([], more)
      let (run, after) := digits Char.isDigit more
      if run.isEmpty then (fraction, rest) else (fraction ++ e :: sign ++ run, after)
    else (fraction, rest)
  | [] => (fraction, [])

/-- Reads a number in base ten. -/
def readDecimal (text : List Char) : Except ReadFault (Value × List Char) := do
  let (negative, body) := match text with
    | '-' :: rest => (true, rest)
    | '+' :: rest => (false, rest)
    | rest => (false, rest)
  let sign := if negative then ['-'] else []
  let special (word : String) : Option (Value × List Char) :=
    if word.toList.isPrefixOf body then
      some (.other "float" (String.ofList (sign ++ word.toList)), body.drop 3)
    else none
  let (run, rest) := match body with
    | '0' :: rest => (['0'], rest)
    | _ => digits Char.isDigit body
  if run.isEmpty then ReadFault.ofOption (special "inf" <|> special "nan")
  else
    let (fraction, rest) := readFraction rest
    if fraction.isEmpty then
      let magnitude ← (Text.decimal run).mapError .excess
      return (.number (if negative then -Int.ofNat magnitude else Int.ofNat magnitude), rest)
    else return (.other "float" (String.ofList (sign ++ run ++ fraction)), rest)

/-- Reads a number. -/
def readNumber (text : List Char) : Except ReadFault (Value × List Char) :=
  let based := match text with
    | '0' :: 'x' :: rest => readBased? 16 (fun c => (Text.hexValue? c).isSome) rest
    | '0' :: 'o' :: rest => readBased? 8 (fun c => '0' ≤ c && c ≤ '7') rest
    | '0' :: 'b' :: rest => readBased? 2 (fun c => c == '0' || c == '1') rest
    | _ => none
  match based with
  | some read => return read
  | none => readDecimal text

/-! ### Keys -/

/-- Reads one part of a key. -/
def readKeyPart? (text : List Char) : Option (String × List Char) :=
  match text with
  | '"' :: rest => readBasic? (rest.length + 1) [] rest
  | '\'' :: rest => readLiteral? rest
  | text =>
    let part := text.takeWhile isBare
    if part.isEmpty then none else some (String.ofList part, text.drop part.length)

/-- Reads a key whose parts are separated by dots. -/
def readKey? : (fuel : Nat) → List Char → Option (Keys × List Char)
  | 0, _ => none
  | fuel + 1, text => match readKeyPart? text with
    | none => none
    | some (part, rest) => match skip rest with
      | '.' :: more => (readKey? fuel (skip more)).map fun (parts, rest) => (part :: parts, rest)
      | rest => some ([part], rest)

/-! ### Tables -/

/-- A table with the table at some keys changed.  Missing tables are made on the way; with `lists` a
list of tables stands for its last table. -/
def changeAt (lists : Bool) (change : Entries → Option Entries) : Keys → Entries → Option Entries
  | [], table => change table
  | key :: keys, table => do
    let child ← match table.find? key with
      | none => .table <$> changeAt lists change keys []
      | some (.table inner) => .table <$> changeAt lists change keys inner
      | some (.list items) =>
        match lists, items.reverse with
        | true, .table last :: front => do
          let last ← changeAt lists change keys last
          pure (.list (front.reverse ++ [.table last]))
        | _, _ => none
      | some _ => none
    return table.set (.text key) child

/-- A table with a new key. -/
def addKey (key : String) (value : Value) (table : Entries) : Option Entries :=
  if (table.find? key).isSome then none else some (table.set (.text key) value)

/-- A table with one more table in the list at a key. -/
def addTable (key : String) (table : Entries) : Option Entries :=
  match table.find? key with
  | none => some (table.set (.text key) (.list [.table []]))
  | some (.list items) => some (table.set (.text key) (.list (items ++ [.table []])))
  | some _ => none

/-- Whether some keys lie at or below one of the given ones. -/
def isBelow (places : List Keys) (keys : Keys) : Bool :=
  places.any (·.isPrefixOf keys)

/-- Whether a value is a table or a list. -/
def isNest : Value → Bool
  | .table _ => true
  | .list _ => true
  | _ => false

/-! ### Values -/

variable [Host]

mutual

/-- Reads a value inside the lists and tables around it. -/
def readValue : (fuel : Nat) → (around : List Nesting) → List Char →
    Except ReadFault (Value × List Char)
  | 0, _, _ => throw .malformed
  | fuel + 1, around, text => match text with
    | '"' :: _ => do
      let (s, rest) ← ReadFault.ofOption (readString? text)
      return (.text s, rest)
    | '\'' :: _ => do
      let (s, rest) ← ReadFault.ofOption (readString? text)
      return (.text s, rest)
    | '[' :: rest => do
      if Host.isTooDeep (.tomlList :: around) then throw (.excess .calls)
      let rest ← ReadFault.ofOption (skipBlanks? (rest.length + 1) rest)
      let (items, rest) ← readItems fuel (.tomlList :: around) [] rest
      return (.list items, rest)
    | '{' :: rest => do
      if Host.isTooDeep (.tomlTable :: around) then throw (.excess .calls)
      match skip rest with
      | '}' :: rest => return (.table [], rest)
      | rest => do
        let (table, rest) ← readPairs fuel (.tomlTable :: around) [] [] rest
        return (.table table, rest)
    | text =>
      if "true".toList.isPrefixOf text then return (.bool true, text.drop 4)
      else if "false".toList.isPrefixOf text then return (.bool false, text.drop 5)
      else match Moment.read? text with
        | some read => return read
        | none => readNumber text

/-- Reads the items of a list up to its end; blanks before the next item are passed. -/
def readItems : (fuel : Nat) → (around : List Nesting) → (items : List Value) → List Char →
    Except ReadFault (List Value × List Char)
  | 0, _, _, _ => throw .malformed
  | fuel + 1, around, items, text => match text with
    | ']' :: rest => return (items, rest)
    | text => do
      let (item, rest) ← readValue fuel around text
      match ← ReadFault.ofOption (skipBlanks? (rest.length + 1) rest) with
      | ',' :: rest => do
        let rest ← ReadFault.ofOption (skipBlanks? (rest.length + 1) rest)
        readItems fuel around (items ++ [item]) rest
      | ']' :: rest => return (items ++ [item], rest)
      | _ => throw .malformed

/-- Reads the pairs of a table between braces up to its end; `frozen` are the keys of tables and
lists written in it. -/
def readPairs : (fuel : Nat) → (around : List Nesting) → (table : Entries) → (frozen : List Keys) →
    List Char → Except ReadFault (Entries × List Char)
  | 0, _, _, _, _ => throw .malformed
  | fuel + 1, around, table, frozen, text => do
    let (keys, value, rest) ← readPair fuel around text
    if isBelow frozen keys then throw .malformed
    let table ← ReadFault.ofOption
      (changeAt false (addKey (keys.getLastD "") value) keys.dropLast table)
    match skip rest with
    | '}' :: rest => return (table, rest)
    | ',' :: rest =>
      readPairs fuel around table (if isNest value then keys :: frozen else frozen) (skip rest)
    | _ => throw .malformed

/-- Reads a key with its value. -/
def readPair : (fuel : Nat) → (around : List Nesting) → List Char →
    Except ReadFault (Keys × Value × List Char)
  | 0, _, _ => throw .malformed
  | fuel + 1, around, text => do
    let (keys, rest) ← ReadFault.ofOption (readKey? (text.length + 1) text)
    match rest with
    | '=' :: rest => do
      let (value, rest) ← readValue fuel around (skip rest)
      return (keys, value, rest)
    | _ => throw .malformed

end

/-! ### Documents -/

/-- A document that is being read. -/
structure Document where
  table : Entries := []
  /-- The keys of the table that was opened last. -/
  header : Keys := []
  /-- Tables that cannot be opened again. -/
  opened : List Keys := []
  /-- Tables that dotted keys have made since the last table was opened. -/
  pending : List Keys := []
  /-- Values that cannot be added to. -/
  frozen : List Keys := []

namespace Document

/-- The document with the tables that dotted keys have made closed to opening. -/
def closePending (document : Document) : Document :=
  { document with opened := document.pending ++ document.opened, pending := [] }

/-- Opens a table. -/
def openTable (document : Document) (keys : Keys) : Option Document :=
  if document.opened.contains keys || isBelow document.frozen keys then none
  else do
    let table ← changeAt true some keys document.table
    return { document with table, header := keys, opened := keys :: document.opened }

/-- Opens a further table of a list. -/
def openListed (document : Document) (keys : Keys) : Option Document :=
  if isBelow document.frozen keys then none
  else do
    let kept (places : List Keys) : List Keys := places.filter (!keys.isPrefixOf ·)
    let table ← changeAt true (addTable (keys.getLastD "")) keys.dropLast document.table
    return { document with
      table
      header := keys
      opened := keys :: kept document.opened
      frozen := kept document.frozen }

/-- Sets a key of the table that was opened last. -/
def setKey (document : Document) (keys : Keys) (value : Value) : Option Document :=
  let made := ((List.range keys.length).drop 1).map fun n => document.header ++ keys.take n
  let place := document.header ++ keys
  if made.any document.opened.contains || isBelow document.frozen place.dropLast then none
  else do
    let table ← changeAt true (addKey (keys.getLastD "") value) place.dropLast document.table
    return { document with
      table
      pending := made ++ document.pending
      frozen := if isNest value then place :: document.frozen else document.frozen }

/-- Reads the line that a text starts with, save its end. -/
def readLine (document : Document) (text : List Char) :
    Except ReadFault (Document × List Char) :=
  match text with
  | [] => return (document, [])
  | '\n' :: _ => return (document, text)
  | '#' :: _ => return (document, text)
  | '[' :: '[' :: rest => do
    let (keys, rest) ← ReadFault.ofOption (readKey? (rest.length + 1) (skip rest))
    match rest with
    | ']' :: ']' :: rest =>
      return (← ReadFault.ofOption (document.closePending.openListed keys), rest)
    | _ => throw .malformed
  | '[' :: rest => do
    let (keys, rest) ← ReadFault.ofOption (readKey? (rest.length + 1) (skip rest))
    match rest with
    | ']' :: rest => return (← ReadFault.ofOption (document.closePending.openTable keys), rest)
    | _ => throw .malformed
  | text => do
    let (keys, value, rest) ← readPair (2 * text.length + 4) [] text
    return (← ReadFault.ofOption (document.setKey keys value), rest)

/-- Reads lines up to the end of the text. -/
def readLines : (fuel : Nat) → Document → List Char → Except ReadFault Document
  | 0, document, _ => return document
  | fuel + 1, document, text => do
    let (document, rest) ← document.readLine (skip text)
    match ← ReadFault.ofOption (skipComment? (skip rest)) with
    | [] => return document
    | '\n' :: rest => readLines fuel document rest
    | _ => throw .malformed

end Document

/-- Line feeds in place of pairs of carriage return and line feed. -/
def plainLines : List Char → List Char
  | '\r' :: '\n' :: rest => '\n' :: plainLines rest
  | c :: rest => c :: plainLines rest
  | [] => []

/-- The table that a text spells. -/
def read (text : List Char) : Except ReadFault Entries := do
  let text := plainLines text
  return (← Document.readLines (text.length + 1) {} text).table

end Markflow.Toml
