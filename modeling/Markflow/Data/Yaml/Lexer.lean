import Markflow.Data.Yaml.Token
import Markflow.Text.Digit

/-!
# Cutting YAML into tokens

The lexer goes through the text once.  A scalar can turn out to be a key when a colon follows on its
line; so the place of the latest scalar or collection that may be a key is kept for every depth of
brackets, and the tokens of the key are put there when the colon comes.

Anchors, tags and directives are not read.
-/

namespace Markflow.Yaml

/-- The place of something that may turn out to be a key. -/
structure MaybeKey where
  /-- How many tokens come before it. -/
  position : Nat
  /-- Whether nothing but a key can stand there. -/
  required : Bool
  offset : Nat
  line : Nat
  column : Nat
  deriving Inhabited

/-- What the lexer knows between two tokens. -/
structure Lexing where
  rest : List Char
  offset : Nat := 0
  line : Nat := 0
  column : Nat := 0
  tokens : List Token := []
  /-- The indentation of the block that is being read, and of those around it. -/
  indents : List Nat := []
  /-- For every bracket that is open, and for the text outside all of them, what may be a key. -/
  maybeKeys : List (Option MaybeKey) := [none]
  keyAllowed : Bool := true
  deriving Inhabited

/-- A step of the lexer, which fails where the text is malformed. -/
abbrev Lex := StateT Lexing Option

namespace Lex

/-- The character some places ahead. -/
def peekAt (ahead : Nat) : Lex (Option Char) :=
  return (← get).rest[ahead]?

/-- The next character. -/
def peek : Lex (Option Char) :=
  return (← get).rest.head?

/-- A line break. -/
def isBreak (c : Char) : Bool :=
  c == '\n' || c == '\r' || c.toNat == 0x85 || c.toNat == 0x2028 || c.toNat == 0x2029

/-- Whether a character separates: a blank, a line break or the end. -/
def isGap : Option Char → Bool
  | none => true
  | some c => c == ' ' || c == '\t' || isBreak c

/-- Passes a character that is no line break. -/
def advance : Lex Unit :=
  modify fun s => { s with
    rest := s.rest.tail
    offset := s.offset + 1
    column := s.column + 1 }

/-- Passes some characters that are no line breaks. -/
def advanceBy (count : Nat) : Lex Unit :=
  modify fun s => { s with
    rest := s.rest.drop count
    offset := s.offset + count
    column := s.column + count }

/-- Passes a line break and gives its text: a line feed, save for the two separators of Unicode. -/
def lineBreak : Lex (List Char) := do
  let s ← get
  let passed (count : Nat) (rest : List Char) : Lex Unit :=
    set { s with rest, offset := s.offset + count, line := s.line + 1, column := 0 }
  match s.rest with
  | '\r' :: '\n' :: rest =>
    passed 2 rest
    return ['\n']
  | c :: rest =>
    if isBreak c then
      passed 1 rest
      return [if c.toNat == 0x2028 || c.toNat == 0x2029 then c else '\n']
    else return []
  | [] => return []

/-- Takes the characters that satisfy a test. -/
def takeWhile (test : Char → Bool) : Lex (List Char) := do
  let taken := (← get).rest.takeWhile test
  advanceBy taken.length
  return taken

/-- Whether brackets are open. -/
def inFlow : Lex Bool :=
  return 1 < (← get).maybeKeys.length

/-- Adds a token. -/
def emit (token : Token) : Lex Unit :=
  modify fun s => { s with tokens := s.tokens ++ [token] }

/-- Says whether a key may come next. -/
def allowKey (allowed : Bool) : Lex Unit :=
  modify fun s => { s with keyAllowed := allowed }

/-- Gives up what may be a key at the present depth; it must not be required. -/
def dropKey : Lex Unit := do
  let s ← get
  match s.maybeKeys with
  | some key :: outer =>
    if key.required then failure
    set { s with maybeKeys := none :: outer }
  | _ => return

/-- Gives up what may be a key and is on an earlier line or too far back. -/
def dropStaleKeys : Lex Unit := do
  let s ← get
  let stale (key : MaybeKey) : Bool := key.line != s.line || 1024 < s.offset - key.offset
  if s.maybeKeys.any fun key => key.any fun k => stale k && k.required then failure
  let kept := s.maybeKeys.map fun (key : Option MaybeKey) => key.filter fun k => !stale k
  set { s with maybeKeys := kept }

/-- The column of the block that is being read, one more, or zero outside of blocks. -/
def indentBound (s : Lexing) : Nat :=
  match s.indents with
  | indent :: _ => indent + 1
  | [] => 0

/-- Notes that what comes next may be a key. -/
def noteKey : Lex Unit := do
  let s ← get
  let required := !(← inFlow) && s.indents.head? == some s.column
  if s.keyAllowed then
    dropKey
    let key : MaybeKey := ⟨s.tokens.length, required, s.offset, s.line, s.column⟩
    modify fun s => { s with maybeKeys := some key :: s.maybeKeys.tail }

/-- Ends the blocks that are indented more than a column; without a column, all of them. -/
def unwind (column : Option Nat) : Lex Unit := do
  if !(← inFlow) then
    modify fun s =>
      let ended := s.indents.takeWhile fun indent => column.all (· < indent)
      { s with
        indents := s.indents.drop ended.length
        tokens := s.tokens ++ List.replicate ended.length .blockEnd }

/-- Starts a block at a column, if that is further in than the present one; says whether it was. -/
def indentTo (column : Nat) : Lex Bool := do
  let s ← get
  if indentBound s ≤ column then
    set { s with indents := column :: s.indents }
    return true
  else return false

/-- The marker of a document that comes next at the start of a line, if one does. -/
def marker : Lex (Option Token) := do
  let s ← get
  if s.column = 0 ∧ isGap s.rest[3]? then
    if s.rest.take 3 == ['-', '-', '-'] then return some .documentStart
    if s.rest.take 3 == ['.', '.', '.'] then return some .documentEnd
  return none

/-! ### Between tokens -/

/-- Passes blanks, comments and line breaks. -/
def skipGaps : (fuel : Nat) → Lex Unit
  | 0 => return
  | fuel + 1 => do
    if (← get).offset = 0 ∧ (← peek) = some '\ufeff' then advance
    let _ ← takeWhile (· == ' ')
    if (← peek) = some '#' then
      let _ ← takeWhile (!isBreak ·)
    if (← lineBreak).isEmpty then return
    if !(← inFlow) then allowKey true
    skipGaps fuel

/-! ### Scalars without quotes -/

/-- Whether a scalar without quotes ends before a character. -/
def endsPlain (flow : Bool) (c : Char) (next : Option Char) : Bool :=
  isGap (some c)
    || (c == ':' && (isGap next || (flow && next.any fun n => ",[]\x7b\x7d".toList.contains n)))
    || (flow && ",?[]\x7b\x7d".toList.contains c)

/-- The length of the part of a line that belongs to a scalar without quotes. -/
def plainLength (flow : Bool) : List Char → Nat
  | [] => 0
  | c :: rest => if endsPlain flow c rest.head? then 0 else plainLength flow rest + 1

/-- The line breaks that come next, with the blanks between them passed; stops at a marker. -/
def emptyLines : (fuel : Nat) → (breaks : List Char) → Lex (Option (List Char))
  | 0, breaks => return some breaks
  | fuel + 1, breaks => do
    match ← peek with
    | some ' ' =>
      advance
      emptyLines fuel breaks
    | some c =>
      if isBreak c then
        let breaks := breaks ++ (← lineBreak)
        if (← marker).isSome then return none
        emptyLines fuel breaks
      else return some breaks
    | none => return some breaks

/-- What stands for line breaks inside a scalar: one line feed becomes a space, of several the first
is dropped. -/
def foldBreaks (first : List Char) (more : List Char) : List Char :=
  if first != ['\n'] then first ++ more
  else if more.isEmpty then [' '] else more

/-- Passes the blanks inside a scalar without quotes and gives what stands for them. -/
def plainSpaces : Lex (List Char) := do
  let blanks ← takeWhile (· == ' ')
  match ← peek with
  | some c =>
    if isBreak c then
      let first ← lineBreak
      allowKey true
      if (← marker).isSome then return []
      match ← emptyLines ((← get).rest.length + 1) [] with
      | some more => return foldBreaks first more
      | none => return []
    else return blanks
  | none => return blanks

/-- Reads a scalar without quotes; `spaces` stand before its next part. -/
def plainParts (bound : Nat) : (fuel : Nat) → (spaces : List Char) → Lex (List Char)
  | 0, _ => return []
  | fuel + 1, spaces => do
    if (← peek) = some '#' then return []
    let flow ← inFlow
    let part := (← get).rest.take (plainLength flow (← get).rest)
    if part.isEmpty then return []
    allowKey false
    advanceBy part.length
    let after ← plainSpaces
    let s ← get
    if after.isEmpty || s.rest.head? == some '#' || (!flow && s.column < bound) then
      return spaces ++ part
    return spaces ++ part ++ (← plainParts bound fuel after)

/-- Reads a scalar without quotes. -/
def plain : Lex Unit := do
  noteKey
  allowKey false
  let s ← get
  let text ← plainParts (indentBound s) (s.rest.length + 1) []
  emit (.scalar (String.ofList text) true)

/-! ### Scalars in quotes -/

/-- The character that a letter stands for after a backslash. -/
def simpleEscape? : Char → Option Char
  | '0' => some (Char.ofNat 0)
  | 'a' => some '\x07'
  | 'b' => some '\x08'
  | 't' => some '\t'
  | '\t' => some '\t'
  | 'n' => some '\n'
  | 'v' => some '\x0b'
  | 'f' => some '\x0c'
  | 'r' => some '\r'
  | 'e' => some '\x1b'
  | ' ' => some ' '
  | '"' => some '"'
  | '\\' => some '\\'
  | '/' => some '/'
  | 'N' => some (Char.ofNat 0x85)
  | '_' => some (Char.ofNat 0xA0)
  | 'L' => some (Char.ofNat 0x2028)
  | 'P' => some (Char.ofNat 0x2029)
  | _ => none

/-- The number of digits of a numbered escape. -/
def escapeDigits? : Char → Option Nat
  | 'x' => some 2
  | 'u' => some 4
  | 'U' => some 8
  | _ => none

/-- Passes blanks and line breaks inside quotes and gives the line breaks. -/
def quotedBreaks : (fuel : Nat) → Lex (List Char)
  | 0 => return []
  | fuel + 1 => do
    if (← marker).isSome then failure
    let _ ← takeWhile fun c => c == ' ' || c == '\t'
    let first ← lineBreak
    if first.isEmpty then return []
    return first ++ (← quotedBreaks fuel)

/-- Passes blanks and line breaks inside quotes and gives what stands for them. -/
def quotedSpaces : Lex (List Char) := do
  let blanks ← takeWhile fun c => c == ' ' || c == '\t'
  match ← peek with
  | none => failure
  | some _ =>
    let first ← lineBreak
    if first.isEmpty then return blanks
    return foldBreaks first (← quotedBreaks ((← get).rest.length + 1))

/-- Reads what follows a backslash. -/
def escape : Lex (List Char) := do
  match ← peek with
  | none => failure
  | some c =>
    match simpleEscape? c, escapeDigits? c with
    | some meant, _ =>
      advance
      return [meant]
    | none, some count =>
      advance
      let digits := (← get).rest.take count
      if digits.length != count || !digits.all fun d => (Text.hexValue? d).isSome then failure
      advanceBy count
      return [Char.ofNat (Text.baseValue 16 digits)]
    | none, none =>
      if isBreak c then
        let _ ← lineBreak
        quotedBreaks ((← get).rest.length + 1)
      else failure

/-- Reads the text between quotes and the closing one. -/
def quotedParts (double : Bool) : (fuel : Nat) → Lex (List Char)
  | 0 => failure
  | fuel + 1 => do
    match ← peek with
    | none => failure
    | some c =>
      let quote := if double then '"' else '\''
      if c == quote then
        advance
        if !double && (← peek) == some '\'' then
          advance
          return '\'' :: (← quotedParts double fuel)
        return []
      else if double && c == '\\' then
        advance
        let meant ← escape
        return meant ++ (← quotedParts double fuel)
      else if isGap (some c) then
        let spaces ← quotedSpaces
        return spaces ++ (← quotedParts double fuel)
      else
        advance
        return c :: (← quotedParts double fuel)

/-- Reads a scalar in quotes. -/
def quoted (double : Bool) : Lex Unit := do
  noteKey
  allowKey false
  advance
  let text ← quotedParts double ((← get).rest.length + 1)
  emit (.scalar (String.ofList text) false)

/-! ### Scalars in blocks -/

/-- What becomes of the line breaks at the end of a block: the first stays, all stay or none. -/
inductive Chomp where
  | clip
  | keep
  | strip
  deriving DecidableEq

/-- The chomping that a sign stands for. -/
def chomp? : Option Char → Option Chomp
  | some '+' => some .keep
  | some '-' => some .strip
  | _ => none

/-- The digit that a character is. -/
def digit? (c : Option Char) : Option Nat :=
  c.bind fun c => if c.isDigit then some (c.toNat - '0'.toNat) else none

/-- Reads the sign and the digit behind the mark of a block, in either order. -/
def blockHeader : Lex (Chomp × Option Nat) := do
  let first ← peek
  let (chomp, digit) ← match chomp? first, digit? first with
    | some chomp, _ =>
      advance
      let digit := digit? (← peek)
      if digit.isSome then advance
      pure (chomp, digit)
    | none, some digit =>
      advance
      match chomp? (← peek) with
      | some chomp =>
        advance
        pure (chomp, some digit)
      | none => pure (.clip, some digit)
    | none, none => pure (.clip, none)
  if digit == some 0 then failure
  match ← peek with
  | some '\t' => failure
  | next => if !isGap next then failure
  return (chomp, digit)

/-- Passes a comment and the end of the line, with nothing else before it. -/
def restOfLine : Lex Unit := do
  let _ ← takeWhile (· == ' ')
  if (← peek) = some '#' then
    let _ ← takeWhile (!isBreak ·)
  match ← peek with
  | none => return
  | some _ => if (← lineBreak).isEmpty then failure

/-- Passes the empty lines at the start of a block; gives their breaks and the longest indentation
among them and the line behind them. -/
def blockIndentation : (fuel : Nat) → (breaks : List Char) → (deepest : Nat) → Lex (List Char × Nat)
  | 0, breaks, deepest => return (breaks, deepest)
  | fuel + 1, breaks, deepest => do
    match ← peek with
    | some ' ' =>
      advance
      blockIndentation fuel breaks (max deepest (← get).column)
    | some c =>
      if isBreak c then
        let more ← lineBreak
        blockIndentation fuel (breaks ++ more) deepest
      else return (breaks, deepest)
    | none => return (breaks, deepest)

/-- Passes the indentation of a line, as far as it reaches. -/
def blockIndent (indent : Nat) : Lex Unit := do
  let s ← get
  advanceBy ((s.rest.takeWhile (· == ' ')).length.min (indent - s.column))

/-- Passes empty lines inside a block and gives their breaks. -/
def blockBreaks (indent : Nat) : (fuel : Nat) → Lex (List Char)
  | 0 => return []
  | fuel + 1 => do
    blockIndent indent
    let first ← lineBreak
    if first.isEmpty then return []
    return first ++ (← blockBreaks indent fuel)

/-- Reads the lines of a block; `breaks` are the empty lines before the next one.  Gives the text,
the break that ends it and the empty lines behind it. -/
def blockLines (folded : Bool) (indent : Nat) : (fuel : Nat) → (breaks : List Char) →
    Lex (List Char × List Char × List Char)
  | 0, breaks => return ([], [], breaks)
  | fuel + 1, breaks => do
    let s ← get
    if s.column = indent && !s.rest.isEmpty then
      let inked (c : Option Char) : Bool := c != some ' ' && c != some '\t'
      let leading := inked s.rest.head?
      let line ← takeWhile (!isBreak ·)
      let ending ← lineBreak
      let after ← blockBreaks indent ((← get).rest.length + 1)
      let s ← get
      if s.column = indent && !s.rest.isEmpty then
        let joint :=
          if folded && ending == ['\n'] && leading && inked s.rest.head? then
            (if after.isEmpty then [' '] else [])
          else ending
        let (more, last, tail) ← blockLines folded indent fuel after
        return (breaks ++ line ++ joint ++ more, last, tail)
      else return (breaks ++ line, ending, after)
    else return ([], [], breaks)

/-- Reads a scalar in a block whose mark comes next. -/
def block (folded : Bool) : Lex Unit := do
  allowKey true
  dropKey
  advance
  let (chomp, digit) ← blockHeader
  restOfLine
  let s ← get
  let least := max (indentBound s) 1
  let (breaks, indent) ← match digit with
    | some digit => do
      let indent := least + digit - 1
      pure (← blockBreaks indent (s.rest.length + 1), indent)
    | none => do
      let (breaks, deepest) ← blockIndentation (s.rest.length + 1) [] 0
      pure (breaks, max least deepest)
  let (text, last, tail) ← blockLines folded indent (s.rest.length + 1) breaks
  let text := match chomp with
    | .strip => text
    | .clip => text ++ last
    | .keep => text ++ last ++ tail
  emit (.scalar (String.ofList text) false)

/-! ### Marks -/

/-- Opens a bracket. -/
def openFlow (token : Token) : Lex Unit := do
  noteKey
  modify fun s => { s with maybeKeys := none :: s.maybeKeys, keyAllowed := true }
  advance
  emit token

/-- Closes a bracket. -/
def closeFlow (token : Token) : Lex Unit := do
  dropKey
  modify fun s => { s with
    maybeKeys := if 1 < s.maybeKeys.length then s.maybeKeys.tail else s.maybeKeys
    keyAllowed := false }
  advance
  emit token

/-- Passes the comma between entries. -/
def flowEntry : Lex Unit := do
  allowKey true
  dropKey
  advance
  emit .flowEntry

/-- Passes the dash before an entry. -/
def blockEntry : Lex Unit := do
  if !(← inFlow) then
    if !(← get).keyAllowed then failure
    if ← indentTo (← get).column then emit .blockSequenceStart
  allowKey true
  dropKey
  advance
  emit .blockEntry

/-- Passes the question mark before a key. -/
def explicitKey : Lex Unit := do
  let flow ← inFlow
  if !flow then
    if !(← get).keyAllowed then failure
    if ← indentTo (← get).column then emit .blockMappingStart
  allowKey (!flow)
  dropKey
  advance
  emit .key

/-- Passes the colon before a value.  What was noted as a possible key is one. -/
def valueMark : Lex Unit := do
  let s ← get
  let flow ← inFlow
  match s.maybeKeys with
  | some key :: outer =>
    set { s with maybeKeys := none :: outer, keyAllowed := false }
    let starts ← if flow then pure false else indentTo key.column
    let marks := if starts then [Token.blockMappingStart, .key] else [.key]
    modify fun s => { s with
      tokens := s.tokens.take key.position ++ marks ++ s.tokens.drop key.position }
  | _ =>
    if !flow then
      if !s.keyAllowed then failure
      if ← indentTo s.column then emit .blockMappingStart
    allowKey (!flow)
    dropKey
  advance
  emit .value

/-- Ends the text. -/
def finish : Lex Unit := do
  unwind none
  dropKey

/-- Passes the marker of a document. -/
def documentMark (token : Token) : Lex Unit := do
  unwind none
  dropKey
  allowKey false
  advanceBy 3
  emit token

/-- Characters that start no scalar without quotes. -/
def indicators : List Char := "-?:,[]\x7b\x7d#&*!|>'\"%@\x60".toList

/-- Whether a scalar without quotes starts with a character. -/
def startsPlain (flow : Bool) (c : Char) (next : Option Char) : Bool :=
  (!isGap (some c) && !indicators.contains c)
    || (!isGap next && (c == '-' || (!flow && (c == '?' || c == ':'))))

/-- Reads what starts with a character that is no gap. -/
def readFrom (c : Char) : Lex Unit := do
  let flow ← inFlow
  let next ← peekAt 1
  match ← marker with
  | some token => documentMark token
  | none =>
    if c == '[' then openFlow .flowSequenceStart
    else if c == '{' then openFlow .flowMappingStart
    else if c == ']' then closeFlow .flowSequenceEnd
    else if c == '}' then closeFlow .flowMappingEnd
    else if c == ',' then flowEntry
    else if c == '-' && isGap next then blockEntry
    else if c == '?' && (flow || isGap next) then explicitKey
    else if c == ':' && (flow || isGap next) then valueMark
    else if c == '|' && !flow then block false
    else if c == '>' && !flow then block true
    else if c == '\'' then quoted false
    else if c == '"' then quoted true
    else if startsPlain flow c next then plain
    else failure

/-- Reads tokens up to the end. -/
def readAll : (fuel : Nat) → Lex Unit
  | 0 => failure
  | fuel + 1 => do
    skipGaps ((← get).rest.length + 1)
    dropStaleKeys
    unwind (some (← get).column)
    match ← peek with
    | none => finish
    | some c =>
      readFrom c
      readAll fuel

end Lex

/-- Whether a character may stand in a text. -/
def isAllowed (c : Char) : Bool :=
  let code := c.toNat
  code == 0x09 || code == 0x0A || code == 0x0D || (0x20 ≤ code && code ≤ 0x7E) || code == 0x85
    || (0xA0 ≤ code && code ≤ 0xD7FF) || (0xE000 ≤ code && code ≤ 0xFFFD) || 0x10000 ≤ code

/-- The tokens of a text. -/
def tokens? (text : List Char) : Option (List Token) :=
  if text.all isAllowed then
    ((Lex.readAll (text.length + 1)).run { rest := text }).map (·.2.tokens)
  else none

end Markflow.Yaml
