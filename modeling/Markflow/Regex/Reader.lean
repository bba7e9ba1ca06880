import Markflow.Regex.Basic
import Markflow.Regex.Mode
import Markflow.Regex.Problem
import Markflow.Regex.Token
import Markflow.Text.Identifier

/-!
# Reading regular expressions

`Regex.read?` turns the text of an expression into a `Regex`, or says what is wrong with it.  The
reader goes through the tokens once, from left to right; the first problem it meets is the one that
is reported, save for the width of a look-behind, which is reported only of an expression without
any other problem.  What is read has to leave room for going through it.
-/

namespace Markflow.Regex

/-- What the reader knows between two tokens. -/
structure Reading where
  tokens : List Token
  /-- The offset of the next token. -/
  position : Nat
  /-- The mode of the whole expression. -/
  mode : Mode
  unicodeAsked : Bool := false
  templateAsked : Bool := false
  /-- The widths of the groups by number, `none` while a group is open.  There is no group zero. -/
  widths : List (Option (Nat × Nat)) := [none]
  /-- The named groups, the latest first. -/
  names : List (String × Nat) := []
  /-- How many groups there were before the outermost look-behind that is being read. -/
  lookbehindFrom : Option Nat := none
  /-- The groups that conditions mention by number, each with the place of its first mention. -/
  awaited : List (Nat × Nat) := []
  /-- A problem to report when there is no other. -/
  deferred : Option Problem := none
  /-- The groups that are being read, the innermost first. -/
  around : List Nesting := []
  deriving Inhabited

/-- A step of the reader. -/
abbrev Read := StateT Reading (Except Refusal)

namespace Read

/-- Stops with a problem at an offset. -/
def failAt {α : Type} (position : Nat) (problem : Problem) : Read α :=
  throw (.malformed ⟨problem, some position⟩)

/-- Stops with a problem some characters before the next token. -/
def fail {α : Type} (problem : Problem) (back : Nat) : Read α := do
  failAt ((← get).position - back) problem

/-- The next token, if there is one. -/
def peek : Read (Option Token) :=
  return (← get).tokens.head?

/-- Passes the next token.  The reader stops as soon as a dangling backslash comes next. -/
def advance : Read Unit := do
  let state ← get
  match state.tokens with
  | [] => return
  | token :: tokens =>
    let position := state.position + token.width
    set { state with tokens, position }
    if tokens.head? = some .dangling then failAt position .danglingEscape

/-- Takes the next token, if there is one. -/
def next : Read (Option Token) := do
  let token ← peek
  advance
  return token

/-- Passes the next token if it is the given character, and says whether it was. -/
def accept (c : Char) : Read Bool := do
  if (← peek) = some (.plain c) then
    advance
    return true
  else
    return false

/-- Takes at most `count` characters that satisfy a test. -/
def takeWhile (test : Char → Bool) : (count : Nat) → Read (List Char)
  | 0 => return []
  | count + 1 => do
    match ← peek with
    | some (.plain c) =>
      if test c then
        advance
        return c :: (← takeWhile test count)
      else
        return []
    | _ => return []

/-- Takes the text up to a closing character, which is passed too. -/
def takeUntil (closer : Char) (what : String) :
    (fuel : Nat) → (taken : List Char) → Read (List Char)
  | 0, taken => return taken
  | fuel + 1, taken => do
    match ← next with
    | none =>
      if taken.isEmpty then fail (.missingName what) 0
      else fail (.unterminatedName closer) taken.length
    | some token =>
      if token = .plain closer then
        if taken.isEmpty then fail (.missingName what) 1
        return taken
      else
        takeUntil closer what fuel (taken ++ token.text)

/-- Takes the name up to a closing character. -/
def takeName (closer : Char) (what : String) : Read (List Char) := do
  takeUntil closer what ((← get).tokens.length + 1) []

/-- Passes the tokens up to one that satisfies a test, which is passed too; says whether there was
one. -/
def skipPast (test : Token → Bool) : (fuel : Nat) → Read Bool
  | 0 => return false
  | fuel + 1 => do
    match ← next with
    | none => return false
    | some token => if test token then return true else skipPast test fuel

/-- How many groups were opened, counting from one for the whole. -/
def groupBound : Read Nat :=
  return (← get).widths.length

/-- Whether a group is closed. -/
def isClosed (index : Nat) : Read Bool :=
  return (((← get).widths[index]?).getD none).isSome

/-- Inside a look-behind only groups that were closed before it can be referred to. -/
def checkLookbehind (index : Nat) : Read Unit := do
  match (← get).lookbehindFrom with
  | none => return
  | some bound =>
    if !(← isClosed index) then fail .openGroup 0
    if bound ≤ index then fail .groupOfSameLookbehind 0

/-- Keeps a problem for the end, unless there is one already. -/
def defer (problem : Problem) : Read Unit :=
  modify fun state => { state with deferred := state.deferred <|> some problem }

/-- Reads what stands inside a group, for which there has to be room. -/
def inside [Host] {α : Type} (kind : Nesting) (read : Read α) : Read α := do
  let outer := (← get).around
  if Host.isTooDeep (kind :: outer) then throw (.excess .calls)
  modify fun state => { state with around := kind :: outer }
  let result ← read
  modify fun state => { state with around := outer }
  return result

end Read

open Read

variable [Host]

/-- What an escape stands for. -/
inductive Escape where
  | code (n : Nat)
  | kind (k : CharKind) (among : Bool)
  | place (anchor : Anchor)
  | sameAs (index : Nat)

/-- The control characters and the backslash that a letter stands for. -/
def controlEscape? : Char → Option Nat
  | 'a' => some 0x07
  | 'b' => some 0x08
  | 'f' => some 0x0C
  | 'n' => some 0x0A
  | 'r' => some 0x0D
  | 't' => some 0x09
  | 'v' => some 0x0B
  | '\\' => some 0x5C
  | _ => none

/-- The classes that a letter stands for. -/
def kindEscape? : Char → Option Escape
  | 'd' => some (.kind .digit true)
  | 'D' => some (.kind .digit false)
  | 's' => some (.kind .blank true)
  | 'S' => some (.kind .blank false)
  | 'w' => some (.kind .word true)
  | 'W' => some (.kind .word false)
  | _ => none

/-- The anchors that a letter stands for. -/
def anchorEscape? (mode : Mode) : Char → Option Escape
  | 'A' => some (.place .textStart)
  | 'Z' => some (.place .textEnd)
  | 'b' => some (.place (.wordEdge mode.ascii))
  | 'B' => some (.place (.noWordEdge mode.ascii))
  | _ => none

/-- Whether a character is an octal digit. -/
def isOctal (c : Char) : Bool :=
  '0' ≤ c && c ≤ '7'

/-- Whether a character is a hexadecimal digit. -/
def isHex (c : Char) : Bool :=
  (Text.hexValue? c).isSome

/-- Reads a hexadecimal escape of exactly `count` digits. -/
def readHex (letter : Char) (count : Nat) : Read Escape := do
  let digits ← takeWhile isHex count
  let written := '\\' :: letter :: digits
  if digits.length ≠ count then
    fail (.incompleteEscape (String.ofList written)) written.length
  let code := Text.baseValue 16 digits
  if 0x10FFFF < code then fail (.badEscape (String.ofList written)) written.length
  return .code code

/-- Whether a character can stand in the name of a character. -/
def isNamePart (c : Char) : Bool :=
  c.isAlphanum || c == ' ' || c == '-'

/-- The character of a name, which consists of ASCII letters, digits, blanks and hyphens. -/
def namedCharacter? (name : List Char) : Option Char :=
  if name.all isNamePart then Host.character? (String.ofList name) else none

/-- Reads an escape by name. -/
def readNamed : Read Escape := do
  if !(← accept '{') then fail .missingBrace 0
  let name ← takeName '}' "character name"
  match namedCharacter? name with
  | some c => return .code c.toNat
  | none => fail (.unknownCharacter (String.ofList name)) (name.length + 4)

/-- Reads an escape that is no class, no anchor and no number. -/
def readOther (c : Char) : Read Escape := do
  match c with
  | 'x' => readHex 'x' 2
  | 'u' => readHex 'u' 4
  | 'U' => readHex 'U' 8
  | 'N' => readNamed
  | c =>
    if c.isAlpha || c.isDigit then fail (.badEscape (String.ofList ['\\', c])) 2
    return .code c.toNat

/-- The code that an octal escape stands for. -/
def octalCode (digits : List Char) : Read Escape := do
  let code := Text.baseValue 8 digits
  if 0o377 < code then fail (.octalTooLarge (String.ofList ('\\' :: digits))) (digits.length + 1)
  return .code code

/-- Reads the escape of a character inside a set. -/
def readSetEscape (c : Char) : Read Escape := do
  match controlEscape? c with
  | some code => return .code code
  | none => match kindEscape? c with
    | some kind => return kind
    | none =>
      if isOctal c then octalCode (c :: (← takeWhile isOctal 2)) else readOther c

/-- Reads an escape that starts with a digit other than zero: an octal escape of three digits, or
the number of a group. -/
def readNumbered (c : Char) : Read Escape := do
  let more ← takeWhile Char.isDigit 1
  let third ←
    if isOctal c && !more.isEmpty && more.all isOctal then takeWhile isOctal 1 else pure []
  if !third.isEmpty then
    octalCode (c :: more ++ third)
  else
    let index := Text.baseValue 10 (c :: more)
    let width := more.length + 2
    if (← groupBound) ≤ index then fail (.noSuchGroup index) (width - 1)
    if !(← isClosed index) then fail .openGroup width
    checkLookbehind index
    return .sameAs index

/-- Reads the escape of a character outside a set. -/
def readEscape (mode : Mode) (c : Char) : Read Escape := do
  match anchorEscape? mode c <|> kindEscape? c with
  | some escape => return escape
  | none => match controlEscape? c with
    | some code => return .code code
    | none =>
      if c == '0' then
        return .code (Text.baseValue 8 (← takeWhile isOctal 2))
      else if c.isDigit then readNumbered c
      else readOther c

/-- Whether an item of a sequence can be repeated. -/
inductive ItemKind where
  | plain
  | anchor
  | loop
  deriving DecidableEq

/-- An item of a sequence. -/
structure Item where
  node : Node
  kind : ItemKind := .plain

/-- The item that an escape stands for. -/
def Escape.toItem (mode : Mode) : Escape → Item
  | code n => ⟨.one (.single mode.caseMode n), .plain⟩
  | kind k among => ⟨.one ⟨[.kind k mode.ascii among], false, mode.caseMode⟩, .plain⟩
  | place anchor => ⟨.anchor anchor, .anchor⟩
  | sameAs index => ⟨.sameAs index mode.caseMode, .plain⟩

/-- The member of a set that an escape stands for. -/
def Escape.toSetItem (mode : Mode) : Escape → SetItem
  | kind k among => .kind k mode.ascii among
  | code n => .code n
  | _ => .code 0

/-- Reads the member of a set that starts with a token. -/
def readMember : Token → Read Escape
  | .escaped c => readSetEscape c
  | .plain c => return .code c.toNat
  | .dangling => return .code 0x5C

/-- Reads the members of the set that opened at `start` up to its end.  A bracket that would close
an empty set is a member. -/
def readMembers (mode : Mode) (start : Nat) : (fuel : Nat) → (items : List SetItem) →
    Read (List SetItem)
  | 0, items => return items
  | fuel + 1, items => do
    let some first ← next | failAt start .unterminatedSet
    if first = .plain ']' && !items.isEmpty then return items
    let low ← readMember first
    if ← accept '-' then
      let some last ← next | failAt start .unterminatedSet
      if last = .plain ']' then
        return items ++ [low.toSetItem mode, .code '-'.toNat]
      let high ← readMember last
      let bad : Read (List SetItem) :=
        fail (.badRange (Token.textOf [first]) (Token.textOf [last])) (first.width + 1 + last.width)
      match low, high with
      | .code a, .code b =>
        if b < a then bad
        else readMembers mode start fuel (items ++ [.range a b])
      | _, _ => bad
    else
      readMembers mode start fuel (items ++ [low.toSetItem mode])

/-- Reads the rest of a set whose bracket is passed. -/
def readSet (mode : Mode) : Read Item := do
  let state ← get
  let complement ← accept '^'
  let items ← readMembers mode (state.position - 1) (state.tokens.length + 1) []
  return ⟨.one ⟨items, complement, mode.caseMode⟩, .plain⟩

/-- The least number of repetitions that is too large. -/
def repeatLimit : Nat := 4294967295

/-- The number of repetitions that digits denote; no digits denote zero. -/
def readBound (digits : List Char) : Read Nat :=
  match Text.decimal digits with
  | .error cause => throw (.excess cause)
  | .ok bound => if repeatLimit ≤ bound then throw .repeatTooLarge else return bound

/-- Reads the bounds of a repetition whose brace is passed; without a valid form nothing is
passed. -/
def readBounds : Read (Option (Nat × Option Nat)) := do
  let start ← get
  if (← peek) = some (.plain '}') then return none
  let low ← takeWhile Char.isDigit start.tokens.length
  let high ← if ← accept ',' then takeWhile Char.isDigit start.tokens.length else pure low
  if !(← accept '}') then
    set start
    return none
  let least ← readBound low
  if high.isEmpty then return some (least, none)
  let most ← readBound high
  if most < least then failAt start.position .leastAboveMost
  return some (least, some most)

/-- Reads the mark behind a quantifier that tells which numbers are tried first. -/
def readGreed : Read Greed := do
  if ← accept '?' then return .lazy
  if ← accept '+' then return .possessive
  return .greedy

/-- Repeats the last item.  `position` is where the quantifier starts. -/
def readQuantifier (position : Nat) (least : Nat) (most : Option Nat) (items : List Item) :
    Read (List Item) := do
  match items with
  | [] => failAt position .nothingToRepeat
  | last :: items => match last.kind with
    | .anchor => failAt position .nothingToRepeat
    | .loop => failAt position .multipleRepeat
    | .plain =>
      let greed ← readGreed
      if (← get).templateAsked then
        defer (.templateRepeat (match greed with
          | .greedy => "MAX_REPEAT"
          | .lazy => "MIN_REPEAT"
          | .possessive => "POSSESSIVE_REPEAT"))
      return ⟨.loop greed least most last.node, .loop⟩ :: items

/-- The flags that can be written inside an expression. -/
def inlineFlags : List Char := ['i', 'L', 'm', 's', 'x', 'a', 't', 'u']

/-- The flag that a token is, if it is one. -/
def Token.flag? : Token → Option Char
  | .plain c => if inlineFlags.contains c then some c else none
  | _ => none

/-- The problem of a token that stands where a flag is due. -/
def badFlag (otherwise : Problem) : Token → Problem
  | .plain c => if Text.isLetter c then .unknownFlag else otherwise
  | _ => otherwise

/-- Reads flags to set; `flag` is the first.  The last token taken is the result's second part. -/
def readFlagsOn : (fuel : Nat) → (flag : Char) → (taken : List Char) → Read (List Char × Char)
  | 0, _, taken => return (taken, ')')
  | fuel + 1, flag, taken => do
    if flag == 'L' then fail .localeFlag 0
    let taken := flag :: taken
    if (flag == 'a' || flag == 'u') && taken.contains 'a' && taken.contains 'u' then
      fail .clashingFlags 0
    let some token ← next | fail .unendedFlags 0
    match token.flag? with
    | some flag => readFlagsOn fuel flag taken
    | none => match token with
      | .plain c =>
        if c == ')' || c == '-' || c == ':' then return (taken, c)
        else fail (badFlag .unendedFlags token) token.width
      | _ => fail (badFlag .unendedFlags token) token.width

/-- Reads flags to take back; `flag` is the first. -/
def readFlagsOff : (fuel : Nat) → (flag : Char) → (taken : List Char) → Read (List Char)
  | 0, _, taken => return taken
  | fuel + 1, flag, taken => do
    if flag == 'a' || flag == 'u' || flag == 'L' then fail .classFlagOff 0
    let taken := flag :: taken
    let some token ← next | fail .missingColon 0
    if token = .plain ':' then return taken
    match token.flag? with
    | some flag => readFlagsOff fuel flag taken
    | none => fail (badFlag .missingColon token) token.width

/-- Reads flags whose first token is passed: `none` when they concern the whole expression, whose
mode they then change, and otherwise the flags that a part sets and takes back. -/
def readFlags (first : Char) : Read (Option (List Char × List Char)) := do
  let fuel := (← get).tokens.length + 1
  let (on, closer) ← if first == '-' then pure ([], '-') else readFlagsOn fuel first []
  if closer == ')' then
    modify fun state => { state with
      mode := (on.filter (· != 'u')).foldl (·.set true ·) state.mode
      unicodeAsked := state.unicodeAsked || on.contains 'u'
      templateAsked := state.templateAsked || on.contains 't' }
    return none
  if on.contains 't' then fail .globalFlagOn 1
  let off ← if closer == '-' then do
      let some token ← next | fail .missingFlag 0
      match token.flag? with
      | some flag => readFlagsOff fuel flag []
      | none => fail (badFlag .missingFlag token) token.width
    else pure []
  if off.contains 't' then fail .globalFlagOff 1
  if on.any off.contains then fail .flagOnAndOff 1
  return some (on, off)

/-- Opens a group, which may have a name; the result is its number. -/
def openGroup (name : Option (List Char)) : Read Nat := do
  let state ← get
  let index := state.widths.length
  match name with
  | none => set { state with widths := state.widths ++ [none] }
  | some chars =>
    let name := String.ofList chars
    match state.names.lookup name with
    | some former => fail (.groupNameTaken name index former) (chars.length + 1)
    | none => set { state with
        widths := state.widths ++ [none]
        names := (name, index) :: state.names }
  return index

/-- The width of an expression that was read so far. -/
def widthOf (node : Node) : Read (Nat × Nat) := do
  let widths := (← get).widths
  return node.width fun index => ((widths[index]?).getD none).getD (0, 0)

/-- Closes a group. -/
def closeGroup (index : Nat) (body : Node) : Read Unit := do
  let width ← widthOf body
  modify fun state => { state with widths := state.widths.set index (some width) }

/-- Takes the name of a group up to a closing character. -/
def readGroupName (closer : Char) : Read (List Char) := do
  let name ← takeName closer "group name"
  if !Text.isIdentifier name then fail (.badGroupName (String.ofList name)) (name.length + 1)
  return name

/-- Reads a reference to a named group. -/
def readNamedReference (mode : Mode) : Read Item := do
  let name ← readGroupName ')'
  match (← get).names.lookup (String.ofList name) with
  | none => fail (.unknownGroup (String.ofList name)) (name.length + 1)
  | some index =>
    if !(← isClosed index) then fail .openGroup (name.length + 1)
    checkLookbehind index
    return ⟨.sameAs index mode.caseMode, .plain⟩

/-- The number that a text spells: digits, not too many of them, which single low lines may
separate, after an optional sign, between white space. -/
def spelledNumber? (text : List Char) : Option Int :=
  let body := Text.strip text
  let (negative, body) := match body with
    | '-' :: rest => (true, rest)
    | '+' :: rest => (false, rest)
    | rest => (false, rest)
  let digits := body.filter (· != '_')
  let separated := !(body.head? == some '_') && !(body.getLast? == some '_')
    && (body.zip body.tail).all fun (a, b) => !(a == '_' && b == '_')
  if digits.isEmpty || Excess.digitLimit < digits.length || !separated ||
      !digits.all Text.isDigit then
    none
  else
    let value := Int.ofNat (Text.digitsValue digits)
    some (if negative then -value else value)

/-- The greatest number of groups that a condition may mention. -/
def conditionLimit : Nat := 1073741823

/-- Reads the group of a condition, by name or by number. -/
def readCondition : Read Nat := do
  let name ← takeName ')' "group name"
  let back := name.length + 1
  let index ← if Text.isIdentifier name then do
      match (← get).names.lookup (String.ofList name) with
      | none => fail (.unknownGroup (String.ofList name)) back
      | some index => pure index
    else match spelledNumber? name with
      | some (.ofNat index) => do
        if index = 0 then fail .badGroupNumber back
        if conditionLimit ≤ index then fail (.noSuchGroup index) back
        modify fun state =>
          if state.awaited.any (·.1 == index) then state
          else { state with awaited := state.awaited ++ [(index, state.position - back)] }
        pure index
      | _ => fail (.badGroupName (String.ofList name)) back
  checkLookbehind index
  return index

/-- Records the width of a look-behind, which has to be fixed. -/
def lookbehindWidth (body : Node) : Read Nat := do
  let (least, most) ← widthOf body
  if 4294967295 < least then defer .lookbehindTooFar
  else if least ≠ most then defer .variableLookbehind
  return least

/-- Passes the parenthesis that closes a group that opened at `start`. -/
def closeParenthesis (start : Nat) : Read Unit := do
  if !(← accept ')') then failAt start .unterminatedGroup

/-- White space that a verbose expression may hold. -/
def isFiller : Token → Bool
  | .plain c => Text.isAsciiBlank c
  | _ => false

mutual

/-- Reads alternatives up to the end of the group or of the expression. -/
def readChoice (top : Bool) : (fuel : Nat) → (mode : Mode) → (read : List Node) → Read Node
  | 0, _, _ => throw (.malformed ⟨.unexpectedEnd, none⟩)
  | fuel + 1, mode, read => do
    let node ← readSequence top (top && read.isEmpty) fuel mode []
    if ← accept '|' then do
      let whole := (← get).mode
      let mode := if top then whole else mode
      readChoice top fuel mode (read ++ [node])
    else
      return .choice (read ++ [node])

/-- Reads items up to a bar, the end of the group or the end of the expression.  `items` are those
read so far, the latest first; `first` tells the very first sequence of the expression, which alone
may change the mode of the whole. -/
def readSequence (top first : Bool) : (fuel : Nat) → (mode : Mode) → (items : List Item) → Read Node
  | 0, _, _ => throw (.malformed ⟨.unexpectedEnd, none⟩)
  | fuel + 1, mode, items => do
    let position := (← get).position
    let done : Read Node := return .sequence (items.reverse.map (·.node))
    let some token ← peek | done
    if token = .plain '|' || token = .plain ')' then done
    else do
      advance
      let proceed (item : Item) : Read Node := readSequence top first fuel mode (item :: items)
      if mode.verbose && isFiller token then readSequence top first fuel mode items
      else if mode.verbose && token = .plain '#' then do
        let _ ← skipPast (· = .plain '\n') ((← get).tokens.length + 1)
        readSequence top first fuel mode items
      else match token with
        | .escaped c => do proceed ((← readEscape mode c).toItem mode)
        | .plain '[' => do proceed (← readSet mode)
        | .plain '.' => proceed ⟨.one (if mode.dotAll then .all else .allButNewline), .plain⟩
        | .plain '^' =>
          proceed ⟨.anchor (if mode.multiline then .lineStart else .textStart), .anchor⟩
        | .plain '$' =>
          proceed ⟨.anchor (if mode.multiline then .lineEnd else .lastLineEnd), .anchor⟩
        | .plain '?' => do
          readSequence top first fuel mode (← readQuantifier position 0 (some 1) items)
        | .plain '*' => do
          readSequence top first fuel mode (← readQuantifier position 0 none items)
        | .plain '+' => do
          readSequence top first fuel mode (← readQuantifier position 1 none items)
        | .plain '{' => do
          match ← readBounds with
          | some (least, most) =>
            readSequence top first fuel mode (← readQuantifier position least most items)
          | none => proceed ⟨.one (.single mode.caseMode '{'.toNat), .plain⟩
        | .plain '(' => do
          match ← readGroup (first && items.isEmpty) fuel mode position with
          | some item => proceed item
          | none => do
            let whole := (← get).mode
            let mode := if top then whole else mode
            readSequence top first fuel mode items
        | .plain c => proceed ⟨.one (.single mode.caseMode c.toNat), .plain⟩
        | .dangling => failAt position .danglingEscape

/-- Reads a group whose opening parenthesis at `start` is passed.  There is no item for a comment
and for flags of the whole expression, which are allowed where `first` holds. -/
def readGroup (first : Bool) : (fuel : Nat) → (mode : Mode) → (start : Nat) → Read (Option Item)
  | 0, _, _ => throw (.malformed ⟨.unexpectedEnd, none⟩)
  | fuel + 1, mode, start => do
    let captured (name : Option (List Char)) : Read (Option Item) := do
      let index ← openGroup name
      let body ← inside .group (readChoice false fuel mode [])
      closeParenthesis start
      closeGroup index body
      return some ⟨.group index body, .plain⟩
    let enclosed (mode : Mode) (wrap : Node → Node) : Read (Option Item) := do
      let body ← inside .group (readChoice false fuel mode [])
      closeParenthesis start
      return some ⟨wrap body, .plain⟩
    if !(← accept '?') then captured none
    else do
      let some token ← next | fail .unexpectedEnd 0
      match token with
      | .plain 'P' => do
        if ← accept '<' then captured (some (← readGroupName '>'))
        else if ← accept '=' then return some (← readNamedReference mode)
        else do
          let some token ← next | fail .unexpectedEnd 0
          fail (.unknownExtension (Token.textOf [.plain 'P', token])) (token.width + 2)
      | .plain ':' => enclosed mode id
      | .plain '>' => enclosed mode .atomic
      | .plain '#' => do
        if ← skipPast (· = .plain ')') ((← get).tokens.length + 1) then return none
        else failAt start .unterminatedComment
      | .plain '=' => enclosed mode (.ahead true)
      | .plain '!' => enclosed mode (.ahead false)
      | .plain '<' => do
        let some token ← next | fail .unexpectedEnd 0
        if token ≠ .plain '=' && token ≠ .plain '!' then
          fail (.unknownExtension (Token.textOf [.plain '<', token])) (token.width + 2)
        let outer := (← get).lookbehindFrom
        modify fun state => { state with
          lookbehindFrom := some (outer.getD state.widths.length) }
        let body ← inside .group (readChoice false fuel mode [])
        modify fun state => { state with lookbehindFrom := outer }
        closeParenthesis start
        let width ← lookbehindWidth body
        return some ⟨.behind (token = .plain '=') width body, .plain⟩
      | .plain '(' => do
        let index ← readCondition
        let yes ← inside .condition (readSequence false false fuel mode [])
        let no ← if ← accept '|' then do
            let no ← inside .condition (readSequence false false fuel mode [])
            if (← peek) = some (.plain '|') then fail .tooManyBranches 0
            pure no
          else pure .empty
        closeParenthesis start
        return some ⟨.ifGroup index yes no, .plain⟩
      | token =>
        let flag? := if token = .plain '-' then some '-' else token.flag?
        match flag? with
        | some flag => do
          match ← readFlags flag with
          | some (on, off) => enclosed (mode.adjust on off) id
          | none =>
            if !first then failAt start .misplacedFlags
            return none
        | none => fail (.unknownExtension (Token.textOf [token])) (token.width + 1)

end

/-- Makes an expression of what is read of it, if nothing else is wrong with it and there is room
for going through it. -/
def finish (root : Node) : Read Regex := do
  let state ← get
  if state.mode.ascii && state.unicodeAsked then throw .clashingModes
  if !state.tokens.isEmpty then fail .unbalanced 0
  match state.awaited.find? fun (index, _) => state.widths.length ≤ index with
  | some (index, position) => failAt position (.noSuchGroup index)
  | none =>
    if Host.isTooTall root.calls then throw (.excess .calls)
    match state.deferred with
    | some problem => throw (.malformed ⟨problem, none⟩)
    | none => return ⟨root, state.widths.length - 1, state.names.reverse⟩

/-- Reads a whole expression. -/
def readWhole (mode : Mode) : Read Regex := do
  let start ← get
  if start.tokens.head? = some .dangling then failAt 0 .danglingEscape
  finish (← readChoice true (3 * start.tokens.length + 6) mode [])

end Regex

/-- The regular expression that a text spells in a mode. -/
def Regex.read? [Host] (mode : Regex.Mode) (expression : List Char) :
    Except Regex.Refusal Regex :=
  (·.1) <$> (Regex.readWhole mode).run
    { tokens := Regex.Token.split expression, position := 0, mode }

end Markflow
