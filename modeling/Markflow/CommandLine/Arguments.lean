import Markflow.Text.Digit
import Markflow.Text.Quoted

/-!
# Arguments

The arguments of a command are options, which start with a dash, and operands.  An option has
several names and may take a value: the argument behind it, or what follows an equals sign or a name
of one letter.  Long names can be cut short as long as they stay unambiguous, letters of options
without value can be joined behind one dash, and after two dashes everything is an operand.

Main definitions: `Grammar.classify` tells what an argument is by itself, and `Grammar.read` puts
the arguments of a command together into what is given, in order.
-/

namespace Markflow.CommandLine

/-- An option of a command; `κ` is the type of the options' keys. -/
structure Switch (κ : Type) where
  key : κ
  names : List String
  takesValue : Bool := false
  deriving Repr, Inhabited

/-- The names of an option in a message. -/
def Switch.label {κ : Type} (switch : Switch κ) : String :=
  "/".intercalate switch.names

/-- What is wrong with the arguments of a command. -/
inductive UsageFault where
  | ambiguous (argument : String) (names : List String)
  | missingValue (label : String)
  | ignoredValue (label value : String)
  | excluded (label other : String)
  | notChoice (label value : String) (choices : List String)
  | unrecognized (arguments : List String)
  deriving DecidableEq, Repr, Inhabited

/-- The wording of what is wrong with arguments. -/
def UsageFault.message : UsageFault → String
  | ambiguous argument names =>
    s!"ambiguous option: {argument} could match " ++ ", ".intercalate names
  | missingValue label => s!"argument {label}: expected one argument"
  | ignoredValue label value =>
    s!"argument {label}: ignored explicit argument {Text.quoted value}"
  | excluded label other => s!"argument {label}: not allowed with argument {other}"
  | notChoice label value choices =>
    s!"argument {label}: invalid choice: {Text.quoted value} (choose from "
      ++ ", ".intercalate (choices.map Text.quoted) ++ ")"
  | unrecognized arguments => "unrecognized arguments: " ++ " ".intercalate arguments

/-- What an argument is by itself. -/
inductive Word (κ : Type) where
  | operand (text : String)
  /-- An option, whether it is written with a long name, and what is attached to it. -/
  | switch (switch : Switch κ) (long : Bool) (attached : Option String)
  | unknown (text : String)
  | separator
  deriving Repr, Inhabited

/-- What is given to a command. -/
inductive Given (κ : Type) where
  | option (switch : Switch κ) (value : Option String)
  | operand (text : String)
  | extra (text : String)
  | fault (fault : UsageFault)
  deriving Repr, Inhabited

/-- The options of a command. -/
abbrev Grammar (κ : Type) := List (Switch κ)

namespace Grammar

variable {κ : Type}

/-- The option of a name. -/
def find? (grammar : Grammar κ) (name : String) : Option (Switch κ) :=
  List.find? (·.names.contains name) grammar

/-- The options with their names, in order. -/
def named (grammar : Grammar κ) : List (Switch κ × String) :=
  grammar.flatMap fun switch => switch.names.map fun name => (switch, name)

/-- The two sides of a text's first equals sign; none where there is none. -/
def splitValue (text : List Char) : List Char × Option String :=
  match text.dropWhile (· != '=') with
  | _ :: value => (text.takeWhile (· != '='), some (String.ofList value))
  | [] => (text, none)

/-- Whether a name starts with two dashes. -/
def isLong (name : String) : Bool :=
  name.toList.take 2 == ['-', '-']

/-- The options that an argument of no exact name can mean: with two dashes those whose names start
like it, with one dash the one of its first letter. -/
def candidates (grammar : Grammar κ) (argument : String) :
    List (Switch κ × String × Option String) :=
  if isLong argument then
    let (start, value) := splitValue argument.toList
    (grammar.named.filter fun (_, name) => start.isPrefixOf name.toList).map
      fun (switch, name) => (switch, name, value)
  else
    let letter := argument.toList.take 2
    (grammar.named.filter fun (_, name) => name.toList == letter).map
      fun (switch, name) => (switch, name, some (String.ofList (argument.toList.drop 2)))

/-- Whether a text without its dash is a number, up to a line feed at its end. -/
def isNumber (text : List Char) : Bool :=
  let body := if text.getLast? == some '\n' then text.dropLast else text
  let places := (body.dropWhile Text.isDigit)
  match places with
  | [] => !body.isEmpty
  | '.' :: places => !places.isEmpty && places.all Text.isDigit
  | _ => false

/-- What an argument is. -/
def classify (grammar : Grammar κ) (argument : String) : Except UsageFault (Word κ) :=
  match argument.toList with
  | '-' :: second :: rest =>
    match grammar.find? argument with
    | some switch => .ok (.switch switch (isLong argument) none)
    | none =>
      let (start, value) := splitValue argument.toList
      let exact := value.bind fun value =>
        (grammar.find? (String.ofList start)).map fun switch => (switch, value)
      match exact with
      | some (switch, value) => .ok (.switch switch (isLong argument) (some value))
      | none => match grammar.candidates argument with
        | [(switch, name, value)] => .ok (.switch switch (isLong name) value)
        | [] =>
          if isNumber (second :: rest) || argument.toList.contains ' ' then
            .ok (.operand argument)
          else .ok (.unknown argument)
        | several => .error (.ambiguous argument (several.map (·.2.1)))
  | _ => .ok (.operand argument)

/-- What the arguments of a command are. -/
def classifyAll (grammar : Grammar κ) : List String → Except UsageFault (List (Word κ))
  | [] => .ok []
  | "--" :: rest => .ok (.separator :: rest.map .operand)
  | argument :: rest => do
    let word ← grammar.classify argument
    return word :: (← classifyAll grammar rest)

/-- What an option without value gives that is written with one dash and followed by letters, which
have to be options too.  The last of them may be left to take its value from the next argument. -/
def expand (grammar : Grammar κ) : (switch : Switch κ) → (letters : List Char) →
    Except UsageFault (List (Given κ) × Option (Switch κ))
  | switch, [] => .ok ([], some switch)
  | switch, letter :: rest =>
    if switch.takesValue then
      .ok ([.option switch (some (String.ofList (letter :: rest)))], none)
    else match grammar.find? (String.ofList ['-', letter]) with
      | some next => do
        let (given, last) ← grammar.expand next rest
        return (.option switch none :: given, last)
      | none => .error (.ignoredValue switch.label (String.ofList (letter :: rest)))

/-- What an option gives, and the option that is left to take its value from the next argument. -/
def spread (grammar : Grammar κ) (switch : Switch κ) (long : Bool) :
    (attached : Option String) → Except UsageFault (List (Given κ) × Option (Switch κ))
  | none => .ok ([], some switch)
  | some text =>
    if switch.takesValue then .ok ([.option switch (some text)], none)
    else if long || text.isEmpty then .error (.ignoredValue switch.label text)
    else grammar.expand switch text.toList

/-- What some words give.  There is one operand, and only the first one is taken for it. -/
def gather (grammar : Grammar κ) : (taken : Bool) → List (Word κ) → List (Given κ)
  | _, [] => []
  | taken, .switch switch long attached :: rest =>
    match grammar.spread switch long attached with
    | .error fault => [.fault fault]
    | .ok (given, none) => given ++ gather grammar taken rest
    | .ok (given, some last) =>
      if last.takesValue then
        match rest with
        | .operand value :: rest =>
          given ++ Given.option last (some value) :: gather grammar taken rest
        | _ => [.fault (.missingValue last.label)]
      else given ++ Given.option last none :: gather grammar taken rest
  | taken, .unknown text :: rest => .extra text :: gather grammar taken rest
  | true, .operand text :: rest => .extra text :: gather grammar true rest
  | true, .separator :: rest => .extra "--" :: gather grammar true rest
  | false, .operand text :: .separator :: rest => .operand text :: gather grammar true rest
  | false, .operand text :: rest => .operand text :: gather grammar true rest
  | false, .separator :: rest => gather grammar false rest

/-- What some arguments give to a command, in order. -/
def read (grammar : Grammar κ) (arguments : List String) : List (Given κ) :=
  match grammar.classifyAll arguments with
  | .ok words => grammar.gather false words
  | .error fault => [.fault fault]

end Grammar

end Markflow.CommandLine
