import Markflow.CommandLine.Listing
import Markflow.CommandLine.Logging
import Markflow.Config.Discovery

/-!
# Running the program

The program converts its input, or lists its transforms.  What it reads comes with its surroundings
and what it writes is its outcome, so that a run is a function from the one to the other.

A run ends with 2 where the arguments or the configuration are wrong, with 3 where the input cannot
be read or the output cannot be written, with 1 where the conversion fails or a transform to be
shown is unknown, and else with 0.  Every stage catches some faults; one that it does not catch ends
the run without an exit code.
-/

namespace Markflow.CommandLine

/-- What surrounds a run of the program. -/
structure Surroundings (ρ σ : Type) where
  tree : Tree
  stdin : List UInt8
  /-- The path of a configuration file that the environment gives. -/
  environment : Option String
  /-- The present time as it is written. -/
  time : String
  catalogue : Catalogue ρ
  call : Caller ρ σ
  /-- What render functions that are not built in start from. -/
  state : σ
  /-- What is logged about the way of a fault below the report of a failed conversion. -/
  trail : Fault → String := fun _ => ""

/-- The names of the listing command. -/
def listingNames : List String :=
  ["list-transforms", "transforms"]

/-- Whether a fault is caught while a configuration is loaded and a converter is made of it. -/
def isConfigurationFault : Fault → Bool
  | .invalid _ => true
  | .pattern _ => true
  | .misconfigured _ => true
  | _ => false

/-- Whether a fault is caught while the input is read or the output is written. -/
def isFileFault : Fault → Bool
  | .file .embeddedNull _ => false
  | .file _ _ => true
  | .undecodable _ => true
  | _ => false

/-- Whether a fault is caught while the input is converted. -/
def isConversionFault : Fault → Bool
  | .interrupted _ _ => false
  | _ => true

/-- The wording of a fault behind a program's mention of it: a missing name is quoted. -/
def mention : Fault → String
  | .capture (.index position) => (Fault.capture (.index position)).message
  | .capture cause => Text.quoted cause.message
  | .raised "KeyError" message => Text.quoted message
  | fault => fault.message

namespace Console

/-- The end of a run. -/
def finish (console : Console) (exit : Nat) (stdout : String) : Outcome :=
  { exit := .ok exit, stdout, stderr := console.stderr, tree := console.tree }

/-- The end of a run with a message. -/
def fail (console : Console) (exit : Nat) (message : String) : Outcome :=
  (console.print (message ++ "\n")).finish exit ""

/-- The end of a run by a fault that nothing catches. -/
def escape (console : Console) (fault : Fault) (stdout : String) : Outcome :=
  { exit := .error fault, stdout, stderr := console.stderr, tree := console.tree }

/-- The end of a run by a fault: with a message if it is caught. -/
def stop (console : Console) (caught : Fault → Bool) (exit : Nat) (message : String)
    (fault : Fault) :
    Outcome :=
  if caught fault then console.fail exit message else console.escape fault ""

end Console

namespace Surroundings

variable [Host] [Libraries] {ρ σ : Type}

/-- Loads the configuration to run with. -/
def configuration (around : Surroundings ρ σ) (console : Console) (skip : Bool)
    (requested : Option String) : Except Fault Entries × Console :=
  if skip then (.ok [], console)
  else match Config.choose console.tree requested around.environment with
    | .error fault => (.error fault, console)
    | .ok none => (.ok [], console)
    | .ok (some origin) =>
      let console := console.emit (origin.record console.tree)
      (origin.load console.tree, console)

/-- Makes the converter to run with. -/
def converter (around : Surroundings ρ σ) (console : Console) (skip : Bool)
    (requested : Option String) (disable : List String) :
    Except Fault (Converter ρ) × Console :=
  match around.configuration console skip requested with
  | (.error fault, console) => (.error fault, console)
  | (.ok config, console) =>
    let (converter, records) := Config.build around.catalogue config (disable.map .text)
    (converter.mapError Fault.worded, console.emitAll records)

omit [Host] [Libraries] in
/-- The text of the input. -/
def input (around : Surroundings ρ σ) (tree : Tree) (source : String) : Except Fault String := do
  let path := Path.ofText source
  let bytes ← if source = "-" then pure around.stdin
    else (tree.read path).mapError (.file · path.text)
  let characters ← (Text.Utf8.decode bytes).mapError .undecodable
  return String.ofList (Text.unifyBreaks characters)

omit [Host] in
/-- Hands the result over: to the standard output, which is given a last line feed if it lacks one,
or to a file. -/
def deliver (console : Console) (html : String) : (output : Option String) → Outcome
  | none =>
    let ending := if html.isEmpty || html.endsWith "\n" then "" else "\n"
    console.finish 0 (html ++ ending)
  | some output =>
    let path := Path.ofText output
    match console.tree.write path html.toUTF8.toList with
    | .error cause =>
      console.stop isFileFault 3 s!"Error writing {output}: {cause.message path.text}"
        (.file cause path.text)
    | .ok tree =>
      ({ console with tree }.emit
        ⟨.info, .commandLine, s!"Wrote {html.length} characters to {output}"⟩).finish 0 ""

/-- Converts the input that is read and delivers the result. -/
def convertText (around : Surroundings ρ σ) (console : Console) (converter : Converter ρ)
    (request : Conversion) (markdown : String) : Outcome :=
  let (outcome, traced) := (converter.convert around.call (.text markdown)).runFrom around.state
  let console := console.emitAll traced.records
  match outcome.mapError Fault.worded with
  | .ok html => deliver console html request.output
  | .error fault =>
    if isConversionFault fault then
      let report := s!"Conversion failed{around.trail fault}"
      (console.emit ⟨.debug, .commandLine, report⟩).fail 1 s!"Error: {mention fault}"
    else console.escape fault ""

/-- Runs a conversion with a console. -/
def runWith (around : Surroundings ρ σ) (console : Console) (request : Conversion) : Outcome :=
  match around.converter console request.noConfig request.config request.disable with
  | (.error fault, console) =>
    console.stop isConfigurationFault 2 s!"Error: {fault.message}" fault
  | (.ok converter, console) => match around.input console.tree request.input with
    | .error fault =>
      console.stop isFileFault 3 s!"Error reading {request.input}: {fault.message}" fault
    | .ok markdown => around.convertText console converter request markdown

/-- The console of a run that logs nothing. -/
def quietConsole (around : Surroundings ρ σ) : Console :=
  { tree := around.tree, time := around.time }

/-- Runs a conversion. -/
def runConversion (around : Surroundings ρ σ) (request : Conversion) : Outcome :=
  match Console.start around.tree around.time request with
  | .error fault => around.quietConsole.escape fault ""
  | .ok console => around.runWith console request

/-- Runs a listing.  Its records go nowhere. -/
def runListing (around : Surroundings ρ σ) (request : Listing) : Outcome :=
  let console := around.quietConsole
  match (around.converter console request.noConfig request.config []).1 with
  | .error fault => console.stop isConfigurationFault 2 s!"Error: {fault.message}" fault
  | .ok converter => match request.content converter with
    | none => (console.print (request.notFound converter)).finish 1 ""
    | some (shown, none) => console.finish 0 shown
    | some (shown, some fault) => console.escape fault shown

/-- Runs the program with some arguments. -/
def run (around : Surroundings ρ σ) (arguments : List String) : Outcome :=
  match arguments with
  | name :: rest =>
    if listingNames.contains name then
      match Listing.command.request rest with
      | .ok request => around.runListing request
      | .error stop => Listing.command.stop around.tree stop
    else convert
  | [] => convert
where
  /-- Runs what is no listing. -/
  convert : Outcome :=
    match Conversion.command.request arguments with
    | .ok request => around.runConversion request
    | .error stop => Conversion.command.stop around.tree stop

end Surroundings

end Markflow.CommandLine
