import Markflow.CommandLine.Arguments
import Markflow.Fault

/-!
# Commands

A command turns its arguments into a request, option by option.  It can also stop: to show its help
or its version, or because the arguments are wrong.  An option that stops a command does so as soon
as it is reached, whatever comes behind it.
-/

namespace Markflow.CommandLine

/-- Why a command stops before it has done anything. -/
inductive Stop where
  | help
  | version
  | wrong (fault : UsageFault)
  deriving DecidableEq, Repr, Inhabited

/-- A command; `κ` are the keys of its options and `ω` its requests. -/
structure Command (κ ω : Type) where
  program : String
  usage : String
  /-- What help says below the usage. -/
  description : String
  grammar : Grammar κ
  /-- The request without arguments. -/
  start : ω
  option : ω → Switch κ → (value : String) → Except Stop ω
  operand : ω → String → ω

namespace Command

variable {κ ω : Type}

/-- The request after what is given, and the arguments that are not recognized. -/
def applyAll (command : Command κ ω) : ω → List (Given κ) → Except Stop (ω × List String)
  | request, [] => .ok (request, [])
  | request, .option switch value :: rest => do
    command.applyAll (← command.option request switch (value.getD "")) rest
  | request, .operand text :: rest => command.applyAll (command.operand request text) rest
  | request, .extra text :: rest => do
    let (request, extras) ← command.applyAll request rest
    return (request, text :: extras)
  | _, .fault fault :: _ => .error (.wrong fault)

/-- The request that some arguments make. -/
def request (command : Command κ ω) (arguments : List String) : Except Stop ω := do
  match ← command.applyAll command.start (command.grammar.read arguments) with
  | (request, []) => return request
  | (_, extras) => throw (.wrong (.unrecognized extras))

end Command

/-- What a run of the program comes to. -/
structure Outcome where
  /-- The exit code, or the fault that ends the run because nothing catches it. -/
  exit : Except Fault Nat
  stdout : String := ""
  stderr : String := ""
  tree : Tree
  deriving Inhabited

/-- The version of the program. -/
def version : String := "0.1.0"

/-- How a command stops. -/
def Command.stop {κ ω : Type} (command : Command κ ω) (tree : Tree) : Stop → Outcome
  | .help => { exit := .ok 0, stdout := command.usage ++ "\n" ++ command.description, tree }
  | .version => { exit := .ok 0, stdout := s!"{command.program} {version}\n", tree }
  | .wrong fault =>
    { exit := .ok 2
      stderr := s!"{command.usage}{command.program}: error: {fault.message}\n"
      tree }

end Markflow.CommandLine
