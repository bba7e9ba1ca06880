import Markflow.CommandLine.Command
import Markflow.Config.Build
import Markflow.Help

/-!
# The listing command

Shows the transforms that a conversion would run, all of them in a list or one in detail, as plain
text or in a table or panel.
-/

namespace Markflow.CommandLine

/-- A request to show transforms. -/
structure Listing where
  /-- The name of the transform to show in detail; without one, or with an empty one, all are
  listed. -/
  name : String := ""
  rich : Bool := false
  config : Option String := none
  noConfig : Bool := false
  deriving DecidableEq, Repr, Inhabited

namespace Listing

/-- The options of the command. -/
inductive Key where
  | help
  | rich
  | config
  | noConfig
  deriving DecidableEq, Repr, Inhabited

/-- How the options are written. -/
def grammar : Grammar Key :=
  [{ key := .help, names := ["-h", "--help"] },
    { key := .rich, names := ["--rich"] },
    { key := .config, names := ["--config"], takesValue := true },
    { key := .noConfig, names := ["--no-config"] }]

/-- The request with one more option. -/
def option (request : Listing) (switch : Switch Key) (value : String) : Except Stop Listing :=
  match switch.key with
  | .help => throw .help
  | .rich => return { request with rich := true }
  | .config => return { request with config := some value }
  | .noConfig => return { request with noConfig := true }

/-- How the command is used. -/
def usage : String :=
  "usage: rxmd list-transforms [-h] [--rich] [--config CONFIG] [--no-config]\n"
    ++ "                            [transform]\n"

/-- The description of the command and its options. -/
def description : String :=
  "Show registered Markdown transforms.\n\n"
    ++ "positional arguments:\n"
    ++ "  transform        Show details for specific transform\n\n"
    ++ "options:\n"
    ++ "  -h, --help       show this help message and exit\n"
    ++ "  --rich           Use rich terminal output\n"
    ++ "  --config CONFIG  Configuration file (defaults to $RXMD_CONFIG or discovery)\n"
    ++ "  --no-config      Ignore configuration files\n"

/-- The command that lists transforms. -/
def command : Command Key Listing where
  program := "rxmd list-transforms"
  usage
  description
  grammar
  start := {}
  option
  operand := fun request name => { request with name }

end Listing

namespace Listing

open Terminal

variable {ρ : Type}

/-- The line below a title. -/
def underline : String :=
  String.ofList (List.replicate 60 '=') ++ "\n"

/-- The text of a field in a line behind its name. -/
def fieldLine (name : String) (value : Value) : Except Fault String :=
  (fun form => s!"{name}: {form}\n") <$> value.form

/-- A transform in detail, line by line. -/
def plainDetail (d : Definition ρ) : List (Except Fault String) :=
  [.ok s!"\n{d.key}\n", .ok underline, fieldLine "Description" d.description,
    fieldLine "Usage" d.usage, .ok s!"Pattern: {d.signature}\n"]
    ++ if d.tags.isEmpty then [] else [(fun tags => s!"Tags: {tags}\n") <$> joined ", " d.tags]

/-- A transform in one line. -/
def plainLine (d : Definition ρ) : Except Fault String := do
  let tags ← if d.tags.isEmpty then pure "" else (fun tags => s!" [{tags}]") <$> joined ", " d.tags
  let blanks := String.ofList (List.replicate (20 - d.key.length) ' ')
  return s!"  {d.key}{blanks} {← d.description.form}{tags}\n"

/-- All transforms, one to a line. -/
def plainList (definitions : List (Definition ρ)) : List (Except Fault String) :=
  [.ok "\nRegistered Transforms\n", .ok underline] ++ definitions.map plainLine
    ++ [.ok s!"\nTotal: {definitions.length} transforms\n",
      .ok "Use 'rxmd list-transforms <transform>' for details\n"]

/-- Lines up to the first one that cannot be made, with the reason why there are no more. -/
def printed : List (Except Fault String) → String × Option Fault
  | [] => ("", none)
  | .ok line :: lines =>
    let (more, fault) := printed lines
    (line ++ more, fault)
  | .error fault :: _ => ("", some fault)

/-- A field in a panel behind its name. -/
def fieldRuns (name : String) (value : Value) : Except Fault (List Run) :=
  (fun form => [⟨.bold, s!"{name}: "⟩, .plain s!"{form}\n"]) <$> value.form

/-- A transform in a panel. -/
def detailPanel (d : Definition ρ) : Except Fault Panel := do
  let description ← fieldRuns "Description" d.description
  let usage ← fieldRuns "Usage" d.usage
  let tags ← if d.tags.isEmpty then pure []
    else (fun tags => [⟨.bold, "\nTags: "⟩, Run.plain tags]) <$> joined ", " d.tags
  return {
    title := .markup s!"Transform: {d.key}"
    centred := true
    body := [⟨.bold, "Name: "⟩, .plain s!"{d.key}\n"] ++ description ++ usage
      ++ [⟨.bold, "Pattern: "⟩, ⟨.yellow, d.signature⟩] ++ tags }

variable [Libraries]

/-- All transforms in a table. -/
def overviewTable (definitions : List (Definition ρ)) : Except Fault Table := do
  let rows ← definitions.mapM fun d => do
    return [Label.text (.plain d.key), .text (.plain (← Libraries.cellText d.description)),
      .markup (← joined ", " d.tags)]
  return {
    title := .plain s!"Registered Transforms ({definitions.length})"
    columns := [{ header := "#", style := .dim, right := true },
      { header := "Name", style := .cyan }, { header := "Description", style := .white },
      { header := "Tags", style := .yellow }]
    rows := rows.mapIdx Help.numbered }

/-- A drawing as it is printed: as a whole or not at all. -/
def drawn (piece : Except Fault Piece) : String × Option Fault :=
  match piece >>= fun piece => Libraries.draw .output [piece] with
  | .ok text => (text, none)
  | .error fault => ("", some fault)

/-- What is shown of a converter's transforms, up to a failure if there is one; a name that is not
registered shows nothing. -/
def content (request : Listing) (converter : Converter ρ) : Option (String × Option Fault) :=
  let rich := request.rich || converter.options.display = .terminal
  if request.name.isEmpty then
    let definitions := converter.registry.definitions
    some (if rich then drawn (.table <$> overviewTable definitions)
      else printed (plainList definitions))
  else (converter.registry.lookup? request.name).map fun d =>
    if rich then drawn (.panel <$> detailPanel d) else printed (plainDetail d)

/-- The message for a name that is not registered. -/
def notFound (request : Listing) (converter : Converter ρ) : String :=
  s!"Error: Transform '{request.name}' not found\n"
    ++ "Available: " ++ ", ".intercalate converter.names ++ "\n"

end Listing

end Markflow.CommandLine
