import Markflow.CommandLine.Command
import Markflow.Log
import Markflow.Text.Case

/-!
# The conversion command

What the program is asked to do without a name of a command: to convert one input.
-/

namespace Markflow.CommandLine

/-- A request to convert an input. -/
structure Conversion where
  input : String := "-"
  output : Option String := none
  config : Option String := none
  noConfig : Bool := false
  disable : List String := []
  level : Level := .warning
  logFile : Option String := none
  verbose : Bool := false
  trace : Bool := false
  rich : Bool := false
  deriving DecidableEq, Repr, Inhabited

namespace Conversion

/-- The options of the command. -/
inductive Key where
  | help
  | output
  | version
  | config
  | noConfig
  | disable
  | level
  | logFile
  | verbose
  | trace
  | rich
  deriving DecidableEq, Repr, Inhabited

/-- How the options are written. -/
def grammar : Grammar Key :=
  [{ key := .help, names := ["-h", "--help"] },
    { key := .output, names := ["-o", "--out"], takesValue := true },
    { key := .version, names := ["--version"] },
    { key := .config, names := ["--config"], takesValue := true },
    { key := .noConfig, names := ["--no-config"] },
    { key := .disable, names := ["--disable"], takesValue := true },
    { key := .level, names := ["--log-level"], takesValue := true },
    { key := .logFile, names := ["--log-file"], takesValue := true },
    { key := .verbose, names := ["--verbose", "-v"] },
    { key := .trace, names := ["--trace"] },
    { key := .rich, names := ["--rich"] }]

/-- The levels that can be chosen. -/
def levels : List Level :=
  [.debug, .info, .warning, .error, .critical]

/-- The request with one more option.  The two options on configuration exclude each other. -/
def option (request : Conversion) (switch : Switch Key) (value : String) :
    Except Stop Conversion :=
  match switch.key with
  | .help => throw .help
  | .version => throw .version
  | .output => return { request with output := some value }
  | .config =>
    if request.noConfig then throw (.wrong (.excluded switch.label "--no-config"))
    else return { request with config := some value }
  | .noConfig =>
    if request.config.isSome then throw (.wrong (.excluded switch.label "--config"))
    else return { request with noConfig := true }
  | .disable => return { request with disable := request.disable ++ [value] }
  | .level => match Level.ofName? (Text.upper value) with
    | some level => return { request with level }
    | none => throw (.wrong (.notChoice switch.label (Text.upper value) (levels.map Level.name)))
  | .logFile => return { request with logFile := some value }
  | .verbose => return { request with verbose := true }
  | .trace => return { request with trace := true }
  | .rich => return { request with rich := true }

/-- How the command is used. -/
def usage : String :=
  "usage: rxmd [-h] [-o OUT] [--version] [--config CONFIG | --no-config]\n"
    ++ "            [--disable NAME] [--log-level \x7bDEBUG,INFO,WARNING,ERROR,CRITICAL\x7d]\n"
    ++ "            [--log-file LOG_FILE] [--verbose] [--trace] [--rich]\n"
    ++ "            [input]\n"

/-- The description of the command and its options. -/
def description : String :=
  "Convert Markdown to HTML with regular-expression transforms.\n\n"
    ++ "positional arguments:\n"
    ++ "  input                 Markdown file to convert, or '-' for stdin\n\n"
    ++ "options:\n"
    ++ "  -h, --help            show this help message and exit\n"
    ++ "  -o OUT, --out OUT     Write HTML to this file instead of stdout\n"
    ++ "  --version             show program's version number and exit\n"
    ++ "  --config CONFIG       Configuration file (defaults to $RXMD_CONFIG or\n"
    ++ "                        discovery)\n"
    ++ "  --no-config           Do not load any configuration file\n"
    ++ "  --disable NAME        Remove a transform from the pipeline (repeatable)\n\n"
    ++ "logging:\n"
    ++ "  --log-level \x7bDEBUG,INFO,WARNING,ERROR,CRITICAL\x7d\n"
    ++ "                        Logging level (default: WARNING)\n"
    ++ "  --log-file LOG_FILE   Also write log records to this file\n"
    ++ "  --verbose, -v         Shortcut for --log-level DEBUG\n"
    ++ "  --trace               Debug logging with timestamps and logger names\n"
    ++ "  --rich                Render log output with rich\n\n"
    ++ "Run 'rxmd list-transforms' to see the registered transforms.\n"

/-- The command that converts. -/
def command : Command Key Conversion where
  program := "rxmd"
  usage
  description
  grammar
  start := {}
  option
  operand := fun request input => { request with input }

/-- The level from which on records are kept: with a trace all of them, and with the shortcut for it
too unless another level than the usual one is chosen. -/
def threshold (request : Conversion) : Level :=
  if request.trace || (request.verbose && request.level = .warning) then .debug else request.level

end Conversion

end Markflow.CommandLine
