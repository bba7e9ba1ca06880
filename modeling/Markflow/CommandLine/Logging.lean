import Markflow.CommandLine.Conversion
import Markflow.Libraries

/-!
# Where records go

A console collects what is written to the standard error and, if a log file is asked for, adds every
record to that file as well.  Records below a level are left out.
-/

namespace Markflow.CommandLine

/-- How records are written to the standard error. -/
inductive Layout where
  | plain
  /-- With the time and the name of the part that makes the record. -/
  | trace
  /-- In columns, with the time or without it. -/
  | columns (timed : Bool)
  deriving DecidableEq, Repr, Inhabited

/-- What is written besides the result: the standard error so far, and the files. -/
structure Console where
  tree : Tree
  stderr : String := ""
  threshold : Level := .warning
  layout : Layout := .plain
  /-- The place of the log file. -/
  file : Option (List String) := none
  /-- The present time as it is written. -/
  time : String
  deriving Inhabited

/-- A record with the time and the name of its part. -/
def traceLine (time : String) (entry : Record) : String :=
  s!"[{time}] [{entry.level.name}] [{entry.source.name}] {entry.message}\n"

namespace Console

/-- The console with more text on the standard error. -/
def print (console : Console) (text : String) : Console :=
  { console with stderr := console.stderr ++ text }

variable [Libraries]

/-- The form of a record on the standard error. -/
def line (console : Console) (entry : Record) : String :=
  match console.layout with
  | .plain => s!"{entry.level.name}: {entry.message}\n"
  | .trace => traceLine console.time entry
  | .columns timed => Libraries.logLines (if timed then some console.time else none) entry

/-- The console with a record written, unless its level is too low. -/
def emit (console : Console) (entry : Record) : Console :=
  if entry.level.number < console.threshold.number then console
  else
    let console := console.print (console.line entry)
    match console.file with
    | none => console
    | some place =>
      let bytes := (traceLine console.time entry).toUTF8.toList
      match console.tree.appendAt place bytes with
      | .ok tree => { console with tree }
      | .error _ => console

/-- The console with records written in order. -/
def emitAll (console : Console) (entries : List Record) : Console :=
  entries.foldl emit console

/-- The console with a log file, which is made if it is not there.  If the system does not let it be
made, a warning says so and the file is left out. -/
def openFile (console : Console) (path : String) : Except Fault Console :=
  let text := console.tree.absoluteText (Path.ofText path)
  let place := console.tree.resolve (Path.ofText path)
  let opened : Except FileFault Tree := do
    Tree.checkText text
    match place with
    | some place => console.tree.appendAt place []
    | none => throw .notFound
  match opened with
  | .ok tree =>
    .ok ({ console with tree, file := place }.emit
      ⟨.info, .root, s!"Logging to file: {path}"⟩)
  | .error .embeddedNull => .error (.file .embeddedNull text)
  | .error fault =>
    .ok (console.emit
      ⟨.warning, .root, s!"Could not create log file {path}: {fault.message text}"⟩)

/-- The console that a request asks for. -/
def start (tree : Tree) (time : String) (request : Conversion) : Except Fault Console :=
  let layout := if request.rich then .columns request.trace
    else if request.trace then .trace else .plain
  let console : Console := { tree, time, threshold := request.threshold, layout }
  match request.logFile with
  | some path => if path.isEmpty then .ok console else console.openFile path
  | none => .ok console

end Console

end Markflow.CommandLine
