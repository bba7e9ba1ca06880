import Markflow.CommandLine.Reach
import Markflow.Import.Standard
import Markflow.Terminal.Standard
import Std.Time.Format

/-!
# The program

Reads the files that a run can reach into a tree, runs, and writes back what has changed.
-/

namespace Markflow.Program

/-- What there is at an absolute path. -/
def readEntry (path : String) : IO (Option Entry) := do
  let file := (← IO.currentDir) / path
  if ← file.isDir then
    return some (if ← (file / ".").pathExists then .directory [] else .sealed)
  try
    return some (.file (← IO.FS.readBinFile file).toList)
  catch _ => return if ← file.pathExists then some .locked else none

/-- The tree with what there is at a place of the file system. -/
def readPlace (tree : Tree) (place : List String) : IO Tree := do
  if (tree.root.at? place).isSome then return tree
  match ← readEntry (tree.absolute place) with
  | some entry => return { tree with root := Entry.put entry place tree.root }
  | none => return tree

/-- Writes the file at a place if it has changed. -/
def writePlace (before after : Tree) (place : List String) : IO Unit := do
  match before.readAt place, after.readAt place with
  | .ok old, .ok new =>
    if old != new then IO.FS.writeBinFile (after.absolute place) ⟨new.toArray⟩
  | .error _, .ok new => IO.FS.writeBinFile (after.absolute place) ⟨new.toArray⟩
  | _, .error _ => return

/-- The bytes of a stream up to its end. -/
partial def readAll (stream : IO.FS.Stream) (bytes : ByteArray) : IO ByteArray := do
  let more ← stream.read 65536
  if more.isEmpty then return bytes else readAll stream (bytes ++ more)

/-- The home that the system keeps for the user of the program. -/
def keptHome : IO (Option String) := do
  try
    let user := (← IO.FS.lines "/proc/self/status").findSome? fun line =>
      match line.splitOn "\t" with
      | "Uid:" :: user :: _ => some user
      | _ => none
    return (← IO.FS.lines "/etc/passwd").findSome? fun line =>
      match line.splitOn ":" with
      | [_, _, other, _, _, home, _] => if user == some other then some home else none
      | _ => none
  catch _ => return none

attribute [local instance] Host.standard Libraries.standard

/-- The program. -/
def run (arguments : List String) : IO UInt32 := do
  let environment ← IO.getEnv "RXMD_CONFIG"
  let home ← match ← IO.getEnv "HOME" with
    | some home => pure (some home)
    | none => keptHome
  let bare : Tree :=
    { root := .directory []
      work := (Path.ofText (← IO.currentDir).toString).parts
      home := home.map fun home => (Path.ofText home).parts
      mount := "" }
  let places := CommandLine.reach bare arguments environment
  let tree ← places.foldlM readPlace bare
  let stdin ← if CommandLine.readsStdin arguments then readAll (← IO.getStdin) ByteArray.empty
    else pure ByteArray.empty
  let time := (← Std.Time.PlainDateTime.now).format "uuuu-MM-dd HH:mm:ss"
  let around : CommandLine.Surroundings Empty Unit :=
    { tree, stdin := stdin.toList, environment, time
      catalogue := Catalogue.standard
      call := noCaller
      state := () }
  let outcome := around.run arguments
  places.forM (writePlace tree outcome.tree)
  (← IO.getStderr).putStr outcome.stderr
  (← IO.getStdout).putStr outcome.stdout
  match outcome.exit with
  | .ok code => return UInt32.ofNat code
  | .error fault =>
    (← IO.getStderr).putStr s!"{fault.message}\n"
    return 1

end Markflow.Program

/-- Runs the program with the arguments of the command line. -/
def main (arguments : List String) : IO UInt32 :=
  Markflow.Program.run arguments
