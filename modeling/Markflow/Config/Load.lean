import Markflow.Data.Json
import Markflow.Data.Toml
import Markflow.Fault
import Markflow.Files.Tree
import Markflow.Libraries
import Markflow.Text.Case
import Markflow.Text.Lines

/-!
# Configuration files

A configuration is a table in a file whose suffix tells its format, or the section for this program
in the file that a project has for all its tools.  Faults name the file by the path that led to it.
-/

namespace Markflow.Config

/-- The name of the file that a project has for all its tools, in lower case. -/
def projectFile : String := "pyproject.toml"

/-- The name of this program's section in that file. -/
def sectionName : String := "rxmd"

/-- The format of files with a suffix in lower case. -/
def formatOf? : String → Option FileFormat
  | ".toml" => some .toml
  | ".yaml" => some .yaml
  | ".yml" => some .yaml
  | ".json" => some .json
  | _ => none

/-- The characters of a file's bytes as they are. -/
def decode (bytes : List UInt8) : Except Fault (List Char) :=
  (Text.Utf8.decode bytes).mapError .undecodable

/-- What reading data has come to, without a value for malformed text. -/
def parsed {α : Type} : Except ReadFault α → Except Fault (Option α)
  | .ok value => .ok (some value)
  | .error .malformed => .ok none
  | .error (.excess cause) => .error (.excess cause)
  | .error (.raised kind message) => .error (.raised kind message)

variable [Host] [Libraries]

/-- The value in a file of a format; none for malformed text. -/
def readValue (format : FileFormat) (bytes : List UInt8) : Except Fault (Option Value) :=
  match format with
  | .toml => do return (← parsed (Toml.read (← decode bytes))).map .table
  | .yaml => parsed (Libraries.yaml bytes)
  | .json => do parsed (Json.read (Text.unifyBreaks (← decode bytes)))

/-- The configuration in a file of a format.  A file in YAML may hold nothing. -/
def readTable (format : FileFormat) (path : String) (bytes : List UInt8) :
    Except Fault Entries := do
  match format, ← readValue format bytes with
  | _, none => throw (.misconfigured (.malformed format false path))
  | _, some (.table entries) => return entries
  | .yaml, some .null => return []
  | _, some value => throw (.misconfigured (.notMapping format value.kindName path))

/-- The configuration in the file of a project; empty where there is none. -/
def readSection (path : String) (bytes : List UInt8) : Except Fault Entries := do
  match ← parsed (Toml.read (← decode bytes)) with
  | none => throw (.misconfigured (.malformed .toml true path))
  | some data => match (data.find? "tool").getD (.table []) with
    | .table tools => match (Entries.find? tools sectionName).getD (.table []) with
      | .table entries => return entries
      | value => throw (.misconfigured (.sectionNotTable value.kindName path))
    | value => throw (.noAttribute value.kindName "get")

/-- The configuration in the file of a path. -/
def readFile (path : Path) (shown : String) (bytes : List UInt8) : Except Fault Entries :=
  if Text.lower path.name = projectFile then readSection shown bytes
  else
    let suffix := Text.lower path.suffix
    match formatOf? suffix with
    | some format => readTable format shown bytes
    | none => throw (.misconfigured (.unsupportedFormat suffix shown))

/-- The fault of a file that may not be read, which is told only of files of a known format. -/
def refusal (path : Path) (shown : String) : Misconfigured :=
  if Text.lower path.name = projectFile then .unreadable .toml true shown
  else
    let suffix := Text.lower path.suffix
    match formatOf? suffix with
    | some format => .unreadable format false shown
    | none => .unsupportedFormat suffix shown

/-- The configuration in the file that a path has led to, if it has led to a file. -/
def readTarget (tree : Tree) (path : Path) (shown : String)
    (target : Except FileFault (List String)) : Except Fault Entries :=
  match tree.isFile target with
  | .error fault => throw (.file fault shown)
  | .ok false => throw (.misconfigured (.noFile shown))
  | .ok true => match target >>= tree.readAt with
    | .ok bytes => readFile path shown bytes
    | .error _ => throw (.misconfigured (refusal path shown))

/-- The configuration in the file that a path leads to. -/
def load (tree : Tree) (path : String) : Except Fault Entries :=
  let path := Path.ofText path
  readTarget tree path path.text (tree.follow path)

end Markflow.Config
