import Markflow.Action
import Markflow.Config.Load

/-!
# Finding the configuration

A path that is given wins over one in the environment, which wins over what is found.  The search
goes from a directory up to the root; every directory can offer a configuration file, or else the
file of a project that has a section for this program.  Last comes the user's home.
-/

namespace Markflow.Config

/-- The names of configuration files; of several in one directory the first wins. -/
def fileNames : List String :=
  [".rxmd.toml", ".rxmd.yaml", ".rxmd.yml", ".rxmd.json"]

/-- What the first of some candidates offers that offers anything. -/
def firstOf {α β : Type} (offer : α → Except Fault (Option β)) : List α → Except Fault (Option β)
  | [] => return none
  | candidate :: others => do
    match ← offer candidate with
    | some found => return some found
    | none => firstOf offer others

/-- A place, if there is a file. -/
def fileAt (tree : Tree) (place : List String) : Except Fault (Option (List String)) :=
  match tree.isFile (tree.reach place) with
  | .error fault => .error (.file fault (tree.absolute place))
  | .ok isFile => .ok (if isFile then some place else none)

/-- The configuration file of a directory. -/
def fileIn (tree : Tree) (directory : List String) : Except Fault (Option (List String)) :=
  firstOf (fun name => fileAt tree (directory ++ [name])) fileNames

section Search

variable [Host]

/-- The file of a directory's project, if it holds a configuration that is not empty.  One that
cannot be used counts as none. -/
def projectIn (tree : Tree) (directory : List String) : Except Fault (Option (List String)) := do
  match ← fileAt tree (directory ++ [projectFile]) with
  | none => return none
  | some place => match tree.readAt place with
    | .error _ => return none
    | .ok bytes => match readSection (tree.absolute place) bytes with
      | .ok [] => return none
      | .ok _ => return some place
      | .error (.misconfigured _) => return none
      | .error fault => throw fault

/-- What a directory offers. -/
def offeredIn (tree : Tree) (directory : List String) : Except Fault (Option (List String)) := do
  match ← fileIn tree directory with
  | some place => return some place
  | none => projectIn tree directory

/-- What a directory or the nearest one above it offers. -/
def find (tree : Tree) (start : Path) : Except Fault (Option (List String)) :=
  match tree.resolve start with
  | some place => firstOf (offeredIn tree) (withParents place)
  | none => return none

/-- What is found from a directory on, or else in the home. -/
def discover (tree : Tree) (start : Path) : Except Fault (Option (List String)) := do
  match ← find tree start with
  | some place => return some place
  | none => match tree.home with
    | some home => fileIn tree home
    | none => throw .noHome

end Search

/-- The places at which a configuration is looked for when none is given. -/
def searched (tree : Tree) : List (List String) :=
  ((withParents tree.work).flatMap fun directory =>
    (fileNames ++ [projectFile]).map fun name => directory ++ [name])
    ++ tree.home.toList.flatMap fun home => fileNames.map fun name => home ++ [name]

/-- Where a configuration comes from: a path that is given, or a place that is found. -/
inductive Origin where
  | given (path : String)
  | found (place : List String)
  deriving DecidableEq, Repr, Inhabited

namespace Origin

/-- The path of an origin in a report. -/
def shown (tree : Tree) : Origin → String
  | given path => path
  | found place => tree.absolute place

/-- The configuration of an origin. -/
def load [Host] [Libraries] (tree : Tree) : Origin → Except Fault Entries
  | given path => Config.load tree path
  | found place => readTarget tree ⟨true, place⟩ (tree.absolute place) (tree.reach place)

/-- The record of loading a configuration. -/
def record (tree : Tree) (origin : Origin) : Record :=
  ⟨.info, .configuration, s!"Loading configuration from {origin.shown tree}"⟩

end Origin

/-- The first of some texts that is given and not empty. -/
def firstSet (texts : List (Option String)) : Option String :=
  (texts.filterMap id).find? (· != "")

variable [Host]

/-- Where the configuration comes from, given the path of a request and that of the environment. -/
def choose (tree : Tree) (requested environment : Option String) :
    Except Fault (Option Origin) := do
  match firstSet [requested, environment] with
  | some path => return some (.given path)
  | none => return (← discover tree (Path.ofText ".")).map .found

/-- The configuration to run with; empty where there is none. -/
def resolve [Libraries] {σ : Type} (tree : Tree) (requested environment : Option String) :
    Action σ Entries := do
  match ← Action.ofExcept (choose tree requested environment) with
  | none => return []
  | some origin => do
    Action.record (origin.record tree)
    Action.ofExcept (origin.load tree)

end Markflow.Config
