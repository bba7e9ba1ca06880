import Markflow.Files.Path
import Markflow.Text.Quoted

/-!
# Trees of files

A tree of directories and files with the two directories that paths refer to: the one in which the
program works and the user's home.  A place in the tree is the list of names that lead to it.

Main definitions: `Tree.follow` walks a path through the tree and fails where a part is missing or
may not be passed, `Tree.isFile` asks what there is at the end of it, and `Tree.read` and
`Tree.write` are reading and writing there.
-/

namespace Markflow

/-- A file or a directory. -/
inductive Entry where
  | file (bytes : List UInt8)
  /-- A file that the program may neither read nor write. -/
  | locked
  | directory (entries : List (String × Entry))
  /-- A directory that the program may not pass through, so that it sees nothing below it. -/
  | sealed
  deriving Inhabited

/-- Why a file cannot be read or written. -/
inductive FileFault where
  | notFound
  | denied
  | notDirectory
  | isDirectory
  | nameTooLong
  /-- The path has a zero character in it, for which no system is asked. -/
  | embeddedNull
  deriving DecidableEq, Repr, Inhabited

/-- The wording of a failure at a path. -/
def FileFault.message (fault : FileFault) (path : String) : String :=
  match fault with
  | notFound => s!"[Errno 2] No such file or directory: {Text.quoted path}"
  | denied => s!"[Errno 13] Permission denied: {Text.quoted path}"
  | notDirectory => s!"[Errno 20] Not a directory: {Text.quoted path}"
  | isDirectory => s!"[Errno 21] Is a directory: {Text.quoted path}"
  | nameTooLong => s!"[Errno 36] File name too long: {Text.quoted path}"
  | embeddedNull => "embedded null byte"

namespace Entry

/-- The entry at a place. -/
def at? : Entry → List String → Option Entry
  | entry, [] => some entry
  | directory entries, name :: place => (entries.lookup name).bind (·.at? place)
  | _, _ :: _ => none

/-- The tree with an entry put at a place whose parents are directories; parents that are missing
are made. -/
def put (new : Entry) : List String → Entry → Entry
  | [], _ => new
  | name :: place, entry =>
    let entries := match entry with
      | directory entries => entries
      | _ => []
    let child := put new place ((entries.lookup name).getD (directory []))
    if (entries.lookup name).isSome then
      directory (entries.map fun (other, old) =>
        if other == name then (name, child) else (other, old))
    else directory (entries ++ [(name, child)])

end Entry

/-- A tree of files. -/
structure Tree where
  root : Entry
  /-- The directory that relative paths start from. -/
  work : List String
  /-- The user's home, if it is known. -/
  home : Option (List String)
  /-- The text of the tree's root in absolute paths. -/
  mount : String
  deriving Inhabited

namespace Tree

/-- The text of a place. -/
def absolute (tree : Tree) (place : List String) : String :=
  String.join (tree.mount :: place.map ("/" ++ ·))

/-- The greatest number of bytes that a name can have. -/
def nameLimit : Nat := 255

/-- The least number of bytes that is too large for a path. -/
def pathLimit : Nat := 4096

/-- Checks that a system can be asked for a path. -/
def checkText (path : String) : Except FileFault Unit :=
  if path.toList.contains '\x00' then .error .embeddedNull
  else if pathLimit ≤ path.utf8ByteSize then .error .nameTooLong
  else .ok ()

/-- The place at the end of a path that starts in a place.  Every place on the way has to be a
directory; there need not be anything at the end. -/
def followFrom (tree : Tree) : (place : List String) → (parts : List String) →
    Except FileFault (List String)
  | place, [] => .ok place
  | place, part :: parts => match tree.root.at? place with
    | some (.directory _) =>
      if part == ".." then tree.followFrom place.dropLast parts
      else if nameLimit < part.utf8ByteSize then .error .nameTooLong
      else tree.followFrom (place ++ [part]) parts
    | some .sealed => .error .denied
    | some _ => .error .notDirectory
    | none => .error .notFound

/-- The place that a path leads to.  Absolute paths lie outside of a tree that is mounted. -/
def follow (tree : Tree) (path : Path) : Except FileFault (List String) := do
  checkText path.text
  if path.absolute then
    if tree.mount.isEmpty then tree.followFrom [] path.parts else .error .notFound
  else tree.followFrom tree.work path.parts

/-- A place, if its text leads to it. -/
def reach (tree : Tree) (place : List String) : Except FileFault (List String) := do
  checkText (tree.absolute place)
  tree.followFrom [] place

/-- Whether there is a file where a path has led, be it one that may not be read.  Some reasons why
a path leads nowhere only say that there is none. -/
def isFile (tree : Tree) : Except FileFault (List String) → Except FileFault Bool
  | .ok place => match tree.root.at? place with
    | some (.file _) | some .locked => .ok true
    | _ => .ok false
  | .error .denied => .error .denied
  | .error .nameTooLong => .error .nameTooLong
  | .error _ => .ok false

/-- The bytes of the file at a place. -/
def readAt (tree : Tree) (place : List String) : Except FileFault (List UInt8) :=
  match tree.root.at? place with
  | some (.file bytes) => .ok bytes
  | some .locked => .error .denied
  | some _ => .error .isDirectory
  | none => .error .notFound

/-- The bytes of the file that a path leads to. -/
def read (tree : Tree) (path : Path) : Except FileFault (List UInt8) :=
  tree.follow path >>= tree.readAt

/-- Whether a file can be written at a place: there is a directory for it, and in its place no
directory and no file that may not be written. -/
def checkAt (tree : Tree) (place : List String) : Except FileFault Unit := do
  let _ ← tree.followFrom [] place
  match tree.root.at? place with
  | some (.directory _) | some .sealed => throw .isDirectory
  | some .locked => throw .denied
  | _ => return

/-- The tree with a file at a place. -/
def writeAt (tree : Tree) (place : List String) (bytes : List UInt8) : Except FileFault Tree := do
  tree.checkAt place
  return { tree with root := Entry.put (.file bytes) place tree.root }

/-- The tree with a file at the place that a path leads to. -/
def write (tree : Tree) (path : Path) (bytes : List UInt8) : Except FileFault Tree := do
  tree.writeAt (← tree.follow path) bytes

/-- The tree with bytes added at the end of the file at a place, which is made if it is missing. -/
def appendAt (tree : Tree) (place : List String) (bytes : List UInt8) : Except FileFault Tree := do
  let old := match tree.readAt place with
    | .ok old => old
    | .error _ => []
  tree.writeAt place (old ++ bytes)

/-- The place that a path spells, whether or not there is anything: two dots take back one part.
There is none for a path outside of the tree. -/
def resolve (tree : Tree) (path : Path) : Option (List String) :=
  if path.absolute then if tree.mount.isEmpty then some (Path.collapse [] path.parts) else none
  else some (Path.collapse tree.work path.parts)

/-- The absolute text of a path. -/
def absoluteText (tree : Tree) (path : Path) : String :=
  match tree.resolve path with
  | some place => tree.absolute place
  | none => (⟨true, Path.collapse [] path.parts⟩ : Path).text

end Tree

/-- A place and the places above it, the nearest first. -/
def withParents (place : List String) : List (List String) :=
  (List.range (place.length + 1)).reverse.map place.take

end Markflow
