/-!
# Paths

A path as it is written, without the parts that mean nothing: empty ones and single dots.  Two dots
stay, for what they mean depends on the files.
-/

namespace Markflow

/-- A path of files. -/
structure Path where
  absolute : Bool
  parts : List String
  deriving DecidableEq, Repr, Inhabited

namespace Path

/-- The parts of a text between slashes. -/
def split : List Char → List (List Char)
  | [] => [[]]
  | c :: rest => match split rest with
    | part :: parts => if c == '/' then [] :: part :: parts else (c :: part) :: parts
    | [] => [[c]]

/-- The path that a text spells. -/
def ofText (text : String) : Path where
  absolute := text.toList.head? == some '/'
  parts := ((split text.toList).map String.ofList).filter fun part => part != "" && part != "."

/-- The text of a path. -/
def text (path : Path) : String :=
  if path.absolute then "/" ++ "/".intercalate path.parts
  else if path.parts.isEmpty then "." else "/".intercalate path.parts

/-- The parts that are left behind some others when two dots take back the part before them. -/
def collapse (start parts : List String) : List String :=
  parts.foldl (fun passed part => if part == ".." then passed.dropLast else passed ++ [part]) start

/-- The last part, empty if there is none. -/
def name (path : Path) : String :=
  path.parts.getLastD ""

/-- What a name ends with from its last dot on.  A dot at either end of the name starts none. -/
def suffixOf (name : String) : String :=
  let tail := name.toList.reverse.takeWhile (· != '.')
  if tail.isEmpty || name.length ≤ tail.length + 1 then ""
  else String.ofList ('.' :: tail.reverse)

/-- The suffix of a path's name. -/
def suffix (path : Path) : String :=
  suffixOf path.name

end Path

end Markflow
