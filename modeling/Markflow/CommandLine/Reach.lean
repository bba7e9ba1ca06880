import Markflow.CommandLine.Run

/-!
# What a run can reach

A run is a function of a tree of files; of the whole file system it needs no more than the places
that its arguments name and those at which a configuration is looked for.
-/

namespace Markflow.CommandLine

/-- The paths that arguments name. -/
def namedPaths (arguments : List String) : List String :=
  match arguments with
  | name :: rest =>
    if listingNames.contains name then
      match Listing.command.request rest with
      | .ok request => request.config.toList
      | .error _ => []
    else convert
  | [] => convert
where
  /-- The paths that the arguments of a conversion name. -/
  convert : List String :=
    match Conversion.command.request arguments with
    | .ok request =>
      request.input :: (request.output.toList ++ request.config.toList ++ request.logFile.toList)
    | .error _ => []

/-- Whether a run with some arguments reads the standard input. -/
def readsStdin (arguments : List String) : Bool :=
  !(arguments.head?.any listingNames.contains) &&
    match Conversion.command.request arguments with
    | .ok request => request.input == "-"
    | .error _ => false

/-- The places on the way of a path, its end included. -/
def stepsOf (tree : Tree) (path : Path) : List (List String) :=
  let start := if path.absolute then [] else tree.work
  (List.range (path.parts.length + 1)).map fun count =>
    Path.collapse start (path.parts.take count)

/-- The places that a run with some arguments can reach. -/
def reach (tree : Tree) (arguments : List String) (environment : Option String) :
    List (List String) :=
  let paths := (namedPaths arguments ++ environment.toList).map Path.ofText
  (paths.flatMap (stepsOf tree) ++ Config.searched tree).eraseDups

end Markflow.CommandLine
