import Markflow.Transform.Definition

/-!
# Render paths

A configuration names a render function by the path of a module, a colon and the path of the
function inside it.  What there is to be named is a catalogue of modules; `Catalogue.find` walks a
path through it and gives the function at its end, or the reason why there is none.
-/

namespace Markflow

/-- Something that a path can lead to. -/
inductive Offer (ρ : Type) where
  /-- A module; only a package has modules below it. -/
  | module (path : String) (package : Bool) (members : List (String × Offer ρ))
  | function (render : Render ρ)
  /-- A type, which makes a value of its own when it is called. -/
  | type (name : String) (render : Render ρ) (members : List (String × Offer ρ))
  /-- A value that cannot be called. -/
  | object (kind : String) (members : List (String × Offer ρ))
  /-- Something that fails when it is imported or looked up. -/
  | broken (kind message : String)
  deriving Inhabited

namespace Offer

variable {ρ : Type}

/-- How something is called in a message about what it lacks. -/
def label : Offer ρ → String
  | module path _ _ => s!"module {Text.quoted path}"
  | function _ => "'function' object"
  | type name _ _ => s!"type object '{name}'"
  | object kind _ => s!"'{kind}' object"
  | broken kind _ => s!"'{kind}' object"

/-- What something offers in turn. -/
def members : Offer ρ → List (String × Offer ρ)
  | module _ _ members => members
  | function _ => []
  | type _ _ members => members
  | object _ members => members
  | broken _ _ => []

/-- What renders matches, if something can be called. -/
def render? : Offer ρ → Option (Render ρ)
  | function render => some render
  | type _ render _ => some render
  | _ => none

/-- What a list of names leads to. -/
def follow : Offer ρ → List String → Except ImportFault (Offer ρ)
  | broken kind message, _ => .error (.raised kind message)
  | offer, [] => .ok offer
  | offer, name :: names => match offer.members.lookup name with
    | some member => member.follow names
    | none => .error (.noAttribute offer.label name)

end Offer

/-- The modules that paths can start from, by name. -/
abbrev Catalogue (ρ : Type) := List (String × Offer ρ)

namespace Catalogue

variable {ρ : Type}

/-- The module at the end of a list of names below a module that is found. -/
def descend : (parent : Offer ρ) → (path : String) → List String → Except ImportFault (Offer ρ)
  | parent, _, [] => .ok parent
  | parent, path, name :: names =>
    let below := s!"{path}.{name}"
    match parent with
    | .module _ true members => match members.lookup name with
      | some (.module inner package members) =>
        descend (.module inner package members) below names
      | some (.broken kind message) => .error (.raised kind message)
      | _ => .error (.noModule below)
    | _ => .error (.notPackage below path)

/-- The module of a dotted path. -/
def findModule (catalogue : Catalogue ρ) (path : String) : Except ImportFault (Offer ρ) :=
  match path.splitOn "." with
  | [] => .error (.noModule path)
  | name :: names => match catalogue.lookup name with
    | some found => descend found name names
    | none => .error (.noModule name)

/-- The two sides of a path's first colon, if there is one. -/
def splitPath (path : List Char) : Option (List Char × List Char) :=
  match path.dropWhile (· != ':') with
  | _ :: names => some (path.takeWhile (· != ':'), names)
  | [] => none

/-- The kinds of failures of an import that are faults of a configuration. -/
def importKinds : List String :=
  ["ImportError", "ModuleNotFoundError", "AttributeError"]

/-- The fault of a path whose import fails.  A failure that is not of an import is passed on. -/
def refusal (path : String) : ImportFault → Fault
  | .raised kind message =>
    if importKinds.contains kind then .misconfigured (.notImported path (.raised kind message))
    else .raised kind message
  | fault => .misconfigured (.notImported path fault)

/-- The function that a path names. -/
def find (catalogue : Catalogue ρ) (path : String) : Except Fault (Render ρ) := do
  match splitPath path.toList with
  | some (modulePath@(first :: _), names@(_ :: _)) =>
    if first == '.' then throw (.kind (.relativeImport (String.ofList modulePath)))
    let found := do
      (← catalogue.findModule (String.ofList modulePath)).follow ((String.ofList names).splitOn ".")
    match found with
    | .ok offer => match offer.render? with
      | some render => return render
      | none => throw (.misconfigured (.notFunction path))
    | .error fault => throw (refusal path fault)
  | _ => throw (.misconfigured (.renderPath path))

end Catalogue

end Markflow
