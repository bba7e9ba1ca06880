import Markflow.Transform.Definition

/-!
# Registries

A registry holds definitions by name in the order in which they run.  A new name comes last, or next
to another transform that is named as its anchor; a name that is there already keeps its place
unless an anchor is given.  A registration that fails changes nothing.
-/

namespace Markflow

/-- Definitions by name, in the order in which they run. -/
structure Registry (ρ : Type) where
  entries : List (String × Definition ρ)
  deriving Repr, Inhabited

/-- Where a registration puts its transform. -/
inductive Placement where
  /-- In the place that the name has, or last. -/
  | own
  | beside (side : Side) (anchor : String)
  deriving DecidableEq, Repr, Inhabited

/-- A registration: the definition, fields that replace its own, and the two possible anchors. -/
structure Registration (ρ : Type) where
  base : Base ρ
  changes : Fields ρ := {}
  before : Value := .null
  after : Value := .null
  deriving Repr, Inhabited

namespace Registry

variable {ρ : Type}

/-- The registry without transforms. -/
def empty : Registry ρ :=
  ⟨[]⟩

/-- The names in order. -/
def names (registry : Registry ρ) : List String :=
  registry.entries.map (·.1)

/-- The definitions in order. -/
def definitions (registry : Registry ρ) : List (Definition ρ) :=
  registry.entries.map (·.2)

/-- The definition of a name. -/
def lookup? (registry : Registry ρ) (name : String) : Option (Definition ρ) :=
  registry.entries.lookup name

/-- Whether a name is registered. -/
def contains (registry : Registry ρ) (name : String) : Bool :=
  registry.names.contains name

/-- The registry without a name. -/
def erase (registry : Registry ρ) (name : String) : Registry ρ :=
  ⟨registry.entries.filter (·.1 != name)⟩

/-- The registry with a definition put in its place. -/
def insert (registry : Registry ρ) (name : String) (definition : Definition ρ) :
    Placement → Registry ρ
  | .own =>
    if registry.contains name then
      ⟨registry.entries.map fun entry => if entry.1 == name then (name, definition) else entry⟩
    else ⟨registry.entries ++ [(name, definition)]⟩
  | .beside side anchor =>
    ⟨(registry.erase name).entries.flatMap fun entry =>
      if entry.1 == anchor then
        match side with
        | .before => [(name, definition), entry]
        | .after => [entry, (name, definition)]
      else [entry]⟩

/-- The place next to an anchor, which has to be another registered transform. -/
def placeBeside (registry : Registry ρ) (name : Value) (side : Side) (anchor : Value) :
    Except Fault Placement := do
  match ← anchor.asKey with
  | some other =>
    if anchor == name || !registry.contains other then
      throw (.invalid (.badAnchor name side anchor))
    else return .beside side other
  | none => throw (.invalid (.badAnchor name side anchor))

/-- The place that the anchors of a registration stand for; at most one may be given. -/
def place (registry : Registry ρ) (name before after : Value) : Except Fault Placement :=
  match before, after with
  | .null, .null => .ok .own
  | before, .null => registry.placeBeside name .before before
  | .null, after => registry.placeBeside name .after after
  | before, _ => .error (.invalid (.bothSides before))

variable [Host]

/-- The definition and the place of a registration, which has to be valid. -/
def check (registry : Registry ρ) (registration : Registration ρ) :
    Except Fault (Definition ρ × Placement) := do
  let definition ← registration.base.toDefinition registration.changes
  definition.validate
  let _ ← definition.compile
  let placement ← registry.place definition.name registration.before registration.after
  return (definition, placement)

/-- The registry after a registration. -/
def registered (registry : Registry ρ) (registration : Registration ρ) :
    Except Fault (Registry ρ) := do
  let (definition, placement) ← registry.check registration
  return registry.insert definition.key definition placement

/-- The records of a registration that is valid. -/
def registrationRecords (registry : Registry ρ) (name : String) : Placement → List Record
  | .own =>
    (if registry.contains name then
      [⟨.info, .registry, s!"Transform '{name}' already registered, replacing in place"⟩]
    else []) ++ [⟨.debug, .registry, s!"Registered transform: {name}"⟩]
  | .beside _ _ => [⟨.debug, .registry, s!"Registered transform: {name}"⟩]

/-- Registers or replaces a transform. -/
def register (registration : Registration ρ) : Action (Registry ρ) Unit := do
  let registry ← Action.state
  match registry.check registration with
  | .ok (definition, placement) =>
    (registry.registrationRecords definition.key placement).forM Action.record
    Action.setState (registry.insert definition.key definition placement)
  | .error fault =>
    (Pattern.failureRecord? fault).forM Action.record
    throw fault

/-- Removes a transform if it is registered. -/
def unregister (name : Value) : Action (Registry ρ) Unit := do
  let registry ← Action.state
  match ← Action.ofExcept name.asKey with
  | some key =>
    if registry.contains key then
      Action.setState (registry.erase key)
      Action.record ⟨.debug, .registry, s!"Unregistered transform: {key}"⟩
  | none => return

/-- Removes every transform. -/
def clear : Action (Registry ρ) Unit := do
  Action.setState empty
  Action.record ⟨.debug, .registry, "Cleared transform registry"⟩

/-- The definition that a value names. -/
def find (registry : Registry ρ) (name : Value) : Except Fault (Option (Definition ρ)) :=
  return (← name.asKey).bind registry.lookup?

/-- Whether a value names a registered transform. -/
def holds (registry : Registry ρ) (name : Value) : Except Fault Bool :=
  return (← name.asKey).any registry.contains

end Registry

end Markflow
