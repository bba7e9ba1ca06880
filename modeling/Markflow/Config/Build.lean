import Markflow.Converter
import Markflow.Import.Catalogue

/-!
# Converters from configurations

A configuration chooses options and lists transforms of its own, which are registered in order after
the built-in ones.  A render function is named by its path.
-/

namespace Markflow.Config

/-- The keys of a configuration. -/
def keys : List String :=
  ["display_mode", "disable", "transforms"]

/-- The keys of a transform that say where it is put. -/
def placementKeys : List String :=
  ["before", "after"]

/-- The options of a configuration, with more names to be disabled. -/
def options (config : Entries) (disable : List Value) : Except Fault Options := do
  let unknown := config.without keys
  if !unknown.isEmpty then
    throw (.misconfigured (.unknownKeys (← sortedKeys (unknown.map (·.1)))))
  match (config.find? "disable").getD (.list []) with
  | .list names =>
    let display := (config.find? "display_mode").getD (.text Display.plain.name)
    match Options.make display (.list (names ++ disable)) with
    | .error (.invalid cause) => throw (.misconfigured (.options cause))
    | outcome => outcome
  | _ => throw (.misconfigured .disableNotList)

variable {ρ : Type}

/-- The render function that a value stands for: a text is a path. -/
def readRender (catalogue : Catalogue ρ) : Value → Except Fault (Render ρ)
  | .text path => catalogue.find path
  | value => .ok (.value value)

/-- The registration that the entries of a transform describe. -/
def registration (catalogue : Catalogue ρ) (entries : Entries) :
    Except Fault (Registration ρ) := do
  let render ← (entries.find? "render").mapM (readRender catalogue)
  let fields : Fields ρ := ⟨entries.without ("render" :: placementKeys), render⟩
  return {
    base := .fields fields
    before := (entries.find? "before").getD .null
    after := (entries.find? "after").getD .null }

variable [Host]

/-- Registers the transforms of a list, which have to be tables; `index` is the number of the
first. -/
def registerFrom (catalogue : Catalogue ρ) : (index : Nat) → List Value →
    Action (Converter ρ) Unit
  | _, [] => return
  | index, .table entries :: rest => do
    let added ← Action.ofExcept (registration catalogue entries)
    Converter.onRegistry (Registry.register added)
    registerFrom catalogue (index + 1) rest
  | index, value :: _ => throw (.misconfigured (.transformNotTable index value.kindName))

/-- Installs the built-in transforms and those of a configuration. -/
def install (catalogue : Catalogue ρ) (config : Entries) : Action (Converter ρ) Unit := do
  Converter.install
  match (config.find? "transforms").getD (.list []) with
  | .list transforms => registerFrom catalogue 0 transforms
  | _ => throw (.misconfigured .transformsNotList)

/-- The converter of a configuration, and the records of its making. -/
def build (catalogue : Catalogue ρ) (config : Entries) (disable : List Value) :
    Except Fault (Converter ρ) × List Record :=
  match options config disable with
  | .error fault => (.error fault, [])
  | .ok options =>
    let (outcome, traced) := (install catalogue config).runFrom (Converter.blank options)
    (outcome.map fun _ => traced.state, traced.records)

end Markflow.Config
