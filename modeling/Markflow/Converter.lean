import Markflow.Builtin.Definitions
import Markflow.Options
import Markflow.Transform.Pipeline

/-!
# Converters

A converter owns a registry, which it fills with the built-in transforms, and runs it over texts.  A
conversion runs the transforms that are registered when it starts, whatever render functions do to
the registry meanwhile.
-/

namespace Markflow

/-- A converter from Markdown to HTML. -/
structure Converter (ρ : Type) where
  options : Options
  registry : Registry ρ
  /-- Whether help is displayed for a terminal, as a value that may be set to anything. -/
  terminal : Value
  deriving Repr, Inhabited

namespace Action

variable {σ τ α : Type}

/-- Runs an action on a part of the state. -/
def zoom (part : σ → τ) (put : τ → σ → σ) (action : Action τ α) : Action σ α :=
  fun traced =>
    let (outcome, inner) := (ExceptT.run action).run ⟨part traced.state, traced.records⟩
    (outcome, ⟨put inner.state traced.state, inner.records⟩)

end Action

namespace Converter

variable {ρ σ : Type}

/-- A converter without transforms. -/
def blank (options : Options) : Converter ρ where
  options
  registry := .empty
  terminal := .bool (options.display == .terminal)

/-- Runs an action on the registry of a converter. -/
def onRegistry {α : Type} (action : Action (Registry ρ) α) : Action (Converter ρ) α :=
  Action.zoom registry (fun registry converter => { converter with registry }) action

variable [Host]

/-- Installs the built-in transforms and then removes the disabled ones. -/
def install : Action (Converter ρ) Unit := do
  onRegistry Builtin.registerAll
  let converter ← Action.state
  converter.options.disabled.forM fun name => onRegistry (Registry.unregister (.text name))
  let size := (← Action.state).registry.entries.length
  Action.record ⟨.debug, .converter, s!"Initialized parser with {size} transform(s)"⟩

/-- A converter with the given options, and the records of its making. -/
def new (options : Options) : Except Fault (Converter ρ) × List Record :=
  let (outcome, traced) := (install (ρ := ρ)).runFrom (blank options)
  (outcome.map fun _ => traced.state, traced.records)

/-- The names of the transforms in the order in which they run. -/
def names (converter : Converter ρ) : List String :=
  converter.registry.names

/-- Converts a text with the transforms that are registered now. -/
def convert (call : Caller ρ σ) (converter : Converter ρ) (markdown : Value) : Action σ String :=
  match markdown with
  | .text text => runPipeline call converter.registry.definitions text
  | value => throw (.kind (.notMarkdown value.kindName))

/-- The form of a converter in a sentence. -/
def written (converter : Converter ρ) : String :=
  s!"MarkdownParser(transforms={(Value.list (converter.names.map .text)).written})"

end Converter

/-- The form of a registry in a sentence. -/
def Registry.written {ρ : Type} (registry : Registry ρ) : String :=
  s!"TransformRegistry({(Value.list (registry.names.map .text)).written})"

/-- Calls no render function: there are none but the built-in ones. -/
def noCaller : Caller Empty Unit :=
  fun handle => nomatch handle

variable [Host]

/-- Converts a text with the built-in transforms. -/
def convert (options : Options) (markdown : Value) : Except Fault String := do
  let converter ← (Converter.new (ρ := Empty) options).1
  (converter.convert noCaller markdown |>.runFrom ()).1

end Markflow
