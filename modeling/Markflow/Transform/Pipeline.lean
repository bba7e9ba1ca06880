import Markflow.Builtin.Render
import Markflow.Pattern.Replace
import Markflow.Transform.Definition

/-!
# Pipelines

A pipeline runs transforms one after the other over a text.  Each searches the whole of what the one
before it has made, and every match is replaced by what its render function gives for the captures.
The first failure ends the run and is passed on as it is.
-/

namespace Markflow

/-- How render functions that are not built in are called. -/
abbrev Caller (ρ σ : Type) := ρ → Captures → Action σ Value

/-- How a function that renders no captures fails when it is called with some. -/
def Misfit.fault (captures : Captures) : Misfit → Fault
  | wantsMarkdown => .kind (.notMarkdown captures.kind)
  | wantsField name => .noAttribute captures.kind name

namespace Definition

variable {ρ σ : Type}

/-- Calls what renders the matches of a transform. -/
def callRender (call : Caller ρ σ) (d : Definition ρ) (captures : Captures) : Action σ Value :=
  match d.render with
  | .builtin kind => .text <$> Action.ofExcept (kind.render captures)
  | .custom handle => call handle captures
  | .misfit cause => throw (cause.fault captures)
  | .value v => throw (.kind (.notCallable v.kindName))

/-- What is put in place of a match, which has to be a text. -/
def output (call : Caller ρ σ) (d : Definition ρ) (captures : Captures) : Action σ String := do
  match ← d.callRender call captures with
  | .text text => return text
  | result => throw (.kind (.renderedOther d.name result.kindName))

/-- Whether a definition has nothing to render its matches. -/
def lacksRender (d : Definition ρ) : Bool :=
  match d.render with
  | .value .null => true
  | _ => false

variable [Host]

/-- The pattern of a definition, with a record when its expression is malformed. -/
def compiled (d : Definition ρ) : Action σ Pattern :=
  Pattern.compiled d.pattern (.text d.flags.letters) d.name

/-- Runs one transform over a text. -/
def apply (call : Caller ρ σ) (d : Definition ρ) (text : String) : Action σ String := do
  let pattern ← d.compiled
  if d.lacksRender then throw (.kind (.noRender d.name))
  let (replaced, count) ← pattern.replace (d.output call) text
  Action.record ⟨.debug, .pipeline, s!"Transform '{d.name.shown}' replaced {count} match(es)"⟩
  return replaced

end Definition

variable [Host]

/-- Runs transforms in order over a text; an empty text stays empty and nothing runs. -/
def runPipeline {ρ σ : Type} (call : Caller ρ σ) (definitions : List (Definition ρ))
    (text : String) : Action σ String := do
  if text.isEmpty then return ""
  let result ← definitions.foldlM (fun buffer d => d.apply call buffer) text
  Action.record ⟨.debug, .pipeline,
    s!"Pipeline applied {definitions.length} transform(s) to {text.length} character(s)"⟩
  return result

end Markflow
