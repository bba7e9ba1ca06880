import Markflow.Converter
import Markflow.Proofs.Pipeline.Simulation
import Markflow.Proofs.Registry.WellFormed

/-!
# Conversions that change their converter

A render function may use the converter that calls it: it can register, remove and clear transforms
and convert other texts, whose render functions may do the same.  A `Script` is what such a function
does in one call, a `Session` holds the converter, whatever the functions remember and the
operations that they have done so far, in order.  How deep conversions may be nested is a bound that
every statement holds for.

A conversion runs the transforms that are registered when it starts, and leaves the registry as the
operations that were done meanwhile leave it, one after the other (`convert_isolated`).  It gives
what the same transforms give when their functions do no operations, if what they return does not
depend on these.
-/

namespace Markflow

open Markflow.Action

variable {ρ τ : Type}

/-- A converter in use, with what its render functions remember and the operations done so far. -/
structure Session (ρ τ : Type) where
  converter : Converter ρ
  memory : τ
  journal : List (Registry.Operation ρ) := []

/-- What a render function does when it is called, step by step: the steps after an operation or a
nested conversion may depend on how it ended. -/
inductive Script (ρ τ : Type) where
  | give (value : Value)
  | fail (fault : Fault)
  | change (operation : Registry.Operation ρ) (next : Except Fault Unit → Script ρ τ)
  | convert (markdown : Value) (next : Except Fault String → Script ρ τ)
  | look (next : Converter ρ → τ → Script ρ τ)
  | remember (memory : τ) (next : Script ρ τ)

/-- How an action ends, as a value. -/
def Action.attempt {σ α : Type} (action : Action σ α) : Action σ (Except Fault α) :=
  ExceptT.mk (Except.ok <$> ExceptT.run action)

@[simp]
theorem Action.runOn_attempt {σ α : Type} (action : Action σ α) (traced : Traced σ) :
    (attempt action).runOn traced = (.ok (action.runOn traced).1, (action.runOn traced).2) := rfl

namespace Session

variable [Host]

/-- Does an operation on the registry of the converter, and notes it. -/
def perform (operation : Registry.Operation ρ) : Action (Session ρ τ) Unit := do
  let session ← Action.state
  Action.setState { session with journal := session.journal ++ [operation] }
  Action.zoom converter (fun converter session => { session with converter })
    (Converter.onRegistry operation.action)

/-- Converts a text with the converter as it is. -/
def convert (call : Caller ρ (Session ρ τ)) (markdown : Value) : Action (Session ρ τ) String := do
  let session ← Action.state
  session.converter.convert call markdown

end Session

namespace Script

variable [Host]

/-- Runs a script; nested conversions call the render functions by `call`. -/
def run (call : Caller ρ (Session ρ τ)) : Script ρ τ → Action (Session ρ τ) Value
  | give value => pure value
  | fail fault => throw fault
  | change operation next => do
    let outcome ← attempt (Session.perform operation)
    (next outcome).run call
  | convert markdown next => do
    let outcome ← attempt (Session.convert call markdown)
    (next outcome).run call
  | look next => do
    let session ← Action.state
    (next session.converter session.memory).run call
  | remember memory next => do
    let session ← Action.state
    Action.setState { session with memory }
    next.run call

/-- Calls render functions by their scripts, with conversions nested up to a depth. -/
def caller (scripts : ρ → Captures → Script ρ τ) : (depth : Nat) → Caller ρ (Session ρ τ)
  | 0 => fun _ _ => throw (.raised "RecursionError" "maximum recursion depth exceeded")
  | depth + 1 => fun handle captures => (scripts handle captures).run (caller scripts depth)

end Script

namespace Registry

theorem related_action [Host] (operation : Operation ρ) :
    Related (· = ·) operation.action operation.action := by
  cases operation with
  | register registration =>
    apply related_state_bind
    rintro registry _ rfl
    split
    · apply (related_forM_record _).bind
      intro _
      apply related_setState rfl
    · apply (related_option_forM_record _).bind
      intro _
      apply related_throw
  | unregister name =>
    apply related_state_bind
    rintro registry _ rfl
    apply (related_ofExcept _).bind
    intro key
    cases key with
    | none => exact related_pure _
    | some key =>
      dsimp only
      split
      · apply (related_setState rfl).bind
        intro _
        apply related_record
      · apply related_pure
  | clear =>
    apply (related_setState rfl).bind
    intro _
    apply related_record

end Registry

namespace Session

open Registry

variable [Host]

/-- The session after an operation. -/
def changed (operation : Operation ρ) (session : Session ρ τ) : Session ρ τ where
  converter := { session.converter with registry := operation.leave session.converter.registry }
  memory := session.memory
  journal := session.journal ++ [operation]

theorem runOn_perform (operation : Operation ρ) (traced : Traced (Session ρ τ)) :
    ((perform operation).runOn traced).1 =
        (operation.action.runFrom traced.state.converter.registry).1 ∧
      ((perform operation).runOn traced).2.state = traced.state.changed operation := by
  have onRegistry : (perform operation).runOn traced =
      ((operation.action.runOn ⟨traced.state.converter.registry, traced.records⟩).1,
        ⟨⟨{ traced.state.converter with
            registry :=
              (operation.action.runOn ⟨traced.state.converter.registry, traced.records⟩).2.state },
          traced.state.memory, traced.state.journal ++ [operation]⟩,
        (operation.action.runOn ⟨traced.state.converter.registry, traced.records⟩).2.records⟩) :=
    rfl
  rcases related_action operation ⟨traced.state.converter.registry, traced.records⟩
    ⟨traced.state.converter.registry, []⟩ rfl with ⟨same, left⟩
  rw [onRegistry]
  exact ⟨same, by simp [changed, Operation.leave, runFrom_eq_runOn, left]⟩

/-- Whether a session comes from another by operations, one after the other, and by nothing else
that concerns the converter. -/
def Follows (start session : Session ρ τ) : Prop :=
  ∃ operations, session.journal = start.journal ++ operations ∧
    session.converter =
      { start.converter with registry := start.converter.registry.after operations }

theorem Follows.refl (start : Session ρ τ) : start.Follows start :=
  ⟨[], by simp, rfl⟩

theorem Follows.changed {start session : Session ρ τ} (follows : start.Follows session)
    (operation : Operation ρ) : start.Follows (session.changed operation) := by
  rcases follows with ⟨operations, journal_eq, converter_eq⟩
  refine ⟨operations ++ [operation], ?_, ?_⟩
  · simp [Session.changed, journal_eq]
  · simp [Session.changed, converter_eq, after]

theorem Follows.remember {start session : Session ρ τ} (follows : start.Follows session)
    (memory : τ) :
    start.Follows { session with memory } :=
  follows

/-- Two runs from one session that follows a start. -/
def Together (start : Session ρ τ) (first second : Session ρ τ) : Prop :=
  first = second ∧ start.Follows first

variable {start : Session ρ τ} {call : Caller ρ (Session ρ τ)}

theorem together_perform (operation : Operation ρ) :
    Related start.Together (perform operation) (perform operation) := by
  rintro left right ⟨same, follows⟩
  rcases runOn_perform operation left with ⟨leftOutcome, leftState⟩
  rcases runOn_perform operation right with ⟨rightOutcome, rightState⟩
  refine ⟨?_, ?_, ?_⟩
  · rw [leftOutcome, rightOutcome, same]
  · rw [leftState, rightState, same]
  · rw [leftState]
    exact follows.changed operation

theorem together_convert
    (calls : ∀ handle captures,
      Related start.Together (call handle captures) (call handle captures))
    (markdown : Value) :
    Related start.Together (convert call markdown) (convert call markdown) := by
  apply related_state_bind
  rintro session _ ⟨rfl, -⟩
  unfold Converter.convert
  split
  · apply related_runPipeline calls
  · apply related_throw

end Session

theorem Action.Related.attempt {σ τ α : Type} {relation : σ → τ → Prop} {first : Action σ α}
    {second : Action τ α} (related : Related relation first second) :
    Related relation (attempt first) (attempt second) := by
  intro left right start
  rcases related left right start with ⟨same, stop⟩
  simp only [runOn_attempt, same]
  exact ⟨trivial, stop⟩

section

variable [Host]

namespace Script

open Session

variable {start : Session ρ τ}

/-- A script does nothing to the converter but by its operations and those of nested conversions. -/
theorem together_run {call : Caller ρ (Session ρ τ)}
    (calls : ∀ handle captures,
      Related start.Together (call handle captures) (call handle captures))
    (script : Script ρ τ) : Related start.Together (script.run call) (script.run call) := by
  -- How an operation or a nested conversion ends is a value for the next step, so no step ends a
  -- script.
  induction script with
  | give value => exact related_pure value
  | fail fault => exact related_throw fault
  | change operation next ih =>
    apply (together_perform operation).attempt.bind
    exact ih
  | convert markdown next ih =>
    apply (together_convert calls markdown).attempt.bind
    exact ih
  | look next ih =>
    apply related_state_bind
    rintro session _ ⟨rfl, -⟩
    exact ih session.converter session.memory
  | remember memory next ih =>
    apply related_state_bind
    rintro session _ ⟨rfl, follows⟩
    apply (related_setState ⟨rfl, follows.remember memory⟩).bind
    intro _
    exact ih

theorem together_caller (scripts : ρ → Captures → Script ρ τ) (depth : Nat) (handle : ρ)
    (captures : Captures) :
    Related start.Together (caller scripts depth handle captures)
      (caller scripts depth handle captures) := by
  induction depth generalizing handle captures with
  | zero => exact related_throw _
  | succ depth ih => exact together_run ih (scripts handle captures)

end Script

/-- A run of transforms one after the other, each on what the one before it has made. -/
inductive Passes {σ : Type} (call : Caller ρ σ) :
    List (Definition ρ) → String → Traced σ → String → Traced σ → Prop
  | nil (buffer : String) (traced : Traced σ) : Passes call [] buffer traced buffer traced
  | cons {d : Definition ρ} {rest : List (Definition ρ)} {buffer next result : String}
    {traced between left : Traced σ}
    (applied : (d.apply call buffer).runOn traced = (.ok next, between))
    (continued : Passes call rest next between result left) :
    Passes call (d :: rest) buffer traced result left

theorem passes_iff {σ : Type} {call : Caller ρ σ} {definitions : List (Definition ρ)}
    {buffer result : String} {traced left : Traced σ} :
    Passes call definitions buffer traced result left ↔
      (definitions.foldlM (fun buffer d => d.apply call buffer) buffer : Action σ String).runOn
        traced = (.ok result, left) := by
  induction definitions generalizing buffer traced with
  | nil =>
    rw [List.foldlM_nil, runOn_pure]
    constructor
    · rintro ⟨⟩
      rfl
    · rintro ⟨⟩
      exact .nil _ _
  | cons d definitions ih =>
    rw [List.foldlM_cons, runOn_bind_eq_ok]
    constructor
    · rintro (_ | ⟨applied, continued⟩)
      exact ⟨_, _, applied, ih.mp continued⟩
    · rintro ⟨next, between, applied, ran⟩
      exact .cons applied (ih.mpr ran)

theorem runFrom_runPipeline_eq_ok_iff {σ : Type} {call : Caller ρ σ}
    {definitions : List (Definition ρ)}
    {text result : String} (nonempty : text ≠ "") {start stop : σ} :
    (∃ records, (runPipeline call definitions text).runFrom start = (.ok result, ⟨stop, records⟩)) ↔
      ∃ records, Passes call definitions text ⟨start, []⟩ result ⟨stop, records⟩ := by
  have filled : text.isEmpty = false := by simpa using nonempty
  simp only [passes_iff, runFrom_eq_runOn, runPipeline, filled, if_false,
    Bool.false_eq_true, runOn_bind]
  generalize (definitions.foldlM (fun buffer d => d.apply call buffer) text : Action σ String).runOn
    ⟨start, []⟩ = ran
  rcases ran with ⟨fault | value, ⟨left, records⟩⟩
  · simp
  · simp

/-- A conversion runs the transforms that are registered when it starts, each once and in order,
whatever its render functions do to the converter meanwhile.  When it ends, successfully or not, the
converter is the one it started with and its registry is changed by just the operations that were
done, in their order.  If the render functions return and remember what some others do that have no
converter to change, then the conversion gives what these give for the transforms of the start. -/
theorem convert_isolated (scripts : ρ → Captures → Script ρ τ) (depth : Nat) (session : Session ρ τ)
    (text : String) (nonempty : text ≠ "") :
    (∀ result stop,
      (∃ records, (Session.convert (Script.caller scripts depth) (.text text)).runFrom session =
        (.ok result, ⟨stop, records⟩)) ↔
      ∃ records, Passes (Script.caller scripts depth) session.converter.registry.definitions text
        ⟨session, []⟩ result ⟨stop, records⟩) ∧
    session.Follows
      ((Session.convert (Script.caller scripts depth) (.text text)).runFrom session).2.state ∧
    ∀ quiet : Caller ρ τ,
      (∀ handle captures, Related (fun session memory => session.memory = memory)
        (Script.caller scripts depth handle captures) (quiet handle captures)) →
      ((Session.convert (Script.caller scripts depth) (.text text)).runFrom session).1 =
        ((runPipeline quiet session.converter.registry.definitions text).runFrom
          session.memory).1 := by
  have started : (Session.convert (Script.caller scripts depth) (.text text)).runFrom session =
      (runPipeline (Script.caller scripts depth) session.converter.registry.definitions
        text).runFrom
        session := by
    simp only [runFrom_eq_runOn, Session.convert, runOn_bind, runOn_state, Converter.convert]
  refine ⟨?_, ?_, ?_⟩
  · intro result stop
    rw [started]
    exact runFrom_runPipeline_eq_ok_iff nonempty
  · have together : Related session.Together _ _ :=
      Session.together_convert (Script.together_caller scripts depth) (.text text)
    exact (together ⟨session, []⟩ ⟨session, []⟩ ⟨rfl, Session.Follows.refl session⟩).2.2
  · intro quiet calls
    rw [started]
    exact (related_runPipeline calls session.converter.registry.definitions text ⟨session, []⟩
      ⟨session.memory, []⟩ rfl).1

end

attribute [local instance] Host.standard

/-- Both transforms of the start run, though the first call of a render function removes them. -/
theorem convert_isolated_cleared :
    let mark : Definition Unit :=
      { name := .text "mark", pattern := .text "x", render := .custom () }
    let note : Definition Unit :=
      { name := .text "note", pattern := .text "y", render := .custom () }
    let registry := Registry.afterAll [.register { base := .definition mark },
      .register { base := .definition note }]
    let session : Session Unit Unit := ⟨⟨{}, registry, .null⟩, (), []⟩
    let scripts : Unit → Captures → Script Unit Unit := fun _ _ =>
      .change .clear fun _ => .convert (.text "x") fun _ => .give (.text "z")
    let ran := (Session.convert (Script.caller scripts 1) (.text "axb y")).runFrom session
    "axb y" ≠ "" ∧ session.Follows ran.2.state ∧
      ran.1 = ((runPipeline (fun _ _ => pure (.text "z")) session.converter.registry.definitions
        "axb y").runFrom ()).1 ∧
      ran.1.toOption = some "azb z" ∧ ran.2.state.journal.length = 2 ∧
      ran.2.state.converter.registry.names = [] := by
  intro mark note registry session scripts ran
  have isolated := convert_isolated scripts 1 session "axb y" (by decide)
  have quiet : ∀ handle captures,
      Related (fun (session : Session Unit Unit) memory => session.memory = memory)
      (Script.caller scripts 1 handle captures) (pure (.text "z")) := by
    intro handle captures left right _
    exact ⟨rfl, rfl⟩
  refine ⟨by decide, isolated.2.1, isolated.2.2 (fun _ _ => pure (.text "z")) quiet, ?_, ?_, ?_⟩
  · decide +kernel
  · decide +kernel
  · decide +kernel

end Markflow
