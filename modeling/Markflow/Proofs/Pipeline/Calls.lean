import Markflow.Proofs.Pipeline.Splicing

/-!
# The calls of render functions

A run over transforms whose patterns can be read is a row of calls of render functions: pass after
pass, and in each pass for the matches from left to right (`PassCalls`).  The first call that fails
is the last one, and the run ends with its fault and its state (`runPipeline_calls`).  A caller that
keeps a journal finds just these calls in it.
-/

namespace Markflow

open Markflow.Action

variable {ρ σ : Type}

/-- A call of a render function, with the state that it starts from and what comes of it. -/
structure RenderCall (ρ σ : Type) where
  definition : Definition ρ
  captures : Captures
  started : Traced σ
  outcome : Except Fault Value
  left : Traced σ

namespace RenderCall

/-- What a call ends a run with: the fault that it raises, or that of a result which is no text. -/
def fault? (one : RenderCall ρ σ) : Option Fault :=
  match one.outcome with
  | .error fault => some fault
  | .ok (.text _) => none
  | .ok value => some (.kind (.renderedOther one.definition.name value.kindName))

/-- The function and the captures of a call of a function that is not built in. -/
def custom? (one : RenderCall ρ σ) : Option (ρ × Captures) :=
  match one.definition.render with
  | .custom handle => some (handle, one.captures)
  | _ => none

end RenderCall

/-- Calls for captures one after the other, each from the state that the one before it leaves.  They
give texts, up to the first that fails. -/
inductive Renders (call : Caller ρ σ) (d : Definition ρ) :
    List Captures → Traced σ → List (RenderCall ρ σ) → Except Fault (List String) → Traced σ → Prop
  | done {traced : Traced σ} : Renders call d [] traced [] (.ok []) traced
  | writes {captures : Captures} {more : List Captures} {traced between left : Traced σ}
      {written : String} {calls : List (RenderCall ρ σ)} {outcome : Except Fault (List String)}
      (called : (d.callRender call captures).runOn traced = (.ok (.text written), between))
      (further : Renders call d more between calls outcome left) :
      Renders call d (captures :: more) traced
        (⟨d, captures, traced, .ok (.text written), between⟩ :: calls)
        (outcome.map (written :: ·)) left
  | fails {captures : Captures} {more : List Captures} {traced left : Traced σ}
      {outcome : Except Fault Value}
      {fault : Fault} (called : (d.callRender call captures).runOn traced = (outcome, left))
      (failed : RenderCall.fault? ⟨d, captures, traced, outcome, left⟩ = some fault) :
      Renders call d (captures :: more) traced [⟨d, captures, traced, outcome, left⟩]
        (.error fault) left

namespace Pattern

/-- The captures of the matches that are replaced. -/
def capturesIn (pattern : Pattern) (text : String) : List Captures :=
  (pattern.findIn text.toList).map pattern.capturesOf

/-- A text with outputs in place of the matches. -/
def patch (pattern : Pattern) (text : String) (outputs : List String) : String :=
  String.ofList
    (Text.patch text.toList 0 (((pattern.findIn text.toList).map Match.span).zip outputs))

end Pattern

/-- A state with one more record. -/
def Traced.noting (traced : Traced σ) (text : String) : Traced σ :=
  { traced with records := traced.records ++ [⟨.debug, .pipeline, text⟩] }

/-- The calls of the passes of some transforms, each over what the one before it has made. -/
inductive PassCalls [Host] (call : Caller ρ σ) :
    List (Definition ρ) → String → Traced σ → List (RenderCall ρ σ) → Except Fault String →
      Traced σ → Prop
  | done {buffer : String} {traced : Traced σ} :
      PassCalls call [] buffer traced [] (.ok buffer) traced
  | passes {d : Definition ρ} {rest : List (Definition ρ)} {buffer : String}
      {traced between left : Traced σ}
      {pattern : Pattern} {calls more : List (RenderCall ρ σ)} {outputs : List String}
      {outcome : Except Fault String} (compiles : d.compile = .ok pattern)
      (renders : Renders call d (pattern.capturesIn buffer) traced calls (.ok outputs) between)
      (further : PassCalls call rest (pattern.patch buffer outputs)
        (between.noting
          s!"Transform '{d.name.shown}' replaced {(pattern.capturesIn buffer).length} match(es)")
        more outcome left) :
      PassCalls call (d :: rest) buffer traced (calls ++ more) outcome left
  | stops {d : Definition ρ} {rest : List (Definition ρ)} {buffer : String} {traced left : Traced σ}
      {pattern : Pattern}
      {calls : List (RenderCall ρ σ)} {fault : Fault} (compiles : d.compile = .ok pattern)
      (renders : Renders call d (pattern.capturesIn buffer) traced calls (.error fault) left) :
      PassCalls call (d :: rest) buffer traced calls (.error fault) left

/-- All calls succeed, or the last one fails and with it all that they are made for. -/
inductive EndsWith {α : Type} : List (RenderCall ρ σ) → Except Fault α → Traced σ → Prop
  | succeeds {calls : List (RenderCall ρ σ)} {result : α} {left : Traced σ}
      (succeed : ∀ one ∈ calls, one.fault? = none) :
      EndsWith calls (.ok result) left
  | fails {earlier : List (RenderCall ρ σ)} {last : RenderCall ρ σ} {fault : Fault}
      (succeed : ∀ one ∈ earlier, one.fault? = none) (failed : last.fault? = some fault) :
      EndsWith (earlier ++ [last]) (.error fault) last.left

section Ends

variable {α β : Type} {calls more : List (RenderCall ρ σ)} {outcome : Except Fault α}
    {left : Traced σ}

theorem EndsWith.append (succeed : ∀ one ∈ calls, one.fault? = none)
    (ends : EndsWith more outcome left) :
    EndsWith (calls ++ more) outcome left := by
  cases ends with
  | succeeds later => exact .succeeds (List.forall_mem_append.mpr ⟨succeed, later⟩)
  | fails earlier failed =>
    rw [← List.append_assoc]
    exact .fails (List.forall_mem_append.mpr ⟨succeed, earlier⟩) failed

theorem EndsWith.map (f : α → β) (ends : EndsWith calls outcome left) :
    EndsWith calls (outcome.map f) left := by
  cases ends with
  | succeeds succeed => exact .succeeds succeed
  | fails earlier failed => exact .fails earlier failed

theorem EndsWith.succeed_of_ok {result : α} (ends : EndsWith calls (.ok result) left) :
    ∀ one ∈ calls, one.fault? = none := by
  cases ends with
  | succeeds succeed => exact succeed

end Ends

section Passes

variable {call : Caller ρ σ} {d : Definition ρ} {found : List Captures} {traced left : Traced σ}
  {calls : List (RenderCall ρ σ)} {outcome : Except Fault (List String)}

theorem runOn_output_of_text {captures : Captures} {written : String}
    (called : (d.callRender call captures).runOn traced = (.ok (.text written), left)) :
    (d.output call captures).runOn traced = (.ok written, left) := by
  rw [Definition.output, runOn_bind, called]
  rfl

theorem runOn_output_of_fault {captures : Captures} {result : Except Fault Value} {fault : Fault}
    (called : (d.callRender call captures).runOn traced = (result, left))
    (failed : RenderCall.fault? ⟨d, captures, traced, result, left⟩ = some fault) :
    (d.output call captures).runOn traced = (.error fault, left) := by
  rw [Definition.output, runOn_bind, called]
  rcases result with raised | value
  · cases failed
    rfl
  · cases value with
    | text written => cases failed
    | _ =>
      cases failed
      rfl

/-- Captures are rendered by just one row of calls. -/
theorem exists_renders (call : Caller ρ σ) (d : Definition ρ) (found : List Captures)
    (traced : Traced σ) :
    ∃ calls outcome left, Renders call d found traced calls outcome left := by
  induction found generalizing traced with
  | nil => exact ⟨[], _, _, .done⟩
  | cons captures more ih =>
    rcases called : (d.callRender call captures).runOn traced with ⟨result, between⟩
    rcases status : RenderCall.fault? ⟨d, captures, traced, result, between⟩ with _ | fault
    · have isText : ∃ written, result = .ok (.text written) := by
        rcases result with raised | value
        · cases status
        · cases value with
          | text written => exact ⟨written, rfl⟩
          | _ => cases status
      rcases isText with ⟨written, rfl⟩
      rcases ih between with ⟨calls, outcome, left, further⟩
      exact ⟨_, _, _, .writes called further⟩
    · exact ⟨_, _, _, .fails called status⟩

theorem Renders.runOn_mapM (renders : Renders call d found traced calls outcome left) :
    (found.mapM (d.output call)).runOn traced = (outcome, left) := by
  induction renders with
  | done => rfl
  | @writes captures more traced between left written calls outcome called further ih =>
    rw [List.mapM_cons, runOn_bind, runOn_output_of_text called]
    dsimp only
    rw [runOn_bind, ih]
    cases outcome <;> rfl
  | fails called failed => rw [List.mapM_cons, runOn_bind, runOn_output_of_fault called failed]

theorem Renders.endsWith (renders : Renders call d found traced calls outcome left) :
    EndsWith calls outcome left := by
  induction renders with
  | done => exact .succeeds (List.forall_mem_nil _)
  | writes called further ih => exact .append (List.forall_mem_singleton.mpr rfl) (ih.map _)
  | fails called failed => exact .fails (List.forall_mem_nil _) failed

theorem Renders.inTurn {outputs : List String}
    (renders : Renders call d found traced calls (.ok outputs) left) :
    InTurn (d.output call) found outputs traced left := by
  generalize outcome_eq : Except.ok outputs = outcome at renders
  induction renders generalizing outputs with
  | done =>
    cases outcome_eq
    exact .nil
  | @writes captures more traced between left written calls outcome called further ih =>
    cases outcome with
    | error fault => cases outcome_eq
    | ok others =>
      cases outcome_eq
      exact .cons (runOn_output_of_text called) (ih rfl)
  | fails called failed => cases outcome_eq

variable {pattern : Pattern} {buffer : String}

theorem Renders.runOn_apply_ok [Host] {outputs : List String} (given : d.lacksRender = false)
    (compiles : d.compile = .ok pattern)
    (renders : Renders call d (pattern.capturesIn buffer) traced calls (.ok outputs) left) :
    let count := (pattern.capturesIn buffer).length
    (d.apply call buffer).runOn traced = (.ok (pattern.patch buffer outputs),
      left.noting s!"Transform '{d.name.shown}' replaced {count} match(es)") := by
  rw [Definition.runOn_apply compiles given (pattern.runOn_replace renders.inTurn),
    Pattern.capturesIn, List.length_map]
  rfl

theorem Renders.runOn_apply_error [Host] {fault : Fault} (given : d.lacksRender = false)
    (compiles : d.compile = .ok pattern)
    (renders : Renders call d (pattern.capturesIn buffer) traced calls (.error fault) left) :
    (d.apply call buffer).runOn traced = (.error fault, left) := by
  have ran :
      ((pattern.findIn buffer.toList).mapM fun one => d.output call (pattern.capturesOf one)).runOn
        traced = (.error fault, left) := by
    have rendered := renders.runOn_mapM
    rwa [Pattern.capturesIn, List.mapM_map] at rendered
  have replaced : (pattern.replace (d.output call) buffer).runOn traced = (.error fault, left) := by
    rw [Pattern.replace, runOn_bind, ran]
  rw [Definition.apply_eq given compiles, runOn_bind, replaced]

/-- What a run of transforms needs: their patterns can be read, and each has something to render its
matches. -/
def Runnable [Host] (definitions : List (Definition ρ)) : Prop :=
  ∀ d ∈ definitions, d.lacksRender = false ∧ ∃ pattern, d.compile = .ok pattern

variable {definitions : List (Definition ρ)} {result : Except Fault String}

theorem exists_passCalls [Host] (call : Caller ρ σ) (runnable : Runnable definitions)
    (buffer : String) (traced : Traced σ) :
    ∃ calls result left, PassCalls call definitions buffer traced calls result left := by
  induction definitions generalizing buffer traced with
  | nil => exact ⟨[], _, _, .done⟩
  | cons d rest ih =>
    rcases List.forall_mem_cons.mp runnable with ⟨⟨-, pattern, compiles⟩, runnable⟩
    rcases exists_renders call d (pattern.capturesIn buffer) traced with
      ⟨calls, fault | outputs, between, renders⟩
    · exact ⟨calls, _, _, .stops compiles renders⟩
    · rcases ih runnable (pattern.patch buffer outputs) (between.noting _) with
        ⟨more, result, left, further⟩
      exact ⟨_, _, _, .passes compiles renders further⟩

theorem PassCalls.runOn_foldlM [Host]
    (passCalls : PassCalls call definitions buffer traced calls result left)
    (runnable : Runnable definitions) :
    (definitions.foldlM (fun buffer d => d.apply call buffer) buffer : Action σ String).runOn
      traced = (result, left) := by
  induction passCalls with
  | done => rfl
  | passes compiles renders further ih =>
    rcases List.forall_mem_cons.mp runnable with ⟨⟨given, -⟩, runnable⟩
    rw [List.foldlM_cons, runOn_bind, renders.runOn_apply_ok given compiles]
    exact ih runnable
  | stops compiles renders =>
    rw [List.foldlM_cons, runOn_bind,
      renders.runOn_apply_error (runnable _ List.mem_cons_self).1 compiles]

theorem PassCalls.endsWith [Host]
    (passCalls : PassCalls call definitions buffer traced calls result left) :
    EndsWith calls result left := by
  induction passCalls with
  | done => exact .succeeds (List.forall_mem_nil _)
  | passes compiles renders further ih => exact .append renders.endsWith.succeed_of_ok ih
  | stops compiles renders =>
    cases renders.endsWith with
    | fails earlier failed => exact .fails earlier failed

/-- A caller notes each function that it calls, with the captures, before all else that it notes of
the call. -/
def KeepsJournal (call : Caller ρ σ) (journal : σ → List (ρ × Captures)) : Prop :=
  ∀ handle captures (traced : Traced σ),
    journal ((call handle captures).runOn traced).2.state =
      journal traced.state ++ [(handle, captures)]

theorem journal_callRender {journal : σ → List (ρ × Captures)} (keeps : KeepsJournal call journal)
    {captures : Captures}
    {outcome : Except Fault Value}
    (called : (d.callRender call captures).runOn traced = (outcome, left)) :
    journal left.state = journal traced.state ++ [⟨d, captures, traced, outcome, left⟩].filterMap
      RenderCall.custom? := by
  unfold Definition.callRender at called
  simp only [List.filterMap_cons, List.filterMap_nil, RenderCall.custom?]
  split at called
  · next kind isBuiltin =>
    rw [runOn_map, runOn_ofExcept] at called
    cases called
    rw [isBuiltin, List.append_nil]
  · next handle isCustom =>
    have noted := keeps handle captures traced
    rw [called] at noted
    rw [isCustom]
    exact noted
  · next cause isMisfit =>
    cases called
    rw [isMisfit, List.append_nil]
  · next value isValue =>
    cases called
    rw [isValue, List.append_nil]

theorem Renders.journal {journal : σ → List (ρ × Captures)} (keeps : KeepsJournal call journal)
    (renders : Renders call d found traced calls outcome left) :
    journal left.state = journal traced.state ++ calls.filterMap RenderCall.custom? := by
  induction renders with
  | done => exact (List.append_nil _).symm
  | writes called further ih =>
    rw [ih, journal_callRender keeps called, List.append_assoc, ← List.filterMap_append]
    rfl
  | fails called failed => exact journal_callRender keeps called

section

variable [Host]

theorem PassCalls.journal {journal : σ → List (ρ × Captures)} (keeps : KeepsJournal call journal)
    (passCalls : PassCalls call definitions buffer traced calls result left) :
    journal left.state = journal traced.state ++ calls.filterMap RenderCall.custom? := by
  induction passCalls with
  | done => exact (List.append_nil _).symm
  | passes compiles renders further ih =>
    rw [ih, List.filterMap_append, ← List.append_assoc, ← renders.journal keeps]
    rfl
  | stops compiles renders => exact renders.journal keeps

/-- A run over transforms makes calls of their render functions, for the matches of each pass from
left to right, and each pass over what the one before it has made.  It goes on until a call raises a
fault or gives no text, and then ends with the fault and the state of this call, which is the last
one; otherwise it gives a text.  An empty text stays empty without a call. -/
theorem runPipeline_calls (call : Caller ρ σ) {definitions : List (Definition ρ)}
    (runnable : Runnable definitions) (text : String) (traced : Traced σ) :
    (text = "" → (runPipeline call definitions text).runOn traced = (.ok "", traced)) ∧
      (text ≠ "" → ∃ calls result left, PassCalls call definitions text traced calls result left ∧
        EndsWith calls result left ∧
        (∀ fault, result = .error fault →
          (runPipeline call definitions text).runOn traced = (.error fault, left)) ∧
        (∀ converted, result = .ok converted → (runPipeline call definitions text).runOn traced =
          (.ok converted,
            left.noting
            s!"Pipeline applied {definitions.length} transform(s) to {text.length} character(s)")) ∧
        ∀ journal, KeepsJournal call journal →
          journal left.state = journal traced.state ++ calls.filterMap RenderCall.custom?) := by
  constructor
  · rintro rfl
    rfl
  · intro nonempty
    rcases exists_passCalls call runnable text traced with ⟨calls, result, left, passCalls⟩
    have filled : text.isEmpty = false := by simpa using nonempty
    have ran := passCalls.runOn_foldlM runnable
    refine ⟨calls, result, left, passCalls, passCalls.endsWith, ?_, ?_, fun journal keeps =>
      passCalls.journal keeps⟩
    · rintro fault rfl
      simp only [runPipeline, filled, if_false, Bool.false_eq_true, runOn_bind, ran]
    · rintro converted rfl
      simp only [runPipeline, filled, if_false, Bool.false_eq_true, runOn_bind, ran]
      rfl

end

attribute [local instance] Host.standard

/-- The second match of the second pass is rendered as null, so that the third is not rendered. -/
theorem runPipeline_calls_null :
    let mark : Definition Nat := { name := .text "mark", pattern := .text "a", render := .custom 0 }
    let note : Definition Nat := { name := .text "note", pattern := .text "b", render := .custom 1 }
    let call : Caller Nat (List (Nat × Captures)) := fun handle captures => do
      Action.setState ((← Action.state) ++ [(handle, captures)])
      return if handle = 0 then .text "b" else if captures.start = 0 then .text "c" else .null
    Runnable [mark, note] ∧ "abb" ≠ "" ∧ KeepsJournal call id ∧
      ∃ calls fault left, PassCalls call [mark, note] "abb" ⟨[], []⟩ calls (.error fault) left ∧
        EndsWith calls (Except.error fault : Except Fault String) left ∧
        fault.message = "Render function for transform 'note' returned NoneType instead of str" ∧
        (calls.filterMap RenderCall.custom?).map (·.1) = [0, 1, 1] := by
  intro mark note call
  have readable (d : Definition Nat) (isOk : d.compile.isOk = true) :
      ∃ pattern, d.compile = .ok pattern := by
    rcases compiled : d.compile with fault | pattern
    · rw [compiled] at isOk
      cases isOk
    · exact ⟨pattern, rfl⟩
  have runnable : Runnable [mark, note] := by
    rw [Runnable, List.forall_mem_cons, List.forall_mem_singleton]
    exact ⟨⟨rfl, readable mark (by decide +kernel)⟩, ⟨rfl, readable note (by decide +kernel)⟩⟩
  have keeps : KeepsJournal call id := fun _ _ _ => rfl
  have told : ((runPipeline call [mark, note] "abb").runOn ⟨[], []⟩).1.mapError Fault.message =
      .error "Render function for transform 'note' returned NoneType instead of str" := by
    decide +kernel
  have noted : ((runPipeline call [mark, note] "abb").runOn ⟨[], []⟩).2.state.map (·.1) =
      [0, 1, 1] := by decide +kernel
  rcases (runPipeline_calls call runnable "abb" ⟨[], []⟩).2 (by decide) with
    ⟨calls, fault | converted, left, passCalls, ends, failed, succeeded, journal⟩
  · rw [failed fault rfl] at told noted
    refine ⟨runnable, by decide, keeps, calls, fault, left, passCalls, ends,
      Except.error.inj told, ?_⟩
    rw [← noted]
    exact congrArg (List.map _) (journal id keeps).symm
  · rw [succeeded converted rfl] at told
    cases told

end Passes

end Markflow
