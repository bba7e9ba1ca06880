import Markflow.Fault
import Markflow.Log

/-!
# Actions

A computation that can fail, changes a state and makes records.  A failure takes nothing back: the
state and the records are those of the moment of the failure.
-/

namespace Markflow

/-- A state, and the records made so far in order. -/
structure Traced (σ : Type) where
  state : σ
  records : List Record
  deriving Inhabited

/-- A computation that can fail, changes a state and makes records. -/
abbrev Action (σ : Type) := ExceptT Fault (StateM (Traced σ))

namespace Action

variable {σ α : Type}

/-- Makes a record. -/
def record (entry : Record) : Action σ Unit :=
  modify fun traced => { traced with records := traced.records ++ [entry] }

/-- The state. -/
def state : Action σ σ :=
  return (← get).state

/-- Replaces the state. -/
def setState (state : σ) : Action σ Unit :=
  modify fun traced => { traced with state }

/-- The value of a computation that changes nothing. -/
def ofExcept : Except Fault α → Action σ α
  | .ok value => pure value
  | .error fault => throw fault

/-- Runs an action from a state. -/
def runFrom (action : Action σ α) (state : σ) : Except Fault α × Traced σ :=
  let (outcome, traced) := (ExceptT.run action).run ⟨state, []⟩
  (outcome, traced)

end Action

end Markflow
