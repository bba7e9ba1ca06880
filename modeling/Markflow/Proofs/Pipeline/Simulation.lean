import Markflow.Proofs.Action
import Markflow.Transform.Pipeline

/-!
# Runs side by side

Two actions are related when runs of them from related states give the same and lead to related
states again, whatever they record (`Action.Related`).  All building blocks of actions keep such a
relation, and a pipeline does nothing to the state but in its calls of render functions: it keeps
every relation between states that the render functions keep (`related_runPipeline`).
-/

namespace Markflow

namespace Action

variable {σ τ α β : Type} {relation : σ → τ → Prop}

/-- From related states both actions give the same and lead to related states. -/
def Related (relation : σ → τ → Prop) (first : Action σ α) (second : Action τ α) : Prop :=
  ∀ left right, relation left.state right.state →
    (first.runOn left).1 = (second.runOn right).1 ∧
      relation (first.runOn left).2.state (second.runOn right).2.state

theorem related_pure (value : α) : Related relation (pure value) (pure value) := by
  intro left right related
  exact ⟨rfl, related⟩

theorem related_throw (fault : Fault) :
    Related relation (throw fault : Action σ α) (throw fault) := by
  intro left right related
  exact ⟨rfl, related⟩

theorem related_record (first second : Record) :
    Related relation (record first) (record second) := by
  intro left right related
  exact ⟨rfl, related⟩

theorem related_forM_record (entries : List Record) :
    Related relation (forM entries record) (forM entries record) := by
  intro left right related
  simpa using related

theorem related_option_forM_record (entry : Option Record) :
    Related relation (forM entry record) (forM entry record) := by
  intro left right related
  simpa using related

theorem related_ofExcept (outcome : Except Fault α) :
    Related relation (ofExcept outcome) (ofExcept outcome) := by
  intro left right related
  simpa using related

theorem related_setState {first : σ} {second : τ} (related : relation first second) :
    Related relation (setState first) (setState second) := by
  intro left right _
  exact ⟨rfl, related⟩

theorem Related.bind {first : Action σ α} {second : Action τ α} {next : α → Action σ β}
    {other : α → Action τ β} (related : Related relation first second)
    (continued : ∀ value, Related relation (next value) (other value)) :
    Related relation (first >>= next) (second >>= other) := by
  intro left right start
  rcases related left right start with ⟨same, between⟩
  rw [runOn_bind, runOn_bind]
  rcases ranFirst : first.runOn left with ⟨fault | value, leftBetween⟩
  · rcases ranSecond : second.runOn right with ⟨outcome, rightBetween⟩
    simp only [ranFirst, ranSecond] at same between
    subst same
    exact ⟨rfl, between⟩
  · rcases ranSecond : second.runOn right with ⟨outcome, rightBetween⟩
    simp only [ranFirst, ranSecond] at same between
    subst same
    exact continued value leftBetween rightBetween between

theorem Related.map {first : Action σ α} {second : Action τ α} (f : α → β)
    (related : Related relation first second) : Related relation (f <$> first) (f <$> second) := by
  rw [← bind_pure_comp, ← bind_pure_comp]
  apply related.bind
  intro value
  apply related_pure

/-- Actions that read the state first have to be related for all related states. -/
theorem related_state_bind {next : σ → Action σ α} {other : τ → Action τ α}
    (continued : ∀ first second, relation first second →
      Related relation (next first) (other second)) :
    Related relation (state >>= next) (state >>= other) := by
  intro left right start
  exact continued left.state right.state start left right start

theorem related_mapM {f : α → Action σ β} {g : α → Action τ β}
    (each : ∀ item, Related relation (f item) (g item)) (items : List α) :
    Related relation (items.mapM f) (items.mapM g) := by
  induction items with
  | nil => exact related_pure _
  | cons item items ih =>
    rw [List.mapM_cons, List.mapM_cons]
    apply (each item).bind
    intro value
    apply ih.bind
    intro values
    apply related_pure

theorem related_foldlM {f : β → α → Action σ β} {g : β → α → Action τ β}
    (each : ∀ value item, Related relation (f value item) (g value item)) (items : List α)
    (start : β) :
    Related relation (items.foldlM f start) (items.foldlM g start) := by
  induction items generalizing start with
  | nil => exact related_pure _
  | cons item items ih =>
    rw [List.foldlM_cons, List.foldlM_cons]
    apply (each start item).bind
    intro value
    apply ih

end Action

open Markflow.Action

section Pipelines

variable {ρ σ τ : Type} {relation : σ → τ → Prop} {call : Caller ρ σ} {other : Caller ρ τ}
  (calls : ∀ handle captures, Related relation (call handle captures) (other handle captures))

include calls

theorem Definition.related_output (d : Definition ρ) (captures : Captures) :
    Related relation (d.output call captures) (d.output other captures) := by
  have rendered : Related relation (d.callRender call captures) (d.callRender other captures) := by
    unfold callRender
    split
    · apply Related.map
      apply related_ofExcept
    · apply calls
    · apply related_throw
    · apply related_throw
  apply rendered.bind
  intro value
  cases value with
  | text text => exact related_pure text
  | _ => exact related_throw _

variable [Host]

theorem Definition.related_apply (d : Definition ρ) (text : String) :
    Related relation (d.apply call text) (d.apply other text) := by
  have compiles :
      Related relation (d.compiled : Action σ Pattern) (d.compiled : Action τ Pattern) := by
    unfold compiled Pattern.compiled
    split
    · apply related_pure
    · dsimp only
      split
      · apply (related_record _ _).bind
        intro _
        apply related_throw
      · apply related_throw
  apply compiles.bind
  intro pattern
  have replaces : Related relation (pattern.replace (d.output call) text)
      (pattern.replace (d.output other) text) := by
    apply (related_mapM (fun one => related_output calls d _) _).bind
    intro outputs
    apply related_pure
  split
  · apply related_throw
  · apply replaces.bind
    rintro ⟨replaced, count⟩
    apply (related_record _ _).bind
    intro _
    apply related_pure

/-- A pipeline keeps every relation between states that the render functions keep. -/
theorem related_runPipeline (definitions : List (Definition ρ)) (text : String) :
    Related relation (runPipeline call definitions text) (runPipeline other definitions text) := by
  unfold runPipeline
  split
  · apply related_pure
  · apply (related_foldlM (fun buffer d => d.related_apply calls buffer) definitions text).bind
    intro result
    apply (related_record _ _).bind
    intro _
    apply related_pure

end Pipelines

end Markflow
