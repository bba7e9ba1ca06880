import Markflow.Converter
import Markflow.Proofs.Registry.Placement

/-!
# A transform that is removed leaves no trace

An operation that concerns a name changes nothing but the transform of that name, so it is undone by
erasing the name (`erase_leave_of_concerns`).  An operation that concerns another name, and is not
anchored at this one, does the same whether or not the name is there (`erase_leave`).  Erasing a
name after a sequence of operations is therefore the same as erasing it before them and leaving its
own operations out (`afterAll_unregister`).
-/

namespace Markflow

variable {ρ : Type}

/-- What a registration is placed beside, null when it has no anchor. -/
def Registration.anchor (registration : Registration ρ) : Value :=
  match registration.before with
  | .null => registration.after
  | before => before

namespace Registry

/-- Whether an operation registers or removes the transform of a name. -/
def Operation.concerns (name : String) : Operation ρ → Bool
  | register registration =>
    match registration.base.toDefinition registration.changes with
    | .ok definition => definition.name == .text name
    | .error _ => false
  | unregister value => value == .text name
  | clear => false

/-- Whether an operation concerns no other transform than that of a name, or at least is not
anchored at that name. -/
def Operation.Unanchored (name : String) : Operation ρ → Prop
  | register registration => ∀ definition,
    registration.base.toDefinition registration.changes = .ok definition →
      definition.name ≠ .text name → registration.anchor ≠ .text name
  | _ => True

theorem erase_comm (registry : Registry ρ) (first second : String) :
    (registry.erase first).erase second = (registry.erase second).erase first := by
  simp [erase, List.filter_filter, Bool.and_comm]

theorem placeBeside_erase (registry : Registry ρ) {name : String} (owner : Value) (side : Side)
    {anchor : Value} (elsewhere : anchor ≠ .text name) :
    (registry.erase name).placeBeside owner side anchor =
      registry.placeBeside owner side anchor := by
  cases anchor with
  | text other =>
    have differs : other ≠ name := by simpa using elsewhere
    simp only [placeBeside, Value.asKey, bind, Except.bind, contains_erase_of_ne registry differs]
  | bag kind form items =>
    by_cases isSet : kind = "set" <;>
      simp [placeBeside, Value.asKey, isSet, bind, Except.bind]
  | _ => rfl

theorem place_erase (registry : Registry ρ) {name : String} (owner : Value)
    {registration : Registration ρ} (elsewhere : registration.anchor ≠ .text name) :
    (registry.erase name).place owner registration.before registration.after =
      registry.place owner registration.before registration.after := by
  rcases registration with ⟨base, changes, before, after⟩
  cases before with
  | null =>
    cases after with
    | null => rfl
    | _ => exact placeBeside_erase registry owner .after elsewhere
  | _ =>
    cases after with
    | null => exact placeBeside_erase registry owner .before elsewhere
    | _ => rfl

theorem check_erase [Host] (registry : Registry ρ) {name : String}
    {registration : Registration ρ} (elsewhere : registration.anchor ≠ .text name) :
    (registry.erase name).check registration = registry.check registration := by
  simp only [check, place_erase registry _ elsewhere]

/-- A definition that is put in under another name lands in the same place when a name is erased
that it is not put beside. -/
theorem erase_insert_of_ne (registry : Registry ρ) {name other : String} (definition : Definition ρ)
    (placement : Placement) (differs : other ≠ name)
    (elsewhere : ∀ side, placement ≠ .beside side name) :
    (registry.insert other definition placement).erase name =
      (registry.erase name).insert other definition placement := by
  -- What is put in stands beside an entry or in its place, so that the entries can be erased one by
  -- one.
  cases placement with
  | own =>
    simp only [insert, contains_erase_of_ne registry differs]
    split
    · simp only [erase, Registry.mk.injEq]
      rw [List.map_eq_flatMap, List.map_eq_flatMap]
      apply filter_flatMap_eq
      · intro entry isOther
        by_cases isName : entry.1 = other <;> simp_all
      · intro entry isName
        by_cases isName : entry.1 = other <;> simp_all
    · simp [erase, differs]
  | beside side anchor =>
    have anchorDiffers : anchor ≠ name := by
      rintro rfl
      exact elsewhere side rfl
    simp only [insert]
    rw [erase_comm registry name other]
    apply congrArg Registry.mk
    apply filter_flatMap_eq
    · intro entry isOther
      by_cases isAnchor : entry.1 = anchor <;> cases side <;> simp_all
    · intro entry isName
      by_cases isAnchor : entry.1 = anchor <;> cases side <;> simp_all

theorem concerns_register_iff {name : String} {registration : Registration ρ} :
    (Operation.register registration).concerns name = true ↔
      ∃ definition, registration.base.toDefinition registration.changes = .ok definition ∧
        definition.name = .text name := by
  simp only [Operation.concerns]
  split <;> simp_all [Value.beq_text_iff]

theorem Places.ne_beside {registry : Registry ρ} {name other : String}
    {registration : Registration ρ} {placement : Placement}
    (places : registry.Places other registration.before registration.after placement)
    (elsewhere : registration.anchor ≠ .text name) (side : Side) :
    placement ≠ .beside side name := by
  rintro rfl
  rcases registration with ⟨base, changes, before, after⟩
  cases places with
  | before => exact elsewhere rfl
  | after => exact elsewhere rfl

section

variable [Host]

theorem erase_leave_of_concerns (registry : Registry ρ) {name : String} {operation : Operation ρ}
    (concerns : operation.concerns name = true) :
    (operation.leave registry).erase name = registry.erase name := by
  cases operation with
  | register registration =>
    rw [Operation.leave_register]
    rcases checked : registry.check registration with fault | ⟨definition, placement⟩
    · rfl
    · rcases concerns_register_iff.mp concerns with ⟨made, coerced, named⟩
      rw [(check_eq_ok_iff.mp checked).1, Except.ok.injEq] at coerced
      rw [← coerced] at named
      have key_eq : definition.key = name := by simp [Definition.key, named, Value.shown]
      simp only [key_eq]
      exact erase_insert registry name definition placement
  | unregister value =>
    have named : value = .text name := Value.beq_text_iff.mp concerns
    rw [Operation.leave_unregister, named]
    exact erase_erase registry name
  | clear => simp [Operation.concerns] at concerns

/-- What concerns another name does the same whether or not a name is there that it is not anchored
at. -/
theorem erase_leave (registry : Registry ρ) {name : String} {operation : Operation ρ}
    (other : operation.concerns name = false) (unanchored : operation.Unanchored name) :
    (operation.leave registry).erase name = operation.leave (registry.erase name) := by
  cases operation with
  | register registration =>
    rw [Operation.leave_register, Operation.leave_register]
    rcases coerced : registration.base.toDefinition registration.changes with fault | definition
    · simp [check, coerced, bind, Except.bind]
    have differs : definition.name ≠ .text name := by
      intro named
      rw [concerns_register_iff.mpr ⟨definition, coerced, named⟩] at other
      exact Bool.noConfusion other
    have elsewhere := unanchored definition coerced differs
    rw [check_erase registry elsewhere]
    rcases checked : registry.check registration with fault | ⟨made, placement⟩
    · rfl
    rcases check_eq_ok_iff.mp checked with ⟨madeFrom, admitted, placed⟩
    rw [coerced, Except.ok.injEq] at madeFrom
    subst madeFrom
    rw [admitted.name_eq] at placed differs
    apply erase_insert_of_ne registry definition placement
    · simpa using differs
    · exact (place_eq_ok_iff.mp placed).ne_beside elsewhere
  | unregister value =>
    rw [Operation.leave_unregister, Operation.leave_unregister]
    rcases value.asKey with fault | ⟨_ | key⟩
    · rfl
    · rfl
    · exact erase_comm registry key name
  | clear => rfl

theorem after_cons (registry : Registry ρ) (operation : Operation ρ)
    (operations : List (Operation ρ)) :
    registry.after (operation :: operations) = (operation.leave registry).after operations := rfl

theorem erase_after (registry : Registry ρ) {name : String} {operations : List (Operation ρ)}
    (unanchored : ∀ operation ∈ operations, operation.Unanchored name) :
    (registry.after operations).erase name =
      (registry.erase name).after (operations.filter (!·.concerns name)) := by
  induction operations generalizing registry with
  | nil => rfl
  | cons operation operations ih =>
    have later : ∀ operation ∈ operations, operation.Unanchored name := by
      intro operation operation_mem
      exact unanchored operation (List.mem_cons_of_mem _ operation_mem)
    rw [after_cons, ih _ later]
    rcases concerns : operation.concerns name with _ | _
    · simp [concerns, after_cons,
        erase_leave registry concerns (unanchored operation List.mem_cons_self)]
    · simp [concerns, erase_leave_of_concerns registry concerns]

theorem afterAll_append (first second : List (Operation ρ)) :
    afterAll (first ++ second) = (afterAll first).after second := by
  simp [afterAll, after]

/-- A transform that is removed after some operations, none of which anchors another at it, leaves
the registry that there is when it is removed before them and its own operations are left out.
Conversions are then the same too. -/
theorem afterAll_unregister (earlier operations : List (Operation ρ)) (name : String)
    (unanchored : ∀ operation ∈ operations, operation.Unanchored name) :
    afterAll (earlier ++ operations ++ [.unregister (.text name)]) =
        afterAll (earlier ++ .unregister (.text name) :: operations.filter (!·.concerns name)) ∧
      ∀ {σ : Type} (call : Caller ρ σ) (options : Options) (terminal markdown : Value),
        (⟨options, afterAll (earlier ++ operations ++ [.unregister (.text name)]), terminal⟩ :
            Converter ρ).convert call markdown =
          (⟨options, afterAll (earlier ++ .unregister (.text name) ::
            operations.filter (!·.concerns name)), terminal⟩ :
            Converter ρ).convert call markdown := by
  have removed : ∀ registry : Registry ρ,
      (Operation.unregister (.text name)).leave registry = registry.erase name :=
    fun registry => Operation.leave_unregister _ registry
  have same : afterAll (earlier ++ operations ++ [.unregister (.text name)]) =
      afterAll (earlier ++ .unregister (.text name) :: operations.filter (!·.concerns name)) := by
    rw [afterAll_append, afterAll_append, afterAll_append, after_cons, after_cons, removed, removed]
    exact erase_after (afterAll earlier) unanchored
  refine ⟨same, ?_⟩
  intro σ call options terminal markdown
  rw [same]

end

attribute [local instance] Host.standard

/-- A transform that comes and moves between operations on others, and goes at last. -/
theorem afterAll_unregister_moved :
    let define (name : String) : Base Unit :=
      .definition { name := .text name, pattern := .text "=", render := .custom () }
    let earlier : List (Operation Unit) :=
      [.register { base := define "mark" }, .register { base := define "note" }]
    let swap : Operation Unit := .register { base := define "note", before := .text "mark" }
    let operations : List (Operation Unit) :=
      [.register { base := define "rule", before := .text "note" }, swap,
        .register { base := define "rule", after := .text "note" }]
    (∀ operation ∈ operations, operation.Unanchored "rule") ∧
      afterAll (earlier ++ operations ++ [.unregister (.text "rule")]) =
        afterAll (earlier ++ [.unregister (.text "rule"), swap]) ∧
      (afterAll (earlier ++ operations)).names = ["note", "rule", "mark"] ∧
      (afterAll (earlier ++ operations ++ [.unregister (.text "rule")])).names =
        ["note", "mark"] := by
  intro define earlier swap operations
  have unanchored : ∀ operation ∈ operations, operation.Unanchored "rule" := by
    intro operation operation_mem
    simp only [operations, List.mem_cons, List.not_mem_nil, or_false] at operation_mem
    rcases operation_mem with rfl | rfl | rfl
    all_goals
      intro definition _ _
      simp [Registration.anchor]
  have undone := (afterAll_unregister earlier operations "rule" unanchored).1
  have left : operations.filter (!·.concerns "rule") = [swap] := by rfl
  rw [left] at undone
  exact ⟨unanchored, undone, by decide +kernel, by decide +kernel⟩

end Registry

end Markflow
