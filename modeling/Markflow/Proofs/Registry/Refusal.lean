import Markflow.Proofs.Registry.Placement

/-!
# Registrations that are refused

A registration makes a definition, checks its fields, reads its pattern and places it.  `Refused`
has one case for each way in which this can fail when the anchors are names, with the fault of that
check and what the checks before it have given.  A registration fails in just these ways and then
leaves the registry as it was; else it succeeds (`register_atomic`).
-/

namespace Markflow

variable {ρ : Type}

namespace Registration

/-- An anchor that is the name of a transform, if one is given. -/
def named (anchor : Option String) : Value :=
  anchor.elim .null .text

/-- A registration whose anchors are names. -/
def ofNames (base : Base ρ) (changes : Fields ρ) (before after : Option String) :
    Registration ρ where
  base
  changes
  before := named before
  after := named after

end Registration

namespace Registry

/-- What is wrong with the anchors of a registration under a name, if they stand for no place. -/
inductive Misplaced (registry : Registry ρ) (name : Value) :
    Option String → Option String → Invalid → Prop
  | both (before after : String) :
    Misplaced registry name (some before) (some after) (.bothSides (.text before))
  | before {anchor : String} (bad : name = .text anchor ∨ anchor ∉ registry.names) :
    Misplaced registry name (some anchor) none (.badAnchor name .before (.text anchor))
  | after {anchor : String} (bad : name = .text anchor ∨ anchor ∉ registry.names) :
    Misplaced registry name none (some anchor) (.badAnchor name .after (.text anchor))

/-- The fault of the first check that a registration does not pass. -/
inductive Refused [Host] (registry : Registry ρ) (base : Base ρ) (changes : Fields ρ)
    (before after : Option String) :
    Fault → Prop
  | unmade {fault : Fault} (fails : base.toDefinition changes = .error fault) :
    Refused registry base changes before after fault
  | invalid {d : Definition ρ} {fault : Fault} (made : base.toDefinition changes = .ok d)
    (fails : d.validate = .error fault) : Refused registry base changes before after fault
  | unread {d : Definition ρ} {fault : Fault} (made : base.toDefinition changes = .ok d)
    (valid : d.validate = .ok ()) (fails : d.compile = .error fault) :
    Refused registry base changes before after fault
  | misplaced {d : Definition ρ} {cause : Invalid} (made : base.toDefinition changes = .ok d)
    (admitted : d.Admitted) (fails : registry.Misplaced d.name before after cause) :
    Refused registry base changes before after (.invalid cause)

theorem placeBeside_text (registry : Registry ρ) (name : Value) (side : Side) (anchor : String) :
    (name = .text anchor ∨ anchor ∉ registry.names) ∧
        registry.placeBeside name side (.text anchor) =
          .error (.invalid (.badAnchor name side (.text anchor))) ∨
      (anchor ∈ registry.names ∧ name ≠ .text anchor) ∧
        registry.placeBeside name side (.text anchor) = .ok (.beside side anchor) := by
  have same : (Value.text anchor == name) = true ↔ name = .text anchor := by
    cases name <;> simp [BEq.beq, Value.same, eq_comm]
  have present : registry.contains anchor = true ↔ anchor ∈ registry.names := contains_iff
  simp only [placeBeside, Value.asKey, bind, Except.bind, ne_eq]
  rw [← same, ← present]
  cases Value.text anchor == name <;> cases registry.contains anchor <;>
    simp [throw, throwThe, MonadExceptOf.throw, pure, Except.pure]

/-- Named anchors are misplaced, or they stand for a place and are not misplaced. -/
theorem place_named (registry : Registry ρ) (name : Value) (before after : Option String) :
    (∃ cause, registry.place name (Registration.named before) (Registration.named after) =
        .error (.invalid cause) ∧ registry.Misplaced name before after cause) ∨
      ∃ placement, registry.place name (Registration.named before) (Registration.named after) =
        .ok placement ∧ ∀ cause, ¬ registry.Misplaced name before after cause := by
  rcases before with _ | before <;> rcases after with _ | after
  · refine .inr ⟨.own, rfl, ?_⟩
    rintro cause ⟨⟩
  · rcases registry.placeBeside_text name .after after with ⟨bad, placed⟩
      | ⟨⟨present, other⟩, placed⟩
    · exact .inl ⟨_, placed, .after bad⟩
    · refine .inr ⟨_, placed, ?_⟩
      rintro cause (_ | bad | bad)
      exact bad.elim other fun absent => absent present
  · rcases registry.placeBeside_text name .before before with ⟨bad, placed⟩
      | ⟨⟨present, other⟩, placed⟩
    · exact .inl ⟨_, placed, .before bad⟩
    · refine .inr ⟨_, placed, ?_⟩
      rintro cause (_ | bad | bad)
      exact bad.elim other fun absent => absent present
  · exact .inl ⟨_, rfl, .both before after⟩

theorem Misplaced.unique {registry : Registry ρ} {name : Value} {before after : Option String}
    {first second : Invalid} (one : registry.Misplaced name before after first)
    (other : registry.Misplaced name before after second) : first = second := by
  cases one <;> cases other <;> rfl

theorem not_misplaced_iff {registry : Registry ρ} {name : Value} {before after : Option String} :
    (∀ cause, ¬ registry.Misplaced name before after cause) ↔
      ¬ (before.isSome ∧ after.isSome) ∧
        ∀ anchor, before = some anchor ∨ after = some anchor →
          anchor ∈ registry.names ∧ name ≠ .text anchor := by
  constructor
  · intro placed
    rcases before with _ | before <;> rcases after with _ | after
    · simp
    · rcases registry.placeBeside_text name .after after with ⟨bad, -⟩ | ⟨good, -⟩
      · exact absurd (.after bad) (placed _)
      · simpa using good
    · rcases registry.placeBeside_text name .before before with ⟨bad, -⟩ | ⟨good, -⟩
      · exact absurd (.before bad) (placed _)
      · simpa using good
    · exact absurd (.both before after) (placed _)
  · rintro ⟨single, others⟩ cause misplaced
    cases misplaced with
    | both before after => exact single ⟨rfl, rfl⟩
    | before bad =>
      have good := others _ (.inl rfl)
      exact bad.elim good.2 fun absent => absent good.1
    | after bad =>
      have good := others _ (.inr rfl)
      exact bad.elim good.2 fun absent => absent good.1

variable [Host]

/-- A check of a registration fails with the fault of the first check that is not passed. -/
theorem check_eq_error_iff {registry : Registry ρ} {base : Base ρ} {changes : Fields ρ}
    {before after : Option String} {fault : Fault} :
    registry.check (.ofNames base changes before after) = .error fault ↔
      Refused registry base changes before after fault := by
  constructor
  · intro failed
    simp only [check, Registration.ofNames] at failed
    rcases made : base.toDefinition changes with unmade | d
    · simp only [made, bind, Except.bind, Except.error.injEq] at failed
      exact .unmade (failed ▸ made)
    rcases valid : d.validate with invalid | _
    · simp only [made, valid, bind, Except.bind, Except.error.injEq] at failed
      exact .invalid made (failed ▸ valid)
    rcases compiled : d.compile with unread | pattern
    · simp only [made, valid, compiled, bind, Except.bind, Except.error.injEq] at failed
      exact .unread made valid (failed ▸ compiled)
    rcases registry.place_named d.name before after with ⟨cause, placed, misplaced⟩
      | ⟨placement, placed, -⟩
    · simp only [made, valid, compiled, placed, bind, Except.bind, Except.error.injEq] at failed
      exact failed ▸ .misplaced made ⟨valid, pattern, compiled⟩ misplaced
    · simp [made, valid, compiled, placed, bind, Except.bind, pure, Except.pure] at failed
  · intro refused
    simp only [check, Registration.ofNames]
    cases refused with
    | unmade fails => simp [fails, bind, Except.bind]
    | invalid made fails => simp [made, fails, bind, Except.bind]
    | unread made valid fails => simp [made, valid, fails, bind, Except.bind]
    | @misplaced d cause made admitted fails =>
      rcases admitted with ⟨valid, pattern, compiled⟩
      rcases registry.place_named d.name before after with ⟨other, placed, misplaced⟩ | ⟨_, _, good⟩
      · simp [made, valid, compiled, placed, misplaced.unique fails, bind, Except.bind]
      · exact absurd fails (good cause)

theorem exists_check_eq_ok_iff {registry : Registry ρ} {base : Base ρ} {changes : Fields ρ}
    {before after : Option String} :
    (∃ definition placement, registry.check (.ofNames base changes before after) =
        .ok (definition, placement)) ↔
      ∃ definition pattern, base.toDefinition changes = .ok definition ∧
        definition.validate = .ok () ∧
        definition.compile = .ok pattern ∧ ∀ cause,
          ¬ registry.Misplaced definition.name before after cause := by
  simp only [check_eq_ok_iff, Registration.ofNames]
  constructor
  · rintro ⟨definition, placement, made, ⟨valid, pattern, compiled⟩, placed⟩
    refine ⟨definition, pattern, made, valid, compiled, ?_⟩
    rcases registry.place_named definition.name before after with ⟨cause, failed, -⟩ | ⟨_, -, good⟩
    · rw [failed] at placed
      cases placed
    · exact good
  · rintro ⟨definition, pattern, made, valid, compiled, good⟩
    rcases registry.place_named definition.name before after with ⟨cause, -, bad⟩
      | ⟨placement, placed, -⟩
    · exact absurd bad (good cause)
    · exact ⟨definition, placement, made, ⟨valid, pattern, compiled⟩, placed⟩

theorem runOn_register_of_error {registry : Registry ρ} {registration : Registration ρ}
    {fault : Fault} (failed : registry.check registration = .error fault) (records : List Record) :
    (register registration).runOn ⟨registry, records⟩ =
      (.error fault, ⟨registry, records ++ (Pattern.failureRecord? fault).toList⟩) := by
  simp [register, Action.runOn_bind, failed]

/-- A registration with named anchors succeeds if its definition can be made, its fields are valid,
its pattern can be read, at most one anchor is given and the anchor is another registered transform,
and only then.  Else it fails with the fault of the first of these checks that it does not pass, and
the registry stays as it was. -/
theorem register_atomic (operations : List (Operation ρ)) (base : Base ρ) (changes : Fields ρ)
    (before after : Option String) :
    ((∃ left, (register (.ofNames base changes before after)).runFrom (afterAll operations) =
      (.ok (), left)) ↔
      ∃ definition pattern, base.toDefinition changes = .ok definition ∧
        definition.validate = .ok () ∧
        definition.compile = .ok pattern ∧ ¬ (before.isSome ∧ after.isSome) ∧
        ∀ anchor, before = some anchor ∨ after = some anchor →
          anchor ∈ (afterAll operations).names ∧ definition.name ≠ .text anchor) ∧
    (∀ fault, (∃ left,
        (register (.ofNames base changes before after)).runFrom (afterAll operations) =
          (.error fault, left)) ↔
      Refused (afterAll operations) base changes before after fault) ∧
    ∀ fault left,
      (register (.ofNames base changes before after)).runFrom (afterAll operations) =
        (.error fault, left) →
        left.state = afterAll operations := by
  generalize afterAll operations = registry
  simp only [Action.runFrom_eq_runOn, ← check_eq_error_iff, ← not_misplaced_iff]
  rw [← exists_check_eq_ok_iff]
  rcases checked : registry.check (.ofNames base changes before after) with
    fault | ⟨definition, placement⟩
  · simp [runOn_register_of_error checked, eq_comm]
  · simp [runOn_register_of_check checked]

end Registry

end Markflow
