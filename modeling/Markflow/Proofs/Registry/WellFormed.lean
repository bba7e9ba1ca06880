import Markflow.Proofs.Action
import Markflow.Transform.Registry

/-!
# Well-formed registries

A registry changes by operations: registrations, removals and clearing.  `Operation.leave` is the
registry that an operation leaves, whether it succeeds or fails, and `afterAll` the one that a
sequence of operations leaves when it starts without transforms.

A registry is well formed when its names differ, every definition stands under its own name, and
every definition has passed the checks of a registration.  Placing a definition keeps this
(`WellFormed.insert`), so every operation does (`WellFormed.leave`), and every sequence of
operations leads to a well-formed registry (`wellFormed_afterAll`).
-/

namespace Markflow

variable {ρ : Type}

namespace Definition

/-- Whether a definition passes the checks of a registration that concern it alone. -/
def Admitted [Host] (d : Definition ρ) : Prop :=
  d.validate = .ok () ∧ ∃ pattern, d.compile = .ok pattern

theorem validate_eq_ok_iff (d : Definition ρ) :
    d.validate = .ok () ↔ d.name.isSet ∧ d.pattern.isSet ∧ d.render.isSet ∧ d.name.isText ∧
      d.render.isFunction := by
  simp only [validate]
  grind

variable [Host]

theorem Admitted.name_eq {d : Definition ρ} (admitted : d.Admitted) : d.name = .text d.key := by
  have isText := ((validate_eq_ok_iff d).mp admitted.1).2.2.2.1
  cases name : d.name <;> simp_all [Value.isText, key, Value.shown]

theorem Admitted.isFunction {d : Definition ρ} (admitted : d.Admitted) :
    d.render.isFunction = true :=
  ((validate_eq_ok_iff d).mp admitted.1).2.2.2.2

end Definition

namespace Registry

/-- Something that is done to a registry. -/
inductive Operation (ρ : Type) where
  | register (registration : Registration ρ)
  | unregister (name : Value)
  | clear

namespace Operation

variable [Host]

/-- What is done, as an action on the registry. -/
def action : Operation ρ → Action (Registry ρ) Unit
  | register registration => Registry.register registration
  | unregister name => Registry.unregister name
  | clear => Registry.clear

/-- The registry that an operation leaves, whether it succeeds or fails. -/
def leave (operation : Operation ρ) (registry : Registry ρ) : Registry ρ :=
  (operation.action.runFrom registry).2.state

theorem leave_register (registration : Registration ρ) (registry : Registry ρ) :
    (register registration).leave registry =
      match registry.check registration with
      | .ok (definition, placement) => registry.insert definition.key definition placement
      | .error _ => registry := by
  simp only [leave, action, Registry.register, Action.runFrom_eq_runOn, Action.runOn_bind,
    Action.runOn_state]
  rcases registry.check registration with fault | ⟨definition, placement⟩ <;>
    simp [Action.runOn_bind]

theorem leave_unregister (name : Value) (registry : Registry ρ) :
    (unregister name).leave registry =
      match name.asKey with
      | .ok (some key) => registry.erase key
      | _ => registry := by
  simp only [leave, action, Registry.unregister, Action.runFrom_eq_runOn, Action.runOn_bind,
    Action.runOn_state, Action.runOn_ofExcept]
  rcases name.asKey with fault | ⟨_ | key⟩
  · rfl
  · rfl
  · by_cases present : registry.contains key
    · simp [present, Action.runOn_bind]
    · have unchanged : registry.erase key = registry := by
        simp only [contains, names, List.contains_eq_mem, List.mem_map, decide_eq_true_eq,
          not_exists, not_and] at present
        simp only [erase]
        congr 1
        apply List.filter_eq_self.mpr
        intro entry entry_mem
        simpa using present entry entry_mem
      simp [present, unchanged]

end Operation

/-- The registry that some operations leave, one after the other. -/
def after [Host] (registry : Registry ρ) (operations : List (Operation ρ)) : Registry ρ :=
  operations.foldl (fun registry operation => operation.leave registry) registry

/-- The registry after some operations, starting without transforms. -/
def afterAll [Host] (operations : List (Operation ρ)) : Registry ρ :=
  operations.foldl (fun registry operation => operation.leave registry) empty

/-- What holds of every registry that operations lead to. -/
structure WellFormed [Host] (registry : Registry ρ) : Prop where
  nodup_names : registry.names.Nodup
  name_eq : ∀ entry ∈ registry.entries, entry.2.name = .text entry.1
  admitted : ∀ entry ∈ registry.entries, entry.2.Admitted

theorem wellFormed_empty [Host] : (empty : Registry ρ).WellFormed where
  nodup_names := List.nodup_nil
  name_eq := by simp [empty]
  admitted := by simp [empty]

/-- A registration is valid when its definition is admitted and its anchors stand for a place. -/
theorem check_eq_ok_iff [Host] {registry : Registry ρ} {registration : Registration ρ}
    {definition : Definition ρ} {placement : Placement} :
    registry.check registration = .ok (definition, placement) ↔
      registration.base.toDefinition registration.changes = .ok definition ∧ definition.Admitted ∧
        registry.place definition.name registration.before registration.after = .ok placement := by
  constructor
  · intro checked
    unfold check at checked
    rcases coerced : registration.base.toDefinition registration.changes with fault | d
    · simp [coerced, bind, Except.bind] at checked
    rcases valid : d.validate with fault | _
    · simp [coerced, valid, bind, Except.bind] at checked
    rcases compiled : d.compile with fault | pattern
    · simp [coerced, valid, compiled, bind, Except.bind] at checked
    rcases placed : registry.place d.name registration.before registration.after with fault | place
    · simp [coerced, valid, compiled, placed, bind, Except.bind] at checked
    obtain ⟨rfl, rfl⟩ : d = definition ∧ place = placement := by
      simpa [coerced, valid, compiled, placed, bind, Except.bind, pure, Except.pure] using checked
    exact ⟨rfl, ⟨valid, pattern, compiled⟩, placed⟩
  · rintro ⟨coerced, ⟨valid, pattern, compiled⟩, placed⟩
    simp [check, coerced, valid, compiled, placed, bind, Except.bind, pure, Except.pure]

/-- A definition that a registration puts in has passed the checks. -/
theorem admitted_of_check [Host] {registry : Registry ρ} {registration : Registration ρ}
    {definition : Definition ρ} {placement : Placement}
    (checked : registry.check registration = .ok (definition, placement)) :
    definition.Admitted :=
  (check_eq_ok_iff.mp checked).2.1

theorem contains_iff {registry : Registry ρ} {name : String} :
    registry.contains name = true ↔ name ∈ registry.names := by
  simp [contains]

theorem mem_entries_erase {registry : Registry ρ} {name : String} {entry : String × Definition ρ} :
    entry ∈ (registry.erase name).entries ↔ entry ∈ registry.entries ∧ entry.1 ≠ name := by
  simp [erase]

theorem not_mem_names_erase (registry : Registry ρ) (name : String) :
    name ∉ (registry.erase name).names := by
  simp [names, erase]

theorem nodup_names_erase {registry : Registry ρ} (nodup : registry.names.Nodup) (name : String) :
    (registry.erase name).names.Nodup :=
  nodup.sublist (List.filter_sublist.map _)

/-- What the names of a list of entries make of an anchor among them. -/
theorem flatMap_ite_of_not_mem {entries : List (String × Definition ρ)} {anchor : String}
    (absent : anchor ∉ entries.map (·.1))
    (around : String × Definition ρ → List (String × Definition ρ)) :
    (entries.flatMap fun entry => if entry.1 == anchor then around entry else [entry]) =
      entries := by
  induction entries with
  | nil => rfl
  | cons entry entries ih =>
    simp only [List.map_cons, List.mem_cons, not_or] at absent
    have differs : (entry.1 == anchor) = false := by simpa using Ne.symm absent.1
    simp only [List.flatMap_cons, differs, ih absent.2]
    rfl

/-- Next to an anchor that is there a definition is put exactly once, immediately before or after
it. -/
theorem entries_insert_beside {registry : Registry ρ} {name anchor : String}
    (definition : Definition ρ) (side : Side) (nodup : registry.names.Nodup)
    (present : anchor ∈ (registry.erase name).names) :
    ∃ earlier anchored later, (registry.erase name).entries = earlier ++ anchored :: later ∧
      anchored.1 = anchor ∧
      (registry.insert name definition (.beside side anchor)).entries =
        match side with
        | .before => earlier ++ (name, definition) :: anchored :: later
        | .after => earlier ++ anchored :: (name, definition) :: later := by
  have erasedNodup := nodup_names_erase nodup name
  obtain ⟨anchored, anchored_mem, anchored_name⟩ := List.mem_map.mp present
  obtain ⟨earlier, later, split⟩ := List.append_of_mem anchored_mem
  simp only [names, split, List.map_append, List.map_cons, List.nodup_append, List.nodup_cons]
    at erasedNodup
  have notEarlier : anchor ∉ earlier.map (·.1) := fun among =>
    erasedNodup.2.2 anchor among anchored.1 (by simp) anchored_name.symm
  have notLater : anchor ∉ later.map (·.1) := anchored_name ▸ erasedNodup.2.1.1
  refine ⟨earlier, anchored, later, split, anchored_name, ?_⟩
  simp only [insert, split, List.flatMap_append, List.flatMap_cons, anchored_name, beq_self_eq_true,
    if_true, flatMap_ite_of_not_mem notEarlier, flatMap_ite_of_not_mem notLater]
  cases side <;> simp

theorem perm_insert_beside {registry : Registry ρ} {name anchor : String}
    {definition : Definition ρ} (side : Side) (nodup : registry.names.Nodup)
    (present : anchor ∈ (registry.erase name).names) :
    (registry.insert name definition (.beside side anchor)).entries.Perm
      ((name, definition) :: (registry.erase name).entries) := by
  obtain ⟨earlier, anchored, later, split, -, inserted⟩ :=
    entries_insert_beside definition side nodup present
  rw [inserted, split]
  cases side with
  | before => exact List.perm_middle
  | after =>
    refine List.Perm.trans (List.Perm.append_left earlier (List.Perm.swap _ _ later)) ?_
    exact List.perm_middle

theorem names_insert_own {registry : Registry ρ} {name : String} (definition : Definition ρ)
    (present : registry.contains name) :
    (registry.insert name definition .own).names = registry.names := by
  simp only [insert, present, if_true, names, List.map_map]
  apply List.map_congr_left
  intro entry _
  by_cases isName : entry.1 = name <;> simp [isName]

/-- A definition that is put in without an anchor takes the place of the one under its name. -/
theorem mem_entries_insert_own {registry : Registry ρ} {name : String} {definition : Definition ρ}
    {entry : String × Definition ρ} :
    entry ∈ (registry.insert name definition .own).entries ↔
      entry = (name, definition) ∨ entry ∈ (registry.erase name).entries := by
  rw [mem_entries_erase]
  by_cases present : registry.contains name
  · simp only [insert, present, if_true, List.mem_map]
    constructor
    · rintro ⟨old, old_mem, rfl⟩
      by_cases isName : old.1 = name <;> simp [isName, old_mem]
    · rintro (rfl | ⟨old_mem, differs⟩)
      · rcases List.mem_map.mp (contains_iff.mp present) with ⟨old, old_mem, isName⟩
        exact ⟨old, old_mem, by simp [isName]⟩
      · exact ⟨entry, old_mem, by simp [differs]⟩
  · have fresh : ∀ entry ∈ registry.entries, entry.1 ≠ name := by
      intro entry entry_mem isName
      exact present (contains_iff.mpr (List.mem_map.mpr ⟨entry, entry_mem, isName⟩))
    simp only [insert, present, if_false, Bool.false_eq_true, List.mem_append, List.mem_singleton]
    constructor
    · rintro (old_mem | rfl)
      · exact .inr ⟨old_mem, fresh entry old_mem⟩
      · exact .inl rfl
    · rintro (rfl | ⟨old_mem, -⟩)
      · exact .inr rfl
      · exact .inl old_mem

variable [Host]

namespace WellFormed

theorem erase {registry : Registry ρ} (wellFormed : registry.WellFormed) (name : String) :
    (registry.erase name).WellFormed where
  nodup_names := nodup_names_erase wellFormed.nodup_names name
  name_eq entry entry_mem := wellFormed.name_eq entry (mem_entries_erase.mp entry_mem).1
  admitted entry entry_mem := wellFormed.admitted entry (mem_entries_erase.mp entry_mem).1

/-- Well-formedness depends on which entries there are and not on their order. -/
theorem of_perm {registry : Registry ρ} {name : String} {definition : Definition ρ}
    {rest : Registry ρ} (perm : registry.entries.Perm ((name, definition) :: rest.entries))
    (wellFormed : rest.WellFormed) (fresh : name ∉ rest.names)
    (named : definition.name = .text name) (admitted : definition.Admitted) :
    registry.WellFormed where
  nodup_names := by
    have permNames : registry.names.Perm (name :: rest.names) := perm.map _
    exact permNames.nodup_iff.mpr (List.nodup_cons.mpr ⟨fresh, wellFormed.nodup_names⟩)
  name_eq entry entry_mem := by
    rcases List.mem_cons.mp (perm.mem_iff.mp entry_mem) with rfl | among
    · exact named
    · exact wellFormed.name_eq entry among
  admitted entry entry_mem := by
    rcases List.mem_cons.mp (perm.mem_iff.mp entry_mem) with rfl | among
    · exact admitted
    · exact wellFormed.admitted entry among

theorem insert_own {registry : Registry ρ} (wellFormed : registry.WellFormed) {name : String}
    {definition : Definition ρ} (named : definition.name = .text name)
    (admitted : definition.Admitted) : (registry.insert name definition .own).WellFormed := by
  by_cases present : registry.contains name
  · have sameNames := names_insert_own definition present
    refine ⟨sameNames ▸ wellFormed.nodup_names, ?_, ?_⟩
    · intro entry entry_mem
      rcases mem_entries_insert_own.mp entry_mem with rfl | among
      · exact named
      · exact wellFormed.name_eq entry (mem_entries_erase.mp among).1
    · intro entry entry_mem
      rcases mem_entries_insert_own.mp entry_mem with rfl | among
      · exact admitted
      · exact wellFormed.admitted entry (mem_entries_erase.mp among).1
  · have fresh : name ∉ registry.names := by simpa [contains] using present
    refine of_perm ?_ wellFormed fresh named admitted
    simp only [insert, present, if_false, Bool.false_eq_true]
    exact List.perm_append_singleton _ _

/-- Placing an admitted definition under its own name keeps a registry well formed. -/
theorem insert {registry : Registry ρ} (wellFormed : registry.WellFormed) {name : String}
    {definition : Definition ρ} (placement : Placement) (named : definition.name = .text name)
    (admitted : definition.Admitted) :
    (registry.insert name definition placement).WellFormed := by
  cases placement with
  | own => exact wellFormed.insert_own named admitted
  | beside side anchor =>
    by_cases present : anchor ∈ (registry.erase name).names
    · exact of_perm (perm_insert_beside side wellFormed.nodup_names present)
        (wellFormed.erase name) (not_mem_names_erase registry name) named admitted
    · have unplaced : registry.insert name definition (.beside side anchor) = registry.erase name :=
        congrArg Registry.mk (flatMap_ite_of_not_mem present _)
      rw [unplaced]
      exact wellFormed.erase name

/-- Every operation keeps a registry well formed, whether it succeeds or fails. -/
theorem leave {registry : Registry ρ} (wellFormed : registry.WellFormed)
    (operation : Operation ρ) : (operation.leave registry).WellFormed := by
  cases operation with
  | register registration =>
    rw [Operation.leave_register]
    rcases checked : registry.check registration with fault | ⟨definition, placement⟩
    · exact wellFormed
    · have admitted := admitted_of_check checked
      exact wellFormed.insert placement admitted.name_eq admitted
  | unregister name =>
    rw [Operation.leave_unregister]
    rcases name.asKey with fault | ⟨_ | key⟩
    · exact wellFormed
    · exact wellFormed
    · exact wellFormed.erase key
  | clear => exact wellFormed_empty

end WellFormed

/-- Every sequence of operations leads to a well-formed registry. -/
theorem wellFormed_afterAll (operations : List (Operation ρ)) :
    (afterAll operations).WellFormed := by
  suffices ∀ registry : Registry ρ, registry.WellFormed →
      (registry.after operations).WellFormed from
    this empty wellFormed_empty
  induction operations with
  | nil => exact fun _ wellFormed => wellFormed
  | cons operation operations ih => exact fun _ wellFormed => ih _ (wellFormed.leave operation)

end Registry

end Markflow
