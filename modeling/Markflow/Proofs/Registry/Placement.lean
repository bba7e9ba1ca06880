import Markflow.Proofs.Registry.WellFormed

/-!
# Where a registration puts a transform

`Reordered` says how a registration changes the order of the names: without an anchor a name keeps
its place or comes last, next to an anchor it is taken from its place and put immediately before or
after the anchor.  `register_reorders` shows that every successful registration does just this, that
it concerns no other transform, and that a second one changes nothing.

Placing a definition is taken apart by what it leaves once the name is erased (`erase_insert`): the
other transforms are the same, so what they are looked up as and their order follow from it.
-/

namespace Markflow

variable {ρ : Type}

theorem Value.beq_text_iff {value : Value} {text : String} :
    (value == .text text) = true ↔ value = .text text := by
  cases value <;> simp [BEq.beq, Value.same]

namespace Registry

/-- What the anchors of a registration ask for, and the place that they stand for. -/
inductive Places (registry : Registry ρ) (name : String) : Value → Value → Placement → Prop
  | own : Places registry name .null .null .own
  | before {anchor : String} (other : anchor ≠ name) (present : anchor ∈ registry.names) :
    Places registry name (.text anchor) .null (.beside .before anchor)
  | after {anchor : String} (other : anchor ≠ name) (present : anchor ∈ registry.names) :
    Places registry name .null (.text anchor) (.beside .after anchor)

theorem placeBeside_eq_ok_iff {registry : Registry ρ} {name : String} {side : Side} {value : Value}
    {placement : Placement} :
    registry.placeBeside (.text name) side value = .ok placement ↔
      ∃ anchor, value = .text anchor ∧ anchor ≠ name ∧ anchor ∈ registry.names ∧
        .beside side anchor = placement := by
  cases value with
  | text anchor =>
    have same : (Value.text anchor == .text name) = decide (anchor = name) := by
      simp [BEq.beq, Value.same]
    have present : registry.contains anchor = decide (anchor ∈ registry.names) := by
      simp [contains]
    simp only [placeBeside, Value.asKey, bind, Except.bind, same, present, Value.text.injEq,
      exists_eq_left']
    by_cases isName : anchor = name <;> by_cases isPresent : anchor ∈ registry.names <;>
      simp [isName, isPresent, throw, throwThe, MonadExceptOf.throw, pure, Except.pure]
  | bag kind form items =>
    by_cases isSet : kind = "set" <;>
      simp [placeBeside, Value.asKey, isSet, bind, Except.bind, throw, throwThe,
        MonadExceptOf.throw]
  | _ => simp [placeBeside, Value.asKey, bind, Except.bind, throw, throwThe, MonadExceptOf.throw]

theorem place_eq_ok_iff {registry : Registry ρ} {name : String} {before after : Value}
    {placement : Placement} :
    registry.place (.text name) before after = .ok placement ↔
      registry.Places name before after placement := by
  constructor
  · intro placed
    unfold place at placed
    split at placed
    · cases placed
      exact .own
    · rcases placeBeside_eq_ok_iff.mp placed with ⟨anchor, rfl, other, present, rfl⟩
      exact .before other present
    · rcases placeBeside_eq_ok_iff.mp placed with ⟨anchor, rfl, other, present, rfl⟩
      exact .after other present
    · cases placed
  · intro places
    cases places with
    | own => rfl
    | before other present => exact placeBeside_eq_ok_iff.mpr ⟨_, rfl, other, present, rfl⟩
    | after other present => exact placeBeside_eq_ok_iff.mpr ⟨_, rfl, other, present, rfl⟩

theorem names_erase {registry : Registry ρ} (nodup : registry.names.Nodup) (name : String) :
    (registry.erase name).names = registry.names.erase name := by
  rw [nodup.erase_eq_filter]
  simp [names, erase, List.filter_map, Function.comp_def]

theorem contains_erase_of_ne (registry : Registry ρ) {name other : String}
    (differs : other ≠ name) :
    (registry.erase name).contains other = registry.contains other := by
  rw [Bool.eq_iff_iff, contains_iff, contains_iff]
  simp [names, erase, differs]

theorem erase_erase (registry : Registry ρ) (name : String) :
    (registry.erase name).erase name = registry.erase name := by
  simp [erase]

/-- Entries that are put around others one by one are selected with the others. -/
theorem filter_flatMap_eq {α : Type} {entries : List α} {chosen : α → Bool} {around : α → List α}
    (kept : α → Bool) (left : α → List α)
    (stays : ∀ entry, kept entry = true → (around entry).filter chosen = left entry)
    (goes : ∀ entry, kept entry = false → (around entry).filter chosen = []) :
    (entries.flatMap around).filter chosen = (entries.filter kept).flatMap left := by
  induction entries with
  | nil => rfl
  | cons entry entries ih =>
    rw [List.flatMap_cons, List.filter_append, ih]
    rcases isKept : kept entry with _ | _
    · simp [isKept, goes entry isKept]
    · simp [isKept, stays entry isKept]

theorem erase_insert (registry : Registry ρ) (name : String) (definition : Definition ρ)
    (placement : Placement) :
    (registry.insert name definition placement).erase name = registry.erase name := by
  apply congrArg Registry.mk
  cases placement with
  | own =>
    simp only [insert]
    split
    · rw [List.map_eq_flatMap, filter_flatMap_eq (·.1 != name) (fun entry => [entry]),
        List.flatMap_singleton']
      · intro entry
        by_cases isName : entry.1 = name <;> simp [isName]
      · intro entry
        by_cases isName : entry.1 = name <;> simp [isName]
    · simp
  | beside side anchor =>
    simp only [insert]
    rw [filter_flatMap_eq (·.1 != name) (fun entry => [entry]), List.flatMap_singleton']
    · exact congrArg Registry.entries (erase_erase registry name)
    · intro entry isOther
      by_cases isAnchor : entry.1 = anchor <;> cases side <;> simp_all
    · intro entry isName
      by_cases isAnchor : entry.1 = anchor <;> cases side <;> simp_all

theorem lookup?_eq_some_of_mem {registry : Registry ρ} (nodup : registry.names.Nodup)
    {name : String} {definition : Definition ρ} (among : (name, definition) ∈ registry.entries) :
    registry.lookup? name = some definition := by
  rcases List.append_of_mem among with ⟨earlier, later, split⟩
  apply List.lookup_eq_some_iff.mpr
  refine ⟨earlier, later, split, ?_⟩
  intro entry entry_mem
  simp only [names, split, List.map_append, List.map_cons, List.nodup_append] at nodup
  simpa using (nodup.2.2 entry.1 (List.mem_map_of_mem entry_mem) name (by simp)).symm

theorem lookup?_erase_of_ne (registry : Registry ρ) {name other : String} (differs : other ≠ name) :
    (registry.erase name).lookup? other = registry.lookup? other := by
  rcases registry with ⟨entries⟩
  simp only [erase, lookup?]
  induction entries with
  | nil => rfl
  | cons entry entries ih =>
    rcases entry with ⟨first, definition⟩
    by_cases isName : first = name
    · subst isName
      have passed : (other == first) = false := by simpa using differs
      simpa [List.lookup_cons, passed] using ih
    · simp [isName, List.lookup_cons, ih]

theorem lookup?_insert_of_ne (registry : Registry ρ) {name other : String}
    (definition : Definition ρ) (placement : Placement) (differs : other ≠ name) :
    (registry.insert name definition placement).lookup? other = registry.lookup? other := by
  rw [← lookup?_erase_of_ne _ differs, erase_insert, lookup?_erase_of_ne _ differs]

theorem Places.lookup? [Host] {registry : Registry ρ} {name : String} {before after : Value}
    {placement : Placement} (places : registry.Places name before after placement)
    {definition : Definition ρ} (wellFormed : registry.WellFormed)
    (named : definition.name = .text name) (admitted : definition.Admitted) :
    (registry.insert name definition placement).lookup? name = some definition := by
  apply lookup?_eq_some_of_mem (wellFormed.insert placement named admitted).nodup_names
  have beside : ∀ side anchor, anchor ≠ name → anchor ∈ registry.names →
      (name, definition) ∈ (registry.insert name definition (.beside side anchor)).entries := by
    intro side anchor other present
    have among : anchor ∈ (registry.erase name).names := by
      rw [names_erase wellFormed.nodup_names]
      exact (List.mem_erase_of_ne other).mpr present
    apply (perm_insert_beside side wellFormed.nodup_names among).mem_iff.mpr
    exact List.mem_cons_self
  cases places with
  | own => exact mem_entries_insert_own.mpr (.inl rfl)
  | before other present => exact beside .before _ other present
  | after other present => exact beside .after _ other present

theorem insert_beside_congr {first second : Registry ρ} {name : String} (definition : Definition ρ)
    (side : Side) (anchor : String) (others : first.erase name = second.erase name) :
    first.insert name definition (.beside side anchor) =
      second.insert name definition (.beside side anchor) := by
  simp only [insert, others]

theorem insert_insert (registry : Registry ρ) (name : String) (definition : Definition ρ)
    (placement : Placement) :
    (registry.insert name definition placement).insert name definition placement =
      registry.insert name definition placement := by
  cases placement with
  | own =>
    have present : name ∈ (registry.insert name definition .own).names :=
      List.mem_map.mpr ⟨_, mem_entries_insert_own.mpr (.inl rfl), rfl⟩
    conv => lhs; rw [insert, if_pos (contains_iff.mpr present)]
    apply congrArg Registry.mk
    apply (List.map_congr_left ?_).trans (List.map_id _)
    intro entry entry_mem
    rcases mem_entries_insert_own.mp entry_mem with rfl | among
    · simp
    · simp [(mem_entries_erase.mp among).2]
  | beside side anchor =>
    apply insert_beside_congr
    apply erase_insert

/-- How a registration under a name, with the given anchors, changes the order of the names. -/
inductive Reordered (name : String) (names : List String) : Value → Value → List String → Prop
  | kept (registered : name ∈ names) : Reordered name names .null .null names
  | last (fresh : name ∉ names) : Reordered name names .null .null (names ++ [name])
  | before {anchor : String} {earlier later : List String}
    (others : names.erase name = earlier ++ anchor :: later) :
    Reordered name names (.text anchor) .null (earlier ++ name :: anchor :: later)
  | after {anchor : String} {earlier later : List String}
    (others : names.erase name = earlier ++ anchor :: later) :
    Reordered name names .null (.text anchor) (earlier ++ anchor :: name :: later)

/-- The order after a definition is put in the place that its anchors stand for. -/
theorem Places.reordered {registry : Registry ρ} {name : String} {before after : Value}
    {placement : Placement} (places : registry.Places name before after placement)
    (definition : Definition ρ) (nodup : registry.names.Nodup) :
    Reordered name registry.names before after
      (registry.insert name definition placement).names := by
  have split : ∀ side anchor, anchor ≠ name → anchor ∈ registry.names →
      ∃ earlier later, registry.names.erase name = earlier ++ anchor :: later ∧
        (registry.insert name definition (.beside side anchor)).names =
          earlier ++ ((if side = .before then [name, anchor] else [anchor, name]) ++ later) := by
    intro side anchor other present
    have among : anchor ∈ (registry.erase name).names := by
      rw [names_erase nodup]
      exact (List.mem_erase_of_ne other).mpr present
    rcases entries_insert_beside definition side nodup among with
      ⟨earlier, anchored, later, others, rfl, inserted⟩
    refine ⟨earlier.map (·.1), later.map (·.1), ?_, ?_⟩
    · rw [← names_erase nodup, names, others]
      simp
    · rw [names, inserted]
      cases side <;> simp
  cases places with
  | own =>
    by_cases present : name ∈ registry.names
    · rw [names_insert_own definition (contains_iff.mpr present)]
      exact .kept present
    · have appended : (registry.insert name definition .own).names = registry.names ++ [name] := by
        have fresh : registry.contains name = false := by simpa [contains] using present
        simp [insert, fresh, names]
      rw [appended]
      exact .last present
  | before other present =>
    rcases split .before _ other present with ⟨earlier, later, others, inserted⟩
    rw [inserted]
    exact .before others
  | after other present =>
    rcases split .after _ other present with ⟨earlier, later, others, inserted⟩
    rw [inserted]
    exact .after others

theorem runOn_register_of_check [Host] {registry : Registry ρ} {registration : Registration ρ}
    {definition : Definition ρ} {placement : Placement}
    (checked : registry.check registration = .ok (definition, placement)) (records : List Record) :
    (register registration).runOn ⟨registry, records⟩ =
      (.ok (), ⟨registry.insert definition.key definition placement,
        records ++ registry.registrationRecords definition.key placement⟩) := by
  simp [register, Action.runOn_bind, checked]

theorem check_of_register [Host] {registry : Registry ρ} {registration : Registration ρ}
    {records : List Record} {left : Traced (Registry ρ)}
    (registered : (register registration).runOn ⟨registry, records⟩ = (.ok (), left)) :
    ∃ definition placement, registry.check registration = .ok (definition, placement) ∧
      left.state = registry.insert definition.key definition placement := by
  rcases checked : registry.check registration with fault | ⟨definition, placement⟩
  · simp [register, Action.runOn_bind, checked] at registered
  · rw [runOn_register_of_check checked, Prod.mk.injEq] at registered
    rw [← registered.2]
    exact ⟨definition, placement, rfl, rfl⟩

theorem Places.insert {registry : Registry ρ} {name : String} {before after : Value}
    {placement : Placement} (places : registry.Places name before after placement)
    (definition : Definition ρ) :
    (registry.insert name definition placement).Places name before after placement := by
  have stays : ∀ anchor, anchor ≠ name → anchor ∈ registry.names →
      anchor ∈ (registry.insert name definition placement).names := by
    intro anchor other present
    rw [← contains_iff, ← contains_erase_of_ne _ other, erase_insert, contains_erase_of_ne _ other]
    exact contains_iff.mpr present
  cases places with
  | own => exact .own
  | before other present => exact .before other (stays _ other present)
  | after other present => exact .after other (stays _ other present)

/-- A registration that succeeds puts its definition in the place that its anchors ask for.  The
name is looked up as the definition, every other name keeps its definition and its order among the
others, and the same registration once more succeeds and changes nothing. -/
theorem register_reorders [Host] (operations : List (Operation ρ))
    (registration : Registration ρ) (traced : Traced (Registry ρ))
    (registered : (register registration).runFrom (afterAll operations) = (.ok (), traced)) :
    ∃ definition name, registration.base.toDefinition registration.changes = .ok definition ∧
      definition.name = .text name ∧
      Reordered name (afterAll operations).names registration.before registration.after
        traced.state.names ∧
      traced.state.lookup? name = some definition ∧
      (∀ other, other ≠ name → traced.state.lookup? other = (afterAll operations).lookup? other) ∧
      traced.state.names.erase name = (afterAll operations).names.erase name ∧
      ∃ records, (register registration).runFrom traced.state =
        (.ok (), ⟨traced.state, records⟩) := by
  have wellFormed := wellFormed_afterAll operations
  generalize afterAll operations = registry at *
  rcases check_of_register registered with ⟨definition, placement, checked, state_eq⟩
  rcases check_eq_ok_iff.mp checked with ⟨coerced, admitted, placed⟩
  have named := admitted.name_eq
  rw [named] at placed
  have places := place_eq_ok_iff.mp placed
  have nextWellFormed := wellFormed.insert placement named admitted
  refine ⟨definition, definition.key, coerced, named, ?_, ?_, ?_, ?_, ?_⟩
  · rw [state_eq]
    exact places.reordered definition wellFormed.nodup_names
  · rw [state_eq]
    exact places.lookup? wellFormed named admitted
  · intro other differs
    rw [state_eq]
    exact lookup?_insert_of_ne registry definition placement differs
  · rw [state_eq, ← names_erase nextWellFormed.nodup_names, erase_insert,
      names_erase wellFormed.nodup_names]
  · have again : traced.state.check registration = .ok (definition, placement) := by
      apply check_eq_ok_iff.mpr
      refine ⟨coerced, admitted, ?_⟩
      rw [named, state_eq]
      exact place_eq_ok_iff.mpr (places.insert definition)
    have unchanged : traced.state.insert definition.key definition placement = traced.state := by
      rw [state_eq, insert_insert]
    have run := runOn_register_of_check again []
    rw [unchanged] at run
    exact ⟨_, run⟩

attribute [local instance] Host.standard

/-- A transform that is there moves next to the anchor of its new registration. -/
theorem register_reorders_moved :
    let operations : List (Operation Unit) := ["mark", "note", "rule"].map fun name =>
      .register
        { base := .definition { name := .text name, pattern := .text "=", render := .custom () } }
    let moved : Definition Unit :=
      { name := .text "mark", pattern := .text "~", render := .custom () }
    let registration : Registration Unit := { base := .definition moved, after := .text "note" }
    ∃ traced, (register registration).runFrom (afterAll operations) = (.ok (), traced) ∧
      traced.state.names = ["note", "mark", "rule"] ∧
      Reordered "mark" ["mark", "note", "rule"] .null (.text "note") traced.state.names ∧
      traced.state.lookup? "mark" = some moved ∧
      ∃ records, (register registration).runFrom traced.state =
        (.ok (), ⟨traced.state, records⟩) := by
  intro operations moved registration
  have order : (afterAll operations).names = ["mark", "note", "rule"] := by decide +kernel
  have succeeds : ((register registration).runFrom (afterAll operations)).1.isOk = true := by
    decide +kernel
  have moves : ((register registration).runFrom (afterAll operations)).2.state.names =
      ["note", "mark", "rule"] := by decide +kernel
  rcases registered : (register registration).runFrom (afterAll operations) with ⟨fault | _, traced⟩
  · simp [registered, Except.isOk, Except.toBool] at succeeds
  rw [registered] at moves
  rcases register_reorders operations registration traced registered with
    ⟨definition, name, coerced, named, reordered, found, -, -, again⟩
  cases coerced
  cases named
  rw [order] at reordered
  exact ⟨traced, rfl, moves, reordered, found, again⟩

end Registry

end Markflow
