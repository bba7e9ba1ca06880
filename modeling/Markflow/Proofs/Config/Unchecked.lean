import Markflow.CommandLine.Run
import Markflow.Proofs.Pattern.Letters
import Markflow.Proofs.Registry.Refusal

/-!
# What nothing checks in a configuration

Making a converter fails with a fault that is reported as one of the configuration, or with another
one, which ends the run.  `Unchecked` lists the parts of a configuration that lead to the other
ones: keys that are no texts, paths of render functions that are relative or whose import fails in a
way of its own, flags and tags that cannot be read item by item, anchors that cannot be looked up,
and patterns whose modes exclude each other, whose repetition is too large or which are beyond a
limit.  A configuration without such a part makes a converter or has a fault that is reported
(`known_or_unchecked_of_build`).
-/

namespace Markflow

open CommandLine (isConfigurationFault)

/-- Whether a value can be read item by item. -/
def Value.isIterable : Value → Bool
  | .text _ | .list _ | .table _ | .bag _ _ _ => true
  | _ => false

namespace Config

variable {ρ : Type}

/-- A part of a transform of a configuration that nothing checks. -/
inductive UncheckedTransform [Host] (catalogue : Catalogue ρ) (entries : Entries) : Prop
  | key {entry : Value × Value} (mem : entry ∈ entries) (noText : entry.1.isText = false)
  | render {path : String} (given : entries.find? "render" = some (.text path))
    (relative : path.toList.head? = some '.')
  | importing {path kind message : String} (given : entries.find? "render" = some (.text path))
    (raises : catalogue.find path = .error (.raised kind message))
  | flags {value : Value} (given : entries.find? "flags" = some value) (isSet : value.isSet = true)
    (noItems : value.isIterable = false)
  | tags {value : Value} (given : entries.find? "tags" = some value) (notNull : value ≠ .null)
    (noItems : value.isIterable = false)
  | anchor {side : Side} {value : Value} {fault : Fault}
      (given : entries.find? side.label = some value)
    (noKey : value.asKey = .error fault)
  | pattern {source : String} {flags : Flags} {owner : Value} {fault : Fault}
    (given : entries.find? "pattern" = some (.text source))
    (chosen : Flags.read ((entries.find? "flags").getD .null) = .ok flags)
    (unread : Pattern.compile (.text source) (.text flags.letters) owner = .error fault)
    (cause : fault = .clashingModes ∨ fault = .repeatTooLarge ∨ ∃ limit, fault = .excess limit)

/-- A part of a configuration that nothing checks. -/
inductive Unchecked [Host] (catalogue : Catalogue ρ) (config : Entries) : Prop
  | key {entry : Value × Value} (mem : entry ∈ config) (noText : entry.1.isText = false)
  | transform {transforms : List Value} {entries : Entries}
    (given : config.find? "transforms" = some (.list transforms))
    (mem : .table entries ∈ transforms) (unchecked : UncheckedTransform catalogue entries)

theorem text_beq_iff {value : Value} {text : String} :
    (Value.text text == value) = true ↔ value = .text text := by
  cases value <;> simp [BEq.beq, Value.same, eq_comm]

theorem text_beq_eq_false_iff {value : Value} {text : String} :
    (Value.text text == value) = false ↔ value ≠ .text text := by
  rw [Ne, ← text_beq_iff, Bool.not_eq_true]

/-- Taking out other keys does not change what a key stands for. -/
theorem find?_without {entries : Entries} {keys : List String} {key : String} (kept : key ∉ keys) :
    (entries.without keys).find? key = entries.find? key := by
  induction entries with
  | nil => rfl
  | cons entry entries ih =>
    rcases entry with ⟨name, value⟩
    have below (isKey : name ≠ .text key) (entries : Entries) :
        Entries.find? ((name, value) :: entries) key = entries.find? key := by
      simp [Entries.find?, List.lookup_cons, text_beq_eq_false_iff.mpr isKey]
    by_cases isKey : name = .text key
    · have stays : (!keys.any fun other => name == Value.text other) = true := by
        rw [Bool.not_eq_true', List.any_eq_false]
        intro other other_mem same
        cases isKey.symm.trans (Value.beq_text_iff.mp same)
        exact kept other_mem
      simp only [Entries.without, List.filter_cons, stays, if_true, Entries.find?, List.lookup_cons,
        text_beq_iff.mpr isKey]
    · rw [below isKey, ← ih, Entries.without, List.filter_cons]
      split
      · exact below isKey _
      · rfl

section Read

variable {fault : Fault}

theorem exists_noText_of_firstNoText? {keys : List Value} {start position : Nat} {kind : String}
    (found : firstNoText? start keys = some (position, kind)) :
    ∃ key ∈ keys, key.isText = false := by
  induction keys generalizing start with
  | nil => simp [firstNoText?] at found
  | cons key keys ih =>
    cases key with
    | text name =>
      rcases ih (by simpa [firstNoText?] using found) with ⟨key, key_mem, noText⟩
      exact ⟨key, List.mem_cons_of_mem _ key_mem, noText⟩
    | _ => exact ⟨_, List.mem_cons_self, rfl⟩

theorem exists_noText_of_texts {items : List Value} (failed : texts items = .error fault) :
    ∃ item ∈ items, item.isText = false := by
  unfold texts at failed
  split at failed
  · next found => exact exists_noText_of_firstNoText? found
  · cases failed

theorem exists_noText_of_sortedKeys {keys : List Value} (failed : sortedKeys keys = .error fault) :
    ∃ key ∈ keys, key.isText = false := by
  unfold sortedKeys at failed
  split at failed
  · next found => exact ⟨_, List.mem_of_find?_eq_some found, by simpa using List.find?_some found⟩
  · rcases read : texts keys with cause | names
    · exact exists_noText_of_texts read
    · rw [read] at failed
      cases failed

theorem flagFault_of_itemLetters {item : Value} (failed : Flags.itemLetters item = .error fault) :
    ∃ cause, fault = .pattern (.flags cause) := by
  cases item with
  | text item =>
    simp only [Flags.itemLetters] at failed
    split at failed <;> cases failed
  | _ =>
    cases failed
    exact ⟨_, rfl⟩

/-- A list that cannot be gone through fails at one of its items. -/
theorem exists_error_of_mapM {α β : Type} {f : α → Except Fault β} {items : List α}
    (failed : items.mapM f = .error fault) : ∃ item ∈ items, f item = .error fault := by
  induction items with
  | nil => cases failed
  | cons item items ih =>
    rw [List.mapM_cons] at failed
    rcases bind_eq_error_iff.mp failed with here | ⟨_, -, failed⟩
    · exact ⟨item, List.mem_cons_self, here⟩
    · rcases ih (error_of_bind (fun _ => ⟨_, rfl⟩) failed) with ⟨other, other_mem, there⟩
      exact ⟨other, List.mem_cons_of_mem _ other_mem, there⟩

theorem flagFault_of_gather {α : Type} (value : α → Value) {items : List α}
    (failed : List.flatten <$> items.mapM (fun item => Flags.itemLetters (value item)) =
      .error fault) :
    ∃ cause, fault = .pattern (.flags cause) := by
  rcases exists_error_of_mapM (map_eq_error_iff.mp failed) with ⟨item, -, there⟩
  exact flagFault_of_itemLetters there

theorem flagFault_of_ofLetters {letters : List Char}
    (failed : Flags.ofLetters letters = .error fault) :
    ∃ cause, fault = .pattern (.flags cause) := by
  rcases exists_error_of_mapM (map_eq_error_iff.mp failed) with ⟨letter, -, there⟩
  split at there <;> cases there
  exact ⟨_, rfl⟩

theorem flagFault_or_noItems_of_read {value : Value} (failed : Flags.read value = .error fault) :
    (∃ cause, fault = .pattern (.flags cause)) ∨ value.isSet = true ∧ value.isIterable = false := by
  unfold Flags.read at failed
  split at failed
  case isFalse => cases failed
  case isTrue isSet =>
    rcases bind_eq_error_iff.mp failed with denoted | ⟨letters, -, failed⟩
    · cases value with
      | text letters => cases denoted
      | list items => exact .inl (flagFault_of_gather id denoted)
      | table entries => exact .inl (flagFault_of_gather Prod.fst denoted)
      | bag kind written items => exact .inl (flagFault_of_gather id denoted)
      | _ => exact .inr ⟨isSet, rfl⟩
    · exact .inl (flagFault_of_ofLetters failed)

theorem noItems_of_readTags {value : Value} (failed : Definition.readTags value = .error fault) :
    value.isIterable = false := by
  cases value <;> simp [Definition.readTags, Value.isIterable] at failed ⊢

theorem head?_of_splitPath {path rest names : List Char} {first : Char}
    (split : Catalogue.splitPath path = some (first :: rest, names)) : path.head? = some first := by
  unfold Catalogue.splitPath at split
  split at split
  · simp only [Option.some.injEq, Prod.mk.injEq] at split
    rw [← List.takeWhile_append_dropWhile (p := (· != ':')) (l := path), split.1]
    rfl
  · cases split

theorem known_or_raised_of_refusal (path : String) (cause : ImportFault) :
    isConfigurationFault (Catalogue.refusal path cause) = true ∨
      ∃ kind message, Catalogue.refusal path cause = .raised kind message := by
  cases cause with
  | raised kind message =>
    rw [Catalogue.refusal]
    split
    · exact .inl rfl
    · exact .inr ⟨kind, message, rfl⟩
  | _ => exact .inl rfl

theorem known_or_unimported_of_find {catalogue : Catalogue ρ} {path : String}
    (failed : catalogue.find path = .error fault) :
    isConfigurationFault fault = true ∨ path.toList.head? = some '.' ∨
      ∃ kind message, fault = .raised kind message := by
  unfold Catalogue.find at failed
  split at failed
  · next first rest name names split =>
    by_cases isDot : first = '.'
    · exact .inr (.inl ((head?_of_splitPath split).trans (congrArg some isDot)))
    · simp only [beq_iff_eq, isDot, if_false] at failed
      split at failed
      · split at failed <;> cases failed
        exact .inl rfl
      · next cause _ =>
        cases failed
        exact (known_or_raised_of_refusal path cause).imp_right .inr
  · cases failed
    exact .inl rfl

theorem known_or_unread_of_compile [Host] {source owner : Value} {letters : String}
    (failed : Pattern.compile source (.text letters) owner = .error fault) :
    isConfigurationFault fault = true ∨
      ∃ text, source = .text text ∧
        (fault = .clashingModes ∨ fault = .repeatTooLarge ∨ ∃ limit, fault = .excess limit) := by
  cases source with
  | text source =>
    simp only [Pattern.compile] at failed
    rcases read : Flags.read (.text letters) with cause | flags
    · rcases flagFault_or_noItems_of_read read with ⟨cause, rfl⟩ | ⟨-, noItems⟩
      · rw [read] at failed
        cases failed
        exact .inl rfl
      · cases noItems
    · simp only [read, Pattern.ofFlags] at failed
      split at failed <;> cases failed
      · exact .inl rfl
      · exact .inr ⟨source, rfl, .inl rfl⟩
      · exact .inr ⟨source, rfl, .inr (.inl rfl)⟩
      · exact .inr ⟨source, rfl, .inr (.inr ⟨_, rfl⟩)⟩
  | _ =>
    cases failed
    exact .inl rfl

theorem known_or_noKey_of_placeBeside {registry : Registry ρ} {name anchor : Value} {side : Side}
    (failed : registry.placeBeside name side anchor = .error fault) :
    isConfigurationFault fault = true ∨ anchor.asKey = .error fault := by
  rcases bind_eq_error_iff.mp failed with noKey | ⟨other, -, failed⟩
  · exact .inr noKey
  · split at failed
    · split at failed <;> cases failed
      exact .inl rfl
    · cases failed
      exact .inl rfl

theorem known_or_noKey_of_place {registry : Registry ρ} {name before after : Value}
    (failed : registry.place name before after = .error fault) :
    isConfigurationFault fault = true ∨ before.asKey = .error fault ∨
      after.asKey = .error fault := by
  unfold Registry.place at failed
  split at failed
  · cases failed
  · exact (known_or_noKey_of_placeBeside failed).imp_right .inl
  · exact (known_or_noKey_of_placeBeside failed).imp_right .inr
  · cases failed
    exact .inl rfl

/-- A field that is absent or null has the value that stands for it. -/
theorem getSetD_cases (fields : Fields ρ) (key : String) (absent : Value) :
    fields.getSetD key absent = absent ∧ (fields.entries.find? key).getD .null = .null ∨
      ∃ value, fields.entries.find? key = some value ∧ value ≠ .null ∧
        fields.getSetD key absent = value := by
  unfold Fields.getSetD Fields.getD
  rcases fields.entries.find? key with _ | value
  · exact .inl ⟨rfl, rfl⟩
  · cases value with
    | null => exact .inl ⟨rfl, rfl⟩
    | _ => exact .inr ⟨_, rfl, by simp, rfl⟩

/-- The fields of a transform of a configuration. -/
def fieldsOf (entries : Entries) (render : Option (Render ρ)) : Fields ρ :=
  ⟨entries.without ("render" :: placementKeys), render⟩

theorem find?_fieldsOf {entries : Entries} {render : Option (Render ρ)} {key : String}
    (isField : key ∈ Fields.known) :
    (fieldsOf entries render).entries.find? key = entries.find? key := by
  apply find?_without
  intro placed
  have apart : ∀ key ∈ Fields.known, key ∉ "render" :: placementKeys := by decide
  exact apart key isField placed

theorem known_or_noItems_of_make {name pattern description usage flags tags : Value}
    {render : Render ρ}
    (failed : Definition.make name pattern render description usage flags tags = .error fault) :
    isConfigurationFault fault = true ∨ (flags.isSet = true ∧ flags.isIterable = false) ∨
      tags.isIterable = false := by
  unfold Definition.make at failed
  rcases read : Flags.read flags with cause | chosen
  · rcases flagFault_or_noItems_of_read read with ⟨cause, rfl⟩ | noItems
    · rw [read] at failed
      cases failed
      exact .inl rfl
    · exact .inr (.inl noItems)
  · rw [read] at failed
    exact .inr (.inr (noItems_of_readTags (error_of_bind (fun _ => ⟨_, rfl⟩) failed)))

variable {catalogue : Catalogue ρ} {entries : Entries} {render : Option (Render ρ)}

theorem known_or_unchecked_of_ofFields [Host]
    (failed : Definition.ofFields (fieldsOf entries render) = .error fault) :
    isConfigurationFault fault = true ∨ UncheckedTransform catalogue entries := by
  unfold Definition.ofFields at failed
  by_cases allKnown : (fieldsOf entries render).unknown.isEmpty = true
  · simp only [allKnown, Bool.not_true, Bool.false_eq_true, if_false] at failed
    rcases known_or_noItems_of_make failed with known | ⟨isSet, noItems⟩ | noItems
    · exact .inl known
    · right
      rcases getSetD_cases (fieldsOf entries render) "flags" (.text Flags.default.letters) with
        ⟨same, -⟩ | ⟨value, given, -, same⟩
      · rw [same] at noItems
        cases noItems
      · rw [same] at noItems isSet
        exact .flags ((find?_fieldsOf (by decide)).symm.trans given) isSet noItems
    · right
      rcases getSetD_cases (fieldsOf entries render) "tags" (.list []) with ⟨same, -⟩
        | ⟨value, given, notNull, same⟩
      · rw [same] at noItems
        cases noItems
      · rw [same] at noItems
        exact .tags ((find?_fieldsOf (by decide)).symm.trans given) notNull noItems
  · simp only [allKnown, Bool.not_false, if_true] at failed
    rcases bind_eq_error_iff.mp failed with unsorted | ⟨_, -, failed⟩
    · rcases exists_noText_of_sortedKeys unsorted with ⟨key, key_mem, noText⟩
      rcases List.mem_map.mp key_mem with ⟨entry, entry_mem, rfl⟩
      exact .inr (.key (List.mem_of_mem_filter (List.mem_of_mem_filter entry_mem)) noText)
    · cases failed
      exact .inl rfl

theorem pattern_of_make {name pattern description usage flags tags : Value} {render : Render ρ}
    {d : Definition ρ}
    (made : Definition.make name pattern render description usage flags tags = .ok d) :
    d.pattern = pattern := by
  unfold Definition.make at made
  split at made
  · rcases bind_eq_ok_iff.mp made with ⟨tags, -, same⟩
    cases same
    rfl
  all_goals cases made

/-- What a definition that is made of a transform's fields has of them. -/
theorem of_ofFields {d : Definition ρ}
    (made : Definition.ofFields (fieldsOf entries render) = .ok d) :
    d.pattern = (entries.find? "pattern").getD (.text "") ∧
      Flags.read ((entries.find? "flags").getD .null) = .ok d.flags := by
  unfold Definition.ofFields at made
  by_cases allKnown : (fieldsOf entries render).unknown.isEmpty = true
  · simp only [allKnown, Bool.not_true, Bool.false_eq_true, if_false] at made
    have flags_eq := Definition.of_make made
    have pattern_eq := pattern_of_make made
    rw [Fields.getD, find?_fieldsOf (by decide)] at pattern_eq
    refine ⟨pattern_eq, ?_⟩
    rcases getSetD_cases (fieldsOf entries render) "flags" (.text Flags.default.letters) with
      ⟨same, absent⟩ | ⟨value, given, -, same⟩
    · rw [find?_fieldsOf (by decide)] at absent
      rw [same] at flags_eq
      rw [absent]
      exact flags_eq
    · rw [find?_fieldsOf (by decide)] at given
      rw [same] at flags_eq
      rwa [given]
  · simp only [allKnown, Bool.not_false, if_true] at made
    rcases bind_eq_ok_iff.mp made with ⟨_, -, impossible⟩
    cases impossible

theorem known_of_validate {d : Definition ρ} (failed : d.validate = .error fault) :
    isConfigurationFault fault = true := by
  unfold Definition.validate at failed
  repeat' split at failed
  all_goals cases failed
  all_goals rfl

theorem isSet_of_validate {d : Definition ρ} (valid : d.validate = .ok ()) :
    d.pattern.isSet = true := by
  rw [← Bool.not_eq_false]
  intro notSet
  simp only [Definition.validate, notSet, Bool.not_false, if_true] at valid
  split at valid <;> cases valid

theorem known_or_unchecked_of_compile [Host] {d : Definition ρ}
    (made : Definition.ofFields (fieldsOf entries render) = .ok d)
    (valid : d.validate = .ok ()) (unread : d.compile = .error fault) :
    isConfigurationFault fault = true ∨ UncheckedTransform catalogue entries := by
  rcases of_ofFields made with ⟨pattern_eq, flags_eq⟩
  rcases known_or_unread_of_compile unread with known | ⟨source, source_eq, clash⟩
  · exact .inl known
  have given : entries.find? "pattern" = some (.text source) := by
    rcases found : entries.find? "pattern" with _ | value
    · rw [found] at pattern_eq
      have isSet := isSet_of_validate valid
      rw [pattern_eq] at isSet
      cases isSet
    · rw [found, source_eq] at pattern_eq
      exact congrArg some pattern_eq.symm
  rw [Definition.compile, source_eq] at unread
  exact .inr (.pattern given flags_eq unread clash)

theorem uncheckedTransform_of_asKey [Host] (side : Side)
    (noKey : ((entries.find? side.label).getD .null).asKey = .error fault) :
    UncheckedTransform catalogue entries := by
  rcases given : entries.find? side.label with _ | value
  · rw [given] at noKey
    cases noKey
  · rw [given] at noKey
    exact .anchor given noKey

theorem known_or_unchecked_of_check [Host] {registry : Registry ρ}
    (failed :
      registry.check ⟨.fields (fieldsOf entries render), {}, (entries.find? "before").getD .null,
      (entries.find? "after").getD .null⟩ = .error fault) :
    isConfigurationFault fault = true ∨ UncheckedTransform catalogue entries := by
  rcases bind_eq_error_iff.mp failed with unmade | ⟨d, made, failed⟩
  · exact known_or_unchecked_of_ofFields unmade
  rcases bind_eq_error_iff.mp failed with invalid | ⟨_, valid, failed⟩
  · exact .inl (known_of_validate invalid)
  rcases bind_eq_error_iff.mp failed with unread | ⟨_, -, failed⟩
  · exact known_or_unchecked_of_compile made valid unread
  rcases known_or_noKey_of_place (error_of_bind (fun _ => ⟨_, rfl⟩) failed) with
    known | before | after
  · exact .inl known
  · exact .inr (uncheckedTransform_of_asKey .before before)
  · exact .inr (uncheckedTransform_of_asKey .after after)

theorem known_or_unchecked_of_registration [Host]
    (failed : registration catalogue entries = .error fault) :
    isConfigurationFault fault = true ∨ UncheckedTransform catalogue entries := by
  have unfound := error_of_bind (fun _ => ⟨_, rfl⟩) failed
  rcases given : entries.find? "render" with _ | value
  · rw [given] at unfound
    cases unfound
  · cases value with
    | text path =>
      rw [given] at unfound
      have absent := error_of_bind (fun _ => ⟨_, rfl⟩) unfound
      rcases known_or_unimported_of_find absent with known | relative | ⟨kind, message, rfl⟩
      · exact .inl known
      · exact .inr (.render given relative)
      · exact .inr (.importing given absent)
    | _ =>
      rw [given] at unfound
      cases unfound

/-- A registration that a transform of a configuration describes. -/
theorem exists_of_registration {added : Registration ρ}
    (read : registration catalogue entries = .ok added) :
    ∃ render, added = ⟨.fields (fieldsOf entries render), {}, (entries.find? "before").getD .null,
      (entries.find? "after").getD .null⟩ := by
  rcases bind_eq_ok_iff.mp read with ⟨render, -, same⟩
  cases same
  exact ⟨render, rfl⟩

variable [Host]

theorem check_eq_error_of_register {registry : Registry ρ} {added : Registration ρ}
    {records : List Record} {left : Traced (Registry ρ)}
    (failed : (Registry.register added).runOn ⟨registry, records⟩ = (.error fault, left)) :
    registry.check added = .error fault := by
  rcases checked : registry.check added with cause | ⟨d, placement⟩
  · rw [Registry.runOn_register_of_error checked] at failed
    cases failed
    rfl
  · rw [Registry.runOn_register_of_check checked] at failed
    cases failed

theorem known_or_unchecked_of_registerFrom {transforms : List Value} {index : Nat}
    {traced left : Traced (Converter ρ)}
    (failed : (registerFrom catalogue index transforms).runOn traced = (.error fault, left)) :
    isConfigurationFault fault = true ∨ ∃ entries,
      .table entries ∈ transforms ∧ UncheckedTransform catalogue entries := by
  induction transforms generalizing index traced with
  | nil => simp [registerFrom] at failed
  | cons value transforms ih =>
    cases value with
    | table entries =>
      have here (unchecked : UncheckedTransform catalogue entries) :
          ∃ others, .table others ∈ .table entries :: transforms ∧
            UncheckedTransform catalogue others :=
        ⟨entries, List.mem_cons_self, unchecked⟩
      rcases Action.runOn_bind_eq_error failed with unread | ⟨added, between, read, failed⟩
      · rw [Action.runOn_ofExcept, Prod.mk.injEq] at unread
        exact (known_or_unchecked_of_registration unread.1).imp_right here
      rw [Action.runOn_ofExcept, Prod.mk.injEq] at read
      rcases Action.runOn_bind_eq_error failed with refused | ⟨_, stop, -, failed⟩
      · rw [runOn_onRegistry, Prod.mk.injEq] at refused
        rcases exists_of_registration read.1 with ⟨render, rfl⟩
        exact
          (known_or_unchecked_of_check
            (check_eq_error_of_register (Prod.ext refused.1 rfl))).imp_right here
      · rcases ih failed with known | ⟨others, others_mem, unchecked⟩
        · exact .inl known
        · exact .inr ⟨others, List.mem_cons_of_mem _ others_mem, unchecked⟩
    | _ =>
      simp only [registerFrom, Action.runOn_throw, Prod.mk.injEq, Except.error.injEq] at failed
      rw [← failed.1]
      exact .inl rfl

end Read

/-- Options that are not valid are refused as such. -/
theorem invalid_of_make {display : Value} {items : List Value} {fault : Fault}
    (failed : Options.make display (.list items) = .error fault) :
    ∃ cause, fault = .invalid cause := by
  rcases bind_eq_error_iff.mp failed with unshown | ⟨_, -, failed⟩
  · unfold Display.read at unshown
    split at unshown <;> cases unshown
    exact ⟨_, rfl⟩
  have unread := error_of_bind (fun _ => ⟨_, rfl⟩) failed
  simp only [Options.readDisabled, pure_bind] at unread
  split at unread <;> cases unread
  exact ⟨_, rfl⟩

variable [Host] {catalogue : Catalogue ρ}

theorem known_or_unchecked_of_options {config : Entries} {disable : List Value} {fault : Fault}
    (failed : options config disable = .error fault) :
    isConfigurationFault fault = true ∨ Unchecked catalogue config := by
  unfold options at failed
  by_cases allKnown : (config.without keys).isEmpty = true
  · simp only [allKnown, Bool.not_true, Bool.false_eq_true, if_false] at failed
    left
    split at failed
    · split at failed
      · cases failed
        rfl
      · rcases invalid_of_make failed with ⟨cause, rfl⟩
        rfl
    · cases failed
      rfl
  · simp only [allKnown, Bool.not_false, if_true] at failed
    rcases bind_eq_error_iff.mp failed with unsorted | ⟨_, -, failed⟩
    · rcases exists_noText_of_sortedKeys unsorted with ⟨key, key_mem, noText⟩
      rcases List.mem_map.mp key_mem with ⟨entry, entry_mem, rfl⟩
      exact .inr (.key (List.mem_of_mem_filter entry_mem) noText)
    · cases failed
      exact .inl rfl

theorem build_eq_error {config : Entries} {disable : List Value} {fault : Fault}
    (failed : (build catalogue config disable).1 = .error fault) :
    options config disable = .error fault ∨
      ∃ chosen left, (install catalogue config).runOn ⟨.blank chosen, []⟩ =
        (.error fault, left) := by
  delta build at failed
  revert failed
  -- The installation is a variable of the lemma that is made here, else the kernel runs it.
  generalize install catalogue config = action
  as_aux_lemma =>
    rcases options config disable with cause | chosen
    · rintro ⟨⟩
      exact .inl rfl
    rcases ran : action.runOn ⟨.blank chosen, []⟩ with ⟨cause | _, left⟩ <;>
      simp only [Action.runFrom_eq_runOn, ran, Except.map] <;> rintro ⟨⟩
    exact .inr ⟨chosen, left, ran⟩

/-- A configuration makes no converter for a reason that is reported, or because of a part of it
that nothing checks. -/
theorem known_or_unchecked_of_build {config : Entries} {disable : List Value} {fault : Fault}
    (failed : (build catalogue config disable).1 = .error fault) :
    isConfigurationFault fault = true ∨ Unchecked catalogue config := by
  rcases build_eq_error failed with unset | ⟨chosen, left, ran⟩
  · exact known_or_unchecked_of_options unset
  rcases Action.runOn_bind_eq_error ran with impossible | ⟨_, between, -, ran⟩
  · rcases Converter.gives_install chosen [] with ⟨records, gives⟩
    cases gives.symm.trans impossible
  · split at ran
    · next transforms listed =>
      rcases known_or_unchecked_of_registerFrom ran with known | ⟨entries, entries_mem, unchecked⟩
      · exact .inl known
      · right
        rcases given : config.find? "transforms" with _ | value
        · rw [given] at listed
          cases listed
          cases entries_mem
        · rw [given] at listed
          cases listed
          exact .transform given entries_mem unchecked
    · cases ran
      exact .inl rfl

/-- Without a configuration there is always a converter. -/
theorem build_ne_error_of_nothing (names : List String) (fault : Fault) :
    (build catalogue [] (names.map .text)).1 ≠ .error fault := by
  intro failed
  rcases build_eq_error failed with unset | ⟨chosen, left, ran⟩
  · have areTexts : (names.map Value.text).all Value.isText = true := by
      simp [List.all_eq_true, Value.isText]
    have set :
        options [] (names.map .text) =
          .ok { disabled := (names.map Value.text).map Value.shown } := by
      simp [options, Entries.without, Entries.find?, Options.make, Options.readDisabled,
        Display.read, Display.name, areTexts, bind, Except.bind, pure, Except.pure]
    cases set.symm.trans unset
  · rcases Action.runOn_bind_eq_error ran with impossible | ⟨_, between, -, ran⟩
    · rcases Converter.gives_install chosen [] with ⟨records, gives⟩
      cases gives.symm.trans impossible
    · cases ran

end Config

end Markflow
