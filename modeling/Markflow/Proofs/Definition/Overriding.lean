import Markflow.Proofs.Config.Unchecked

/-!
# Two ways to override fields

A definition is changed by an update of it, or by making a definition anew of its fields with the
changes put in.  The second way looks for unknown fields by itself and fills in what is null, which
the first does not, so the two part where this matters (`Definition.Parted`).  Everywhere else they
come to the same, failures included (`Definition.overrides_agree`).
-/

namespace Markflow

variable {ρ : Type}

namespace Entries

theorem any_key_iff {entries : Entries} {name : String} :
    entries.any (·.1 == .text name) = true ↔ .text name ∈ entries.map (·.1) := by
  simp only [List.any_eq_true, List.mem_map, Value.beq_text_iff]

theorem mem_keys_set {entries : Entries} {name : String} {value key : Value} :
    key ∈ (entries.set (.text name) value).map (·.1) ↔
      key ∈ entries.map (·.1) ∨ key = .text name := by
  unfold set
  split
  case isTrue present =>
    rw [any_key_iff] at present
    -- Only the value of an entry changes.
    rw [List.map_map, List.map_congr_left (g := (·.1)), iff_self_or]
    · rintro rfl
      exact present
    · rintro ⟨k, v⟩ -
      simp only [Function.comp_apply]
      split <;> rfl
  case isFalse absent =>
    simp

/-- Entries whose keys are names. -/
def named (changes : List (String × Value)) : Entries :=
  changes.map fun change => (.text change.1, change.2)

theorem mem_keys_merge {entries : Entries} {changes : List (String × Value)} {key : Value} :
    key ∈ (entries.merge (named changes)).map (·.1) ↔
      key ∈ entries.map (·.1) ∨ ∃ name ∈ changes.map (·.1), key = .text name := by
  induction changes generalizing entries with
  | nil => simp [merge, named]
  | cons change changes ih =>
    have step : entries.merge (named (change :: changes)) =
        (entries.set (.text change.1) change.2).merge (named changes) :=
      rfl
    rw [step, ih, mem_keys_set, or_assoc]
    simp

theorem exists_find?_of_mem {entries : Entries} {name : String}
    (mem : .text name ∈ entries.map (·.1)) :
    ∃ value, entries.find? name = some value := by
  induction entries with
  | nil => simp at mem
  | cons entry entries ih =>
    rcases entry with ⟨key, value⟩
    by_cases isKey : key = .text name
    · exact ⟨value, by simp [find?, List.lookup_cons, Config.text_beq_iff.mpr isKey]⟩
    · have later : .text name ∈ entries.map (·.1) := by
        simpa [Ne.symm isKey] using mem
      rcases ih later with ⟨other, found⟩
      refine ⟨other, ?_⟩
      rw [← found]
      simp [find?, List.lookup_cons, Config.text_beq_eq_false_iff.mpr isKey]

theorem mem_keys_without {entries : Entries} {names : List String} {key : Value} :
    key ∈ (entries.without names).map (·.1) ↔ key ∈ entries.map (·.1) ∧ ∀ name ∈ names,
      key ≠ .text name := by
  simp only [without, List.mem_map, List.mem_filter, Bool.not_eq_true', List.any_eq_false,
    Value.beq_text_iff]
  constructor
  · rintro ⟨entry, ⟨mem, other⟩, rfl⟩
    exact ⟨⟨entry, mem, rfl⟩, other⟩
  · rintro ⟨⟨entry, mem, rfl⟩, other⟩
    exact ⟨entry, ⟨mem, other⟩, rfl⟩

end Entries

/-- A value, or what stands for it when it is null. -/
def Value.filled (value absent : Value) : Value :=
  match value with
  | .null => absent
  | value => value

theorem Value.filled_eq_iff {absent value : Value} (given : absent ≠ .null) :
    value.filled absent = value ↔ value ≠ .null := by
  cases value <;> simp [filled, given]

namespace Fields

/-- Fields that are given by name, and maybe a render function, which is given apart from the
others. -/
def named (changes : List (String × Value)) (render : Option (Render ρ)) : Fields ρ where
  entries := Entries.named changes
  render := render

theorem eq_empty_of_isEmpty {fields : Fields ρ} (noField : fields.isEmpty = true) :
    fields = {} := by
  rcases fields with ⟨entries, render⟩
  rcases Bool.and_eq_true_iff.mp noField with ⟨noEntries, noRender⟩
  cases List.isEmpty_iff.mp noEntries
  cases Option.isNone_iff_eq_none.mp noRender
  rfl

/-- The keys of the entries that are no fields of a definition. -/
def unknownKeys (fields : Fields ρ) : List Value :=
  fields.unknown.map (·.1)

theorem mem_unknownKeys {fields : Fields ρ} {key : Value} :
    key ∈ fields.unknownKeys ↔ key ∈ fields.entries.map (·.1) ∧ ∀ name ∈ known, key ≠ .text name :=
  Entries.mem_keys_without

theorem unknown_eq_nil_iff {fields : Fields ρ} :
    fields.unknown = [] ↔ ∀ key, key ∉ fields.unknownKeys := by
  rw [← List.eq_nil_iff_forall_not_mem, unknownKeys, List.map_eq_nil_iff]

end Fields

/-- A field that is null makes a difference: where it is not filled in no definition can be made, or
another one. -/
inductive Fields.NullMatters (fields : Fields ρ) : Prop
  | tags {chosen : Flags} (read : Flags.read (fields.getD "flags" .null) = .ok chosen)
      (isNull : fields.getD "tags" .null = .null)
  | text {key : String} {chosen : Flags} {labels : List Value}
      (read : Flags.read (fields.getD "flags" .null) = .ok chosen)
      (labelled : Definition.readTags (fields.getD "tags" .null) = .ok labels)
      (isText : key = "description" ∨ key = "usage") (isNull : fields.getD key .null = .null)

namespace Definition

section Make

variable {name pattern description usage flags tags : Value} {render : Render ρ}

theorem read_filled (flags : Value) :
    Flags.read (flags.filled (.text Flags.default.letters)) = Flags.read flags := by
  cases flags <;> rfl

theorem make_of_read {chosen : Flags} (read : Flags.read flags = .ok chosen) :
    make name pattern render description usage flags tags =
      (readTags tags).map fun tags =>
        { name, pattern, render, description, usage, flags := chosen, tags } := by
  unfold make
  rw [read]
  cases readTags tags <;> rfl

/-- Where the flags cannot be read, it does not matter what is said about a transform. -/
theorem make_of_unread {description' usage' flags' tags' : Value} {fault : Fault}
    (unread : Flags.read flags = .error fault) (same : Flags.read flags' = Flags.read flags) :
    make name pattern render description usage flags tags =
      make name pattern render description' usage' flags' tags' := by
  unfold make
  rw [same, unread]
  split
  · next impossible => cases impossible
  · rfl
  · rfl

/-- Filling in what is null matters where a definition can be made with it and shows it, or cannot
be made without. -/
theorem make_filled_eq_iff :
    make name pattern render (description.filled (.text "")) (usage.filled (.text ""))
        (flags.filled (.text Flags.default.letters)) (tags.filled (.list [])) =
      make name pattern render description usage flags tags ↔
    ∀ chosen, Flags.read flags = .ok chosen →
      tags ≠ .null ∧ ∀ labels, readTags tags = .ok labels →
        description ≠ .null ∧ usage ≠ .null := by
  rcases read : Flags.read flags with fault | chosen
  · refine iff_of_true (make_of_unread read (read_filled flags)).symm ?_
    simp
  · rw [make_of_read read, make_of_read ((read_filled flags).trans read)]
    by_cases noTags : tags = .null
    · subst noTags
      simp [Value.filled, readTags, Except.map]
    · rw [(Value.filled_eq_iff (by simp)).mpr noTags]
      rcases readTags tags with fault | labels
      · simp [noTags, Except.map]
      · simp [noTags, Except.map, Value.filled_eq_iff]

end Make

/-- What makes the two ways part. -/
inductive Parted (d : Definition ρ) (changes : Fields ρ) : Prop
  | unknown {key : Value} (given : key ∈ changes.unknownKeys)
  /-- A definition without flags that is made anew has the default ones. -/
  | noLetters (unchanged : changes.isEmpty = true) (noLetters : d.flags.letters = "")
  | nullMatters (matters : (d.toFields.merge changes).NullMatters)

section Overriding

variable {d : Definition ρ} {changes : List (String × Value)} {render : Option (Render ρ)}

theorem known_of_mem_toFields {key : Value} (mem : key ∈ d.toFields.entries.map (·.1)) :
    ∃ name ∈ Fields.known, key = .text name := by
  simpa [toFields, Fields.known] using mem

/-- Every field of a definition is there when changes are put in. -/
theorem getD_merge {key : String} (isField : key ∈ Fields.known) (absent : Value) :
    (d.toFields.merge (.named changes render)).getD key absent =
      (d.toFields.merge (.named changes render)).getD key .null := by
  have given : .text key ∈ d.toFields.entries.map (·.1) := by
    simpa [toFields, Fields.known] using isField
  have kept : .text key ∈ (d.toFields.merge (.named changes render)).entries.map (·.1) :=
    Entries.mem_keys_merge.mpr (.inl given)
  rcases Entries.exists_find?_of_mem kept with ⟨value, found⟩
  rw [Fields.getD, Fields.getD, found]
  rfl

theorem mem_unknownKeys_named {key : Value} : key ∈ (Fields.named changes render).unknownKeys ↔
    ∃ name ∈ changes.map (·.1), name ∉ Fields.known ∧ key = .text name := by
  rw [Fields.mem_unknownKeys]
  simp only [Fields.named, Entries.named, List.map_map, List.mem_map, Function.comp_apply]
  constructor
  · rintro ⟨⟨change, mem, rfl⟩, other⟩
    exact ⟨change.1, ⟨change, mem, rfl⟩, fun isField => other _ isField rfl, rfl⟩
  · rintro ⟨_, ⟨change, mem, rfl⟩, notField, rfl⟩
    refine ⟨⟨change, mem, rfl⟩, ?_⟩
    rintro name isField same
    cases same
    exact notField isField

/-- Among the fields with changes put in, those are unknown that are unknown in the changes. -/
theorem mem_unknownKeys_merge {key : Value} :
    key ∈ (d.toFields.merge (.named changes render)).unknownKeys ↔
    key ∈ (Fields.named changes render).unknownKeys := by
  have merged : key ∈ (d.toFields.merge (.named changes render)).entries.map (·.1) ↔
      key ∈ d.toFields.entries.map (·.1) ∨ ∃ name ∈ changes.map (·.1), key = .text name :=
        Entries.mem_keys_merge
  rw [mem_unknownKeys_named, Fields.mem_unknownKeys, merged]
  constructor
  · rintro ⟨own | ⟨name, given, rfl⟩, other⟩
    · rcases known_of_mem_toFields own with ⟨name, isField, rfl⟩
      exact absurd rfl (other name isField)
    · exact ⟨name, given, fun isField => other name isField rfl, rfl⟩
  · rintro ⟨name, given, notField, rfl⟩
    refine ⟨.inr ⟨name, given, rfl⟩, ?_⟩
    rintro other isField same
    cases same
    exact notField isField

theorem unknown_merge_eq_nil_iff :
    (d.toFields.merge (.named changes render)).unknown = [] ↔
      (Fields.named changes render).unknown = [] := by
  simp only [Fields.unknown_eq_nil_iff, mem_unknownKeys_merge]

/-- Keys that are texts are put in order. -/
theorem exists_sortedKeys {keys : List Value} (areTexts : ∀ key ∈ keys, key.isText = true) :
    ∃ names, sortedKeys keys = .ok names ∧ ∀ name, name ∈ names ↔ .text name ∈ keys := by
  rcases sorted : sortedKeys keys with fault | names
  · rcases Config.exists_noText_of_sortedKeys sorted with ⟨key, mem, noText⟩
    rw [areTexts key mem] at noText
    cases noText
  · refine ⟨names, rfl, ?_⟩
    unfold sortedKeys texts at sorted
    split at sorted
    · cases sorted
    · split at sorted
      · cases sorted
      · cases sorted
        intro name
        rw [List.mem_mergeSort, List.mem_map]
        constructor
        · rintro ⟨key, mem, rfl⟩
          have isText := areTexts key mem
          cases key with
          | text name => exact mem
          | _ => cases isText
        · intro mem
          exact ⟨.text name, mem, rfl⟩

/-- A definition that is made of fields is refused for all that are unknown. -/
theorem ofFields_of_unknown {fields : Fields ρ} (unknown : fields.unknown ≠ [])
    (areTexts : ∀ key ∈ fields.unknownKeys, key.isText = true) :
    ∃ names value, ofFields fields = .error (.invalid (.unknownFields names value)) ∧
      ∀ name, name ∈ names ↔ .text name ∈ fields.unknownKeys := by
  rcases exists_sortedKeys areTexts with ⟨names, sorted, mem_iff⟩
  refine ⟨names, (fields.unknown.find? (names.headD "")).getD .null, ?_, mem_iff⟩
  have isNew : (!fields.unknown.isEmpty) = true := by simpa using unknown
  rw [Fields.unknownKeys] at sorted
  unfold ofFields
  simp only [isNew, if_true, sorted]
  rfl

/-- A definition that is updated is refused for the first field that is unknown. -/
theorem update_of_unknown (unknown : (Fields.named changes render).unknown ≠ []) :
    ∃ name ∈ changes.map (·.1), name ∉ Fields.known ∧
      (d.update (.named changes render)) =
        .error (.kind (.unexpectedArgument .definition name)) := by
  rcases List.exists_cons_of_ne_nil unknown with ⟨⟨key, value⟩, others, unknown_eq⟩
  have first : key ∈ (Fields.named changes render).unknownKeys := by
    simp [Fields.unknownKeys, unknown_eq]
  rcases mem_unknownKeys_named.mp first with ⟨name, given, notField, rfl⟩
  refine ⟨name, given, notField, ?_⟩
  unfold update
  rw [unknown_eq]
  rfl

theorem update_of_known (known : (Fields.named changes render).unknown = []) :
    d.update (.named changes render) =
      make ((d.toFields.merge (.named changes render)).getD "name" .null)
        ((d.toFields.merge (.named changes render)).getD "pattern" .null) (render.getD d.render)
        ((d.toFields.merge (.named changes render)).getD "description" .null)
        ((d.toFields.merge (.named changes render)).getD "usage" .null)
        ((d.toFields.merge (.named changes render)).getD "flags" .null)
        ((d.toFields.merge (.named changes render)).getD "tags" .null) := by
  unfold update
  rw [known]
  cases render <;> rfl

theorem ofFields_merge_of_known (known : (Fields.named changes render).unknown = []) :
    ofFields (d.toFields.merge (.named changes render)) =
      make ((d.toFields.merge (.named changes render)).getD "name" .null)
        ((d.toFields.merge (.named changes render)).getD "pattern" .null) (render.getD d.render)
        (((d.toFields.merge (.named changes render)).getD "description" .null).filled (.text ""))
        (((d.toFields.merge (.named changes render)).getD "usage" .null).filled (.text ""))
        (((d.toFields.merge (.named changes render)).getD "flags" .null).filled
          (.text Flags.default.letters))
        (((d.toFields.merge (.named changes render)).getD "tags" .null).filled (.list [])) := by
  have allKnown := (unknown_merge_eq_nil_iff (d := d)).mpr known
  unfold ofFields
  rw [allKnown, getD_merge (by decide) (.text ""), getD_merge (by decide) (.text "")]
  cases render <;> rfl

/-- With known fields alone, both ways come to the same where what is null does not matter. -/
theorem update_eq_ofFields_iff (known : (Fields.named changes render).unknown = []) :
    d.update (.named changes render) = ofFields (d.toFields.merge (.named changes render)) ↔
      ¬ (d.toFields.merge (.named changes render)).NullMatters := by
  rw [update_of_known known, ofFields_merge_of_known known, eq_comm, make_filled_eq_iff]
  constructor
  · rintro unharmed (⟨read, isNull⟩ | ⟨read, labels, rfl | rfl, isNull⟩)
    · exact (unharmed _ read).1 isNull
    · exact ((unharmed _ read).2 _ labels).1 isNull
    · exact ((unharmed _ read).2 _ labels).2 isNull
  · intro unharmed chosen read
    refine ⟨fun isNull => unharmed (.tags read isNull), ?_⟩
    intro labels readTags
    refine ⟨fun isNull => unharmed (.text read readTags (.inl rfl) isNull), ?_⟩
    exact fun isNull => unharmed (.text read readTags (.inr rfl) isNull)

/-- A definition without flags that is made anew is another one. -/
theorem ofFields_toFields_ne (noLetters : d.flags.letters = "") : ofFields d.toFields ≠ .ok d := by
  intro same
  have anew : ofFields (d.toFields.merge (.named [] none)) = .ok d := same
  rw [ofFields_merge_of_known rfl] at anew
  have read := of_make anew
  have letters_eq : (d.toFields.merge (.named [] none)).getD "flags" .null = .text "" :=
    congrArg Value.text noLetters
  rw [read_filled, letters_eq] at read
  have default_eq : Flags.default = d.flags := Except.ok.inj read
  rw [← default_eq] at noLetters
  exact absurd noLetters (by decide)

/-- Putting changes into a definition updates it, also where there are none, unless it has no
flags. -/
theorem toDefinition_eq_update (normal : d.flags.IsNormal)
    (lettered : ¬ ((Fields.named changes render).isEmpty = true ∧ d.flags.letters = "")) :
    (Base.definition d).toDefinition (.named changes render) =
      d.update (.named changes render) := by
  rw [Base.toDefinition]
  split
  case isFalse => rfl
  case isTrue unchanged =>
    have someLetters : ¬ d.flags.letters = "" := fun noLetters => lettered ⟨unchanged, noLetters⟩
    rw [Fields.eq_empty_of_isEmpty unchanged, update_nothing d normal, if_neg someLetters]

/-- Where a field is unknown, the one way is refused for one such field as an unexpected argument,
the other for all of them as not valid. -/
theorem refused_of_unknown (unknown : ∃ name ∈ changes.map (·.1), name ∉ Fields.known) :
    (∃ name ∈ changes.map (·.1), name ∉ Fields.known ∧
        (Base.definition d).toDefinition (.named changes render) =
          .error (.kind (.unexpectedArgument .definition name))) ∧
      ∃ names value, (Base.fields d.toFields).toDefinition (.named changes render) =
          .error (.invalid (.unknownFields names value)) ∧
        ∀ name, name ∈ names ↔ name ∈ changes.map (·.1) ∧ name ∉ Fields.known := by
  rcases unknown with ⟨name, given, notField⟩
  have isUnknown : (Fields.named changes render).unknown ≠ [] := by
    rw [Ne, Fields.unknown_eq_nil_iff]
    exact fun none => none _ (mem_unknownKeys_named.mpr ⟨name, given, notField, rfl⟩)
  constructor
  · rcases update_of_unknown (d := d) isUnknown with ⟨first, given, notField, refused⟩
    refine ⟨first, given, notField, ?_⟩
    have changed : ¬ (Fields.named changes render).isEmpty = true := by
      intro unchanged
      rw [Fields.eq_empty_of_isEmpty unchanged] at isUnknown
      exact isUnknown rfl
    rw [Base.toDefinition, if_neg changed, refused]
  · have areTexts : ∀ key ∈ (d.toFields.merge (.named changes render)).unknownKeys,
        key.isText = true := by
      intro key mem
      rcases mem_unknownKeys_named.mp (mem_unknownKeys_merge.mp mem) with ⟨name, -, -, rfl⟩
      rfl
    rcases ofFields_of_unknown (unknown_merge_eq_nil_iff.not.mpr isUnknown) areTexts with
      ⟨names, value, refused, mem_iff⟩
    refine ⟨names, value, refused, ?_⟩
    intro name
    rw [mem_iff, mem_unknownKeys_merge, mem_unknownKeys_named]
    simp

end Overriding

/-- Fields that are given by their names.  No name is given twice, and a render function is given
apart from the others. -/
structure Keywords where
  values : List (String × Value)
  nodup : (values.map (·.1)).Nodup
  apart : "render" ∉ values.map (·.1)

/-- The ways to put changes into a definition that was made come to the same definition or the same
fault, unless they part for one of the reasons that are given.  Where a field is unknown, the one
way is refused for the first such field as an unexpected argument, the other for all such fields as
not valid. -/
theorem overrides_agree {name pattern description usage flags tags : Value} {function : Render ρ}
    {d : Definition ρ} (made : make name pattern function description usage flags tags = .ok d)
    (changes : Keywords) (render : Option (Render ρ)) :
    ((Base.definition d).toDefinition (.named changes.values render) =
        (Base.fields d.toFields).toDefinition (.named changes.values render) ↔
          ¬ d.Parted (.named changes.values render)) ∧
      ((∃ name ∈ changes.values.map (·.1), name ∉ Fields.known) →
        (∃ name ∈ changes.values.map (·.1), name ∉ Fields.known ∧
          (Base.definition d).toDefinition (.named changes.values render) =
            .error (.kind (.unexpectedArgument .definition name))) ∧
        ∃ names value, (Base.fields d.toFields).toDefinition (.named changes.values render) =
            .error (.invalid (.unknownFields names value)) ∧
          ∀ name, name ∈ names ↔ name ∈ changes.values.map (·.1) ∧ name ∉ Fields.known) := by
  rcases changes with ⟨changes, -, -⟩
  dsimp only
  refine ⟨?_, refused_of_unknown⟩
  have normal := (Flags.of_read (of_make made)).1
  by_cases known : (Fields.named changes render : Fields ρ).unknown = []
  · by_cases bare : (Fields.named changes render : Fields ρ).isEmpty = true ∧ d.flags.letters = ""
    · refine iff_of_false ?_ (not_not_intro (.noLetters bare.1 bare.2))
      rw [Fields.eq_empty_of_isEmpty bare.1]
      exact (ofFields_toFields_ne bare.2).symm
    · have parted_iff : d.Parted (.named changes render) ↔
          (d.toFields.merge (.named changes render)).NullMatters := by
        constructor
        · rintro (⟨given⟩ | ⟨unchanged, noLetters⟩ | ⟨matters⟩)
          · exact absurd given (Fields.unknown_eq_nil_iff.mp known _)
          · exact absurd ⟨unchanged, noLetters⟩ bare
          · exact matters
        · exact .nullMatters
      rw [toDefinition_eq_update normal bare, parted_iff, ← update_eq_ofFields_iff known]
      exact Iff.rfl
  · have unknown : ∃ name ∈ changes.map (·.1), name ∉ Fields.known := by
      rw [Fields.unknown_eq_nil_iff, not_forall_not] at known
      rcases known with ⟨key, given⟩
      rcases mem_unknownKeys_named.mp given with ⟨name, given, notField, -⟩
      exact ⟨name, given, notField⟩
    rcases refused_of_unknown (d := d) unknown with
      ⟨⟨first, given, notField, refused⟩, names, value, refused', -⟩
    refine iff_of_false ?_
      (not_not_intro (.unknown (mem_unknownKeys_named.mpr ⟨first, given, notField, rfl⟩)))
    rw [refused, refused']
    simp

/-- A description that is null is kept by an update, but not in a definition that is made anew. -/
theorem overrides_agree_null :
    ∃ d : Definition Empty,
      make (.text "mark") (.text "a") (.builtin .italic) (.text "") (.text "") (.text "g")
        (.list []) = .ok d ∧
        (Base.definition d).toDefinition
          (.named [("flags", .null), ("tags", .text "inline")] none) =
          (Base.fields d.toFields).toDefinition
            (.named [("flags", .null), ("tags", .text "inline")] none) ∧
        (Base.definition d).toDefinition (.named [("description", .null)] none) ≠
          (Base.fields d.toFields).toDefinition (.named [("description", .null)] none) := by
  let d : Definition Empty :=
    { name := .text "mark", pattern := .text "a", render := .builtin .italic }
  have made : make (.text "mark") (.text "a") (.builtin .italic) (.text "") (.text "") (.text "g")
      (.list []) =
      .ok d := rfl
  refine ⟨d, made, ?_, ?_⟩
  · apply (overrides_agree made ⟨[("flags", .null), ("tags", .text "inline")], by decide, by decide⟩
      none).1.mpr
    rintro (⟨given⟩ | ⟨unchanged, -⟩ | ⟨-, isNull⟩ | ⟨-, -, rfl | rfl, isNull⟩)
    · cases given
    · cases unchanged
    · cases isNull
    · cases isNull
    · cases isNull
  · apply mt (overrides_agree made ⟨[("description", .null)], by decide, by decide⟩ none).1.mp
    have read : Flags.read (.text "g") = .ok .default := rfl
    have labelled : readTags (.list []) = .ok [] := rfl
    exact not_not_intro (.nullMatters (.text read labelled (.inl rfl) rfl))

/-- An unknown field is an unexpected argument of an update, but makes the fields of a definition
invalid. -/
theorem overrides_disagree :
    ∃ d : Definition Empty,
      make (.text "mark") (.text "a") (.builtin .italic) (.text "") (.text "") (.text "g")
        (.list []) = .ok d ∧
        (Base.definition d).toDefinition (.named [("colour", .text "red")] none) =
          .error (.kind (.unexpectedArgument .definition "colour")) ∧
        (Base.fields d.toFields).toDefinition (.named [("colour", .text "red")] none) =
          .error (.invalid (.unknownFields ["colour"] (.text "red"))) := by
  let d : Definition Empty :=
    { name := .text "mark", pattern := .text "a", render := .builtin .italic }
  have sorted : sortedKeys [.text "colour"] = .ok ["colour"] := by
    simp [sortedKeys, texts, firstNoText?, Value.isText, Value.shown, Functor.map, Except.map]
  have refused : ofFields (d.toFields.merge (.named [("colour", .text "red")] none)) =
      .error (.invalid (.unknownFields ["colour"] (.text "red"))) := by
    have unknown_eq : (d.toFields.merge (.named [("colour", .text "red")] none)).unknown =
        [(.text "colour", .text "red")] := rfl
    unfold ofFields
    simp only [unknown_eq, List.map_cons, List.map_nil, sorted]
    rfl
  exact ⟨d, rfl, rfl, refused⟩

end Definition

end Markflow
