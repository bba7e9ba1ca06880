import Markflow.CommandLine.Listing
import Markflow.Proofs.Config.Unchecked

/-!
# What can be shown of transforms

A listing shows every transform or one of them, and nothing where the one that it names is not
registered (`content_eq_none_iff`).  It comes to its end unless a text cannot be made of a
transform, or what is made cannot be drawn (`unshown_of_content`).
-/

namespace Markflow

variable {ρ : Type}

namespace Registry

variable {registry : Registry ρ} {name : String}

theorem lookup?_eq_none_iff : registry.lookup? name = none ↔ name ∉ registry.names := by
  simp only [lookup?, List.lookup_eq_none_iff, names, List.mem_map, not_exists, not_and, bne_iff_ne]
  exact ⟨fun absent entry mem same => absent entry mem same.symm,
    fun absent entry mem same => absent entry mem same.symm⟩

theorem mem_definitions_of_lookup? {d : Definition ρ} (found : registry.lookup? name = some d) :
    d ∈ registry.definitions := by
  rcases List.lookup_eq_some_iff.mp found with ⟨before, after, entries_eq, -⟩
  exact List.mem_map.mpr ⟨(name, d), by simp [entries_eq], rfl⟩

end Registry

variable [Libraries]

/-- A text of a transform that cannot be made: of tags that are no texts, of a value that cannot be
written, or for a cell of a table. -/
inductive Definition.HasNoText (d : Definition ρ) : Prop
  | tags {tag : Value} (mem : tag ∈ d.tags) (noText : tag.isText = false)
  | description (unwritable : d.description.isWritable = false)
  | usage (unwritable : d.usage.isWritable = false)
  | cell {fault : Fault} (fails : Libraries.cellText d.description = .error fault)

namespace CommandLine.Listing

open Config (bind_eq_error_iff error_of_bind exists_error_of_mapM map_eq_error_iff)

/-- Why a listing does not come to its end. -/
inductive Unshown (definitions : List (Definition ρ)) (fault : Fault) : Prop
  | text {d : Definition ρ} (mem : d ∈ definitions) (noText : d.HasNoText)
  | table {table : Terminal.Table} (made : overviewTable definitions = .ok table)
    (undrawn : Libraries.draw .output [.table table] = .error fault)
  | panel {d : Definition ρ} {panel : Terminal.Panel} (mem : d ∈ definitions)
    (made : detailPanel d = .ok panel)
    (undrawn : Libraries.draw .output [.panel panel] = .error fault)

variable {d : Definition ρ} {definitions : List (Definition ρ)} {fault : Fault} {text : String}

omit [Libraries] in
theorem isWritable_of_form {value : Value} (failed : value.form = .error fault) :
    value.isWritable = false := by
  unfold Value.form at failed
  split at failed
  · cases failed
  · next unwritable => simpa using unwritable

theorem hasNoText_of_joined {separator : String} (failed : joined separator d.tags = .error fault) :
    d.HasNoText := by
  rcases Config.exists_noText_of_texts (map_eq_error_iff.mp failed) with ⟨tag, mem, noText⟩
  exact .tags mem noText

/-- What is made of the tags of a transform fails only where they are no texts. -/
theorem hasNoText_of_tags {α β : Type} {absent : α} {separator : String} {shown : String → α}
    {whole : α → Except Fault β} (failed : (do
      let tags ← if d.tags.isEmpty then pure absent else shown <$> joined separator d.tags
      whole tags) = Except.error fault) : d.HasNoText ∨ ∃ tags, whole tags = .error fault := by
  dsimp only at failed
  split at failed
  · exact .inr ⟨_, failed⟩
  · rcases bind_eq_error_iff.mp failed with unjoined | ⟨tags, -, failed⟩
    · exact .inl (hasNoText_of_joined (map_eq_error_iff.mp unjoined))
    · exact .inr ⟨tags, failed⟩

theorem hasNoText_of_detailPanel (failed : detailPanel d = .error fault) : d.HasNoText := by
  rcases bind_eq_error_iff.mp failed with noForm | ⟨_, -, failed⟩
  · exact .description (isWritable_of_form (map_eq_error_iff.mp noForm))
  rcases bind_eq_error_iff.mp failed with noForm | ⟨_, -, failed⟩
  · exact .usage (isWritable_of_form (map_eq_error_iff.mp noForm))
  rcases hasNoText_of_tags failed with noText | ⟨tags, failed⟩
  · exact noText
  · cases failed

theorem hasNoText_of_plainDetail (failed : .error fault ∈ plainDetail d) : d.HasNoText := by
  simp only [plainDetail, List.mem_append, List.mem_cons, List.not_mem_nil, or_false, reduceCtorEq,
    false_or] at failed
  rcases failed with (noForm | noForm) | noTags
  · exact .description (isWritable_of_form (map_eq_error_iff.mp noForm.symm))
  · exact .usage (isWritable_of_form (map_eq_error_iff.mp noForm.symm))
  · split at noTags
    · cases noTags
    · exact hasNoText_of_joined (map_eq_error_iff.mp (List.mem_singleton.mp noTags).symm)

theorem hasNoText_of_plainLine (failed : plainLine d = .error fault) : d.HasNoText := by
  rcases hasNoText_of_tags failed with noText | ⟨tags, failed⟩
  · exact noText
  · exact .description (isWritable_of_form (error_of_bind (fun _ => ⟨_, rfl⟩) failed))

theorem exists_hasNoText_of_plainList (failed : .error fault ∈ plainList definitions) :
    ∃ d ∈ definitions, d.HasNoText := by
  simp only [plainList, List.mem_append, List.mem_cons, List.not_mem_nil, or_false, reduceCtorEq,
    false_or, List.mem_map] at failed
  rcases failed with ⟨d, mem, noLine⟩
  exact ⟨d, mem, hasNoText_of_plainLine noLine⟩

theorem exists_hasNoText_of_overviewTable (failed : overviewTable definitions = .error fault) :
    ∃ d ∈ definitions, d.HasNoText := by
  rcases exists_error_of_mapM (error_of_bind (fun _ => ⟨_, rfl⟩) failed) with ⟨d, mem, noRow⟩
  refine ⟨d, mem, ?_⟩
  rcases bind_eq_error_iff.mp noRow with noCell | ⟨_, -, noRow⟩
  · exact .cell noCell
  · exact hasNoText_of_joined (error_of_bind (fun _ => ⟨_, rfl⟩) noRow)

omit [Libraries] in
/-- Lines are printed up to one that cannot be made. -/
theorem error_mem_of_printed {lines : List (Except Fault String)}
    (stopped : printed lines = (text, some fault)) : .error fault ∈ lines := by
  induction lines generalizing text with
  | nil => cases stopped
  | cons line lines ih =>
    cases line with
    | error cause =>
      cases stopped
      exact List.mem_cons_self
    | ok line =>
      rcases more : printed lines with ⟨rest, cause⟩
      simp only [printed, more, Prod.mk.injEq] at stopped
      rcases stopped with ⟨-, rfl⟩
      exact List.mem_cons_of_mem _ (ih more)

/-- What is to be drawn cannot be made, or it cannot be drawn. -/
theorem unmade_or_undrawn_of_drawn {α : Type} {piece : α → Terminal.Piece} {made : Except Fault α}
    (stopped : drawn (piece <$> made) = (text, some fault)) :
    made = .error fault ∨
      ∃ value, made = .ok value ∧ Libraries.draw .output [piece value] = .error fault := by
  unfold drawn at stopped
  split at stopped
  · cases stopped
  · next failed =>
    cases stopped
    cases made with
    | error cause =>
      cases failed
      exact .inl rfl
    | ok value => exact .inr ⟨value, rfl, failed⟩

variable {request : Listing} {converter : Converter ρ}

/-- A listing that names a transform that is not registered shows nothing, any other one
something. -/
theorem content_eq_none_iff :
    request.content converter = none ↔ request.name ≠ "" ∧ request.name ∉ converter.names := by
  unfold content
  by_cases unnamed : request.name = ""
  · simp [unnamed]
  · have named : request.name.isEmpty = false := by simpa using unnamed
    simp only [named, Bool.false_eq_true, if_false, Option.map_eq_none_iff,
      Registry.lookup?_eq_none_iff, ne_eq, unnamed, not_false_eq_true, true_and]
    rfl

/-- What stops a listing. -/
theorem unshown_of_content (stopped : request.content converter = some (text, some fault)) :
    Unshown converter.registry.definitions fault := by
  unfold content at stopped
  dsimp only at stopped
  split at stopped
  · split at stopped
    · rcases unmade_or_undrawn_of_drawn (Option.some.inj stopped) with
        unmade | ⟨table, made, undrawn⟩
      · rcases exists_hasNoText_of_overviewTable unmade with ⟨d, mem, noText⟩
        exact .text mem noText
      · exact .table made undrawn
    · rcases exists_hasNoText_of_plainList (error_mem_of_printed (Option.some.inj stopped)) with
        ⟨d, mem, noText⟩
      exact .text mem noText
  · rcases Option.map_eq_some_iff.mp stopped with ⟨d, found, stopped⟩
    have mem := Registry.mem_definitions_of_lookup? found
    split at stopped
    · rcases unmade_or_undrawn_of_drawn stopped with unmade | ⟨panel, made, undrawn⟩
      · exact .text mem (hasNoText_of_detailPanel unmade)
      · exact .panel mem made undrawn
    · exact .text mem (hasNoText_of_plainDetail (error_mem_of_printed stopped))

end CommandLine.Listing

end Markflow
