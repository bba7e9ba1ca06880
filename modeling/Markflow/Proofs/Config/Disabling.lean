import Markflow.Config.Build
import Markflow.Proofs.Builtin.Conversion
import Markflow.Proofs.Registry.Placement

/-!
# Disabled names

A configuration disables names: the built-in transforms of these names are removed when the
converter is made.  The transforms of the configuration itself are registered after that, so a
disabled name is registered only by the configuration, and then as the last of its transforms of
that name.
-/

namespace Markflow.Config

open Markflow.Action

variable {ρ : Type}

/-- The names that a configuration and a further list disable. -/
def disabledNames (config : Entries) (disable : List Value) : List Value :=
  match (config.find? "disable").getD (.list []) with
  | .list names => names ++ disable
  | _ => disable

/-- The transform that an entry describes, if it can be registered. -/
def described? (catalogue : Catalogue ρ) : Value → Option (Definition ρ)
  | .table entries =>
    match registration catalogue entries with
    | .ok added => (added.base.toDefinition added.changes).toOption
    | .error _ => none
  | _ => none

/-- The transforms that a configuration describes, in their order. -/
def configured (catalogue : Catalogue ρ) (config : Entries) : List (Definition ρ) :=
  match (config.find? "transforms").getD (.list []) with
  | .list transforms => transforms.filterMap (described? catalogue)
  | _ => []

theorem bind_eq_ok_iff {α β : Type} {first : Except Fault α} {next : α → Except Fault β}
    {result : β} :
    (first >>= next) = .ok result ↔ ∃ value, first = .ok value ∧ next value = .ok result := by
  cases first with
  | error fault => simp [bind, Except.bind]
  | ok value => simp [bind, Except.bind]

theorem bind_eq_error_iff {α β : Type} {first : Except Fault α} {next : α → Except Fault β}
    {fault : Fault} :
    (first >>= next) = .error fault ↔
      first = .error fault ∨ ∃ value, first = .ok value ∧ next value = .error fault := by
  cases first with
  | error other => simp [bind, Except.bind]
  | ok value => simp [bind, Except.bind]

/-- Where what comes after never fails, a failure is one of what comes first. -/
theorem error_of_bind {α β : Type} {first : Except Fault α} {next : α → Except Fault β}
    {fault : Fault}
    (succeeds : ∀ value, ∃ result, next value = .ok result)
    (failed : (first >>= next) = .error fault) :
    first = .error fault := by
  rcases bind_eq_error_iff.mp failed with failed | ⟨value, -, failed⟩
  · exact failed
  · rcases succeeds value with ⟨result, gives⟩
    cases gives.symm.trans failed

theorem map_eq_error_iff {α β : Type} {f : α → β} {first : Except Fault α} {fault : Fault} :
    f <$> first = .error fault ↔ first = .error fault := by
  cases first <;> simp [Functor.map, Except.map]

theorem disabled_of_make {display : Value} {items : List Value} {chosen : Options}
    (made : Options.make display (.list items) = .ok chosen) :
    chosen.disabled = items.map Value.shown := by
  rcases bind_eq_ok_iff.mp made with ⟨shown, -, made⟩
  rcases bind_eq_ok_iff.mp made with ⟨names, read, made⟩
  rcases bind_eq_ok_iff.mp read with ⟨listed, items_eq, read⟩
  cases items_eq
  cases made
  dsimp only at read
  split at read
  · cases read
    rfl
  · cases read

theorem disabled_of_options {config : Entries} {disable : List Value} {chosen : Options}
    (made : options config disable = .ok chosen) {name : String}
    (listed : Value.text name ∈ disabledNames config disable) : name ∈ chosen.disabled := by
  unfold options at made
  unfold disabledNames at listed
  dsimp only at made
  split at made
  · rcases bind_eq_ok_iff.mp made with ⟨names, -, made⟩
    cases made
  split at made
  · rename_i names found
    rw [found] at listed
    split at made
    · cases made
    · rw [disabled_of_make made]
      exact List.mem_map.mpr ⟨.text name, listed, rfl⟩
  · cases made

theorem runOn_onRegistry {α : Type} (action : Action (Registry ρ) α)
    (traced : Traced (Converter ρ)) :
    (Converter.onRegistry action).runOn traced =
      ((action.runOn ⟨traced.state.registry, traced.records⟩).1,
        ⟨{ traced.state with registry :=
          (action.runOn ⟨traced.state.registry, traced.records⟩).2.state },
          (action.runOn ⟨traced.state.registry, traced.records⟩).2.records⟩) := rfl

/-- A registry as it is when the transforms of a list come after those that are there: every name
has the last of the transforms of that name. -/
structure Extends [Host] (start : Registry ρ) (added : List (Definition ρ))
    (registry : Registry ρ) : Prop where
  wellFormed : registry.WellFormed
  lookup?_eq : ∀ name, registry.lookup? name =
    (added.reverse.find? (·.key == name)).or (start.lookup? name)

theorem Extends.trans [Host] {start between stop : Registry ρ}
    {first second : List (Definition ρ)}
    (earlier : Extends start first between) (later : Extends between second stop) :
    Extends start (first ++ second) stop where
  wellFormed := later.wellFormed
  lookup?_eq name := by
    rw [later.lookup?_eq, earlier.lookup?_eq, List.reverse_append, List.find?_append,
      Option.or_assoc]

theorem extends_register [Host] {registry : Registry ρ} {added : Registration ρ}
    {records : List Record} {left : Traced (Registry ρ)} (wellFormed : registry.WellFormed)
    (registered : (Registry.register added).runOn ⟨registry, records⟩ = (.ok (), left)) :
    ∃ definition, added.base.toDefinition added.changes = .ok definition ∧
      Extends registry [definition] left.state := by
  rcases Registry.check_of_register registered with ⟨definition, placement, checked, state_eq⟩
  rcases Registry.check_eq_ok_iff.mp checked with ⟨made, admitted, placed⟩
  have named := admitted.name_eq
  rw [named] at placed
  have places := Registry.place_eq_ok_iff.mp placed
  refine ⟨definition, made, ?_, ?_⟩
  · rw [state_eq]
    exact wellFormed.insert placement named admitted
  · intro name
    rw [state_eq]
    by_cases own : name = definition.key
    · rw [own, places.lookup? wellFormed named admitted]
      simp
    · have other : (definition.key == name) = false := beq_eq_false_iff_ne.mpr (Ne.symm own)
      rw [Registry.lookup?_insert_of_ne _ definition placement own]
      simp [other]

theorem runOn_registerFrom_table [Host] {catalogue : Catalogue ρ} {index : Nat}
    {entries : Entries} {rest : List Value} {traced : Traced (Converter ρ)} {added : Registration ρ}
    {definition : Definition ρ} {placement : Placement}
    (read : registration catalogue entries = .ok added)
    (checked : traced.state.registry.check added = .ok (definition, placement)) :
    (registerFrom catalogue index (.table entries :: rest)).runOn traced =
      (registerFrom catalogue (index + 1) rest).runOn
        ⟨{ traced.state with
            registry := traced.state.registry.insert definition.key definition placement },
          traced.records ++
            traced.state.registry.registrationRecords definition.key placement⟩ := by
  have registered := Registry.runOn_register_of_check checked traced.records
  rw [registerFrom, read]
  simp only [runOn_bind, runOn_ofExcept, runOn_onRegistry, registered]

/-- What is registered from a list are the transforms that its values describe. -/
theorem extends_registerFrom [Host] {catalogue : Catalogue ρ} {transforms : List Value}
    {index : Nat}
    {traced left : Traced (Converter ρ)} (wellFormed : traced.state.registry.WellFormed)
    (ran : (registerFrom catalogue index transforms).runOn traced = (.ok (), left)) :
    Extends traced.state.registry (transforms.filterMap (described? catalogue))
      left.state.registry := by
  induction transforms generalizing index traced with
  | nil =>
    simp only [registerFrom, runOn_pure, Prod.mk.injEq] at ran
    rw [← ran.2]
    exact ⟨wellFormed, fun name => by simp⟩
  | cons value transforms ih =>
    cases value with
    | table entries =>
      rcases runOn_bind_eq_ok.mp ran with ⟨added, between, read, ran⟩
      rcases runOn_bind_eq_ok.mp ran with ⟨_, stop, registered, ran⟩
      rw [runOn_ofExcept, Prod.mk.injEq] at read
      rcases read with ⟨read, rfl⟩
      rw [runOn_onRegistry, Prod.mk.injEq] at registered
      rcases registered with ⟨succeeds, rfl⟩
      rcases extends_register wellFormed (Prod.ext succeeds rfl) with ⟨definition, made, extended⟩
      have described : described? catalogue (.table entries) = some definition := by
        simp [described?, read, made, Except.toOption]
      rw [List.filterMap_cons_some described]
      exact extended.trans (ih extended.wellFormed ran)
    | _ => simp [registerFrom] at ran

theorem names_ofBuiltins (kinds : List Builtin) :
    (Registry.ofBuiltins kinds : Registry ρ).names = kinds.map Builtin.name := by
  simp [Registry.ofBuiltins, Registry.names, Function.comp_def]

theorem wellFormed_ofBuiltins [Host] {kinds : List Builtin} (nodup : kinds.Nodup) :
    (Registry.ofBuiltins kinds : Registry ρ).WellFormed where
  nodup_names := by
    rw [names_ofBuiltins]
    apply List.Pairwise.map Builtin.name _ nodup
    intro first second differs same
    exact differs (Builtin.name_injective same)
  name_eq := by
    intro entry entry_mem
    rcases List.mem_map.mp entry_mem with ⟨kind, -, rfl⟩
    rfl
  admitted := by
    intro entry entry_mem
    rcases List.mem_map.mp entry_mem with ⟨kind, -, rfl⟩
    exact Builtin.admitted_definition kind

/-- The transforms of a configuration extend the built-in ones that are not disabled. -/
theorem extends_install [Host] {catalogue : Catalogue ρ} {config : Entries} {chosen : Options}
    {left : Traced (Converter ρ)}
    (ran : (install catalogue config).runOn ⟨.blank chosen, []⟩ = (.ok (), left)) :
    Extends (.ofBuiltins (Builtin.all.filter fun kind => !chosen.disabled.contains kind.name))
      (configured catalogue config) left.state.registry := by
  rcases runOn_bind_eq_ok.mp ran with ⟨_, between, installed, ran⟩
  rcases Converter.gives_install chosen [] with ⟨records, gives⟩
  rw [gives, Prod.mk.injEq] at installed
  rcases installed with ⟨-, rfl⟩
  have nodup : (Builtin.all.filter fun kind => !chosen.disabled.contains kind.name).Nodup :=
    List.Nodup.sublist List.filter_sublist (by decide)
  unfold configured
  generalize (config.find? "transforms").getD (.list []) = transforms at ran ⊢
  cases transforms with
  | list transforms => exact extends_registerFrom (wellFormed_ofBuiltins nodup) ran
  | _ => cases ran

theorem build_eq_ok_iff [Host] {catalogue : Catalogue ρ} {config : Entries}
    {disable : List Value}
    {converter : Converter ρ} : (build catalogue config disable).1 = .ok converter ↔
      ∃ chosen left, options config disable = .ok chosen ∧
        (install catalogue config).runOn ⟨.blank chosen, []⟩ = (.ok (), left) ∧
          left.state = converter := by
  delta build
  -- The installation is a variable of the lemma that is made here, else the kernel runs it.
  generalize install catalogue config = action
  as_aux_lemma =>
    rcases options config disable with fault | chosen
    · simp
    rcases ran : action.runOn ⟨.blank chosen, []⟩ with ⟨fault | _, left⟩
    · simp [runFrom_eq_runOn, ran, Except.map]
    · simp [runFrom_eq_runOn, ran, Except.map]

/-- In a converter made from a configuration a disabled name has the last transform of that name in
the configuration, and is registered only if there is one. -/
theorem build_disabled [Host] (catalogue : Catalogue ρ) (config : Entries) (disable : List Value)
    (converter : Converter ρ) (built : (build catalogue config disable).1 = .ok converter)
    (name : String) (listed : Value.text name ∈ disabledNames config disable) :
    converter.registry.lookup? name = (configured catalogue config).reverse.find? (·.key == name) ∧
      (name ∈ converter.names ↔ ∃ definition ∈ configured catalogue config,
        definition.key = name) := by
  rcases build_eq_ok_iff.mp built with ⟨chosen, left, made, ran, rfl⟩
  have extended := extends_install ran
  -- The configuration finds no built-in transform of that name any more.
  have removed :
      (Registry.ofBuiltins (Builtin.all.filter fun kind => !chosen.disabled.contains kind.name) :
      Registry ρ).lookup? name = none := by
    rw [← Option.not_isSome_iff_eq_none, Registry.isSome_lookup?_iff, names_ofBuiltins,
      List.mem_map]
    rintro ⟨kind, kind_mem, rfl⟩
    have disabled := disabled_of_options made listed
    simp [disabled] at kind_mem
  have found : left.state.registry.lookup? name =
      (configured catalogue config).reverse.find? (·.key == name) := by
    rw [extended.lookup?_eq name, removed, Option.or_none]
  refine ⟨found, ?_⟩
  rw [Converter.names, ← Registry.isSome_lookup?_iff, found]
  simp

section Replaced

/-- A module with one function. -/
def marker : Catalogue Unit :=
  [("m", .module "m" false [("f", .function (.custom ()))])]

/-- A transform that has the name of a built-in one. -/
def replacingEntries : Entries :=
  [(.text "name", .text "bold"), (.text "pattern", .text "x"), (.text "render", .text "m:f")]

/-- A configuration that disables a built-in transform and has a transform of its own under that
name. -/
def replacing : Entries :=
  [(.text "disable", .list [.text "bold"]),
    (.text "transforms", .list [.table replacingEntries])]

def replacement : Definition Unit where
  name := .text "bold"
  pattern := .text "x"
  render := .custom ()

def replacementRegistration : Registration Unit where
  base := .fields ⟨[(.text "name", .text "bold"), (.text "pattern", .text "x")], some (.custom ())⟩

theorem find_marker : marker.find "m:f" = .ok (.custom ()) := by
  have module_name : "m".splitOn "." = ["m"] := by
    rw [String.splitOn, if_neg (by decide), String.splitOnAux, if_neg (by decide),
      if_neg (by decide), String.splitOnAux]
    decide
  have function_name : "f".splitOn "." = ["f"] := by
    rw [String.splitOn, if_neg (by decide), String.splitOnAux, if_neg (by decide),
      if_neg (by decide), String.splitOnAux]
    decide
  have sides : Catalogue.splitPath "m:f".toList = some (['m'], ['f']) := by decide
  have module_eq : String.ofList ['m'] = "m" := rfl
  have function_eq : String.ofList ['f'] = "f" := rfl
  unfold Catalogue.find
  rw [sides]
  simp only [Catalogue.findModule, module_eq, function_eq, module_name, function_name]
  rfl

theorem registration_replacing :
    registration marker replacingEntries = .ok replacementRegistration := by
  have render_eq : replacingEntries.find? "render" = some (.text "m:f") := rfl
  simp only [registration, render_eq, Option.mapM_some, readRender, find_marker]
  rfl

theorem configured_replacing : configured marker replacing = [replacement] := by
  have found : replacing.find? "transforms" = some (.list [.table replacingEntries]) := rfl
  have made : replacementRegistration.base.toDefinition replacementRegistration.changes =
      .ok replacement := rfl
  simp [configured, found, described?, registration_replacing, made, Except.toOption]

theorem build_replacing [Host] :
    ∃ converter, (build marker replacing [.text "italic"]).1 = .ok converter ∧
      "bold" ∈ converter.names := by
  let chosen : Options := ⟨.plain, ["bold", "italic"]⟩
  let kept := Builtin.all.filter fun kind => !chosen.disabled.contains kind.name
  have made : options replacing [.text "italic"] = .ok chosen := rfl
  have checked : (Registry.ofBuiltins kept : Registry Unit).check replacementRegistration =
      .ok (replacement, .own) := rfl
  rcases @Converter.gives_install Unit _ chosen [] with ⟨records, installed⟩
  let start : Traced (Converter Unit) := ⟨.holding chosen kept, records⟩
  have ran : (registerFrom marker 0 [.table replacingEntries]).runOn start = _ :=
    runOn_registerFrom_table registration_replacing checked
  have whole : (install marker replacing).runOn ⟨.blank chosen, []⟩ = _ :=
    runOn_bind_eq_ok.mpr ⟨(), start, installed, ran⟩
  have present : "bold" ∈ ((Registry.ofBuiltins kept).insert "bold" replacement .own).names := by
    decide
  exact ⟨_, build_eq_ok_iff.mpr ⟨chosen, _, made, whole, rfl⟩, present⟩

attribute [local instance] Host.standard

/-- A disabled name that the configuration takes up again has the definition of the configuration,
and another one is not registered. -/
theorem build_disabled_replacing :
    ∃ converter, (build marker replacing [.text "italic"]).1 = .ok converter ∧
      converter.registry.lookup? "bold" = some replacement ∧ "italic" ∉ converter.names := by
  rcases build_replacing with ⟨converter, built, -⟩
  have bold := build_disabled marker replacing [.text "italic"] converter built "bold"
    (List.mem_of_getElem? (i := 0) rfl)
  have italic := build_disabled marker replacing [.text "italic"] converter built "italic"
    (List.mem_of_getElem? (i := 1) rfl)
  rw [configured_replacing] at bold italic
  refine ⟨converter, built, ?_, ?_⟩
  · rw [bold.1]
    rfl
  · rw [italic.2]
    decide

/-- A name that is disabled can be registered. -/
theorem bold_mem_names_replacing :
    Value.text "bold" ∈ disabledNames replacing [.text "italic"] ∧
      ∃ converter, (build marker replacing [.text "italic"]).1 = .ok converter ∧
        "bold" ∈ converter.names := by
  refine ⟨?_, build_replacing⟩
  exact List.mem_of_getElem? (i := 0) rfl

end Replaced

end Markflow.Config
