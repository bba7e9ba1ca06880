import Markflow.Converter
import Markflow.Proofs.Builtin.Pass
import Markflow.Proofs.Pipeline.Failure

/-!
# Conversions

A run of built-in transforms is the composition of their passes.  A new converter holds the built-in
transforms that are not disabled, in their order, so a conversion never fails and is the composition
of these passes (`convert_text`).
-/

namespace Markflow

open Markflow.Action

namespace Builtin

variable {ρ σ : Type}

theorem admitted_definition [Host] (kind : Builtin) :
    (kind.definition : Definition ρ).Admitted :=
  ⟨by cases kind <;> rfl, _, compile_definition kind⟩

theorem gives_output (call : Caller ρ σ) (kind : Builtin) (m : Match) (state : σ) :
    ((kind.definition : Definition ρ).output call (.ofMatch kind.regex.names m)).Gives state
      (String.ofList (kind.written m.found)) state := by
  have rendered :
      ((kind.definition : Definition ρ).callRender call (.ofMatch kind.regex.names m)).Gives
      state (.text (String.ofList (kind.written m.found))) state := by
    simp only [Definition.callRender, definition, render_ofMatch]
    exact (gives_ofExcept _ state).map _
  exact rendered.bind (gives_pure _ _)

/-- A run of a built-in transform is its pass. -/
theorem gives_apply [Host] (call : Caller ρ σ) (kind : Builtin) (text : String) (state : σ) :
    ((kind.definition : Definition ρ).apply call text).Gives state
      (String.ofList (kind.pass text.toList)) state := by
  rw [Definition.apply_eq (admitted_definition kind).lacksRender_eq_false (compile_definition kind)]
  have found_eq : (⟨kind.pattern, kind.flags, kind.regex⟩ : Pattern).findIn text.toList =
      kind.regex.scan text.toList := by
    simp [Pattern.findIn, Pattern.isGlobal, isGlobal_flags]
  have spliced : splice (.atStart text.toList) ((kind.regex.scan text.toList).zip
      ((kind.regex.scan text.toList).map fun m => String.ofList (kind.written m.found))) =
        kind.pass text.toList := by
    have paired := List.zip_map' (l := kind.regex.scan text.toList) (f := id)
      (g := fun m => String.ofList (kind.written m.found))
    rw [List.map_id] at paired
    rw [paired]
    exact Regex.splice_scan (consumes_regex kind) (fun m => String.toList_ofList) text.toList
  have replaced : (Pattern.replace ⟨kind.pattern, kind.flags, kind.regex⟩
      ((kind.definition : Definition ρ).output call) text).Gives state
        (String.ofList (kind.pass text.toList), (kind.regex.scan text.toList).length) state := by
    rw [Pattern.replace, found_eq, ← spliced]
    exact (gives_mapM (fun m => gives_output call kind m state) _).bind (gives_pure _ _)
  exact replaced.bind ((gives_record _ _).bind (gives_pure _ _))

theorem pass_nil (kind : Builtin) : kind.pass [] = [] := by
  simp [pass, Regex.rewrite]

/-- Built-in transforms that are applied in turn compose their passes. -/
theorem gives_applyAll [Host] (call : Caller ρ σ) (kinds : List Builtin) (text : String)
    (state : σ) :
    ((kinds.map definition).foldlM (fun buffer (d : Definition ρ) => d.apply call buffer)
      text).Gives state
      (String.ofList (kinds.foldl (fun text kind => kind.pass text) text.toList)) state := by
  have folds : ∀ text : String, kinds.foldl
      (fun buffer kind => String.ofList (kind.pass buffer.toList)) text =
        String.ofList (kinds.foldl (fun text kind => kind.pass text) text.toList) := by
    intro text
    induction kinds generalizing text with
    | nil => simp
    | cons kind kinds ih => simpa using ih (String.ofList (kind.pass text.toList))
  rw [List.foldlM_map, ← folds]
  exact gives_foldlM (fun buffer kind => gives_apply call kind buffer state) kinds text

/-- A run of built-in transforms is the composition of their passes. -/
theorem gives_runPipeline [Host] (call : Caller ρ σ) (kinds : List Builtin) (text : String)
    (state : σ) :
    (runPipeline call (kinds.map definition) text).Gives state
      (String.ofList (kinds.foldl (fun text kind => kind.pass text) text.toList)) state := by
  unfold runPipeline
  by_cases isEmpty : text.isEmpty
  · have empty : text = "" := by simpa using isEmpty
    have stays : kinds.foldl (fun text kind => kind.pass text) [] = [] := by
      induction kinds with
      | nil => rfl
      | cons kind kinds ih => rw [List.foldl_cons, pass_nil, ih]
    simpa [empty, stays] using gives_pure "" state
  · simp only [isEmpty, if_false, Bool.false_eq_true]
    exact (gives_applyAll call kinds text state).bind ((gives_record _ _).bind (gives_pure _ _))

theorem ofName?_name (kind : Builtin) : ofName? kind.name = some kind := by
  cases kind <;> rfl

theorem name_injective {first second : Builtin} (same : first.name = second.name) :
    first = second := by
  simpa [ofName?_name] using congrArg ofName? same

end Builtin

namespace Registry

variable {ρ : Type}

/-- The registry of some built-in transforms. -/
def ofBuiltins (kinds : List Builtin) : Registry ρ :=
  ⟨kinds.map fun kind => (kind.name, kind.definition)⟩

theorem gives_register [Host] (kinds : List Builtin) (kind : Builtin) (fresh : kind ∉ kinds) :
    (register { base := .definition kind.definition }).Gives (ofBuiltins kinds : Registry ρ) ()
      (ofBuiltins (kinds ++ [kind])) := by
  have checked : (ofBuiltins kinds : Registry ρ).check { base := .definition kind.definition } =
      .ok (kind.definition, .own) := by
    simp [check, Base.toDefinition, Fields.isEmpty, (Builtin.admitted_definition kind).1,
      Builtin.compile_definition, place, Bind.bind, Except.bind, pure, Except.pure]
  have absent : (ofBuiltins kinds : Registry ρ).contains kind.name = false := by
    simp only [contains, names, ofBuiltins, List.map_map, List.contains_eq_mem, List.mem_map,
      Function.comp_apply, decide_eq_false_iff_not, not_exists, not_and]
    intro other other_mem same
    exact fresh (Builtin.name_injective same ▸ other_mem)
  have inserted : (ofBuiltins kinds : Registry ρ).insert (kind.definition : Definition ρ).key
      kind.definition .own = ofBuiltins (kinds ++ [kind]) := by
    have key_eq : (kind.definition : Definition ρ).key = kind.name := rfl
    simp only [insert, key_eq, absent, Bool.false_eq_true, if_false]
    simp [ofBuiltins]
  refine (gives_state _).bind ?_
  simp only [checked]
  rw [← inserted]
  exact (gives_forM_record _ _).bind (gives_setState _ _)

theorem gives_registerAll [Host] :
    (Builtin.registerAll : Action (Registry ρ) Unit).Gives .empty () (ofBuiltins Builtin.all) := by
  let step : Registry ρ → Builtin → Registry ρ :=
    fun registry kind => ⟨registry.entries ++ [(kind.name, kind.definition)]⟩
  have appended : ∀ (kinds : List Builtin) (registry : Registry ρ), kinds.foldl step registry =
      ⟨registry.entries ++ kinds.map fun kind => (kind.name, kind.definition)⟩ := by
    intro kinds
    induction kinds with
    | nil => simp
    | cons kind kinds ih => simp [ih, step]
  have steps : ∀ kinds, List.foldl step .empty kinds = ofBuiltins kinds :=
    fun kinds => appended kinds .empty
  rw [← steps]
  refine gives_forM ?_
  intro earlier kind later split
  have fresh : kind ∉ earlier := by
    have nodup : (earlier ++ kind :: later).Nodup := split ▸ by decide
    exact fun inEarlier => (List.nodup_append.mp nodup).2.2 kind inEarlier kind (by simp) rfl
  have registered := @gives_register ρ _ earlier kind fresh
  rw [steps]
  simpa [step, ofBuiltins] using registered

theorem gives_unregister (kinds : List Builtin) (name : String) :
    (unregister (.text name)).Gives (ofBuiltins kinds : Registry ρ) ()
      (ofBuiltins (kinds.filter (·.name != name))) := by
  have erased :
      (ofBuiltins kinds : Registry ρ).erase name = ofBuiltins (kinds.filter (·.name != name)) := by
    simp [erase, ofBuiltins, List.filter_map, Function.comp_def]
  refine (gives_state _).bind ?_
  refine Gives.bind (gives_ofExcept (some name) _) ?_
  by_cases present : (ofBuiltins kinds : Registry ρ).contains name
  · simp only [present, if_true]
    rw [← erased]
    exact (gives_setState _ _).bind (gives_record _ _)
  · have unchanged : kinds.filter (·.name != name) = kinds := by
      apply List.filter_eq_self.mpr
      simpa [contains, names, ofBuiltins] using present
    simpa [present, unchanged] using gives_pure () _

end Registry

/-- An action on a part of the state. -/
theorem Action.Gives.zoom {σ τ α : Type} {part : σ → τ} {put : τ → σ → σ} {action : Action τ α}
    {start : σ} {value : α} {stop : τ} (gives : action.Gives (part start) value stop) :
    (Action.zoom part put action).Gives start value (put stop start) := by
  intro records
  obtain ⟨more, run⟩ := gives records
  refine ⟨more, ?_⟩
  have opened : (Action.zoom part put action).runOn ⟨start, records⟩ =
      ((action.runOn ⟨part start, records⟩).1,
        ⟨put (action.runOn ⟨part start, records⟩).2.state start,
          (action.runOn ⟨part start, records⟩).2.records⟩) :=
    rfl
  rw [opened, run]

namespace Converter

variable {ρ : Type}

/-- A converter that holds some built-in transforms. -/
def holding (options : Options) (kinds : List Builtin) : Converter ρ :=
  { (blank options : Converter ρ) with registry := .ofBuiltins kinds }

theorem gives_onRegistry {α : Type} {action : Action (Registry ρ) α} {value : α} (options : Options)
    (first : List Builtin) {second : List Builtin}
    (gives : action.Gives (.ofBuiltins first) value (.ofBuiltins second)) :
    (onRegistry action).Gives (holding options first) value (holding options second) := by
  have start_eq : (holding options first : Converter ρ).registry = .ofBuiltins first := rfl
  rw [← start_eq] at gives
  exact gives.zoom

theorem gives_unregisterAll (options : Options) (names : List String) (kinds : List Builtin) :
    (names.forM fun name => onRegistry (Registry.unregister (.text name)) :
      Action (Converter ρ) Unit).Gives
      (holding options kinds) ()
      (holding options (kinds.filter fun kind => !names.contains kind.name)) := by
  induction names generalizing kinds with
  | nil => simpa using gives_pure () (holding options kinds)
  | cons name names ih =>
    have split : (kinds.filter fun kind => !(name :: names).contains kind.name) =
        (kinds.filter (·.name != name)).filter fun kind => !names.contains kind.name := by
      rw [List.filter_filter]
      apply List.filter_congr
      intro kind _
      by_cases same : kind.name = name <;> simp [same]
    rw [split]
    exact Gives.bind (gives_onRegistry options kinds (Registry.gives_unregister kinds name)) (ih _)

/-- A new converter holds the built-in transforms that are not disabled. -/
theorem gives_install [Host] (options : Options) :
    (install : Action (Converter ρ) Unit).Gives (blank options) ()
      (holding options (Builtin.all.filter fun kind => !options.disabled.contains kind.name)) := by
  refine Gives.bind (gives_onRegistry options [] Registry.gives_registerAll) ?_
  refine (gives_state _).bind ?_
  refine Gives.bind (gives_unregisterAll options options.disabled Builtin.all) ?_
  exact (gives_state _).bind (gives_record _ _)

end Converter

/-- A new converter comes out of its installation by a step that keeps what a finished installation
leaves. -/
theorem Converter.new_eq_finish [Host] :
    ∃ finish : Except Fault Unit × Traced (Converter Empty) →
      Except Fault (Converter Empty) × List Record,
      (@Converter.new Empty _ = fun options => finish (install.runFrom (blank options))) ∧
        ∀ traced, (finish (.ok (), traced)).1 = .ok traced.state :=
  -- The first part is an equation between functions: with the options applied, its check would run
  -- the installation.
  ⟨fun (outcome, traced) => (outcome.map fun _ => traced.state, traced.records), rfl, fun _ => rfl⟩

theorem Converter.new_eq [Host] (options : Options) :
    (Converter.new options).1 = .ok (Converter.holding options
      (Builtin.all.filter fun kind => !options.disabled.contains kind.name) : Converter Empty) := by
  obtain ⟨records, installed⟩ := @Converter.gives_install Empty _ options []
  rw [← Action.runFrom_eq_runOn] at installed
  obtain ⟨finish, made, finished⟩ := Converter.new_eq_finish
  rw [made]
  exact (congrArg (fun ran => (finish ran).1) installed).trans (finished _)

theorem Converter.definitions_holding (options : Options) (kinds : List Builtin) :
    (Converter.holding options kinds : Converter Empty).registry.definitions =
      kinds.map Builtin.definition := by
  simp [Converter.holding, Registry.ofBuiltins, Registry.definitions, Function.comp_def]

variable [Host]

/-- A conversion never fails: it composes the passes of the built-in transforms that are not
disabled. -/
theorem convert_text (options : Options) (text : String) :
    convert options (.text text) = .ok (String.ofList
      ((Builtin.all.filter fun kind => !options.disabled.contains kind.name).foldl
        (fun text kind => kind.pass text) text.toList)) := by
  obtain ⟨records, ran⟩ := Builtin.gives_runPipeline noCaller
    (Builtin.all.filter fun kind => !options.disabled.contains kind.name) text () []
  rw [← Action.runFrom_eq_runOn] at ran
  have converted : convert options (.text text) = ((runPipeline noCaller (Converter.holding options
      (Builtin.all.filter fun kind => !options.disabled.contains kind.name) :
      Converter Empty).registry.definitions
        text).runFrom ()).1 := by
    rw [convert, Converter.new_eq]
    rfl
  rw [converted, Converter.definitions_holding, ran]

/-- With the default options all built-in transforms run, in their order. -/
theorem convert_default (text : String) :
    convert {} (.text text) =
      .ok (String.ofList (Builtin.all.foldl (fun text kind => kind.pass text) text.toList)) := by
  rw [convert_text]
  simp

end Markflow
