import Markflow.Proofs.Builtin.Conversion

/-!
# Conversion in stages

A run of built-in transforms can be cut anywhere: what the first ones leave is what the others go on
with, also where it is empty and the run of the others ends at once.  A conversion that leaves out
some transforms is such a run of all the others, so it depends only on which built-in transforms
have one of the names.
-/

namespace Markflow

namespace Options

theorem readDisabled_texts (names : List String) :
    readDisabled (.list (names.map .text)) = .ok names := by
  have areTexts : (names.map Value.text).all Value.isText = true := by
    simp [Value.isText]
  have shown : (names.map Value.text).map Value.shown = names := by
    rw [List.map_map]
    exact List.map_id' names
  have read : readDisabled (.list (names.map .text)) =
      if (names.map Value.text).all Value.isText then .ok ((names.map Value.text).map Value.shown)
      else .error (.invalid (.disabledNotNames (.list (names.map .text)))) := rfl
  rw [read, if_pos areTexts, shown]

/-- The options that leave out the built-in transforms of some names. -/
def leavingOut (names : List String) : Except Fault Options :=
  ofEntries [(.text "disabled_transforms", .list (names.map .text))]

theorem leavingOut_eq (names : List String) : leavingOut names = .ok { disabled := names } := by
  have made : leavingOut names = make (.text Display.plain.name) (.list (names.map .text)) := rfl
  have display : Display.read (.text Display.plain.name) = .ok .plain := rfl
  rw [made, make, display, readDisabled_texts]
  rfl

end Options

variable [Host]

section Stages

variable {ρ σ : Type}

/-- What a run of built-in transforms gives is given in two stages as well, and the second stage
gives the same where its transforms are applied to any text, the empty one included. -/
theorem gives_stages (call : Caller ρ σ) (first second : List Builtin) (text : String) (state : σ) :
    ∃ between html, (runPipeline call (first.map Builtin.definition) text).Gives state
      between state ∧
      (runPipeline call (second.map Builtin.definition) between).Gives state html state ∧
      (runPipeline call ((first ++ second).map Builtin.definition) text).Gives state html state ∧
      ((second.map Builtin.definition).foldlM (fun buffer (d : Definition ρ) => d.apply call buffer)
        between).Gives
        state html state := by
  have whole := Builtin.gives_runPipeline call (first ++ second) text state
  have begun := Builtin.gives_runPipeline call first text state
  rw [List.foldl_append] at whole
  generalize first.foldl (fun text kind => kind.pass text) text.toList = left at whole begun
  have ended := Builtin.gives_runPipeline call second (String.ofList left) state
  have applied := Builtin.gives_applyAll call second (String.ofList left) state
  rw [String.toList_ofList] at ended applied
  exact ⟨_, _, begun, ended, whole, applied⟩

/-- A conversion that leaves out transforms gives what a run of the others gives. -/
theorem convert_leavingOut (call : Caller ρ σ) (names : List String) (text : String) (state : σ) :
    ∃ html, convert { disabled := names } (.text text) = .ok html ∧
      (runPipeline call ((Builtin.all.filter (·.name ∉ names)).map Builtin.definition) text).Gives
        state html state := by
  have others_eq : (Builtin.all.filter fun kind => !names.contains kind.name) =
      Builtin.all.filter (·.name ∉ names) := by
    apply List.filter_congr
    intro kind _
    simp
  have converted := convert_text { disabled := names } text
  rw [others_eq] at converted
  exact ⟨_, converted, Builtin.gives_runPipeline call _ text state⟩

/-- Conversion can be cut into stages.  A run of built-in transforms gives what a run of the first
ones and then of the others gives, and the others come to the same where they are applied without
looking whether anything is left.  A conversion with names to leave out gives what a run of all
other built-in transforms in their order gives; with other names that are the same built-in
transforms, or none, it gives the same. -/
theorem convert_in_stages (call : Caller ρ σ) (first second : List Builtin) (names : List String)
    (text : String) (state : σ) :
    (∃ between html, (runPipeline call (first.map Builtin.definition) text).Gives state
      between state ∧
      (runPipeline call (second.map Builtin.definition) between).Gives state html state ∧
      (runPipeline call ((first ++ second).map Builtin.definition) text).Gives state html state ∧
      ((second.map Builtin.definition).foldlM (fun buffer (d : Definition ρ) => d.apply call buffer)
        between).Gives
        state html state) ∧
      ∃ options html, Options.leavingOut names = .ok options ∧
        convert options (.text text) = .ok html ∧
        (runPipeline call ((Builtin.all.filter (·.name ∉ names)).map Builtin.definition) text).Gives
          state html state ∧
        ∀ others : List String, (∀ kind : Builtin, kind.name ∈ others ↔ kind.name ∈ names) →
          ∃ options, Options.leavingOut others = .ok options ∧
            convert options (.text text) = .ok html := by
  refine ⟨gives_stages call first second text state, ?_⟩
  rcases convert_leavingOut call names text state with ⟨html, converted, ran⟩
  refine ⟨_, html, Options.leavingOut_eq names, converted, ran, ?_⟩
  intro others same
  refine ⟨_, Options.leavingOut_eq others, ?_⟩
  have kinds_eq : (Builtin.all.filter fun kind => !others.contains kind.name) =
      Builtin.all.filter fun kind => !names.contains kind.name := by
    apply List.filter_congr
    intro kind _
    simp [same kind]
  rw [convert_text] at converted ⊢
  rw [kinds_eq]
  exact converted

attribute [local instance] Host.standard

/-- A name that is given twice, or that no built-in transform has, makes no difference. -/
theorem convert_in_stages_unknown : ∃ html options others,
    Options.leavingOut ["bold"] = .ok options ∧ convert options (.text "**a**") = .ok html ∧
      Options.leavingOut ["bold", "boldface", "bold"] = .ok others ∧
        convert others (.text "**a**") = .ok html := by
  rcases (convert_in_stages noCaller [] [] ["bold"] "**a**" ()).2 with
    ⟨options, html, made, converted, -, same⟩
  rcases same ["bold", "boldface", "bold"] (by intro kind; cases kind <;> decide) with
    ⟨others, othersMade, othersConverted⟩
  exact ⟨html, options, others, made, converted, othersMade, othersConverted⟩

end Stages

end Markflow
