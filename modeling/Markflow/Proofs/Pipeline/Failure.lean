import Markflow.Proofs.Registry.WellFormed
import Markflow.Transform.Pipeline

/-!
# How pipelines fail

A transform is run by compiling its pattern, looking for its render function and rendering its
matches.  Of a definition that a registry has admitted the first two steps cannot fail
(`Admitted.apply_eq`), so a run over admitted definitions fails only in a call of a render function,
which raises a fault or gives something that is no text: `FailsInRender` says which call this is and
what was done before it.

Together with the well-formedness of registries this gives what holds of a registry after any
sequence of operations and of the runs of its definitions (`afterAll_consistent`).
-/

namespace Markflow

variable {ρ σ : Type}

namespace Definition

/-- A call of a render function fails, with the fault that ends the run and the state that it
leaves. -/
def RenderFails (call : Caller ρ σ) (d : Definition ρ) (captures : Captures) (traced : Traced σ)
    (fault : Fault) (left : Traced σ) : Prop :=
  (d.callRender call captures).runOn traced = (.error fault, left) ∨
    ∃ value, (d.callRender call captures).runOn traced = (.ok value, left) ∧
      value.isText = false ∧ fault = .kind (.renderedOther d.name value.kindName)

theorem renderFails_of_output {call : Caller ρ σ} {d : Definition ρ} {captures : Captures}
    {traced left : Traced σ} {fault : Fault}
    (failed : (d.output call captures).runOn traced = (.error fault, left)) :
    d.RenderFails call captures traced fault left := by
  rcases Action.runOn_bind_eq_error failed with raised | ⟨value, between, rendered, refused⟩
  · exact .inl raised
  · right
    cases value <;> simp only [Action.runOn_pure, Action.runOn_throw, Prod.mk.injEq, reduceCtorEq,
      false_and, Except.error.injEq] at refused
    all_goals exact ⟨_, refused.2 ▸ rendered, rfl, refused.1.symm⟩

variable [Host]

theorem Admitted.lacksRender_eq_false {d : Definition ρ} (admitted : d.Admitted) :
    d.lacksRender = false := by
  have isFunction := admitted.isFunction
  cases render : d.render <;> simp_all [lacksRender, Render.isFunction]

/-- A definition whose pattern can be read and that has something to render matches is run by
rendering the matches of the pattern, and by nothing that could fail besides. -/
theorem apply_eq {d : Definition ρ} (given : d.lacksRender = false) {pattern : Pattern}
    (compiled : d.compile = .ok pattern) (call : Caller ρ σ) (text : String) :
    d.apply call text = (do
      let (replaced, count) ← pattern.replace (d.output call) text
      Action.record ⟨.debug, .pipeline, s!"Transform '{d.name.shown}' replaced {count} match(es)"⟩
      return replaced) := by
  have compiledAction : (d.compiled : Action σ Pattern) = pure pattern := by
    unfold compile at compiled
    simp only [Definition.compiled, Pattern.compiled, compiled]
  simp [apply, compiledAction, given]

/-- A run of an admitted definition fails at one of the matches, when those before it are
rendered. -/
theorem Admitted.apply_eq_error {d : Definition ρ} (admitted : d.Admitted) {pattern : Pattern}
    (compiled : d.compile = .ok pattern) {call : Caller ρ σ} {text : String}
    {traced left : Traced σ} {fault : Fault}
    (failed : (d.apply call text).runOn traced = (.error fault, left)) :
    ∃ earlier found later outputs between,
      pattern.findIn text.toList = earlier ++ found :: later ∧
      (earlier.mapM fun one => d.output call (pattern.capturesOf one)).runOn traced =
        (.ok outputs, between) ∧
      d.RenderFails call (pattern.capturesOf found) between fault left := by
  rw [apply_eq admitted.lacksRender_eq_false compiled] at failed
  rcases Action.runOn_bind_eq_error failed with replacing | ⟨_, _, _, recording⟩
  · unfold Pattern.replace at replacing
    rcases Action.runOn_bind_eq_error replacing with rendering | ⟨_, _, _, splicing⟩
    · obtain ⟨earlier, found, later, outputs, between, split, done, atFound⟩ :=
        Action.runOn_mapM_eq_error rendering
      exact ⟨earlier, found, later, outputs, between, split, done, renderFails_of_output atFound⟩
    · simp at splicing
  · simp [Action.runOn_map, Except.map] at recording

end Definition

/-- How a run fails in a call of a render function: the transforms before that of the call have been
run, and the matches of this transform before that of the call have been rendered. -/
def FailsInRender [Host] (call : Caller ρ σ) (definitions : List (Definition ρ)) (text : String)
    (traced : Traced σ) (fault : Fault) (left : Traced σ) : Prop :=
  ∃ (earlier : List (Definition ρ)) (d : Definition ρ) (later : List (Definition ρ))
      (buffer : String) (started : Traced σ) (pattern : Pattern) (done : List Match)
      (found : Match) (ahead : List Match) (outputs : List String) (reached : Traced σ),
    definitions = earlier ++ d :: later ∧
    Action.runOn (earlier.foldlM (fun buffer d => d.apply call buffer) text) traced =
      (.ok buffer, started) ∧
    d.compile = .ok pattern ∧
    pattern.findIn buffer.toList = done ++ found :: ahead ∧
    Action.runOn (done.mapM fun one => d.output call (pattern.capturesOf one)) started =
      (.ok outputs, reached) ∧
    d.RenderFails call (pattern.capturesOf found) reached fault left

/-- A run over admitted definitions fails in no other way than in a call of a render function. -/
theorem failsInRender_of_runPipeline [Host] {definitions : List (Definition ρ)}
    (admitted : ∀ d ∈ definitions, d.Admitted) {call : Caller ρ σ} {text : String}
    {traced left : Traced σ} {fault : Fault}
    (failed : (runPipeline call definitions text).runOn traced = (.error fault, left)) :
    FailsInRender call definitions text traced fault left := by
  unfold runPipeline at failed
  by_cases isEmpty : text.isEmpty
  · simp [isEmpty] at failed
  simp only [isEmpty, if_false, Bool.false_eq_true, bind_pure_comp] at failed
  rcases Action.runOn_bind_eq_error failed with folding | ⟨_, _, _, recording⟩
  · obtain ⟨earlier, d, later, buffer, started, split, run, atDefinition⟩ :=
      Action.runOn_foldlM_eq_error folding
    have admittedHere := admitted d (by simp [split])
    obtain ⟨pattern, compiled⟩ := admittedHere.2
    obtain ⟨done, found, ahead, outputs, reached, cut, rendered, atFound⟩ :=
      admittedHere.apply_eq_error compiled atDefinition
    exact ⟨earlier, d, later, buffer, started, pattern, done, found, ahead, outputs, reached, split,
      run, compiled, cut, rendered, atFound⟩
  · simp [Action.runOn_map, Except.map] at recording

namespace Registry

/-- Where names differ, a name is looked up as the definition that stands at its place. -/
theorem WellFormed.lookup?_eq [Host] {registry : Registry ρ} (wellFormed : registry.WellFormed)
    {place : Nat} {name : String} (atPlace : registry.names[place]? = some name) :
    registry.lookup? name = registry.definitions[place]? := by
  have nodup := wellFormed.nodup_names
  obtain ⟨entries⟩ := registry
  simp only [names, lookup?, definitions] at nodup atPlace ⊢
  clear wellFormed
  induction entries generalizing place with
  | nil => simp at atPlace
  | cons entry entries ih =>
    obtain ⟨first, definition⟩ := entry
    simp only [List.map_cons, List.nodup_cons] at nodup
    cases place with
    | zero =>
      simp only [List.map_cons, List.getElem?_cons_zero, Option.some.injEq] at atPlace
      simp [atPlace]
    | succ place =>
      simp only [List.map_cons, List.getElem?_cons_succ] at atPlace
      have later : name ∈ entries.map (·.1) := List.mem_of_getElem? atPlace
      have differs : (name == first) = false := by
        simpa using fun isFirst : name = first => nodup.1 (isFirst ▸ later)
      simpa [List.lookup_cons, differs] using ih atPlace nodup.2

theorem isSome_lookup?_iff (registry : Registry ρ) (name : String) :
    (registry.lookup? name).isSome ↔ name ∈ registry.names := by
  simp [lookup?, names]

/-- After any sequence of operations, failed ones included, the names of a registry differ, its
definitions stand under their names in the order of the names, looking a name up gives the
definition at its place, and every definition passes the checks of a registration.  A run of the
definitions over a text therefore fails only in a call of a render function. -/
theorem afterAll_consistent [Host] (operations : List (Operation ρ)) :
    (afterAll operations).names.Nodup ∧
    (afterAll operations).definitions.map (·.name) = (afterAll operations).names.map .text ∧
    (∀ name, ((afterAll operations).lookup? name).isSome ↔ name ∈ (afterAll operations).names) ∧
    (∀ (place : Nat) name, (afterAll operations).names[place]? = some name →
      (afterAll operations).lookup? name = (afterAll operations).definitions[place]?) ∧
    (∀ d ∈ (afterAll operations).definitions, d.validate = .ok () ∧ d.lacksRender = false ∧
      ∃ pattern, d.compile = .ok pattern) ∧
    ∀ {σ : Type} (call : Caller ρ σ) (text : String) (traced left : Traced σ) (fault : Fault),
      (runPipeline call (afterAll operations).definitions text).runOn traced =
        (.error fault, left) →
        FailsInRender call (afterAll operations).definitions text traced fault left := by
  have wellFormed := wellFormed_afterAll operations
  have admitted : ∀ d ∈ (afterAll operations).definitions, d.Admitted := by
    intro d d_mem
    obtain ⟨entry, entry_mem, rfl⟩ := List.mem_map.mp d_mem
    exact wellFormed.admitted entry entry_mem
  refine ⟨wellFormed.nodup_names, ?_, isSome_lookup?_iff _, ?_, ?_, ?_⟩
  · simp only [definitions, names, List.map_map]
    exact List.map_congr_left wellFormed.name_eq
  · exact fun place name atPlace => wellFormed.lookup?_eq atPlace
  · exact fun d d_mem =>
      ⟨(admitted d d_mem).1, (admitted d d_mem).lacksRender_eq_false, (admitted d d_mem).2⟩
  · exact fun call text traced left fault failed => failsInRender_of_runPipeline admitted failed

end Registry

end Markflow
