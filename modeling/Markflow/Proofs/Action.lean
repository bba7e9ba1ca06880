import Markflow.Action

/-!
# Runs of actions

An action is run on a traced state.  The equations below say what a run of each building block is,
so that later proofs never open the transformers behind `Action`; `runOn_bind_eq_error` and its
companions for lists find the step in which a run fails.
-/

namespace Markflow.Action

variable {σ α β : Type}

/-- What an action gives, and the state and the records that it leaves. -/
def runOn (action : Action σ α) (traced : Traced σ) : Except Fault α × Traced σ :=
  (ExceptT.run action).run traced

theorem runFrom_eq_runOn (action : Action σ α) (state : σ) :
    action.runFrom state = action.runOn ⟨state, []⟩ := rfl

@[simp]
theorem runOn_pure (value : α) (traced : Traced σ) :
    (pure value : Action σ α).runOn traced = (.ok value, traced) := rfl

@[simp]
theorem runOn_throw (fault : Fault) (traced : Traced σ) :
    (throw fault : Action σ α).runOn traced = (.error fault, traced) := rfl

theorem runOn_bind (action : Action σ α) (next : α → Action σ β) (traced : Traced σ) :
    (action >>= next).runOn traced =
      match action.runOn traced with
      | (.ok value, left) => (next value).runOn left
      | (.error fault, left) => (.error fault, left) := by
  simp only [runOn, ExceptT.run_bind, StateT.run_bind]
  rcases (ExceptT.run action).run traced with ⟨_ | value, left⟩ <;> rfl

theorem runOn_map (f : α → β) (action : Action σ α) (traced : Traced σ) :
    (f <$> action).runOn traced = ((action.runOn traced).1.map f, (action.runOn traced).2) := by
  rw [← bind_pure_comp, runOn_bind]
  rcases action.runOn traced with ⟨_ | value, left⟩ <;> rfl

@[simp]
theorem runOn_state (traced : Traced σ) :
    (state : Action σ σ).runOn traced = (.ok traced.state, traced) := rfl

@[simp]
theorem runOn_setState (new : σ) (traced : Traced σ) :
    (setState new).runOn traced = (.ok (), { traced with state := new }) := rfl

@[simp]
theorem runOn_record (entry : Record) (traced : Traced σ) :
    (record entry : Action σ Unit).runOn traced =
      (.ok (), { traced with records := traced.records ++ [entry] }) := rfl

@[simp]
theorem runOn_ofExcept (outcome : Except Fault α) (traced : Traced σ) :
    (ofExcept outcome : Action σ α).runOn traced = (outcome, traced) := by
  cases outcome <;> rfl

@[simp]
theorem runOn_forM_record (entries : List Record) (traced : Traced σ) :
    (forM entries record : Action σ Unit).runOn traced =
      (.ok (), { traced with records := traced.records ++ entries }) := by
  induction entries generalizing traced with
  | nil => simp
  | cons entry entries ih => simp [runOn_bind, ih]

@[simp]
theorem runOn_option_forM_record (entry : Option Record) (traced : Traced σ) :
    (forM entry record : Action σ Unit).runOn traced =
      (.ok (), { traced with records := traced.records ++ entry.toList }) := by
  cases entry <;> simp

/-- A run of two actions fails in the first, or in the second after the first. -/
theorem runOn_bind_eq_error {action : Action σ α} {next : α → Action σ β} {traced left : Traced σ}
    {fault : Fault} (failed : (action >>= next).runOn traced = (.error fault, left)) :
    action.runOn traced = (.error fault, left) ∨
      ∃ value between, action.runOn traced = (.ok value, between) ∧
        (next value).runOn between = (.error fault, left) := by
  rw [runOn_bind] at failed
  rcases outcome : action.runOn traced with ⟨fault' | value, between⟩
  · rw [outcome] at failed
    exact .inl (by simpa using failed)
  · rw [outcome] at failed
    exact .inr ⟨value, between, rfl, failed⟩

/-- A run of two actions succeeds when both do, one after the other. -/
theorem runOn_bind_eq_ok {action : Action σ α} {next : α → Action σ β} {traced left : Traced σ}
    {result : β} : (action >>= next).runOn traced = (.ok result, left) ↔
      ∃ value between, action.runOn traced = (.ok value, between) ∧
        (next value).runOn between = (.ok result, left) := by
  rw [runOn_bind]
  rcases action.runOn traced with ⟨fault | value, between⟩
  · simp
  · constructor
    · intro ran
      exact ⟨value, between, rfl, ran⟩
    · rintro ⟨_, _, ⟨⟩, ran⟩
      exact ran

/-- An action over the items of a list fails at one of them, when those before it are done. -/
theorem runOn_mapM_eq_error {f : α → Action σ β} {items : List α} {traced left : Traced σ}
    {fault : Fault} (failed : (items.mapM f).runOn traced = (.error fault, left)) :
    ∃ earlier item later values between, items = earlier ++ item :: later ∧
      (earlier.mapM f).runOn traced = (.ok values, between) ∧
      (f item).runOn between = (.error fault, left) := by
  induction items generalizing traced with
  | nil => simp at failed
  | cons item items ih =>
    rw [List.mapM_cons] at failed
    rcases runOn_bind_eq_error failed with atItem | ⟨value, between, done, failed⟩
    · exact ⟨[], item, items, [], traced, rfl, by simp, atItem⟩
    rcases runOn_bind_eq_error failed with among | ⟨values, _, _, impossible⟩
    · obtain ⟨earlier, other, later, values, reached, rfl, earlierDone, atOther⟩ := ih among
      refine ⟨item :: earlier, other, later, value :: values, reached, rfl, ?_, atOther⟩
      simp [List.mapM_cons, runOn_bind, runOn_map, done, earlierDone, Except.map]
    · simp at impossible

/-- A fold over a list fails at one of the items, when those before it are done. -/
theorem runOn_foldlM_eq_error {f : β → α → Action σ β} {items : List α} {start : β}
    {traced left : Traced σ} {fault : Fault}
    (failed : (items.foldlM f start).runOn traced = (.error fault, left)) :
    ∃ earlier item later value between, items = earlier ++ item :: later ∧
      (earlier.foldlM f start).runOn traced = (.ok value, between) ∧
      (f value item).runOn between = (.error fault, left) := by
  induction items generalizing start traced with
  | nil => simp at failed
  | cons item items ih =>
    rw [List.foldlM_cons] at failed
    rcases runOn_bind_eq_error failed with atItem | ⟨value, between, done, failed⟩
    · exact ⟨[], item, items, start, traced, rfl, by simp, atItem⟩
    · obtain ⟨earlier, other, later, reachedValue, reached, rfl, earlierDone, atOther⟩ := ih failed
      refine ⟨item :: earlier, other, later, reachedValue, reached, rfl, ?_, atOther⟩
      simp [List.foldlM_cons, runOn_bind, done, earlierDone]

/-- An action is run for the items of a list one after the other, once for each, and gives the
values. -/
inductive InTurn (f : α → Action σ β) : List α → List β → Traced σ → Traced σ → Prop
  | nil {traced : Traced σ} : InTurn f [] [] traced traced
  | cons {item : α} {items : List α} {value : β} {values : List β} {traced between left : Traced σ}
    (first : (f item).runOn traced = (.ok value, between))
    (others : InTurn f items values between left) :
    InTurn f (item :: items) (value :: values) traced left

theorem InTurn.runOn_mapM {f : α → Action σ β} {items : List α} {values : List β}
    {traced left : Traced σ}
    (inTurn : InTurn f items values traced left) :
    (items.mapM f).runOn traced = (.ok values, left) := by
  induction inTurn with
  | nil => simp
  | cons first others ih => simp [List.mapM_cons, runOn_bind, runOn_map, first, ih, Except.map]

theorem exists_inTurn {f : α → Action σ β} {items : List α}
    (succeeds : ∀ item ∈ items, ∀ traced, ∃ value left, (f item).runOn traced = (.ok value, left))
    (traced : Traced σ) : ∃ values left, InTurn f items values traced left := by
  induction items generalizing traced with
  | nil => exact ⟨[], traced, .nil⟩
  | cons item items ih =>
    rw [List.forall_mem_cons] at succeeds
    obtain ⟨value, between, first⟩ := succeeds.1 traced
    obtain ⟨values, left, others⟩ := ih succeeds.2 between
    exact ⟨value :: values, left, .cons first others⟩

/-- From a state an action gives a value and leaves a state, whatever it records. -/
def Gives (action : Action σ α) (start : σ) (value : α) (stop : σ) : Prop :=
  ∀ records, ∃ more, action.runOn ⟨start, records⟩ = (.ok value, ⟨stop, more⟩)

theorem gives_pure (value : α) (state : σ) : (pure value : Action σ α).Gives state value state :=
  fun records => ⟨records, rfl⟩

theorem gives_state (start : σ) : (state : Action σ σ).Gives start start start :=
  fun records => ⟨records, rfl⟩

theorem gives_setState (start stop : σ) : (setState stop).Gives start () stop :=
  fun records => ⟨records, rfl⟩

theorem gives_record (entry : Record) (state : σ) : (record entry).Gives state () state :=
  fun records => ⟨records ++ [entry], rfl⟩

theorem gives_ofExcept (value : α) (state : σ) : (ofExcept (.ok value)).Gives state value state :=
  fun records => ⟨records, rfl⟩

theorem gives_forM_record (entries : List Record) (state : σ) :
    (forM entries record : Action σ Unit).Gives state () state :=
  fun records => ⟨records ++ entries, runOn_forM_record entries _⟩

theorem Gives.bind {action : Action σ α} {next : α → Action σ β} {start between stop : σ}
    {value : α} {result : β} (first : action.Gives start value between)
    (second : (next value).Gives between result stop) :
    (action >>= next).Gives start result stop := by
  intro records
  obtain ⟨between, first⟩ := first records
  obtain ⟨more, second⟩ := second between
  exact ⟨more, by rw [runOn_bind, first]; exact second⟩

theorem Gives.map {action : Action σ α} {start stop : σ} {value : α} (f : α → β)
    (gives : action.Gives start value stop) : (f <$> action).Gives start (f value) stop := by
  intro records
  obtain ⟨more, gives⟩ := gives records
  exact ⟨more, by rw [runOn_map, gives]; rfl⟩

theorem gives_mapM {f : α → Action σ β} {g : α → β} {state : σ}
    (gives : ∀ item, (f item).Gives state (g item) state) (items : List α) :
    (items.mapM f).Gives state (items.map g) state := by
  induction items with
  | nil => exact gives_pure _ _
  | cons item items ih =>
    rw [List.mapM_cons]
    exact (gives item).bind (ih.bind (gives_pure _ _))

theorem gives_foldlM {f : β → α → Action σ β} {g : β → α → β} {state : σ}
    (gives : ∀ value item, (f value item).Gives state (g value item) state) (items : List α)
    (start : β) : (items.foldlM f start).Gives state (items.foldl g start) state := by
  induction items generalizing start with
  | nil => exact gives_pure _ _
  | cons item items ih =>
    rw [List.foldlM_cons]
    exact (gives start item).bind (ih _)

/-- Actions one after the other lead from state to state. -/
theorem gives_forM {f : α → Action σ Unit} {step : σ → α → σ} {items : List α} {start : σ}
    (gives : ∀ earlier item later, items = earlier ++ item :: later →
      (f item).Gives (earlier.foldl step start) () (step (earlier.foldl step start) item)) :
    (items.forM f).Gives start () (items.foldl step start) := by
  induction items generalizing start with
  | nil => exact gives_pure _ _
  | cons item items ih =>
    refine Gives.bind (gives [] item items rfl) (ih ?_)
    intro earlier next later split
    exact gives (item :: earlier) next later (by rw [split]; rfl)

end Markflow.Action
