import Markflow.Captures
import Mathlib.Algebra.Order.Group.Unbundled.Int
import Mathlib.Data.List.Basic
import Mathlib.Tactic.Ring

/-!
# Slices

A slice has a place when steps of its size lead there from where it begins, before its stop is
reached (`InSlice`).  The places of a slice are these, each once and in the order in which they are
reached (`mem_slicePlaces_iff`, `pairwise_slicePlaces`); that its bounds are moved to the ends of
the items does not change which they are.
-/

namespace Markflow.Captures

/-- The place that a bound stands for among `length` items, maybe outside of them.  A negative bound
counts from the end. -/
def fromFront (length : Nat) (bound : Int) : Int :=
  if bound < 0 then bound + length else bound

/-- Where a slice begins.  A start that lies before all items, as the steps go, is moved to the
first of them. -/
def sliceBegin (length : Nat) (start : Option Int) (step : Int) : Int :=
  if 0 < step then (start.map fun bound => max 0 (fromFront length bound)).getD 0
  else (start.map fun bound => min (length - 1 : Int) (fromFront length bound)).getD (length - 1)

/-- A slice of `length` items has a place. -/
structure InSlice (length : Nat) (start stop : Option Int) (step : Int) (place : Nat) : Prop where
  inside : place < length
  reached : ∃ steps : Nat, (place : Int) = sliceBegin length start step + step * steps
  before : ∀ bound ∈ stop, if 0 < step then place < fromFront length bound
    else fromFront length bound < place

section Steps

variable {first last step : Int} {place : Nat}

/-- As many steps as are counted stay below a distance. -/
theorem lt_toNat_ediv_iff {distance : Int} (forward : 0 < step) {steps : Nat} :
    steps < ((distance + step - 1) / step).toNat ↔ step * steps < distance := by
  rw [Int.lt_toNat, Int.lt_iff_add_one_le, Int.le_ediv_iff_mul_le forward, Int.add_mul, Int.one_mul,
    Int.mul_comm]
  omega

/-- The places that steps lead to before a last one, in either direction. -/
def stepPlaces (first last step : Int) : List Nat :=
  (List.range (if 0 < step then ((last - first + step - 1) / step).toNat
    else ((first - last - step - 1) / (-step)).toNat)).map fun (i : Nat) =>
      (first + step * Int.ofNat i).toNat

theorem mem_stepPlaces_of_pos (forward : 0 < step) (first_ge : 0 ≤ first) :
    place ∈ stepPlaces first last step ↔ ∃ steps : Nat,
      (place : Int) = first + step * steps ∧ (place : Int) < last := by
  simp only [stepPlaces, if_pos forward, List.mem_map, List.mem_range, lt_toNat_ediv_iff forward]
  apply exists_congr
  intro steps
  have onward : 0 ≤ step * (steps : Int) :=
    Int.mul_nonneg (Int.le_of_lt forward) (Int.natCast_nonneg steps)
  simp only [Int.ofNat_eq_natCast]
  omega

theorem mem_stepPlaces_of_neg (backward : step < 0) (last_ge : -1 ≤ last) :
    place ∈ stepPlaces first last step ↔ ∃ steps : Nat,
      (place : Int) = first + step * steps ∧ last < (place : Int) := by
  have turned : 0 < -step := by omega
  have count_eq : first - last - step - 1 = first - last + -step - 1 := by ring
  simp only [stepPlaces, if_neg (Int.lt_asymm backward), List.mem_map, List.mem_range, count_eq,
    lt_toNat_ediv_iff turned]
  apply exists_congr
  intro steps
  simp only [Int.ofNat_eq_natCast, Int.neg_mul]
  omega

/-- Steps in one direction lead to ever further places. -/
theorem pairwise_stepPlaces_of_pos (forward : 0 < step) (first_ge : 0 ≤ first) :
    (stepPlaces first last step).Pairwise (· < ·) := by
  rw [stepPlaces, List.pairwise_map]
  apply List.pairwise_lt_range.imp
  intro earlier later lt
  have onward : 0 ≤ step * (earlier : Int) :=
    Int.mul_nonneg (Int.le_of_lt forward) (Int.natCast_nonneg earlier)
  have further : step * (earlier : Int) < step * later :=
    Int.mul_lt_mul_of_pos_left (Int.ofNat_lt.mpr lt) forward
  simp only [Int.ofNat_eq_natCast]
  omega

theorem pairwise_stepPlaces_of_neg (backward : step < 0) (last_ge : -1 ≤ last) :
    (stepPlaces first last step).Pairwise (· > ·) := by
  have turned : 0 < -step := by omega
  have count_eq : first - last - step - 1 = first - last + -step - 1 := by ring
  rw [stepPlaces, List.pairwise_map, if_neg (Int.lt_asymm backward), count_eq]
  apply List.pairwise_lt_range.imp_of_mem
  intro earlier later _ later_mem lt
  have early := (lt_toNat_ediv_iff turned).mp (List.mem_range.mp later_mem)
  have further : -step * (earlier : Int) < -step * later :=
    Int.mul_lt_mul_of_pos_left (Int.ofNat_lt.mpr lt) turned
  simp only [Int.neg_mul, Int.ofNat_eq_natCast] at *
  omega

end Steps

section Places

variable {length : Nat} {start stop : Option Int} {step : Int} {place : Nat}

/-- A bound moved into the items, or to where the steps leave them. -/
def clamped (length : Nat) (step bound : Int) : Int :=
  if 0 < step then max 0 (min (fromFront length bound) length)
  else max (-1) (min (fromFront length bound) (length - 1))

/-- The place that the steps start from. -/
def sliceFirst (length : Nat) (start : Option Int) (step : Int) : Int :=
  (start.map (clamped length step)).getD (if 0 < step then 0 else length - 1)

/-- The place that the steps stop at or before. -/
def sliceLast (length : Nat) (stop : Option Int) (step : Int) : Int :=
  (stop.map (clamped length step)).getD (if 0 < step then length else -1)

theorem slicePlaces_eq (length : Nat) (start stop : Option Int) (step : Int) :
    slicePlaces length start stop step =
      stepPlaces (sliceFirst length start step) (sliceLast length stop step) step := by
  unfold slicePlaces sliceFirst sliceLast clamped
  by_cases forward : 0 < step
  · cases start <;> cases stop <;> simp [forward, stepPlaces, fromFront]
  · cases start <;> cases stop <;> simp [forward, stepPlaces, fromFront]

theorem sliceFirst_of_pos (forward : 0 < step) :
    sliceFirst length start step = min (sliceBegin length start step) length := by
  cases start with
  | none => simp [sliceFirst, sliceBegin, forward]
  | some bound =>
    simp only [sliceFirst, sliceBegin, clamped, if_pos forward, Option.map_some, Option.getD_some]
    omega

theorem sliceFirst_of_neg (backward : step < 0) :
    sliceFirst length start step = max (-1) (sliceBegin length start step) := by
  cases start with
  | none =>
    simp only [sliceFirst, sliceBegin, if_neg (Int.lt_asymm backward), Option.map_none,
      Option.getD_none]
    omega
  | some bound =>
    simp only [sliceFirst, sliceBegin, clamped, if_neg (Int.lt_asymm backward), Option.map_some,
      Option.getD_some]
    omega

theorem lt_sliceLast_iff (forward : 0 < step) :
    (place : Int) < sliceLast length stop step ↔ place < length ∧ ∀ bound ∈ stop,
      place < fromFront length bound := by
  cases stop with
  | none => simp [sliceLast, forward]
  | some bound =>
    simp only [sliceLast, clamped, if_pos forward, Option.map_some, Option.getD_some,
      Option.mem_def, Option.some.injEq, forall_eq']
    omega

theorem sliceLast_lt_iff (backward : step < 0) (inside : place < length) :
    sliceLast length stop step < (place : Int) ↔ ∀ bound ∈ stop,
      fromFront length bound < place := by
  cases stop with
  | none =>
    simp only [sliceLast, if_neg (Int.lt_asymm backward), Option.map_none, Option.getD_none]
    exact iff_of_true (by omega) (by simp)
  | some bound =>
    simp only [sliceLast, clamped, if_neg (Int.lt_asymm backward), Option.map_some,
      Option.getD_some, Option.mem_def, Option.some.injEq, forall_eq']
    omega

theorem sliceBegin_nonneg (forward : 0 < step) : 0 ≤ sliceBegin length start step := by
  rw [sliceBegin, if_pos forward]
  cases start with
  | none => exact Int.le_refl 0
  | some bound => exact Int.le_max_left 0 _

theorem sliceBegin_lt (backward : step < 0) : sliceBegin length start step < length := by
  rw [sliceBegin, if_neg (Int.lt_asymm backward)]
  cases start with
  | none => exact Int.sub_one_lt_of_le (Int.le_refl _)
  | some bound => exact Int.lt_of_le_sub_one (Int.min_le_left _ _)

theorem neg_one_le_sliceLast (backward : step < 0) : -1 ≤ sliceLast length stop step := by
  rw [sliceLast, if_neg (Int.lt_asymm backward)]
  cases stop with
  | none => exact Int.le_refl (-1)
  | some bound =>
    simp only [clamped, if_neg (Int.lt_asymm backward), Option.map_some, Option.getD_some]
    exact Int.le_max_left _ _

theorem sliceFirst_nonneg (forward : 0 < step) : 0 ≤ sliceFirst length start step := by
  rw [sliceFirst_of_pos forward]
  exact Int.le_min.mpr ⟨sliceBegin_nonneg forward, Int.natCast_nonneg length⟩

theorem mem_slicePlaces_of_neg (backward : step < 0) :
    place ∈ slicePlaces length start stop step ↔ InSlice length start stop step place := by
  rw [slicePlaces_eq, mem_stepPlaces_of_neg backward (neg_one_le_sliceLast backward),
    sliceFirst_of_neg backward]
  have onward (steps : Nat) : step * (steps : Int) ≤ 0 :=
    Int.mul_nonpos_of_nonpos_of_nonneg (Int.le_of_lt backward) (Int.natCast_nonneg steps)
  have begin_lt : sliceBegin length start step < length := sliceBegin_lt backward
  constructor
  · rintro ⟨steps, place_eq, late⟩
    have passed := onward steps
    have inside : place < length := by omega
    refine ⟨inside, ⟨steps, by omega⟩, ?_⟩
    simpa only [if_neg (Int.lt_asymm backward)] using (sliceLast_lt_iff backward inside).mp late
  · rintro ⟨inside, ⟨steps, place_eq⟩, before⟩
    have passed := onward steps
    refine ⟨steps, by omega, (sliceLast_lt_iff backward inside).mpr ?_⟩
    simpa only [if_neg (Int.lt_asymm backward)] using before

theorem mem_slicePlaces_of_pos (forward : 0 < step) :
    place ∈ slicePlaces length start stop step ↔ InSlice length start stop step place := by
  rw [slicePlaces_eq, mem_stepPlaces_of_pos forward (sliceFirst_nonneg forward),
    sliceFirst_of_pos forward]
  have onward (steps : Nat) : 0 ≤ step * (steps : Int) :=
    Int.mul_nonneg (Int.le_of_lt forward) (Int.natCast_nonneg steps)
  constructor
  · rintro ⟨steps, place_eq, early⟩
    have passed := onward steps
    rcases (lt_sliceLast_iff forward).mp early with ⟨inside, before⟩
    refine ⟨inside, ⟨steps, by omega⟩, ?_⟩
    simpa only [if_pos forward] using before
  · rintro ⟨inside, ⟨steps, place_eq⟩, before⟩
    have passed := onward steps
    refine ⟨steps, by omega, (lt_sliceLast_iff forward).mpr ⟨inside, ?_⟩⟩
    simpa only [if_pos forward] using before

/-- The places of a slice. -/
theorem mem_slicePlaces_iff (stepping : step ≠ 0) :
    place ∈ slicePlaces length start stop step ↔ InSlice length start stop step place :=
  (Int.lt_or_gt_of_ne stepping).elim mem_slicePlaces_of_neg mem_slicePlaces_of_pos

/-- The places of a slice stand in the order of its steps. -/
theorem pairwise_slicePlaces (stepping : step ≠ 0) : (slicePlaces length start stop step).Pairwise
    fun earlier later => if 0 < step then earlier < later else later < earlier := by
  rw [slicePlaces_eq]
  rcases Int.lt_or_gt_of_ne stepping with backward | forward
  · simpa only [if_neg (Int.lt_asymm backward)] using
      pairwise_stepPlaces_of_neg backward (neg_one_le_sliceLast backward)
  · simpa only [if_pos forward] using pairwise_stepPlaces_of_pos forward (sliceFirst_nonneg forward)

end Places

section Items

variable {items : List String} {start stop step : Value}

/-- A bound of a slice as it is given: an index, or nothing. -/
inductive IsBound : Value → Option Int → Prop
  | absent : IsBound .null none
  | index {value : Value} {n : Int} (isIndex : index? value = some n) : IsBound value (some n)

theorem isBound_iff {value : Value} {given : Option Int} :
    IsBound value given ↔ bound value = .ok given := by
  constructor
  · rintro (_ | ⟨isIndex⟩)
    · rfl
    · cases value with
      | null => cases isIndex
      | _ => simp only [bound, isIndex]
  · intro bound_eq
    unfold bound at bound_eq
    split at bound_eq
    · cases bound_eq
      exact .absent
    · split at bound_eq
      · next isIndex =>
        cases bound_eq
        exact .index isIndex
      · cases bound_eq

theorem not_isBound_of_error {value : Value} {fault : Fault}
    (refused : bound value = .error fault) :
    fault = .kind .sliceBound ∧ ∀ given, ¬ IsBound value given := by
  constructor
  · unfold bound at refused
    split at refused
    · cases refused
    · split at refused
      · cases refused
      · cases refused
        rfl
  · intro given isBound
    cases refused.symm.trans (isBound_iff.mp isBound)

/-- The items at the places of a slice, in the order of its steps. -/
def IsSlice (items : List String) (start stop : Option Int) (step : Int) (texts : List String) :
    Prop :=
  ∃ places : List Nat, (∀ place, place ∈ places ↔ InSlice items.length start stop step place) ∧
    (places.Pairwise fun earlier later => if 0 < step then earlier < later else later < earlier) ∧
    texts.map some = places.map (items[·]?)

theorem isSlice_slicePlaces {start stop : Option Int} {step : Int} (stepping : step ≠ 0) :
    IsSlice items start stop step
      ((slicePlaces items.length start stop step).filterMap (items[·]?)) := by
  refine ⟨_, fun place => mem_slicePlaces_iff stepping, pairwise_slicePlaces stepping, ?_⟩
  rw [List.map_filterMap_some_eq_filter_map_isSome, List.filter_eq_self]
  intro item item_mem
  rcases List.mem_map.mp item_mem with ⟨place, mem, rfl⟩
  simpa using ((mem_slicePlaces_iff stepping).mp mem).inside

/-- What a slice of items comes to.  Without a step that is given the steps go from item to item. -/
inductive SliceOutcome (items : List String) (start stop step : Value) :
    Except Fault (List String) → Prop
  | texts {first last size : Option Int} {texts : List String} (isStart : IsBound start first)
      (isStop : IsBound stop last)
      (isStep : IsBound step size) (stepping : size ≠ some 0)
      (isSlice : IsSlice items first last (size.getD 1) texts) :
      SliceOutcome items start stop step (.ok texts)
  | zeroStep (isZero : IsBound step (some 0)) :
      SliceOutcome items start stop step (.error .zeroStep)
  | noBound {value : Value} (given : value ∈ [start, stop, step])
      (noBound : ∀ given, ¬ IsBound value given)
      (noZero : ¬ IsBound step (some 0)) :
      SliceOutcome items start stop step (.error (.kind .sliceBound))

theorem sliceOutcome_slice (items : List String) (start stop step : Value) :
    SliceOutcome items start stop step (slice items start stop step) := by
  unfold slice
  rcases step_eq : bound step with fault | size
  · rcases not_isBound_of_error step_eq with ⟨rfl, noBound⟩
    exact .noBound (by simp) noBound (noBound _)
  have isStep := isBound_iff.mpr step_eq
  by_cases zero : size = some 0
  · rw [zero] at isStep ⊢
    exact .zeroStep isStep
  have stepping : size.getD 1 ≠ 0 := by
    cases size with
    | none => exact Int.one_ne_zero
    | some n => simpa using zero
  have noZero : ¬ IsBound step (some 0) := by
    intro isZero
    exact zero (Except.ok.inj (step_eq.symm.trans (isBound_iff.mp isZero)))
  simp only [bind, Except.bind, pure, Except.pure, if_neg stepping]
  rcases start_eq : bound start with fault | first
  · rcases not_isBound_of_error start_eq with ⟨rfl, noBound⟩
    exact .noBound (by simp) noBound noZero
  rcases stop_eq : bound stop with fault | last
  · rcases not_isBound_of_error stop_eq with ⟨rfl, noBound⟩
    exact .noBound (by simp) noBound noZero
  exact .texts (isBound_iff.mpr start_eq) (isBound_iff.mpr stop_eq) isStep zero
    (isSlice_slicePlaces stepping)

end Items

end Markflow.Captures
