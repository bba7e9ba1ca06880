import Markflow.Proofs.Regex.Place
import Mathlib.Data.List.Basic

/-!
# What ways pass over

A way of an expression passes over a text: it leads from the place where it starts to the place
where it ends.  `Node.consumes` tells the expressions whose ways always pass over at least one
character (`Node.leads_of_mem_ways`).  Their repetitions obey the equations of the mathematical
repetition, without any bound on the number of steps (`ways_loop_succ`, `ways_greedy_zero`,
`ways_lazy_zero`).
-/

namespace Markflow.Regex

namespace State

@[simp]
theorem cursor_begin (cursor : Cursor) (groupCount : Nat) :
    (State.begin cursor groupCount).cursor = cursor := rfl

@[simp]
theorem cursor_enter (s : State) (index : Nat) : (s.enter index).cursor = s.cursor := rfl

@[simp]
theorem cursor_leave (s : State) (index : Nat) : (s.leave index).cursor = s.cursor := rfl

/-- One state is reached from another by passing over a text, which is not empty if it has to
move. -/
def Reaches (s t : State) (moving : Bool) : Prop :=
  ∃ text, s.cursor.Leads text t.cursor ∧ (moving = true → text ≠ [])

namespace Reaches

theorem refl (s : State) : s.Reaches s false :=
  ⟨[], .refl _, by simp⟩

theorem of_cursor_eq {s t : State} (same : t.cursor = s.cursor) : s.Reaches t false :=
  ⟨[], same ▸ .refl _, by simp⟩

theorem mono {s t : State} {moving less : Bool} (reaches : s.Reaches t moving)
    (implied : less = true → moving = true) : s.Reaches t less := by
  obtain ⟨text, leads, nonempty⟩ := reaches
  exact ⟨text, leads, fun asked => nonempty (implied asked)⟩

theorem trans {s t u : State} {first second : Bool} (start : s.Reaches t first)
    (next : t.Reaches u second) : s.Reaches u (first || second) := by
  obtain ⟨firstText, firstLeads, firstNonempty⟩ := start
  obtain ⟨secondText, secondLeads, secondNonempty⟩ := next
  refine ⟨firstText ++ secondText, firstLeads.trans secondLeads, ?_⟩
  intro moved
  rcases Bool.or_eq_true_iff.mp moved with inFirst | inSecond
  · simp [firstNonempty inFirst]
  · simp [secondNonempty inSecond]

theorem ahead_lt {s t : State} (reaches : s.Reaches t true) : t.cursor.ahead < s.cursor.ahead := by
  obtain ⟨text, leads, nonempty⟩ := reaches
  have := List.length_pos_iff.mpr (nonempty rfl)
  have := leads.ahead_eq
  omega

theorem offset_lt {s t : State} (reaches : s.Reaches t true) :
    s.cursor.offset < t.cursor.offset := by
  obtain ⟨text, leads, nonempty⟩ := reaches
  have := List.length_pos_iff.mpr (nonempty rfl)
  have := leads.offset_eq
  omega

end Reaches

end State

section Loops

variable {body : State → List State} {moving : Bool} {least : Nat} {most : Option Nat}

theorem reaches_of_mem_loopWays (reaches : ∀ s, ∀ t ∈ body s, s.Reaches t moving) (more : Bool)
    (fuel count : Nat) (last : Option Nat) {s t : State}
    (mem : t ∈ loopWays more body least most fuel count last s) :
    s.Reaches t (decide (count < least) && moving) := by
  induction fuel generalizing count last s with
  | zero => simp [loopWays] at mem
  | succ fuel ih =>
    simp only [loopWays] at mem
    by_cases required : count < least
    · simp only [required, if_true, List.mem_flatMap] at mem
      obtain ⟨u, u_mem, t_mem⟩ := mem
      exact ((reaches s u u_mem).trans (ih _ _ t_mem)).mono (by simp_all)
    · simp only [required, if_false] at mem
      have further : t = s ∨ ∃ u ∈ body s,
          t ∈ loopWays more body least most fuel (count + 1) (some s.cursor.offset) u := by
        by_cases again : mayRepeat most count last s <;> cases more <;> simp [again] at mem
        · exact mem
        · exact mem.symm
        · exact .inl mem
        · exact .inl mem
      rcases further with rfl | ⟨u, u_mem, t_mem⟩
      · exact (State.Reaches.refl t).mono (by simp [required])
      · exact ((reaches s u u_mem).trans (ih _ _ t_mem)).mono (by simp [required])

theorem reaches_of_possessiveLoop {run : Rest → Rest}
    (reaches : ∀ s t, run some s = some t → s.Reaches t moving) (fuel count : Nat)
    (last : Option Nat) {s t : State}
    (done : possessiveLoop run least most fuel count last s = some t) :
    s.Reaches t (decide (count < least) && moving) := by
  induction fuel generalizing count last s with
  | zero => simp [possessiveLoop] at done
  | succ fuel ih =>
    simp only [possessiveLoop] at done
    by_cases required : count < least
    · simp only [required, if_true] at done
      rcases first : run some s with _ | u
      · simp [first] at done
      · rw [first] at done
        exact ((reaches s u first).trans (ih _ _ done)).mono (by simp_all)
    · simp only [required, if_false] at done
      by_cases again : mayRepeat most count last s
      · simp only [again, if_true] at done
        rcases first : run some s with _ | u
        · obtain rfl : s = t := by simpa [first] using done
          exact (State.Reaches.refl s).mono (by simp [required])
        · rw [first] at done
          exact ((reaches s u first).trans (ih _ _ done)).mono (by simp [required])
      · obtain rfl : s = t := by simpa [again] using done
        exact (State.Reaches.refl s).mono (by simp [required])

end Loops

namespace Node

/-- Whether every way of an expression passes over at least one character. -/
def consumes : Node → Bool
  | empty => false
  | one _ => true
  | seq first second => first.consumes || second.consumes
  | either first second => first.consumes && second.consumes
  | group _ body => body.consumes
  | sameAs _ _ => false
  | anchor _ => false
  | loop _ least _ body => decide (0 < least) && body.consumes
  | ahead _ _ => false
  | behind _ _ _ => false
  | atomic body => body.consumes
  | ifGroup _ yes no => yes.consumes && no.consumes

/-- Every way of an expression passes over a text. -/
theorem reaches_of_mem_ways (node : Node) {s t : State} (mem : t ∈ node.ways s) :
    s.Reaches t node.consumes := by
  induction node generalizing s t with
  | empty =>
    obtain rfl : t = s := by simpa [ways] using mem
    exact State.Reaches.refl t
  | one set =>
    rcases next : s.cursor.next? with _ | ⟨c, cursor⟩
    · simp [ways, next] at mem
    · simp only [ways, next] at mem
      split at mem
      · obtain rfl := List.mem_singleton.mp mem
        exact ⟨[c], .of_next? next, by simp⟩
      · simp at mem
  | seq first second ihFirst ihSecond =>
    obtain ⟨u, u_mem, t_mem⟩ := List.mem_flatMap.mp mem
    exact (ihFirst u_mem).trans (ihSecond t_mem)
  | either first second ihFirst ihSecond =>
    rcases List.mem_append.mp mem with inFirst | inSecond
    · exact (ihFirst inFirst).mono fun both => (Bool.and_eq_true_iff.mp both).1
    · exact (ihSecond inSecond).mono fun both => (Bool.and_eq_true_iff.mp both).2
  | group index body ih =>
    obtain ⟨u, u_mem, rfl⟩ := List.mem_map.mp mem
    have entered : (s.enter index).Reaches u body.consumes := ih u_mem
    exact entered
  | sameAs index mode =>
    simp only [ways] at mem
    rcases set : s.groupText? index with _ | text
    · simp [set] at mem
    · simp only [set] at mem
      rcases skipped : s.cursor.skip? mode text with _ | cursor
      · simp [skipped] at mem
      · simp only [skipped] at mem
        obtain rfl := List.mem_singleton.mp mem
        obtain ⟨passed, leads⟩ := Cursor.Leads.of_skip? skipped
        exact ⟨passed, leads, by simp [consumes]⟩
  | anchor place =>
    simp only [ways] at mem
    split at mem
    · obtain rfl := List.mem_singleton.mp mem
      exact State.Reaches.refl t
    · simp at mem
  | loop greed least most body ih =>
    cases greed with
    | greedy => exact reaches_of_mem_loopWays (fun s t => ih) _ _ _ _ mem
    | lazy => exact reaches_of_mem_loopWays (fun s t => ih) _ _ _ _ mem
    | possessive =>
      refine reaches_of_possessiveLoop (fun u v first => ?_) _ _ _ (Option.mem_toList.mp mem)
      rw [findSome?_some_eq_head?] at first
      exact ih (List.mem_of_head? first)
  | ahead holds body ih =>
    cases holds with
    | true =>
      simp only [ways, Option.mem_toList, Option.map_eq_some_iff] at mem
      obtain ⟨u, _, rfl⟩ := mem
      exact State.Reaches.of_cursor_eq rfl
    | false =>
      simp only [ways] at mem
      split at mem
      · obtain rfl := List.mem_singleton.mp mem
        exact State.Reaches.refl t
      · simp at mem
  | behind holds width body ih =>
    cases holds with
    | true =>
      simp only [ways] at mem
      rcases back : s.cursor.backBy? width with _ | cursor
      · simp [back] at mem
      · simp only [back, Option.mem_toList, Option.map_eq_some_iff] at mem
        obtain ⟨u, _, rfl⟩ := mem
        exact State.Reaches.of_cursor_eq rfl
    | false =>
      simp only [ways] at mem
      rcases back : s.cursor.backBy? width with _ | cursor
      · obtain rfl : t = s := by simpa [back] using mem
        exact State.Reaches.refl t
      · simp only [back] at mem
        split at mem
        · obtain rfl := List.mem_singleton.mp mem
          exact State.Reaches.refl t
        · simp at mem
  | atomic body ih => exact ih (List.mem_of_head? (Option.mem_toList.mp mem))
  | ifGroup index yes no ihYes ihNo =>
    simp only [ways] at mem
    split at mem
    · exact (ihYes mem).mono fun both => (Bool.and_eq_true_iff.mp both).1
    · exact (ihNo mem).mono fun both => (Bool.and_eq_true_iff.mp both).2

end Node

/-- With a body that always moves on, the ways of a repetition depend on how many repetitions are
still required and allowed, and not on the number of steps, if it is large enough, or on where the
last repetition began. -/
theorem loopWays_congr {body : State → List State} (moves : ∀ s, ∀ t ∈ body s, s.Reaches t true)
    (more : Bool) {least least' : Nat} {most most' : Option Nat} {fuel fuel' count count' : Nat}
    {last last' : Option Nat} {s : State} (required : least - count = least' - count')
    (allowed : ∀ k, most.all (count + k < ·) = most'.all (count' + k < ·))
    (enough : s.cursor.ahead < fuel) (enough' : s.cursor.ahead < fuel')
    (before : ∀ o ∈ last, o < s.cursor.offset) (before' : ∀ o ∈ last', o < s.cursor.offset) :
    loopWays more body least most fuel count last s =
      loopWays more body least' most' fuel' count' last' s := by
  induction fuel generalizing fuel' count count' last last' s with
  | zero => omega
  | succ fuel ih =>
    obtain _ | fuel' := fuel'
    · omega
    have fresh : ∀ last : Option Nat, (∀ o ∈ last, o < s.cursor.offset) →
        (last != some s.cursor.offset) = true := by
      intro last before
      cases last with
      | none => rfl
      | some o => simpa using Nat.ne_of_lt (before o rfl)
    have sameRepeat : mayRepeat most' count' last' s = mayRepeat most count last s := by
      have here := allowed 0
      simp only [Nat.add_zero] at here
      simp only [mayRepeat, here, fresh last before, fresh last' before']
    have again : ∀ next next' : Option Nat, (∀ o ∈ next, o ≤ s.cursor.offset) →
        (∀ o ∈ next', o ≤ s.cursor.offset) →
        (body s).flatMap (loopWays more body least most fuel (count + 1) next) =
          (body s).flatMap (loopWays more body least' most' fuel' (count' + 1) next') := by
      intro next next' nextBefore nextBefore'
      apply List.flatMap_congr
      intro t t_mem
      have aheadLess := (moves s t t_mem).ahead_lt
      have offsetMore := (moves s t t_mem).offset_lt
      apply ih
      · omega
      · intro k
        have later := allowed (k + 1)
        simpa only [Nat.add_assoc, Nat.add_comm k 1] using later
      · omega
      · omega
      · exact fun o o_mem => Nat.lt_of_le_of_lt (nextBefore o o_mem) offsetMore
      · exact fun o o_mem => Nat.lt_of_le_of_lt (nextBefore' o o_mem) offsetMore
    have sameRequired : count < least ↔ count' < least' := by omega
    simp only [loopWays, sameRepeat, sameRequired]
    rw [again last last' (fun o o_mem => Nat.le_of_lt (before o o_mem))
        (fun o o_mem => Nat.le_of_lt (before' o o_mem)),
      again (some s.cursor.offset) (some s.cursor.offset) (by simp) (by simp)]

namespace Node

variable {body : Node} (consumes : body.consumes = true)

include consumes

theorem reaches_true_of_mem_ways : ∀ s, ∀ t ∈ body.ways s, s.Reaches t true :=
  fun _ _ t_mem => consumes ▸ reaches_of_mem_ways body t_mem

theorem loopWays_succ (more : Bool) (least : Nat) (most : Option Nat) (s : State) :
    loopWays more body.ways (least + 1) (most.map (· + 1)) (loopFuel (least + 1) s) 0 none s =
      (body.ways s).flatMap fun t => loopWays more body.ways least most (loopFuel least t) 0
        none t := by
  have moves := reaches_true_of_mem_ways consumes
  have fuel_eq : loopFuel (least + 1) s = (least + s.cursor.ahead + 2) + 1 := by
    simp only [loopFuel]
    omega
  rw [fuel_eq, loopWays]
  simp only [Nat.zero_lt_succ, if_true]
  apply List.flatMap_congr
  intro t t_mem
  have aheadLess := (moves s t t_mem).ahead_lt
  apply loopWays_congr moves
  · omega
  · intro k
    cases most <;> simp [Nat.add_comm]
  · omega
  · simp only [loopFuel]
    omega
  · simp
  · simp

theorem loopWays_zero_succ (more : Bool) (most : Option Nat) (s : State) :
    loopWays more body.ways 0 (most.map (· + 1)) (loopFuel 0 s) 0 none s =
      let further :=
        (body.ways s).flatMap fun t => loopWays more body.ways 0 most (loopFuel 0 t) 0 none t
      if more then further ++ [s] else s :: further := by
  have moves := reaches_true_of_mem_ways consumes
  have fuel_eq : loopFuel 0 s = (s.cursor.ahead + 1) + 1 := by
    simp only [loopFuel]
    omega
  have allowed : mayRepeat (most.map (· + 1)) 0 none s = true := by
    cases most <;> simp [mayRepeat]
  have again : (body.ways s).flatMap (loopWays more body.ways 0 (most.map (· + 1))
      (s.cursor.ahead + 1) (0 + 1) (some s.cursor.offset)) =
        (body.ways s).flatMap fun t => loopWays more body.ways 0 most (loopFuel 0 t) 0 none t := by
    apply List.flatMap_congr
    intro t t_mem
    have aheadLess := (moves s t t_mem).ahead_lt
    have offsetMore := (moves s t t_mem).offset_lt
    apply loopWays_congr moves
    · omega
    · intro k
      cases most <;> simp [Nat.add_comm]
    · omega
    · simp only [loopFuel]
      omega
    · simpa using offsetMore
    · simp
  rw [fuel_eq, loopWays]
  simp only [Nat.not_lt_zero, if_false, allowed, if_true, again]

/-- A required repetition. -/
theorem ways_loop_succ {greed : Greed} (backtracks : greed ≠ .possessive) (least : Nat)
    (most : Option Nat) (s : State) :
    (loop greed (least + 1) (most.map (· + 1)) body).ways s =
      (body.ways s).flatMap (loop greed least most body).ways := by
  cases greed with
  | greedy => exact loopWays_succ consumes true least most s
  | lazy => exact loopWays_succ consumes false least most s
  | possessive => exact absurd rfl backtracks

/-- A repetition that is not required and preferred to stopping. -/
theorem ways_greedy_zero (most : Option Nat) (s : State) :
    (loop .greedy 0 (most.map (· + 1)) body).ways s =
      (body.ways s).flatMap (loop .greedy 0 most body).ways ++ [s] :=
  loopWays_zero_succ consumes true most s

/-- A repetition that is not required and tried after stopping. -/
theorem ways_lazy_zero (most : Option Nat) (s : State) :
    (loop .lazy 0 (most.map (· + 1)) body).ways s =
      s :: (body.ways s).flatMap (loop .lazy 0 most body).ways :=
  loopWays_zero_succ consumes false most s

/-- What follows a repetition that prefers more: it is tried behind a further repetition and then,
if no repetition is required, here. -/
theorem flatMap_greedy (next : State → List State) (least : Nat) (s : State) :
    ((loop .greedy least none body).ways s).flatMap next =
      ((body.ways s).flatMap fun t => ((loop .greedy (least - 1) none body).ways t).flatMap next) ++
        if least = 0 then next s else [] := by
  cases least with
  | zero =>
    have again := ways_greedy_zero consumes none s
    rw [Option.map_none] at again
    rw [again]
    simp [List.flatMap_assoc]
  | succ least =>
    have again := ways_loop_succ consumes (show Greed.greedy ≠ .possessive by simp) least none s
    rw [Option.map_none] at again
    rw [again]
    simp [List.flatMap_assoc]

omit consumes

/-- No further repetition is allowed. -/
theorem ways_loop_zero_zero {greed : Greed} (backtracks : greed ≠ .possessive) (s : State) :
    (loop greed 0 (some 0) body).ways s = [s] := by
  cases greed with
  | greedy => simp [ways, loopFuel, loopWays, mayRepeat]
  | lazy => simp [ways, loopFuel, loopWays, mayRepeat]
  | possessive => exact absurd rfl backtracks

end Node

end Markflow.Regex
