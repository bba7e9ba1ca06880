import Markflow.Proofs.Regex.Reading

/-!
# Reading with and without room

A host matters to the reader in three places: the names of characters, the room for groups inside
each other and the room for going through what is read.  The scant host knows no names and has no
room beyond what is assured: whatever can be read on it is read alike on every host
(`read?_of_scant`).
-/

namespace Markflow

/-- A host that knows no names and has no room but for what there is always room for. -/
@[reducible]
def Host.scant : Host where
  character? _ := none
  exhausted _ := true
  overrun _ := true

namespace Regex

open Read

/-- A step that gives whatever another one gives. -/
def Read.Exceeds {α : Type} (y x : Read α) : Prop :=
  ∀ reading a left, x.run reading = .ok (a, left) → y.run reading = .ok (a, left)

section Exceeds

variable {α β : Type} {x y : Read α} {f g : α → Read β}

theorem Read.Exceeds.rfl : x.Exceeds x :=
  fun _ _ _ ran => ran

theorem Fails.exceeds (fails : Fails x) : y.Exceeds x :=
  fun _ _ _ ran => absurd ran (fails _ _ _)

theorem Read.Exceeds.bind (exceeds : y.Exceeds x) (further : ∀ a, (g a).Exceeds (f a)) :
    (y >>= g).Exceeds (x >>= f) := by
  intro reading b left ran
  rcases run_bind_eq_ok.mp ran with ⟨a, between, ran, ranOn⟩
  exact run_bind_eq_ok.mpr ⟨a, between, exceeds _ _ _ ran, further a _ _ _ ranOn⟩

/-- Behind one and the same step. -/
theorem Read.Exceeds.after (further : ∀ a, (g a).Exceeds (f a)) : (x >>= g).Exceeds (x >>= f) :=
  Read.Exceeds.rfl.bind further

theorem Read.Exceeds.ite {c : Prop} [Decidable c] {x' y' : Read α} (yes : c → y.Exceeds x)
    (no : ¬ c → y'.Exceeds x') : (if c then y else y').Exceeds (if c then x else x') := by
  split
  case isTrue holds => exact yes holds
  case isFalse holds => exact no holds

end Exceeds

theorem eq_ok_of_toOption {ε α : Type} {result : Except ε α} {a : α}
    (isOk : result.toOption = some a) : result = .ok a := by
  cases result with
  | error refusal => cases isOk
  | ok b =>
    cases isOk
    rfl

theorem fails_readNamed_scant : Fails (@readNamed .scant) := by
  apply fails_bind
  intro braced
  apply fails_ite
  · intro _
    exact (fails_fail _ _).bind
  · intro _
    apply fails_bind
    intro name
    have unknown : @namedCharacter? .scant name = none := ite_self none
    rw [unknown]
    exact fails_fail _ _

variable [Host]

/-- Where there is room for what is assured alone there is room on every host. -/
theorem isTooDeep_of_scant {around : List Nesting}
    (room : @Host.isTooDeep .scant around = false) : Host.isTooDeep around = false := by
  have within : decide (Host.assuredNesting < around.length) = false :=
    (Bool.and_true _).symm.trans room
  simp only [Host.isTooDeep, within, Bool.false_and]

theorem isTooTall_of_scant {calls : Nat} (room : @Host.isTooTall .scant calls = false) :
    Host.isTooTall calls = false := by
  have within : decide (Host.assuredNesting < calls) = false :=
    (Bool.and_true _).symm.trans room
  simp only [Host.isTooTall, within, Bool.false_and]

theorem exceeds_inside {α : Type} {x y : Read α} (kind : Nesting) (exceeds : y.Exceeds x) :
    (inside kind y).Exceeds (@inside .scant α kind x) := by
  apply Exceeds.after
  intro reading
  by_cases room : @Host.isTooDeep .scant (kind :: reading.around) = true
  · rw [if_pos room]
    exact Fails.exceeds (fails_throw _).bind
  · rw [if_neg room, if_neg (by simp [isTooDeep_of_scant (Bool.not_eq_true _ ▸ room)])]
    exact Exceeds.after fun _ => exceeds.bind fun _ => Exceeds.rfl

theorem exceeds_readOther (c : Char) : (readOther c).Exceeds (@readOther .scant c) := by
  by_cases named : c = 'N'
  · rw [named]
    exact Fails.exceeds fails_readNamed_scant
  · unfold readOther
    split
    · exact Exceeds.rfl
    · exact Exceeds.rfl
    · exact Exceeds.rfl
    · exact absurd rfl named
    · exact Exceeds.rfl

theorem exceeds_readSetEscape (c : Char) : (readSetEscape c).Exceeds (@readSetEscape .scant c) := by
  unfold readSetEscape
  split
  · exact Exceeds.rfl
  · split
    · exact Exceeds.rfl
    · exact Exceeds.ite (fun _ => Exceeds.rfl) fun _ => exceeds_readOther c

theorem exceeds_readEscape (mode : Mode) (c : Char) :
    (readEscape mode c).Exceeds (@readEscape .scant mode c) := by
  unfold readEscape
  split
  · exact Exceeds.rfl
  · split
    · exact Exceeds.rfl
    · exact Exceeds.ite (fun _ => Exceeds.rfl) fun _ =>
        Exceeds.ite (fun _ => Exceeds.rfl) fun _ => exceeds_readOther c

theorem exceeds_readMember (token : Token) :
    (readMember token).Exceeds (@readMember .scant token) := by
  cases token with
  | escaped c => exact exceeds_readSetEscape c
  | plain c => exact Exceeds.rfl
  | dangling => exact Exceeds.rfl

theorem exceeds_readMembers (mode : Mode) (start fuel : Nat) (items : List SetItem) :
    (readMembers mode start fuel items).Exceeds (@readMembers .scant mode start fuel items) := by
  induction fuel generalizing items with
  | zero => exact Exceeds.rfl
  | succ fuel ih =>
    apply Exceeds.after
    intro first
    cases first with
    | none => exact Exceeds.rfl
    | some first =>
      apply Exceeds.ite (fun _ => Exceeds.rfl)
      intro _
      apply (exceeds_readMember first).bind
      intro low
      apply Exceeds.after
      intro isRange
      apply Exceeds.ite
      · intro _
        apply Exceeds.after
        intro last
        cases last with
        | none => exact Exceeds.rfl
        | some last =>
          apply Exceeds.ite (fun _ => Exceeds.rfl)
          intro _
          apply (exceeds_readMember last).bind
          intro high
          dsimp only
          split
          · exact Exceeds.ite (fun _ => Exceeds.rfl) fun _ => ih _
          · exact Exceeds.rfl
      · intro _
        exact ih _

theorem exceeds_readSet (mode : Mode) : (readSet mode).Exceeds (@readSet .scant mode) :=
  Exceeds.after fun _ => Exceeds.after fun _ => (exceeds_readMembers _ _ _ _).bind fun _ =>
    Exceeds.rfl

/-- The readers with some fuel give on every host what they give on the scant one. -/
structure ReadersExceed (n : Nat) : Prop where
  choice : ∀ top mode read,
    (readChoice top n mode read).Exceeds (@readChoice .scant top n mode read)
  sequence : ∀ top first mode items,
    (readSequence top first n mode items).Exceeds (@readSequence .scant top first n mode items)
  group : ∀ first mode position,
    (readGroup first n mode position).Exceeds (@readGroup .scant first n mode position)

namespace ReadersExceed

variable {n : Nat}

theorem choice_succ (exceed : ReadersExceed n) (top : Bool) (mode : Mode) (read : List Node) :
    (readChoice top (n + 1) mode read).Exceeds (@readChoice .scant top (n + 1) mode read) := by
  unfold readChoice
  apply (exceed.sequence top _ mode []).bind
  intro node
  apply Exceeds.after
  intro more
  apply Exceeds.ite
  · intro _
    exact Exceeds.after fun _ => exceed.choice top _ _
  · intro _
    exact Exceeds.rfl

theorem sequence_succ (exceed : ReadersExceed n) (top first : Bool) (mode : Mode)
    (items : List Item) :
    (readSequence top first (n + 1) mode items).Exceeds
      (@readSequence .scant top first (n + 1) mode items) := by
  have proceed (items : List Item) := exceed.sequence top first mode items
  unfold readSequence
  apply Exceeds.after
  intro reading
  apply Exceeds.after
  intro token
  cases token with
  | none => exact Exceeds.rfl
  | some token =>
    apply Exceeds.ite (fun _ => Exceeds.rfl)
    intro _
    apply Exceeds.after
    intro _
    apply Exceeds.ite (fun _ => proceed items)
    intro _
    apply Exceeds.ite
    · intro _
      exact Exceeds.after fun _ => Exceeds.after fun _ => proceed items
    · intro _
      split
      · exact (exceeds_readEscape mode _).bind fun _ => proceed _
      · exact (exceeds_readSet mode).bind fun _ => proceed _
      · exact proceed _
      · exact proceed _
      · exact proceed _
      · exact Exceeds.after fun _ => proceed _
      · exact Exceeds.after fun _ => proceed _
      · exact Exceeds.after fun _ => proceed _
      · apply Exceeds.after
        rintro (_ | ⟨least, most⟩)
        · exact proceed _
        · exact Exceeds.after fun _ => proceed _
      · apply (exceed.group _ mode _).bind
        rintro (_ | item)
        · exact Exceeds.after fun _ => exceed.sequence top first _ items
        · exact proceed _
      · exact proceed _
      · exact Exceeds.rfl

/-- A group with a body has what stands around the body on every host. -/
theorem group_succ (exceed : ReadersExceed n) (first : Bool) (mode : Mode) (position : Nat) :
    (readGroup first (n + 1) mode position).Exceeds
      (@readGroup .scant first (n + 1) mode position) := by
  have body (mode : Mode) := exceeds_inside .group (exceed.choice false mode [])
  have branch := exceeds_inside .condition (exceed.sequence false false mode [])
  unfold readGroup
  apply Exceeds.after
  intro isExtension
  apply Exceeds.ite
  · intro _
    exact Exceeds.after fun _ => (body mode).bind fun _ => Exceeds.rfl
  · intro _
    apply Exceeds.after
    intro token
    cases token with
    | none => exact Exceeds.rfl
    | some token =>
      dsimp only
      split
      · apply Exceeds.after
        intro named
        apply Exceeds.ite
        · intro _
          exact Exceeds.after fun _ => Exceeds.after fun _ => (body mode).bind fun _ => Exceeds.rfl
        · intro _
          exact Exceeds.rfl
      · exact (body mode).bind fun _ => Exceeds.rfl
      · exact (body mode).bind fun _ => Exceeds.rfl
      · exact Exceeds.rfl
      · exact (body mode).bind fun _ => Exceeds.rfl
      · exact (body mode).bind fun _ => Exceeds.rfl
      · apply Exceeds.after
        rintro (_ | other)
        · exact Exceeds.rfl
        · apply Exceeds.ite (fun _ => Fails.exceeds (fails_fail _ _).bind)
          intro _
          exact Exceeds.after fun _ => Exceeds.after fun _ => (body mode).bind fun _ => Exceeds.rfl
      · apply Exceeds.after
        intro index
        apply branch.bind
        intro yes
        apply Exceeds.after
        intro another
        apply Exceeds.ite
        · intro _
          exact branch.bind fun _ => Exceeds.rfl
        · intro _
          exact Exceeds.rfl
      · split
        · apply Exceeds.after
          rintro (_ | ⟨on, off⟩)
          · exact Exceeds.rfl
          · exact (body _).bind fun _ => Exceeds.rfl
        · exact Exceeds.rfl

end ReadersExceed

theorem readersExceed (n : Nat) : ReadersExceed n := by
  induction n with
  | zero => exact ⟨fun _ _ _ => Exceeds.rfl, fun _ _ _ _ => Exceeds.rfl, fun _ _ _ => Exceeds.rfl⟩
  | succ n exceed => exact ⟨exceed.choice_succ, exceed.sequence_succ, exceed.group_succ⟩

theorem exceeds_finish (root : Node) : (finish root).Exceeds (@finish .scant root) := by
  apply Exceeds.after
  intro state
  apply Exceeds.ite (fun _ => Exceeds.rfl)
  intro _
  apply Exceeds.ite (fun _ => Exceeds.rfl)
  intro _
  dsimp only
  split
  · exact Exceeds.rfl
  · by_cases room : @Host.isTooTall .scant root.calls = true
    · rw [if_pos room]
      exact Fails.exceeds (fails_throw _).bind
    · rw [if_neg room, if_neg (by simp [isTooTall_of_scant (Bool.not_eq_true _ ▸ room)])]
      exact Exceeds.rfl

/-- An expression that can be read without names of characters and without further room is read
alike on every host. -/
theorem read?_of_scant {mode : Mode} {expression : List Char} {regex : Regex}
    (isOk : (@read? .scant mode expression).toOption = some regex) :
    read? mode expression = .ok regex := by
  have exceeds : (readWhole mode).Exceeds (@readWhole .scant mode) := by
    unfold readWhole
    apply Exceeds.after
    intro opened
    apply Exceeds.ite
    · intro _
      exact Fails.exceeds (fails_failAt _ _).bind
    · intro _
      exact ((readersExceed _).choice true mode []).bind exceeds_finish
  have read := eq_ok_of_toOption isOk
  unfold read? at read ⊢
  rcases ran : (@readWhole .scant mode).run
    { tokens := Token.split expression, position := 0, mode } with cause | ⟨regex', left⟩
  · rw [ran] at read
    cases read
  · rw [ran] at read
    rw [exceeds _ _ _ ran]
    exact read

end Regex

end Markflow
