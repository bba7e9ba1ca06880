import Markflow.Proofs.Regex.Reading
import Mathlib.Data.List.TakeWhile

/-!
# The steps of the reader

All that the reader does between the parentheses and brackets of an expression is steady: it gives
the same for two expressions that part further on, since no escape, number, name or flag goes on
with what a spelling of a group or of a reference begins with.
-/

namespace Markflow.Regex

open Read

/-- A character that stands in no name and no number. -/
def IsForeign (c : Char) : Prop :=
  c = '(' ∨ c = '?' ∨ c = '\\'

section Foreign

variable {c : Char} {name : List Char}

theorem isIdentifier_of_foreign (foreign : IsForeign c) (mem : c ∈ name) :
    Text.isIdentifier name = false := by
  have noStart : Text.isNameStart c = false := by
    rcases foreign with rfl | rfl | rfl <;> decide +kernel
  have noRest : Text.isNameRest c = false := by
    rcases foreign with rfl | rfl | rfl <;> decide +kernel
  rcases name with _ | ⟨d, name⟩
  · cases mem
  · rw [Text.isIdentifier, Bool.and_eq_false_iff]
    rcases List.mem_cons.mp mem with rfl | inRest
    · exact .inl noStart
    · exact .inr (List.all_eq_false.mpr ⟨c, inRest, by simp [noRest]⟩)

theorem mem_strip (ink : Text.isBlank c = false) (mem : c ∈ name) : c ∈ Text.strip name := by
  have kept : ∀ text : List Char, c ∈ text → c ∈ text.dropWhile Text.isBlank := by
    intro text mem
    rw [← List.takeWhile_append_dropWhile (p := Text.isBlank) (l := text), List.mem_append] at mem
    rcases mem with inFront | inBack
    · have blank := List.mem_takeWhile_imp inFront
      rw [ink] at blank
      cases blank
    · exact inBack
  rw [Text.strip, Text.stripRight, List.mem_reverse]
  apply kept
  rw [List.mem_reverse]
  exact kept name mem

theorem spelledNumber?_of_foreign (foreign : IsForeign c) (mem : c ∈ name) :
    spelledNumber? name = none := by
  have ink : Text.isBlank c = false := by rcases foreign with rfl | rfl | rfl <;> decide
  have noDigit : Text.isDigit c = false := by rcases foreign with rfl | rfl | rfl <;> decide
  have stripped := mem_strip ink mem
  have noNumber :
      ∀ body : List Char, c ∈ body → ((body.filter (· != '_')).all Text.isDigit) = false := by
    intro body inBody
    rw [List.all_eq_false]
    refine ⟨c, List.mem_filter.mpr ⟨inBody, ?_⟩, by simp [noDigit]⟩
    rcases foreign with rfl | rfl | rfl <;> decide
  have behindSign : ∀ sign rest, sign = '-' ∨ sign = '+' → Text.strip name = sign :: rest →
      c ∈ rest := by
    intro sign rest isSign text_eq
    rw [text_eq] at stripped
    rcases List.mem_cons.mp stripped with rfl | inRest
    · rcases foreign with rfl | rfl | rfl <;> simp at isSign
    · exact inRest
  unfold spelledNumber?
  dsimp only
  split
  · next rest text_eq =>
    rw [noNumber rest (behindSign _ rest (.inl rfl) text_eq), Bool.not_false,
      Bool.or_true, if_pos rfl]
  · next rest text_eq =>
    rw [noNumber rest (behindSign _ rest (.inr rfl) text_eq), Bool.not_false,
      Bool.or_true, if_pos rfl]
  · rw [noNumber _ stripped, Bool.not_false, Bool.or_true, if_pos rfl]

end Foreign

section Steps

variable {α : Type} {fork : List Token} {side : Option (List Token)} {k k' : Nat}

theorem run_takeWhile_stop {test : Char → Bool} {reading : Reading}
    (stops : ∀ c, reading.tokens.head? = some (.plain c) → test c = false) (count : Nat) :
    (takeWhile test count).run reading = .ok ([], reading) := by
  cases count with
  | zero => rfl
  | succ count =>
    have peeked : peek.run reading = .ok (reading.tokens.head?, reading) := rfl
    rw [takeWhile, run_bind_of_ok peeked]
    split
    · next c isNext =>
      rw [if_neg (by simp [stops c isNext])]
      rfl
    · rfl

theorem run_takeWhile_go {test : Char → Bool} {reading : Reading} {c : Char} {tokens : List Token}
    (tokens_eq : reading.tokens = .plain c :: tokens) (holds : test c = true) (count : Nat) :
    (takeWhile test (count + 1)).run reading =
      (advance >>= fun _ => takeWhile test count >>= fun more => pure (c :: more)).run reading := by
  have peeked : peek.run reading = .ok (some (.plain c), reading) := by
    rw [← List.head?_cons (l := tokens), ← tokens_eq]
    rfl
  rw [takeWhile, run_bind_of_ok peeked]
  dsimp only
  rw [if_pos holds]

/-- Where no character that satisfies a test stands next on the one side, none stands next on the
other. -/
theorem Beside.stops {reading reading' : Reading} (beside : Beside fork side reading reading')
    {test : Char → Bool}
    (other : test '(' = false) (stops : ∀ c, reading.tokens.head? = some (.plain c) →
      test c = false) :
    ∀ c, reading'.tokens.head? = some (.plain c) → test c = false := by
  intro c isNext
  rcases beside.next with ⟨token, tokens, tokens', tokens_eq, tokens'_eq, -⟩ | ⟨-, tokens'_eq⟩
    | ⟨-, -, parts⟩
  · apply stops
    rw [tokens_eq]
    rwa [tokens'_eq] at isNext
  · rw [tokens'_eq] at isNext
    cases isNext
  · rcases parts _ isNext with same | same
    · cases same
      exact other
    · cases same

/-- What is taken while a test holds ends before a spelling, whatever the count allows. -/
theorem steady_takeWhile {test : Char → Bool} (other : test '(' = false) {count count' : Nat}
    (counts : count = count' ∨ k ≤ count + 1 ∧ k' ≤ count' + 1) :
    Steady fork side k k' (takeWhile test count) (takeWhile test count') := by
  constructor
  intro reading reading' beside short short' y left ran
  induction count generalizing count' k k' reading reading' y left with
  | zero =>
    cases ran
    refine ⟨reading', ?_, beside, short, short'⟩
    rcases counts with rfl | ⟨le, -⟩
    · rfl
    · have tokens_eq : reading.tokens = [] := List.length_eq_zero_iff.mp (by omega)
      exact run_takeWhile_stop (beside.stops other (by simp [tokens_eq])) count'
  | succ count ih =>
    by_cases stops : ∀ c, reading.tokens.head? = some (.plain c) → test c = false
    · rw [run_takeWhile_stop stops] at ran
      cases ran
      exact ⟨reading', run_takeWhile_stop (beside.stops other stops) count', beside, short, short'⟩
    · rw [not_forall] at stops
      rcases stops with ⟨c, goes⟩
      rw [Classical.not_imp, Bool.not_eq_false] at goes
      rcases goes with ⟨isNext, holds⟩
      rcases beside.next with
        ⟨token, tokens, tokens', tokens_eq, tokens'_eq, dangling, passed⟩ | ⟨tokens_eq, -⟩ |
          ⟨-, ⟨token, isNext', opens⟩, -⟩
      · rw [tokens_eq] at isNext
        cases isNext
        have bounds : tokens.length < k - 1 ∧ tokens'.length < k' - 1 := by
          rw [tokens_eq, List.length_cons] at short
          rw [tokens'_eq, List.length_cons] at short'
          omega
        rcases count' with _ | count'
        · omega
        rw [run_takeWhile_go tokens_eq holds] at ran
        rw [run_takeWhile_go tokens'_eq holds]
        rcases run_bind_eq_ok.mp ran with ⟨_, between, advanced, ran⟩
        rw [run_advance_cons tokens_eq] at advanced
        split at advanced
        · cases advanced
        · next goesOn =>
          cases advanced
          have advanced' := run_advance_cons tokens'_eq
          rw [if_neg (dangling.not.mp goesOn)] at advanced'
          rw [run_bind_of_ok advanced']
          rcases run_bind_eq_ok.mp ran with ⟨more, between, ran, ranOn⟩
          cases ranOn
          have fewer : count = count' ∨ k - 1 ≤ count + 1 ∧ k' - 1 ≤ count' + 1 := by omega
          rcases ih fewer passed bounds.1 bounds.2 ran with ⟨left', ran', beside, below, below'⟩
          refine ⟨left', ?_, beside, below.trans_le (Nat.sub_le _ _),
            below'.trans_le (Nat.sub_le _ _)⟩
          rw [run_bind_of_ok ran']
          rfl
      · rw [tokens_eq] at isNext
        cases isNext
      · rw [Option.mem_def.mp isNext'] at isNext
        rcases opens with rfl | rfl
        · cases isNext
          rw [other] at holds
          cases holds
        · cases isNext

section TakeUntil

variable {closer : Char} {what : String} {fuel : Nat} {taken name : List Char}
    {reading left : Reading}

theorem run_takeUntil_eq_ok :
    (takeUntil closer what (fuel + 1) taken).run reading = .ok (name, left) ↔
    ∃ token tokens, reading.tokens = token :: tokens ∧ tokens.head? ≠ some .dangling ∧
      ((token = .plain closer ∧ taken ≠ [] ∧ name = taken ∧ left = reading.pass token tokens) ∨
        (token ≠ .plain closer ∧
          (takeUntil closer what fuel (taken ++ token.text)).run (reading.pass token tokens) =
            .ok (name, left))) := by
  rw [takeUntil, run_bind_eq_ok]
  constructor
  · rintro ⟨a, between, ran, ranOn⟩
    rcases run_next_eq_ok.mp ran with ⟨-, rfl, rfl⟩ | ⟨token, tokens, tokens_eq, goesOn, rfl, rfl⟩
    · have fails : Fails (if taken.isEmpty then fail (.missingName what) 0
          else fail (.unterminatedName closer) taken.length : Read (List Char)) :=
        fails_ite (fun _ => fails_fail _ _) (fun _ => fails_fail _ _)
      exact absurd ranOn (fails _ _ _)
    · refine ⟨token, tokens, tokens_eq, goesOn, ?_⟩
      dsimp only at ranOn
      split at ranOn
      · next isCloser =>
        left
        split at ranOn
        · cases ranOn
        · next some_taken =>
          cases ranOn
          exact ⟨isCloser, by simpa using some_taken, rfl, rfl⟩
      · next other => exact .inr ⟨other, ranOn⟩
  · rintro ⟨token, tokens, tokens_eq, goesOn, ends⟩
    refine ⟨some token, _, run_next_eq_ok.mpr (.inr ⟨token, tokens, tokens_eq, goesOn, rfl, rfl⟩),
      ?_⟩
    rcases ends with ⟨rfl, taken_ne, rfl, rfl⟩ | ⟨other, ran⟩
    · have some_taken : name.isEmpty = false := by simpa using taken_ne
      simp only [some_taken, if_true]
      rfl
    · dsimp only
      rwa [if_neg other]

theorem prefix_of_takeUntil
    (ran : (takeUntil closer what fuel taken).run reading = .ok (name, left)) :
    taken <+: name := by
  induction fuel generalizing taken reading with
  | zero =>
    cases ran
    exact List.prefix_rfl
  | succ fuel ih =>
    rcases run_takeUntil_eq_ok.mp ran with ⟨token, tokens, -, -, ⟨-, -, rfl, -⟩ | ⟨-, ran⟩⟩
    · exact List.prefix_rfl
    · exact (List.prefix_append taken token.text).trans (ih ran)

theorem foreign_of_opens {token : Token} (opens : token.Opens) : ∃ c ∈ token.text, IsForeign c := by
  rcases opens with rfl | rfl
  · exact ⟨'(', List.mem_cons_self, .inl rfl⟩
  · exact ⟨'\\', List.mem_cons_self, .inr (.inr rfl)⟩

/-- A name that goes on over the edge holds what no name holds. -/
theorem takeUntil_keeps (other : closer ≠ '(') {reading' : Reading} {fuel' : Nat}
    (beside : Beside fork side reading reading') (short : reading.tokens.length < k)
    (short' : reading'.tokens.length < k') (enough : k ≤ fuel) (enough' : k' ≤ fuel')
    (ran : (takeUntil closer what fuel taken).run reading = .ok (name, left)) :
    (∃ left', (takeUntil closer what fuel' taken).run reading' = .ok (name, left') ∧
      Beside fork side left left' ∧
      left.tokens.length < k ∧ left'.tokens.length < k') ∨ ∃ c ∈ name, IsForeign c := by
  induction fuel generalizing fuel' taken reading reading' k k' with
  | zero => exact absurd (short.trans_le enough) (Nat.not_lt_zero _)
  | succ fuel ih =>
    rcases Nat.exists_eq_add_one_of_ne_zero (Nat.ne_zero_of_lt (short'.trans_le enough')) with
      ⟨fuel', rfl⟩
    rcases run_takeUntil_eq_ok.mp ran with ⟨token, tokens, tokens_eq, goesOn, ends⟩
    rw [tokens_eq, List.length_cons] at short
    rcases beside.next with
      ⟨_, _, tokens', split, tokens'_eq, dangling, passed⟩ | ⟨split, -⟩ | ⟨-, ⟨_, isNext, opens⟩, -⟩
    · rw [tokens_eq] at split
      cases split
      rw [tokens'_eq, List.length_cons] at short'
      rcases ends with ⟨rfl, taken_ne, rfl, rfl⟩ | ⟨more, ran⟩
      · left
        refine ⟨_, ?_, passed, Nat.lt_of_succ_lt short, Nat.lt_of_succ_lt short'⟩
        exact run_takeUntil_eq_ok.mpr
          ⟨.plain closer, tokens', tokens'_eq, dangling.not.mp goesOn,
            .inl ⟨rfl, taken_ne, rfl, rfl⟩⟩
      · rcases ih passed (Nat.lt_sub_of_add_lt short) (Nat.lt_sub_of_add_lt short')
          (Nat.sub_le_of_le_add enough)
          (Nat.sub_le_of_le_add enough') ran with ⟨left', ran', beside, below, below'⟩ | foreign
        · left
          refine ⟨left', ?_, beside, below.trans_le (Nat.sub_le _ _),
            below'.trans_le (Nat.sub_le _ _)⟩
          exact run_takeUntil_eq_ok.mpr ⟨token, tokens', tokens'_eq, dangling.not.mp goesOn,
            .inr ⟨more, ran'⟩⟩
        · exact .inr foreign
    · rw [tokens_eq] at split
      cases split
    · right
      rw [tokens_eq] at isNext
      cases isNext
      rcases ends with ⟨rfl, -⟩ | ⟨-, ran⟩
      · exact absurd rfl (opens.ne_plain other)
      · rcases foreign_of_opens opens with ⟨c, mem, foreign⟩
        exact ⟨c, (prefix_of_takeUntil ran).subset (List.mem_append_right taken mem), foreign⟩

end TakeUntil

theorem steady_takeName_bind {closer : Char} (other : closer ≠ '(') (what : String)
    {f f' : List Char → Read α} (continued : ∀ name, Steady fork side k k' (f name) (f' name))
    (edge : ∀ name, (∃ c ∈ name, IsForeign c) → Fails (f name)) :
    Steady fork side k k' (takeName closer what >>= f) (takeName closer what >>= f') := by
  constructor
  intro reading reading' beside short short' y left ran
  rcases run_bind_eq_ok.mp ran with ⟨name, between, ran, ranOn⟩
  rcases takeUntil_keeps other beside (Nat.lt_succ_self _) (Nat.lt_succ_self _) le_rfl
    le_rfl ran with
    ⟨between', ran', passed, below, below'⟩ | foreign
  · have ended' : (takeName closer what).run reading' = .ok (name, between') := ran'
    rcases (continued name).keeps passed (below.trans_le short) (below'.trans_le short') ranOn with
      ⟨left', ranOn', rest⟩
    exact ⟨left', run_bind_eq_ok.mpr ⟨name, between', ended', ranOn'⟩, rest⟩
  · exact absurd ranOn (edge name foreign _ _ _)

theorem steady_groupBound : Steady fork side k k' groupBound groupBound := by
  apply steady_read_bind
  intro reading reading' agrees
  rw [agrees.widths]
  exact steady_pure _

theorem steady_isClosed (index : Nat) :
    Steady fork side k k' (isClosed index) (isClosed index) := by
  apply steady_read_bind
  intro reading reading' agrees
  rw [agrees.widths]
  exact steady_pure _

theorem steady_checkLookbehind (index : Nat) :
    Steady fork side k k' (checkLookbehind index) (checkLookbehind index) := by
  apply steady_read_bind
  intro reading reading' agrees
  rw [agrees.lookbehindFrom]
  split
  · exact steady_pure _
  · apply (steady_isClosed index).bind
    intro closed
    apply steady_unless (fails_fail _ _).bind
    intro _
    apply steady_unless (fails_fail _ _)
    intro _
    exact steady_pure _

theorem steady_readGroupName {closer : Char} (other : closer ≠ '(') :
    Steady fork side k k' (readGroupName closer) (readGroupName closer) := by
  apply steady_takeName_bind other
  · intro name
    apply steady_unless (fails_fail _ _).bind
    intro _
    exact steady_pure name
  · rintro name ⟨c, mem, foreign⟩
    rw [isIdentifier_of_foreign foreign mem]
    exact (fails_fail _ _).bind

theorem steady_readNamedReference (mode : Mode) :
    Steady fork side k k' (readNamedReference mode) (readNamedReference mode) := by
  apply (steady_readGroupName (by decide)).bind
  intro name
  apply steady_read_bind
  intro reading reading' agrees
  rw [agrees.names]
  split
  · exact (fails_fail _ _).steady
  · next index _ =>
    apply (steady_isClosed index).bind
    intro closed
    apply steady_unless (fails_fail _ _).bind
    intro _
    apply (steady_checkLookbehind index).bind
    intro _
    exact steady_pure _

theorem Reading.Alike.with_awaited {reading reading' : Reading} (alike : reading.Alike reading')
    (index back : Nat) :
    Reading.Alike
      (if reading.awaited.any (·.1 == index) then reading
        else { reading with awaited := reading.awaited ++ [(index, reading.position - back)] })
      (if reading'.awaited.any (·.1 == index) then reading'
        else
          { reading' with awaited := reading'.awaited ++
            [(index, reading'.position - back)] }) := by
  have any_eq : ∀ reading : Reading,
      reading.awaited.any (·.1 == index) = (reading.awaited.map (·.1)).any (· == index) := by
    intro reading
    rw [List.any_map]
    rfl
  rw [any_eq, any_eq, alike.awaited]
  split
  · exact alike
  · exact { alike with awaited := by rw [List.map_append, List.map_append, alike.awaited]; rfl }

theorem steady_readCondition : Steady fork side k k' readCondition readCondition := by
  apply steady_takeName_bind (by decide)
  · intro name
    have checked : ∀ index, Steady fork side k k' (checkLookbehind index >>= fun _ => pure index)
        (checkLookbehind index >>= fun _ => pure index) := by
      intro index
      apply (steady_checkLookbehind index).bind
      intro _
      exact steady_pure index
    dsimp only
    apply Steady.ite
    · intro _
      apply steady_read_bind
      intro reading reading' agrees
      rw [agrees.names]
      split
      · exact (fails_fail _ _).bind.steady
      · next index _ =>
        rw [pure_bind]
        exact checked index
    · intro _
      split
      · next index _ =>
        apply steady_unless (fails_fail _ _).bind
        intro _
        apply steady_unless (fails_fail _ _).bind
        intro _
        rw [pure_bind]
        refine Steady.bind ?_ fun _ => checked index
        apply steady_modify
        · intro reading more
          by_cases known : reading.awaited.any (·.1 == index) = true
          · simp [Reading.extend, known]
          · simp [Reading.extend, known]
        · intro reading
          rfl
        · intro reading reading' alike
          exact alike.with_awaited index _
        · intro reading
          split <;> rfl
      · exact (fails_fail _ _).bind.steady
  · rintro name ⟨c, mem, foreign⟩
    rw [isIdentifier_of_foreign foreign mem, spelledNumber?_of_foreign foreign mem]
    exact (fails_fail _ _).bind

theorem steady_readHex (letter : Char) (count : Nat) :
    Steady fork side k k' (readHex letter count) (readHex letter count) := by
  apply (steady_takeWhile (by decide) (.inl rfl)).bind
  intro digits
  apply steady_unless (fails_fail _ _).bind
  intro _
  apply steady_unless (fails_fail _ _).bind
  intro _
  exact steady_pure _

theorem steady_octalCode (digits : List Char) :
    Steady fork side k k' (octalCode digits) (octalCode digits) := by
  apply steady_unless (fails_fail _ _).bind
  intro _
  exact steady_pure _

theorem steady_readNumbered (c : Char) :
    Steady fork side k k' (readNumbered c) (readNumbered c) := by
  apply (steady_takeWhile (by decide) (.inl rfl)).bind
  intro more
  apply Steady.ite
  on_goal 1 =>
    intro _
    apply (steady_takeWhile (by decide) (.inl rfl)).bind
  on_goal 2 =>
    intro _
    apply (steady_pure []).bind
  -- With or without a third digit the escape is a code or the number of a group.
  all_goals
    intro third
    apply Steady.ite
    · intro _
      exact steady_octalCode _
    · intro _
      apply steady_groupBound.bind
      intro bound
      apply steady_unless (fails_fail _ _).bind
      intro _
      apply (steady_isClosed _).bind
      intro closed
      apply steady_unless (fails_fail _ _).bind
      intro _
      apply (steady_checkLookbehind _).bind
      intro _
      exact steady_pure _

section Escapes

variable [Host]

theorem namedCharacter?_of_foreign {c : Char} {name : List Char} (foreign : IsForeign c)
    (mem : c ∈ name) : namedCharacter? name = none := by
  have noPart : isNamePart c = false := by rcases foreign with rfl | rfl | rfl <;> decide
  apply if_neg
  intro all
  rw [List.all_eq_true.mp all c mem] at noPart
  cases noPart

theorem steady_readNamed : Steady fork side k k' readNamed readNamed := by
  apply (steady_accept (by decide)).bind
  intro braced
  apply steady_unless (fails_fail _ _).bind
  intro _
  apply steady_takeName_bind (by decide)
  · intro name
    split
    · exact steady_pure _
    · exact (fails_fail _ _).steady
  · rintro name ⟨c, mem, foreign⟩
    rw [namedCharacter?_of_foreign foreign mem]
    exact fails_fail _ _

theorem steady_readOther (c : Char) : Steady fork side k k' (readOther c) (readOther c) := by
  unfold readOther
  split
  · exact steady_readHex _ _
  · exact steady_readHex _ _
  · exact steady_readHex _ _
  · exact steady_readNamed
  · apply steady_unless (fails_fail _ _).bind
    intro _
    exact steady_pure _

theorem steady_readSetEscape (c : Char) :
    Steady fork side k k' (readSetEscape c) (readSetEscape c) := by
  unfold readSetEscape
  split
  · exact steady_pure _
  · split
    · exact steady_pure _
    · apply Steady.ite
      · intro _
        apply (steady_takeWhile (by decide) (.inl rfl)).bind
        intro digits
        exact steady_octalCode _
      · intro _
        exact steady_readOther c

theorem steady_readEscape (mode : Mode) (c : Char) :
    Steady fork side k k' (readEscape mode c) (readEscape mode c) := by
  unfold readEscape
  split
  · exact steady_pure _
  · split
    · exact steady_pure _
    · apply Steady.ite
      · intro _
        apply (steady_takeWhile (by decide) (.inl rfl)).bind
        intro digits
        exact steady_pure _
      · intro _
        apply Steady.ite
        · intro _
          exact steady_readNumbered c
        · intro _
          exact steady_readOther c

theorem steady_readMember (token : Token) :
    Steady fork side k k' (readMember token) (readMember token) := by
  cases token with
  | plain c => exact steady_pure _
  | escaped c => exact steady_readSetEscape c
  | dangling => exact steady_pure _

end Escapes

theorem steady_readBound (digits : List Char) :
    Steady fork side k k' (readBound digits) (readBound digits) := by
  unfold readBound
  split
  · exact (fails_throw _).steady
  · apply steady_unless (fails_throw _)
    intro _
    exact steady_pure _

theorem steady_readBounds : Steady fork side k k' readBounds readBounds := by
  apply steady_get_bind
  intro start start' beside short short'
  refine ⟨start.tokens.length + 1, start'.tokens.length + 1, short, short', Nat.lt_succ_self _,
    Nat.lt_succ_self _, ?_⟩
  apply steady_peek_bind (by decide) (steady_pure none)
  have digits : Steady fork side (start.tokens.length + 1) (start'.tokens.length + 1)
      (takeWhile Char.isDigit start.tokens.length) (takeWhile Char.isDigit start'.tokens.length) :=
    steady_takeWhile (by decide) (.inr ⟨le_rfl, le_rfl⟩)
  apply digits.bind
  intro low
  apply (steady_accept (by decide)).bind
  intro comma
  apply Steady.ite
  on_goal 1 =>
    intro _
    apply digits.bind
  on_goal 2 =>
    intro _
    apply (steady_pure low).bind
  -- Whether there is one bound or two, the brace has to follow.
  all_goals
    intro high
    apply (steady_accept (by decide)).bind
    intro closed
    apply Steady.ite
    · intro _
      apply (steady_set beside (Nat.lt_succ_self _) (Nat.lt_succ_self _)).bind
      intro _
      exact steady_pure none
    · intro _
      apply (steady_readBound low).bind
      intro least
      apply Steady.ite
      · intro _
        exact steady_pure _
      · intro _
        apply (steady_readBound high).bind
        intro most
        apply steady_unless (fails_failAt _ _).bind
        intro _
        exact steady_pure _

theorem steady_readGreed : Steady fork side k k' readGreed readGreed := by
  apply (steady_accept (by decide)).bind
  intro lazy
  apply Steady.ite
  · intro _
    exact steady_pure _
  · intro _
    apply (steady_accept (by decide)).bind
    intro possessive
    apply Steady.ite
    · intro _
      exact steady_pure _
    · intro _
      exact steady_pure _

theorem steady_defer (problem : Problem) :
    Steady fork side k k' (defer problem) (defer problem) := by
  apply steady_modify
  · intro reading more
    rfl
  · intro reading
    rfl
  · intro reading reading' alike
    exact { alike with deferred := by rw [alike.deferred] }
  · intro reading
    rfl

theorem steady_readQuantifier (position position' least : Nat) (most : Option Nat)
    (items : List Item) :
    Steady fork side k k' (readQuantifier position least most items)
      (readQuantifier position' least most items) := by
  unfold readQuantifier
  split
  · exact (fails_failAt _ _).steady
  · split
    · exact (fails_failAt _ _).steady
    · exact (fails_failAt _ _).steady
    · apply steady_readGreed.bind
      intro greed
      apply steady_read_bind
      intro reading reading' agrees
      rw [agrees.templateAsked]
      apply Steady.ite
      · intro _
        apply (steady_defer _).bind
        intro _
        exact steady_pure _
      · intro _
        exact steady_pure _

theorem steady_readFlagsOn {fuel fuel' : Nat} (enough : k ≤ fuel) (enough' : k' ≤ fuel')
    (flag : Char)
    (taken : List Char) :
    Steady fork side k k' (readFlagsOn fuel flag taken) (readFlagsOn fuel' flag taken) := by
  induction fuel generalizing k k' fuel' flag taken with
  | zero => exact steady_of_zero (.inl (Nat.le_zero.mp enough))
  | succ fuel ih =>
    rcases fuel' with _ | fuel'
    · exact steady_of_zero (.inr (Nat.le_zero.mp enough'))
    apply steady_unless (fails_fail _ _).bind
    intro _
    apply steady_unless (fails_fail _ _).bind
    intro _
    apply steady_next_bind
    · exact (fails_fail _ _).steady
    · intro token
      dsimp only
      split
      · exact ih (Nat.sub_le_of_le_add enough) (Nat.sub_le_of_le_add enough') _ _
      · split
        · apply Steady.ite
          · intro _
            exact steady_pure _
          · intro _
            exact (fails_fail _ _).steady
        · exact (fails_fail _ _).steady
    · rintro - token (rfl | rfl) <;> exact fails_fail _ _

theorem steady_readFlagsOff {fuel fuel' : Nat} (enough : k ≤ fuel) (enough' : k' ≤ fuel')
    (flag : Char)
    (taken : List Char) :
    Steady fork side k k' (readFlagsOff fuel flag taken) (readFlagsOff fuel' flag taken) := by
  induction fuel generalizing k k' fuel' flag taken with
  | zero => exact steady_of_zero (.inl (Nat.le_zero.mp enough))
  | succ fuel ih =>
    rcases fuel' with _ | fuel'
    · exact steady_of_zero (.inr (Nat.le_zero.mp enough'))
    apply steady_unless (fails_fail _ _).bind
    intro _
    apply steady_next_bind
    · exact (fails_fail _ _).steady
    · intro token
      apply Steady.ite
      · intro _
        exact steady_pure _
      · intro _
        split
        · exact ih (Nat.sub_le_of_le_add enough) (Nat.sub_le_of_le_add enough') _ _
        · exact (fails_fail _ _).steady
    · rintro - token (rfl | rfl) <;> exact fails_fail _ _

theorem Reading.Alike.with_flags {reading reading' : Reading} (alike : reading.Alike reading')
    (on : List Char) :
    Reading.Alike
      { reading with
        mode := (on.filter (· != 'u')).foldl (·.set true ·) reading.mode
        unicodeAsked := reading.unicodeAsked || on.contains 'u'
        templateAsked := reading.templateAsked || on.contains 't' }
      { reading' with
        mode := (on.filter (· != 'u')).foldl (·.set true ·) reading'.mode
        unicodeAsked := reading'.unicodeAsked || on.contains 'u'
        templateAsked := reading'.templateAsked || on.contains 't' } :=
  { alike with
    mode := by rw [alike.mode]
    unicodeAsked := by rw [alike.unicodeAsked]
    templateAsked := by rw [alike.templateAsked] }

theorem steady_readFlags (first : Char) :
    Steady fork side k k' (readFlags first) (readFlags first) := by
  apply steady_get_bind
  intro start start' beside short short'
  refine ⟨start.tokens.length + 1, start'.tokens.length + 1, short, short', Nat.lt_succ_self _,
    Nat.lt_succ_self _, ?_⟩
  dsimp only
  apply Steady.ite
  on_goal 1 =>
    intro _
    apply (steady_pure _).bind
  on_goal 2 =>
    intro _
    apply (steady_readFlagsOn le_rfl le_rfl first []).bind
  all_goals
    rintro ⟨on, closer⟩
    dsimp only
    apply Steady.ite
    · intro _
      refine Steady.bind ?_ fun _ => steady_pure none
      apply steady_modify
      · intro reading more
        rfl
      · intro reading
        rfl
      · intro reading reading' alike
        exact alike.with_flags on
      · intro reading
        rfl
    · intro _
      apply steady_unless (fails_fail _ _).bind
      intro _
      apply Steady.ite
      on_goal 1 =>
        intro _
        apply steady_next_bind
        on_goal 1 => exact (fails_fail _ _).bind.steady
        on_goal 2 =>
          rintro - token (rfl | rfl) <;> exact (fails_fail _ _).bind
        intro token
        dsimp only
        split
        on_goal 2 => exact (fails_fail _ _).bind.steady
        apply (steady_readFlagsOff (Nat.sub_le _ _) (Nat.sub_le _ _) _ []).bind
      on_goal 2 =>
        intro _
        apply (steady_pure _).bind
      all_goals
        intro off
        apply steady_unless (fails_fail _ _).bind
        intro _
        apply steady_unless (fails_fail _ _).bind
        intro _
        exact steady_pure _

theorem Beside.with_group {reading reading' : Reading} (beside : Beside fork side reading reading')
    (widths : List (Option (Nat × Nat))) (names : List (String × Nat)) :
    Beside fork side { reading with widths, names } { reading' with widths, names } := by
  cases beside with
  | @ahead base other forks parts =>
    have changed : Beside fork (some other) (Reading.extend { base with widths, names } fork)
        (Reading.extend { base with widths, names } other) := .ahead forks parts
    exact changed
  | behind alike => exact .behind { alike with widths := rfl, names := rfl }

theorem steady_openGroup (name : Option (List Char)) :
    Steady fork side k k' (openGroup name) (openGroup name) := by
  apply steady_get_bind
  intro reading reading' beside short short'
  refine ⟨k, k', le_rfl, le_rfl, short, short', ?_⟩
  have agrees := beside.agrees
  rw [← agrees.widths, ← agrees.names]
  dsimp only
  split
  · refine Steady.bind (steady_set ?_ short short') fun _ => steady_pure _
    exact beside.with_group _ _
  · split
    · exact (fails_fail _ _).bind.steady
    · refine Steady.bind (steady_set ?_ short short') fun _ => steady_pure _
      exact beside.with_group _ _

theorem steady_widthOf (node : Node) : Steady fork side k k' (widthOf node) (widthOf node) := by
  apply steady_read_bind
  intro reading reading' agrees
  rw [agrees.widths]
  exact steady_pure _

theorem steady_closeGroup (index : Nat) (body : Node) :
    Steady fork side k k' (closeGroup index body) (closeGroup index body) := by
  apply (steady_widthOf body).bind
  intro width
  apply steady_modify
  · intro reading more
    rfl
  · intro reading
    rfl
  · intro reading reading' alike
    exact { alike with widths := by rw [alike.widths] }
  · intro reading
    rfl

theorem steady_lookbehindWidth (body : Node) :
    Steady fork side k k' (lookbehindWidth body) (lookbehindWidth body) := by
  apply (steady_widthOf body).bind
  rintro ⟨least, most⟩
  dsimp only
  apply Steady.ite
  · intro _
    apply (steady_defer _).bind
    intro _
    exact steady_pure least
  · intro _
    apply Steady.ite
    · intro _
      apply (steady_defer _).bind
      intro _
      exact steady_pure least
    · intro _
      exact steady_pure least

theorem steady_setLookbehind {bound : Reading → Option Nat}
    (onward : ∀ reading more, bound (Reading.extend reading more) = bound reading)
    (same : ∀ reading reading' : Reading, reading.Agrees reading' →
      bound reading = bound reading') :
    Steady fork side k k' (modify fun state => { state with lookbehindFrom := bound state })
      (modify fun state => { state with lookbehindFrom := bound state }) := by
  apply steady_modify
  · intro reading more
    simp only [onward]
    rfl
  · intro reading
    rfl
  · intro reading reading' alike
    exact { alike with lookbehindFrom := same reading reading' alike.toAgrees }
  · intro reading
    rfl

theorem steady_closeParenthesis (start start' : Nat) :
    Steady fork side k k' (closeParenthesis start) (closeParenthesis start') := by
  apply (steady_accept (by decide)).bind
  intro closed
  apply steady_unless (fails_failAt _ _)
  intro _
  exact steady_pure _

end Steps

end Markflow.Regex
