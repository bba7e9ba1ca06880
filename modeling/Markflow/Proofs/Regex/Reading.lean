import Markflow.Regex.Reader
import Mathlib.Order.Nat

/-!
# Readings side by side

Two readings of expressions stand side by side where the expressions part further on, or where the
readings differ in nothing but places (`Beside`).  A step of the reader is steady when it keeps
this: where it succeeds on the one side it gives the same on the other side and leaves readings that
stand side by side again.
-/

namespace Markflow.Regex

namespace Reading

/-- A reading of an expression that goes on with further tokens. -/
def extend (reading : Reading) (more : List Token) : Reading :=
  { reading with tokens := reading.tokens ++ more }

/-- A reading behind its next token. -/
def pass (reading : Reading) (token : Token) (left : List Token) : Reading :=
  { reading with tokens := left, position := reading.position + token.width }

/-- Two readings know the same of what was read. -/
structure Agrees (reading other : Reading) : Prop where
  mode : reading.mode = other.mode
  unicodeAsked : reading.unicodeAsked = other.unicodeAsked
  templateAsked : reading.templateAsked = other.templateAsked
  widths : reading.widths = other.widths
  names : reading.names = other.names
  lookbehindFrom : reading.lookbehindFrom = other.lookbehindFrom
  deferred : reading.deferred = other.deferred
  around : reading.around = other.around

/-- Two readings differ in places alone. -/
structure Alike (reading other : Reading) : Prop extends Agrees reading other where
  tokens : reading.tokens = other.tokens
  awaited : reading.awaited.map (·.1) = other.awaited.map (·.1)

theorem tokens_extend_of_cons {reading : Reading} {token : Token} {tokens : List Token}
    (tokens_eq : reading.tokens = token :: tokens) (more : List Token) :
    (reading.extend more).tokens = token :: (tokens ++ more) := by
  rw [extend, tokens_eq, List.cons_append]

theorem tokens_extend_of_nil {reading : Reading} (atEdge : reading.tokens = [])
    (more : List Token) :
    (reading.extend more).tokens = more := by
  rw [extend, atEdge, List.nil_append]

theorem length_extend (reading : Reading) (more : List Token) :
    (reading.extend more).tokens.length = reading.tokens.length + more.length :=
  List.length_append

end Reading

/-- A token that a spelling of a group or of a reference begins with. -/
def Token.Opens (token : Token) : Prop :=
  token = .plain '(' ∨ token = .escaped 'k'

/-- Two readings side by side: either both have the same tokens ahead of them, behind which the one
goes on with `fork` and the other with the tokens that are given, or they differ in places alone. -/
inductive Beside (fork : List Token) : Option (List Token) → Reading → Reading → Prop
  | ahead {reading : Reading} {other : List Token} (forks : ∃ token ∈ fork.head?, token.Opens)
      (parts : ∀ token ∈ other.head?, token.Opens) :
      Beside fork (some other) (reading.extend fork) (reading.extend other)
  | behind {reading reading' : Reading} (alike : reading.Alike reading') :
      Beside fork none reading reading'

section Beside

variable {fork : List Token} {side : Option (List Token)} {reading reading' : Reading}

theorem Token.Opens.ne_dangling {token : Token} (opens : token.Opens) : token ≠ .dangling := by
  rcases opens with rfl | rfl <;> exact Token.noConfusion

theorem Token.Opens.ne_plain {token : Token} (opens : token.Opens) {c : Char} (other : c ≠ '(') :
    token ≠ .plain c := by
  rcases opens with rfl | rfl
  · intro same
    cases same
    exact other rfl
  · exact Token.noConfusion

theorem Token.dangling_append_iff {left more : List Token}
    (parts : ∀ token ∈ more.head?, token.Opens) :
    (left ++ more).head? = some .dangling ↔ left.head? = some .dangling := by
  rcases left with _ | ⟨next, left⟩
  · constructor
    · intro isDangling
      exact absurd rfl (parts _ isDangling).ne_dangling
    · intro isDangling
      cases isDangling
  · exact Iff.rfl

theorem Beside.agrees (beside : Beside fork side reading reading') : reading.Agrees reading' := by
  cases beside with
  | ahead forks parts => exact ⟨rfl, rfl, rfl, rfl, rfl, rfl, rfl, rfl⟩
  | behind alike => exact alike.toAgrees

/-- What stands next in two readings side by side. -/
theorem Beside.next (beside : Beside fork side reading reading') :
    (∃ token left left', reading.tokens = token :: left ∧ reading'.tokens = token :: left' ∧
        (left.head? = some .dangling ↔ left'.head? = some .dangling) ∧
          Beside fork side (reading.pass token left) (reading'.pass token left')) ∨
      (reading.tokens = [] ∧ reading'.tokens = []) ∨
      (side ≠ none ∧ (∃ token ∈ reading.tokens.head?, token.Opens) ∧
        ∀ token ∈ reading'.tokens.head?, token.Opens) := by
  cases beside with
  | @ahead base other forks parts =>
    rcases split : base.tokens with _ | ⟨token, left⟩
    · right
      right
      refine ⟨Option.some_ne_none other, ?_, ?_⟩
      · rwa [Reading.extend, split]
      · rwa [Reading.extend, split]
    · left
      refine ⟨token, left ++ fork, left ++ other, ?_, ?_, ?_, ?_⟩
      · simp [Reading.extend, split]
      · simp [Reading.extend, split]
      · rcases forks with ⟨opening, mem, opens⟩
        have forks' : ∀ token ∈ fork.head?, token.Opens := by
          intro token mem'
          cases Option.mem_unique mem mem'
          exact opens
        rw [Token.dangling_append_iff forks', Token.dangling_append_iff parts]
      · have passed : Beside fork (some other) ((base.pass token left).extend fork)
            ((base.pass token left).extend other) := .ahead forks parts
        exact passed
  | behind alike =>
    rcases split : reading.tokens with _ | ⟨token, left⟩
    · right
      left
      exact ⟨rfl, alike.tokens ▸ split⟩
    · left
      refine ⟨token, left, left, rfl, alike.tokens ▸ split, Iff.rfl, .behind ?_⟩
      exact { alike.toAgrees with tokens := rfl, awaited := alike.awaited }

/-- Whether a character stands next is the same on both sides. -/
theorem Beside.isNext_iff (beside : Beside fork side reading reading') {c : Char}
    (other : c ≠ '(') :
    reading.tokens.head? = some (.plain c) ↔ reading'.tokens.head? = some (.plain c) := by
  rcases beside.next with
    ⟨token, _, _, tokens_eq, tokens'_eq, -⟩ | ⟨tokens_eq, tokens'_eq⟩
      | ⟨-, ⟨token, isNext, opens⟩, parts⟩
  · rw [tokens_eq, tokens'_eq, List.head?_cons, List.head?_cons]
  · rw [tokens_eq, tokens'_eq]
  · constructor
    · intro isPlain
      rw [Option.mem_def.mp isNext] at isPlain
      exact absurd (Option.some.inj isPlain) (opens.ne_plain other)
    · intro isPlain
      exact absurd rfl ((parts _ isPlain).ne_plain other)

end Beside

namespace Read

section Runs

variable {α β : Type} {x : Read α} {f : α → Read β} {reading : Reading}

theorem run_bind_eq_ok {y : β} {left : Reading} : (x >>= f).run reading = .ok (y, left) ↔
    ∃ a between, x.run reading = .ok (a, between) ∧ (f a).run between = .ok (y, left) := by
  rw [StateT.run_bind]
  rcases x.run reading with refusal | ⟨a, between⟩
  · constructor
    · intro failed
      cases failed
    · rintro ⟨_, _, failed, _⟩
      cases failed
  · constructor
    · intro ran
      exact ⟨a, between, rfl, ran⟩
    · rintro ⟨_, _, same, ran⟩
      cases same
      exact ran

theorem run_bind_of_ok {a : α} {between : Reading} (ran : x.run reading = .ok (a, between)) :
    (x >>= f).run reading = (f a).run between := by
  rw [StateT.run_bind, ran]
  rfl

theorem run_bind_of_error {refusal : Refusal} (failed : x.run reading = .error refusal) :
    (x >>= f).run reading = .error refusal := by
  rw [StateT.run_bind, failed]
  rfl

variable {token : Token} {tokens : List Token}

theorem run_advance_nil (tokens_eq : reading.tokens = []) :
    advance.run reading = .ok ((), reading) := by
  simp only [advance, StateT.run_bind, StateT.run_get, pure_bind, tokens_eq]
  rfl

theorem run_advance_cons (tokens_eq : reading.tokens = token :: tokens) : advance.run reading =
    if tokens.head? = some .dangling then .error
      (.malformed ⟨.danglingEscape, some (reading.position + token.width)⟩)
    else .ok ((), reading.pass token tokens) := by
  simp only [advance, StateT.run_bind, StateT.run_get, pure_bind, tokens_eq]
  split
  · rfl
  · rfl

theorem run_next_eq_ok {a : Option Token} {left : Reading} : next.run reading = .ok (a, left) ↔
    (reading.tokens = [] ∧ a = none ∧ left = reading) ∨
      ∃ token tokens, reading.tokens = token :: tokens ∧ tokens.head? ≠ some .dangling ∧
        a = some token ∧
        left = reading.pass token tokens := by
  have peeked : peek.run reading = .ok (reading.tokens.head?, reading) := rfl
  rw [next, run_bind_of_ok peeked]
  rcases tokens_eq : reading.tokens with _ | ⟨token, tokens⟩
  · rw [run_bind_of_ok (run_advance_nil tokens_eq), StateT.run_pure]
    constructor
    · intro ran
      cases ran
      exact .inl ⟨rfl, rfl, rfl⟩
    · rintro (⟨-, rfl, rfl⟩ | ⟨token, tokens, split, -⟩)
      · rfl
      · cases split
  · have advanced := run_advance_cons tokens_eq
    by_cases stops : tokens.head? = some .dangling
    · rw [if_pos stops] at advanced
      rw [run_bind_of_error advanced]
      constructor
      · intro failed
        cases failed
      · rintro (⟨split, -⟩ | ⟨token, tokens, split, goesOn, -⟩)
        · cases split
        · cases split
          exact absurd stops goesOn
    · rw [if_neg stops] at advanced
      rw [run_bind_of_ok advanced, StateT.run_pure]
      constructor
      · intro ran
        cases ran
        exact .inr ⟨token, tokens, rfl, stops, rfl, rfl⟩
      · rintro (⟨split, -⟩ | ⟨token, tokens, split, -, rfl, rfl⟩)
        · cases split
        · cases split
          rfl

theorem run_accept_eq_ok {c : Char} {a : Bool} {left : Reading} :
    (accept c).run reading = .ok (a, left) ↔
    (∃ tokens, reading.tokens = .plain c :: tokens ∧ tokens.head? ≠ some .dangling ∧ a = true ∧
      left = reading.pass (.plain c) tokens) ∨
      (reading.tokens.head? ≠ some (.plain c) ∧ a = false ∧ left = reading) := by
  have peeked : peek.run reading = .ok (reading.tokens.head?, reading) := rfl
  rw [accept, run_bind_of_ok peeked]
  by_cases isNext : reading.tokens.head? = some (.plain c)
  · rcases List.head?_eq_some_iff.mp isNext with ⟨tokens, tokens_eq⟩
    have advanced := run_advance_cons tokens_eq
    rw [if_pos isNext]
    by_cases stops : tokens.head? = some .dangling
    · rw [if_pos stops] at advanced
      rw [run_bind_of_error advanced]
      constructor
      · intro failed
        cases failed
      · rintro (⟨others, split, goesOn, -⟩ | ⟨other, -⟩)
        · rw [tokens_eq] at split
          cases split
          exact absurd stops goesOn
        · exact absurd isNext other
    · rw [if_neg stops] at advanced
      rw [run_bind_of_ok advanced, StateT.run_pure]
      constructor
      · intro ran
        cases ran
        exact .inl ⟨tokens, tokens_eq, stops, rfl, rfl⟩
      · rintro (⟨others, split, -, rfl, rfl⟩ | ⟨other, -⟩)
        · rw [tokens_eq] at split
          cases split
          rfl
        · exact absurd isNext other
  · rw [if_neg isNext, StateT.run_pure]
    constructor
    · intro ran
      cases ran
      exact .inr ⟨isNext, rfl, rfl⟩
    · rintro (⟨tokens, tokens_eq, -⟩ | ⟨-, rfl, rfl⟩)
      · rw [tokens_eq] at isNext
        exact absurd rfl isNext
      · rfl

end Runs

/-- A step that never succeeds. -/
def Fails {α : Type} (x : Read α) : Prop :=
  ∀ reading y left, x.run reading ≠ .ok (y, left)

/-- A step that succeeds only where another does, which then gives the same and leaves readings side
by side.  The two bounds are for the tokens ahead. -/
structure Steady {α : Type} (fork : List Token) (side : Option (List Token)) (k k' : Nat)
    (x x' : Read α) : Prop where
  keeps : ∀ {reading reading'}, Beside fork side reading reading' → reading.tokens.length < k →
    reading'.tokens.length < k' → ∀ {y left}, x.run reading = .ok (y, left) →
      ∃ left', x'.run reading' = .ok (y, left') ∧ Beside fork side left left' ∧
        left.tokens.length < k ∧
        left'.tokens.length < k'

section Fails

variable {α β : Type} {x y : Read α} {f : α → Read β}

theorem fails_throw (refusal : Refusal) : Fails (throw refusal : Read α) :=
  fun _ _ _ ran => by cases ran

theorem fails_failAt (position : Nat) (problem : Problem) :
    Fails (failAt position problem : Read α) :=
  fun _ _ _ ran => by cases ran

theorem fails_fail (problem : Problem) (back : Nat) : Fails (fail problem back : Read α) :=
  fun _ _ _ ran => by cases ran

theorem Fails.bind (fails : Fails x) : Fails (x >>= f) := by
  intro reading y left ran
  rcases run_bind_eq_ok.mp ran with ⟨a, between, ran, -⟩
  exact fails _ _ _ ran

theorem fails_bind (fails : ∀ a, Fails (f a)) : Fails (x >>= f) := by
  intro reading y left ran
  rcases run_bind_eq_ok.mp ran with ⟨a, between, -, ran⟩
  exact fails a _ _ _ ran

theorem fails_ite {c : Prop} [Decidable c] (yes : c → Fails x) (no : ¬ c → Fails y) :
    Fails (if c then x else y) := by
  split
  case isTrue holds => exact yes holds
  case isFalse holds => exact no holds

end Fails

section Steady

variable {α β : Type} {fork : List Token} {side : Option (List Token)} {j j' k k' : Nat}
    {x x' y y' : Read α}
  {f f' : α → Read β} {reading reading' : Reading}

theorem steady_pure (a : α) : Steady fork side k k' (pure a) (pure a) := by
  constructor
  intro reading reading' beside short short' y left ran
  cases ran
  exact ⟨reading', rfl, beside, short, short'⟩

theorem Fails.steady (fails : Fails x) : Steady fork side k k' x x' :=
  ⟨fun _ _ _ _ _ ran => absurd ran (fails _ _ _)⟩

/-- A step without room for tokens does not run. -/
theorem steady_of_zero (none_left : k = 0 ∨ k' = 0) : Steady fork side k k' x x' := by
  constructor
  intro reading reading' beside short short' y left ran
  rcases none_left with rfl | rfl
  · exact absurd short (Nat.not_lt_zero _)
  · exact absurd short' (Nat.not_lt_zero _)

theorem Steady.bind (steady : Steady fork side k k' x x')
    (continued : ∀ a, Steady fork side k k' (f a) (f' a)) :
    Steady fork side k k' (x >>= f) (x' >>= f') := by
  constructor
  intro reading reading' beside short short' y left ran
  rcases run_bind_eq_ok.mp ran with ⟨a, between, ran, ranOn⟩
  rcases steady.keeps beside short short' ran with ⟨between', ran', beside, short, short'⟩
  rcases (continued a).keeps beside short short' ranOn with ⟨left', ranOn', rest⟩
  exact ⟨left', run_bind_eq_ok.mpr ⟨a, between', ran', ranOn'⟩, rest⟩

theorem Steady.ite {c : Prop} [Decidable c] (yes : c → Steady fork side k k' x x')
    (no : ¬ c → Steady fork side k k' y y') :
    Steady fork side k k' (if c then x else y) (if c then x' else y') := by
  split
  case isTrue holds => exact yes holds
  case isFalse holds => exact no holds

theorem steady_unless {c : Prop} [Decidable c] (fails : Fails x)
    (go : ¬ c → Steady fork side k k' y y') :
    Steady fork side k k' (if c then x else y) (if c then x' else y') :=
  .ite (fun _ => fails.steady) go

/-- What a step reads of the state first stands side by side. -/
theorem steady_get_bind {g g' : Reading → Read α}
    (continued : ∀ reading reading', Beside fork side reading reading' → reading.tokens.length < k →
      reading'.tokens.length < k' → ∃ j j',
        j ≤ k ∧ j' ≤ k' ∧ reading.tokens.length < j ∧ reading'.tokens.length < j' ∧
        Steady fork side j j' (g reading) (g' reading')) :
    Steady fork side k k' (get >>= g) (get >>= g') := by
  constructor
  intro reading reading' beside short short' y left ran
  rcases continued reading reading' beside short short' with ⟨j, j', le, le', below, below', steady⟩
  rcases steady.keeps beside below below' ran with ⟨left', ran', beside, short, short'⟩
  exact ⟨left', ran', beside, short.trans_le le, short'.trans_le le'⟩

/-- A step that reads of the state what is the same on both sides. -/
theorem steady_read_bind {g g' : Reading → Read α}
    (continued : ∀ reading reading', reading.Agrees reading' →
      Steady fork side k k' (g reading) (g' reading')) :
    Steady fork side k k' (get >>= g) (get >>= g') := by
  apply steady_get_bind
  intro reading reading' beside short short'
  exact ⟨k, k', le_rfl, le_rfl, short, short', continued reading reading' beside.agrees⟩

theorem steady_set (beside : Beside fork side reading reading') (short : reading.tokens.length < k)
    (short' : reading'.tokens.length < k') :
    Steady fork side k k' (set reading) (set reading') := by
  constructor
  intro _ _ _ _ _ y left ran
  cases ran
  exact ⟨reading', rfl, beside, short, short'⟩

theorem steady_modify {change change' : Reading → Reading}
    (onward : ∀ reading more, change (Reading.extend reading more) = (change reading).extend more)
    (same : ∀ reading : Reading, change' reading = change reading)
    (alike : ∀ reading reading' : Reading, reading.Alike reading' →
      (change reading).Alike (change reading'))
    (kept : ∀ reading, (change reading).tokens = reading.tokens) :
    Steady fork side k k' (modify change) (modify change') := by
  constructor
  intro reading reading' beside short short' y left ran
  cases ran
  refine ⟨change' reading', rfl, ?_, ?_, ?_⟩
  · rw [same]
    cases beside with
    | ahead forks parts =>
      rw [onward, onward]
      exact .ahead forks parts
    | behind others => exact .behind (alike _ _ others)
  · rwa [kept]
  · rwa [same, kept]

/-- The next token is the same on both sides, unless the sides part here. -/
theorem steady_next_bind {f f' : Option Token → Read α}
    (ended : Steady fork side k k' (f none) (f' none))
    (continued : ∀ token, Steady fork side (k - 1) (k' - 1) (f (some token)) (f' (some token)))
    (edge : side ≠ none → ∀ token, token.Opens → Fails (f (some token))) :
    Steady fork side k k' (next >>= f) (next >>= f') := by
  constructor
  intro reading reading' beside short short' y left ran
  rcases run_bind_eq_ok.mp ran with ⟨a, between, ran, ranOn⟩
  rcases run_next_eq_ok.mp ran with ⟨tokens_eq, rfl, rfl⟩
    | ⟨token, tokens, tokens_eq, goesOn, rfl, rfl⟩
  · rcases beside.next with ⟨_, _, _, split, -⟩ | ⟨-, tokens'_eq⟩ | ⟨-, ⟨_, isNext, -⟩, -⟩
    · rw [tokens_eq] at split
      cases split
    · have ran' := run_next_eq_ok.mpr (.inl ⟨tokens'_eq, rfl, rfl⟩)
      rcases ended.keeps beside short short' ranOn with ⟨left', ranOn', rest⟩
      exact ⟨left', run_bind_eq_ok.mpr ⟨_, _, ran', ranOn'⟩, rest⟩
    · rw [tokens_eq] at isNext
      cases isNext
  · rcases beside.next with
      ⟨_, _, tokens', split, tokens'_eq, dangling, passed⟩ | ⟨split, -⟩
        | ⟨isAhead, ⟨_, isNext, opens⟩, -⟩
    · rw [tokens_eq] at split
      cases split
      have ran' :=
        run_next_eq_ok.mpr (.inr ⟨token, tokens', tokens'_eq, dangling.not.mp goesOn, rfl, rfl⟩)
      rw [tokens_eq, List.length_cons] at short
      rw [tokens'_eq, List.length_cons] at short'
      rcases (continued token).keeps passed (Nat.lt_sub_of_add_lt short)
        (Nat.lt_sub_of_add_lt short') ranOn with
        ⟨left', ranOn', beside, below, below'⟩
      exact ⟨left', run_bind_eq_ok.mpr ⟨_, _, ran', ranOn'⟩, beside,
        below.trans_le (Nat.sub_le _ _), below'.trans_le (Nat.sub_le _ _)⟩
    · rw [tokens_eq] at split
      cases split
    · rw [tokens_eq] at isNext
      cases isNext
      exact absurd ranOn (edge isAhead _ opens _ _ _)

theorem steady_accept_bind {c : Char} (other : c ≠ '(') {f f' : Bool → Read α}
    (yes : Steady fork side (k - 1) (k' - 1) (f true) (f' true))
    (no : Steady fork side k k' (f false) (f' false)) :
    Steady fork side k k' (accept c >>= f) (accept c >>= f') := by
  constructor
  intro reading reading' beside short short' y left ran
  rcases run_bind_eq_ok.mp ran with ⟨a, between, ran, ranOn⟩
  rcases run_accept_eq_ok.mp ran with ⟨tokens, tokens_eq, goesOn, rfl, rfl⟩ | ⟨missing, rfl, rfl⟩
  · rcases beside.next with
      ⟨_, _, tokens', split, tokens'_eq, dangling, passed⟩ | ⟨split, -⟩ | ⟨-, ⟨_, isNext, opens⟩, -⟩
    · rw [tokens_eq] at split
      cases split
      have ran' :=
        run_accept_eq_ok.mpr (.inl ⟨tokens', tokens'_eq, dangling.not.mp goesOn, rfl, rfl⟩)
      rw [tokens_eq, List.length_cons] at short
      rw [tokens'_eq, List.length_cons] at short'
      rcases yes.keeps passed (Nat.lt_sub_of_add_lt short) (Nat.lt_sub_of_add_lt short') ranOn with
        ⟨left', ranOn', beside, below, below'⟩
      exact ⟨left', run_bind_eq_ok.mpr ⟨_, _, ran', ranOn'⟩, beside,
        below.trans_le (Nat.sub_le _ _), below'.trans_le (Nat.sub_le _ _)⟩
    · rw [tokens_eq] at split
      cases split
    · rw [tokens_eq] at isNext
      cases isNext
      exact absurd rfl (opens.ne_plain other)
  · have missing' := (beside.isNext_iff other).not.mp missing
    rcases no.keeps beside short short' ranOn with ⟨left', ranOn', rest⟩
    exact
      ⟨left', run_bind_eq_ok.mpr ⟨_, _, run_accept_eq_ok.mpr (.inr ⟨missing', rfl, rfl⟩), ranOn'⟩,
        rest⟩

theorem steady_accept {c : Char} (other : c ≠ '(') :
    Steady fork side k k' (accept c) (accept c) := by
  rw [← bind_pure (accept c)]
  exact steady_accept_bind other (steady_pure true) (steady_pure false)

/-- Whether a character stands next is the same on both sides. -/
theorem steady_peek_bind {c : Char} (other : c ≠ '(') (yes : Steady fork side k k' x x')
    (no : Steady fork side k k' y y') :
    Steady fork side k k' (peek >>= fun token => if token = some (.plain c) then x else y)
      (peek >>= fun token => if token = some (.plain c) then x' else y') := by
  constructor
  intro reading reading' beside short short' _ left ran
  have isNext_iff := beside.isNext_iff other
  change (if reading.tokens.head? = some (.plain c) then x else y).run reading = _ at ran
  change ∃ left', (if reading'.tokens.head? = some (.plain c) then x' else y').run reading' = _ ∧ _
  by_cases isNext : reading.tokens.head? = some (.plain c)
  · rw [if_pos isNext] at ran
    rw [if_pos (isNext_iff.mp isNext)]
    exact yes.keeps beside short short' ran
  · rw [if_neg isNext] at ran
    rw [if_neg (isNext_iff.not.mp isNext)]
    exact no.keeps beside short short' ran

end Steady

end Read

end Markflow.Regex
