import Markflow.Pattern.Spelling
import Markflow.Proofs.Regex.Steps

/-!
# Expressions with another spelling

An expression with the short spelling of a group or of a reference, the expression with the long
spelling in its place, and what stands before it are read in step (`Follows`).  Where the short
spelling is read at all, the reader passes it in a comment or in a set.  A set that is open there is
missing its end in what stands before the spelling, and so is a comment that is open there, which
the long spelling of a reference would close.
-/

namespace Markflow.Regex

open Read

/-- A short spelling in an expression, the long spelling for it, what follows them, and the problem
of what stands before them where the spellings are not read alike. -/
structure Respelling where
  short : List Token
  long : List Token
  rest : List Token
  spoil : Problem

namespace Respelling

/-- The tokens from the short spelling on. -/
def first (spelling : Respelling) : List Token :=
  spelling.short ++ spelling.rest

/-- The tokens from the long spelling on. -/
def second (spelling : Respelling) : List Token :=
  spelling.long ++ spelling.rest

end Respelling

/-- How two readings, the second of which has the long spelling ahead, compare with a reading of
what stands before the spelling: they have not come to the spelling, they have passed it, or the set
or comment in which it stands is not closed before it. -/
inductive Outcome {α : Type} (spelling : Respelling) (k₁ k₂ k₃ : Nat) (y : α) (left : Reading)
    (second third : Except Refusal (α × Reading)) : Prop
  | within {between : Reading} (left_eq : left = between.extend spelling.first)
      (second_eq : second = .ok (y, between.extend spelling.second))
      (third_eq : third = .ok (y, between))
      (short₁ : (between.extend spelling.first).tokens.length < k₁)
      (short₂ : (between.extend spelling.second).tokens.length < k₂)
      (short₃ : between.tokens.length < k₃)
  | across {left' : Reading} (second_eq : second = .ok (y, left')) (alike : left.Alike left')
      (short₁ : left.tokens.length < k₁) (short₂ : left'.tokens.length < k₂)
  | spoiled {position : Nat}
      (third_eq : third = .error (.malformed ⟨spelling.spoil, some position⟩))

/-- Three steps of the reader that are run in step: with the short spelling ahead, with the long
spelling ahead, and on what stands before the spelling.  Behind the spelling only the first two
are. -/
structure Follows {α : Type} (spelling : Respelling) (k₁ k₂ k₃ : Nat) (x₁ x₂ x₃ : Read α) :
    Prop where
  behind : Steady spelling.first none k₁ k₂ x₁ x₂
  before : ∀ reading : Reading, (reading.extend spelling.first).tokens.length < k₁ →
    (reading.extend spelling.second).tokens.length < k₂ → reading.tokens.length < k₃ →
      ∀ {y left}, x₁.run (reading.extend spelling.first) = .ok (y, left) →
        Outcome spelling k₁ k₂ k₃ y left (x₂.run (reading.extend spelling.second)) (x₃.run reading)

/-- The two spellings of a group, and of a reference, by a name. -/
inductive Respells : Respelling → Prop
  | group {c : Char} {name : List Char} (starts : Spelling.isNameStart c = true)
      (goesOn : ∀ d ∈ name, Spelling.isNameRest d = true) (rest : List Token) :
      Respells ⟨.plain '(' :: .plain '?' :: .plain '<' :: (c :: (name ++ ['>'])).map .plain,
        .plain '(' :: .plain '?' :: .plain 'P' :: .plain '<' :: (c :: (name ++ ['>'])).map .plain,
        rest, .unterminatedSet⟩
  | reference {c : Char} {name : List Char} (starts : Spelling.isNameStart c = true)
      (goesOn : ∀ d ∈ name, Spelling.isNameRest d = true) (rest : List Token) :
      Respells ⟨.escaped 'k' :: .plain '<' :: (c :: (name ++ ['>'])).map .plain,
        .plain '(' :: .plain '?' :: .plain 'P' :: .plain '=' :: (c :: (name ++ [')'])).map .plain,
        rest, .unterminatedComment⟩

section Follows

variable {α β : Type} {spelling : Respelling} {k₁ k₂ k₃ : Nat} {x₁ x₂ x₃ y₁ y₂ y₃ : Read α}

theorem Reading.extend_nil (reading : Reading) : reading.extend [] = reading := by
  rw [Reading.extend, List.append_nil]

theorem Reading.extend_left_injective {reading other : Reading} {more : List Token}
    (same : reading.extend more = other.extend more) : reading = other := by
  have tokens_eq : reading.tokens = other.tokens :=
    List.append_cancel_right (congrArg Reading.tokens same)
  cases reading
  cases other
  simp only [Reading.extend, Reading.mk.injEq] at same tokens_eq
  simp only [Reading.mk.injEq]
  exact ⟨tokens_eq, same.2⟩

theorem Respells.first_opens (respells : Respells spelling) :
    ∃ token ∈ spelling.first.head?, token.Opens := by
  cases respells with
  | group => exact ⟨.plain '(', rfl, .inl rfl⟩
  | reference => exact ⟨.escaped 'k', rfl, .inr rfl⟩

theorem Respells.second_opens (respells : Respells spelling) :
    ∀ token ∈ spelling.second.head?, token.Opens := by
  cases respells with
  | group =>
    intro token mem
    cases mem
    exact .inl rfl
  | reference =>
    intro token mem
    cases mem
    exact .inl rfl

theorem Respells.ahead (respells : Respells spelling) (reading : Reading) :
    Beside spelling.first (some spelling.second)
    (reading.extend spelling.first) (reading.extend spelling.second) :=
  .ahead respells.first_opens respells.second_opens

theorem Respells.alone (respells : Respells spelling) (reading : Reading) :
    Beside spelling.first (some []) (reading.extend spelling.first) reading := by
  have beside :
      Beside spelling.first (some []) (reading.extend spelling.first) (reading.extend []) :=
    .ahead respells.first_opens (by simp)
  rwa [Reading.extend_nil] at beside

/-- Steps that do not come over a spelling are run in step. -/
theorem follows_of_steady (respells : Respells spelling)
    (steady : ∀ {side k k'}, Steady spelling.first side k k' x₁ x₂)
    (steady' : ∀ {side k k'}, Steady spelling.first side k k' x₁ x₃) :
    Follows spelling k₁ k₂ k₃ x₁ x₂ x₃ := by
  refine ⟨steady, ?_⟩
  intro reading short₁ short₂ short₃ y left ran
  rcases steady.keeps (respells.ahead reading) short₁ short₂ ran with
    ⟨_, second_eq, @⟨between⟩, short₁, short₂⟩
  rcases steady'.keeps (respells.alone reading) (Nat.lt_succ_self _) short₃ ran with
    ⟨left', third_eq, beside, -, short₃⟩
  generalize left_eq : between.extend spelling.first = left at beside
  cases beside with
  | @ahead other =>
    cases Reading.extend_left_injective left_eq
    rw [Reading.extend_nil] at third_eq short₃
    exact .within rfl second_eq third_eq short₁ short₂ short₃

theorem follows_same (respells : Respells spelling) {x : Read α}
    (steady : ∀ {side k k'}, Steady spelling.first side k k' x x) :
    Follows spelling k₁ k₂ k₃ x x x :=
  follows_of_steady respells steady steady

theorem Outcome.mono {y : α} {left : Reading} {second third : Except Refusal (α × Reading)}
    {j₁ j₂ j₃ : Nat}
    (outcome : Outcome spelling j₁ j₂ j₃ y left second third) (le₁ : j₁ ≤ k₁) (le₂ : j₂ ≤ k₂)
    (le₃ : j₃ ≤ k₃) :
    Outcome spelling k₁ k₂ k₃ y left second third := by
  rcases outcome with
    @⟨between, left_eq, second_eq, third_eq, short₁, short₂, short₃⟩
      | @⟨left', second_eq, alike, short₁, short₂⟩ |
      @⟨position, third_eq⟩
  · exact .within left_eq second_eq third_eq (short₁.trans_le le₁) (short₂.trans_le le₂)
      (short₃.trans_le le₃)
  · exact .across second_eq alike (short₁.trans_le le₁) (short₂.trans_le le₂)
  · exact .spoiled third_eq

theorem Read.Fails.follows (fails : Fails x₁) : Follows spelling k₁ k₂ k₃ x₁ x₂ x₃ :=
  ⟨fails.steady, fun _ _ _ _ _ _ ran => absurd ran (fails _ _ _)⟩

/-- Without room for tokens on the third side there is nothing before the spelling. -/
theorem Follows.of_behind (behind : Steady spelling.first none k₁ k₂ x₁ x₂) :
    Follows spelling k₁ k₂ 0 x₁ x₂ x₃ :=
  ⟨behind, fun _ _ _ short₃ _ _ _ => absurd short₃ (Nat.not_lt_zero _)⟩

theorem Follows.of_zero (none_left : k₁ = 0 ∨ k₂ = 0) : Follows spelling k₁ k₂ k₃ x₁ x₂ x₃ := by
  refine ⟨steady_of_zero none_left, ?_⟩
  intro reading short₁ short₂ short₃ y left ran
  rcases none_left with rfl | rfl
  · exact absurd short₁ (Nat.not_lt_zero _)
  · exact absurd short₂ (Nat.not_lt_zero _)

theorem follows_unless {c : Prop} [Decidable c] (fails : Fails x₁)
    (go : ¬ c → Follows spelling k₁ k₂ k₃ y₁ y₂ y₃) :
    Follows spelling k₁ k₂ k₃ (if c then x₁ else y₁) (if c then x₂ else y₂)
      (if c then x₃ else y₃) := by
  split
  case isTrue => exact fails.follows
  case isFalse holds => exact go holds

theorem Follows.ite {c : Prop} [Decidable c] (yes : c → Follows spelling k₁ k₂ k₃ x₁ x₂ x₃)
    (no : ¬ c → Follows spelling k₁ k₂ k₃ y₁ y₂ y₃) :
    Follows spelling k₁ k₂ k₃ (if c then x₁ else y₁) (if c then x₂ else y₂)
      (if c then x₃ else y₃) := by
  split
  case isTrue holds => exact yes holds
  case isFalse holds => exact no holds

theorem Follows.bind {f₁ f₂ f₃ : α → Read β} (follows : Follows spelling k₁ k₂ k₃ x₁ x₂ x₃)
    (continued : ∀ a, Follows spelling k₁ k₂ k₃ (f₁ a) (f₂ a) (f₃ a)) :
    Follows spelling k₁ k₂ k₃ (x₁ >>= f₁) (x₂ >>= f₂) (x₃ >>= f₃) := by
  refine ⟨follows.behind.bind fun a => (continued a).behind, ?_⟩
  intro reading short₁ short₂ short₃ y left ran
  rcases run_bind_eq_ok.mp ran with ⟨a, between, ran, ranOn⟩
  rcases follows.before _ short₁ short₂ short₃ ran with
    @⟨between', rfl, second_eq, third_eq, short₁, short₂, short₃⟩
      | @⟨between', second_eq, alike, short₁, short₂⟩ |
      @⟨position, third_eq⟩
  · rw [run_bind_of_ok second_eq, run_bind_of_ok third_eq]
    exact (continued a).before _ short₁ short₂ short₃ ranOn
  · rcases (continued a).behind.keeps (.behind alike) short₁ short₂ ranOn with
      ⟨left', ranOn', beside, short₁, short₂⟩
    cases beside with
    | behind alike => exact .across ((run_bind_of_ok second_eq).trans ranOn') alike short₁ short₂
  · exact .spoiled (run_bind_of_error third_eq)

/-- What a step reads of the state first is the same on all sides, save for places and what lies
ahead. -/
theorem follows_get_bind {g₁ g₂ g₃ : Reading → Read α}
    (continued : ∀ r₁ r₂ r₃ : Reading, r₁.Agrees r₂ → r₁.Agrees r₃ → r₁.tokens.length < k₁ →
      r₂.tokens.length < k₂ →
      ∃ j₁ j₂, j₁ ≤ k₁ ∧ j₂ ≤ k₂ ∧ r₁.tokens.length < j₁ ∧ r₂.tokens.length < j₂ ∧ ∃ j₃, j₃ ≤ k₃ ∧
        (r₃.tokens.length < k₃ → r₃.tokens.length < j₃) ∧
          Follows spelling j₁ j₂ j₃ (g₁ r₁) (g₂ r₂) (g₃ r₃)) :
    Follows spelling k₁ k₂ k₃ (get >>= g₁) (get >>= g₂) (get >>= g₃) := by
  refine ⟨?_, ?_⟩
  · apply steady_get_bind
    intro reading reading' beside short short'
    rcases continued reading reading' reading beside.agrees ⟨rfl, rfl, rfl, rfl, rfl, rfl, rfl, rfl⟩
      short short' with
      ⟨j, j', le, le', below, below', j₃, -, -, follows⟩
    exact ⟨j, j', le, le', below, below', follows.behind⟩
  · intro reading short₁ short₂ short₃ y left ran
    rcases continued (reading.extend spelling.first) (reading.extend spelling.second) reading
      ⟨rfl, rfl, rfl, rfl, rfl, rfl, rfl, rfl⟩ ⟨rfl, rfl, rfl, rfl, rfl, rfl, rfl, rfl⟩
        short₁ short₂ with
      ⟨j₁, j₂, le₁, le₂, below₁, below₂, j₃, le₃, below₃, follows⟩
    exact (follows.before reading below₁ below₂ (below₃ short₃) ran).mono le₁ le₂ le₃

theorem follows_read_bind {g₁ g₂ g₃ : Reading → Read α}
    (continued : ∀ r₁ r₂ r₃ : Reading, r₁.Agrees r₂ → r₁.Agrees r₃ →
      Follows spelling k₁ k₂ k₃ (g₁ r₁) (g₂ r₂) (g₃ r₃)) :
    Follows spelling k₁ k₂ k₃ (get >>= g₁) (get >>= g₂) (get >>= g₃) := by
  apply follows_get_bind
  intro r₁ r₂ r₃ agrees₂ agrees₃ short₁ short₂
  exact ⟨k₁, k₂, le_rfl, le_rfl, short₁, short₂, k₃, le_rfl, id, continued r₁ r₂ r₃ agrees₂ agrees₃⟩

/-- A step that counts the tokens ahead first, and goes on with bounds that are above their
numbers. -/
theorem follows_count_bind {g₁ g₂ g₃ : Reading → Read α}
    (continued : ∀ r₁ r₂ r₃ : Reading, ∀ j₃ ≤ k₃, j₃ ≤ r₃.tokens.length + 1 →
      Follows spelling (r₁.tokens.length + 1) (r₂.tokens.length + 1) j₃ (g₁ r₁) (g₂ r₂) (g₃ r₃)) :
    Follows spelling k₁ k₂ k₃ (get >>= g₁) (get >>= g₂) (get >>= g₃) := by
  apply follows_get_bind
  intro r₁ r₂ r₃ _ _ short₁ short₂
  refine ⟨_, _, short₁, short₂, Nat.lt_succ_self _, Nat.lt_succ_self _,
    min k₃ (r₃.tokens.length + 1), Nat.min_le_left _ _, fun short₃ =>
    lt_min short₃ (Nat.lt_succ_self _), ?_⟩
  exact continued r₁ r₂ r₃ _ (Nat.min_le_left _ _) (Nat.min_le_right _ _)

theorem Respells.first_parts (respells : Respells spelling) :
    ∀ token ∈ spelling.first.head?, token.Opens := by
  rcases respells.first_opens with ⟨token, mem, opens⟩
  intro other mem'
  cases Option.mem_unique mem mem'
  exact opens

theorem follows_next_bind (respells : Respells spelling) {f₁ f₂ f₃ : Option Token → Read α}
    (ended : Steady spelling.first none k₁ k₂ (f₁ none) (f₂ none))
    (continued : ∀ token,
      Follows spelling (k₁ - 1) (k₂ - 1) (k₃ - 1) (f₁ (some token)) (f₂ (some token))
        (f₃ (some token)))
    (edge : ∀ reading : Reading, reading.tokens = [] →
      (reading.extend spelling.first).tokens.length < k₁ →
      (reading.extend spelling.second).tokens.length < k₂ → ∀ {y left},
        (next >>= f₁).run (reading.extend spelling.first) = .ok (y, left) →
          Outcome spelling k₁ k₂ k₃ y left
          ((next >>= f₂).run (reading.extend spelling.second)) ((f₃ none).run reading)) :
    Follows spelling k₁ k₂ k₃ (next >>= f₁) (next >>= f₂) (next >>= f₃) := by
  refine ⟨steady_next_bind ended (fun token => (continued token).behind) fun noSide =>
    absurd rfl noSide, ?_⟩
  intro reading short₁ short₂ short₃ y left ran
  rcases tokens_eq : reading.tokens with _ | ⟨token, tokens⟩
  · have atEnd : next.run reading = .ok (none, reading) :=
      run_next_eq_ok.mpr (.inl ⟨tokens_eq, rfl, rfl⟩)
    rw [run_bind_of_ok atEnd]
    exact edge reading tokens_eq short₁ short₂ ran
  · have extend_eq := Reading.tokens_extend_of_cons tokens_eq
    rcases run_bind_eq_ok.mp ran with ⟨a, between, ran, ranOn⟩
    rcases run_next_eq_ok.mp ran with ⟨none_left, -⟩ | ⟨_, _, split, goesOn, rfl, rfl⟩
    · rw [extend_eq] at none_left
      cases none_left
    · rw [extend_eq] at split
      cases split
      have goesOn := (Token.dangling_append_iff respells.first_parts).not.mp goesOn
      have second_eq : next.run (reading.extend spelling.second) =
          .ok (some token, (reading.pass token tokens).extend spelling.second) := by
        refine run_next_eq_ok.mpr (.inr ⟨token, _, extend_eq _, ?_, rfl, rfl⟩)
        exact (Token.dangling_append_iff respells.second_opens).not.mpr goesOn
      have third_eq : next.run reading = .ok (some token, reading.pass token tokens) :=
        run_next_eq_ok.mpr (.inr ⟨token, tokens, tokens_eq, goesOn, rfl, rfl⟩)
      rw [extend_eq, List.length_cons] at short₁ short₂
      rw [tokens_eq, List.length_cons] at short₃
      rw [run_bind_of_ok second_eq, run_bind_of_ok third_eq]
      have outcome :=
        (continued token).before (reading.pass token tokens) (Nat.lt_sub_of_add_lt short₁)
        (Nat.lt_sub_of_add_lt short₂) (Nat.lt_sub_of_add_lt short₃) ranOn
      exact outcome.mono (Nat.sub_le _ _) (Nat.sub_le _ _) (Nat.sub_le _ _)

theorem follows_accept_bind (respells : Respells spelling) {c : Char} (other : c ≠ '(')
    {f₁ f₂ f₃ : Bool → Read α}
    (yes : Follows spelling (k₁ - 1) (k₂ - 1) (k₃ - 1) (f₁ true) (f₂ true) (f₃ true))
    (no : Follows spelling k₁ k₂ k₃ (f₁ false) (f₂ false) (f₃ false)) :
    Follows spelling k₁ k₂ k₃ (accept c >>= f₁) (accept c >>= f₂) (accept c >>= f₃) := by
  refine ⟨steady_accept_bind other yes.behind no.behind, ?_⟩
  intro reading short₁ short₂ short₃ y left ran
  rcases run_bind_eq_ok.mp ran with ⟨a, between, ran, ranOn⟩
  rcases run_accept_eq_ok.mp ran with ⟨left, left_eq, goesOn, rfl, rfl⟩ | ⟨missing, rfl, rfl⟩
  · have isNext : reading.tokens.head? = some (.plain c) := by
      rw [← (respells.alone reading).isNext_iff other, left_eq]
      rfl
    rcases List.head?_eq_some_iff.mp isNext with ⟨tokens, tokens_eq⟩
    have extend_eq := Reading.tokens_extend_of_cons tokens_eq
    rw [extend_eq] at left_eq
    cases left_eq
    have goesOn := (Token.dangling_append_iff respells.first_parts).not.mp goesOn
    have second_eq : (accept c).run (reading.extend spelling.second) =
        .ok (true, (reading.pass (.plain c) tokens).extend spelling.second) := by
      refine run_accept_eq_ok.mpr (.inl ⟨_, extend_eq _, ?_, rfl, rfl⟩)
      exact (Token.dangling_append_iff respells.second_opens).not.mpr goesOn
    have third_eq : (accept c).run reading = .ok (true, reading.pass (.plain c) tokens) :=
      run_accept_eq_ok.mpr (.inl ⟨tokens, tokens_eq, goesOn, rfl, rfl⟩)
    rw [extend_eq, List.length_cons] at short₁ short₂
    rw [tokens_eq, List.length_cons] at short₃
    rw [run_bind_of_ok second_eq, run_bind_of_ok third_eq]
    have outcome := yes.before (reading.pass (.plain c) tokens) (Nat.lt_sub_of_add_lt short₁)
      (Nat.lt_sub_of_add_lt short₂) (Nat.lt_sub_of_add_lt short₃) ranOn
    exact outcome.mono (Nat.sub_le _ _) (Nat.sub_le _ _) (Nat.sub_le _ _)
  · have second_eq :
        (accept c).run (reading.extend spelling.second) =
          .ok (false, reading.extend spelling.second) :=
      run_accept_eq_ok.mpr
        (.inr ⟨((respells.ahead reading).isNext_iff other).not.mp missing, rfl, rfl⟩)
    have third_eq : (accept c).run reading = .ok (false, reading) :=
      run_accept_eq_ok.mpr
        (.inr ⟨((respells.alone reading).isNext_iff other).not.mp missing, rfl, rfl⟩)
    rw [run_bind_of_ok second_eq, run_bind_of_ok third_eq]
    exact no.before _ short₁ short₂ short₃ ranOn

theorem run_advance_of_goesOn {reading : Reading} {token : Token} {tokens : List Token}
    (tokens_eq : reading.tokens = token :: tokens) (goesOn : tokens.head? ≠ some .dangling) :
    advance.run reading = .ok ((), reading.pass token tokens) := by
  rw [run_advance_cons tokens_eq, if_neg goesOn]

theorem goesOn_of_run_advance {reading between : Reading} {token : Token} {tokens : List Token}
    {u : Unit}
    (tokens_eq : reading.tokens = token :: tokens) (ran : advance.run reading = .ok (u, between)) :
    tokens.head? ≠ some .dangling ∧ between = reading.pass token tokens := by
  rw [run_advance_cons tokens_eq] at ran
  split at ran
  · cases ran
  · next goesOn =>
    cases ran
    exact ⟨goesOn, rfl⟩

/-- A step that looks at the next token and then stays before it or passes it. -/
theorem follows_peek_bind (respells : Respells spelling) {f₁ f₂ f₃ : Option Token → Read α}
    (ended : Steady spelling.first none k₁ k₂ (f₁ none) (f₂ none))
    (here : ∀ token, Follows spelling k₁ k₂ k₃ (f₁ (some token)) (f₂ (some token))
      (f₃ (some token)) ∨
      ∃ g₁ g₂ g₃, f₁ (some token) = (advance >>= fun _ => g₁) ∧
        f₂ (some token) = (advance >>= fun _ => g₂) ∧
        f₃ (some token) = (advance >>= fun _ => g₃) ∧
          Follows spelling (k₁ - 1) (k₂ - 1) (k₃ - 1) g₁ g₂ g₃)
    (edge : ∀ reading : Reading, reading.tokens = [] → ∀ y left,
      (peek >>= f₁).run (reading.extend spelling.first) ≠ .ok (y, left)) :
    Follows spelling k₁ k₂ k₃ (peek >>= f₁) (peek >>= f₂) (peek >>= f₃) := by
  have run_peek : ∀ (f : Option Token → Read α) (reading : Reading),
      (peek >>= f).run reading = (f reading.tokens.head?).run reading := fun _ _ => rfl
  refine ⟨⟨?_⟩, ?_⟩
  · intro reading reading' beside short short' y left ran
    rw [run_peek] at ran ⊢
    rcases beside.next with
      ⟨token, tokens, tokens', tokens_eq, tokens'_eq, dangling, passed⟩ | ⟨tokens_eq, tokens'_eq⟩
        | ⟨noSide, -⟩
    · rw [tokens_eq, List.head?_cons] at ran
      rw [tokens'_eq, List.head?_cons]
      rcases here token with follows | ⟨g₁, g₂, g₃, f₁_eq, f₂_eq, -, follows⟩
      · exact follows.behind.keeps beside short short' ran
      · rw [f₁_eq] at ran
        rw [f₂_eq]
        rcases run_bind_eq_ok.mp ran with ⟨_, between, advanced, ran⟩
        rcases goesOn_of_run_advance tokens_eq advanced with ⟨goesOn, rfl⟩
        rw [run_bind_of_ok (run_advance_of_goesOn tokens'_eq (dangling.not.mp goesOn))]
        rw [tokens_eq, List.length_cons] at short
        rw [tokens'_eq, List.length_cons] at short'
        rcases follows.behind.keeps passed (Nat.lt_sub_of_add_lt short)
          (Nat.lt_sub_of_add_lt short') ran with
          ⟨left', ran', beside, below, below'⟩
        exact ⟨left', ran', beside, below.trans_le (Nat.sub_le _ _),
          below'.trans_le (Nat.sub_le _ _)⟩
    · rw [tokens_eq, List.head?_nil] at ran
      rw [tokens'_eq, List.head?_nil]
      exact ended.keeps beside short short' ran
    · exact absurd rfl noSide
  · intro reading short₁ short₂ short₃ y left ran
    rcases tokens_eq : reading.tokens with _ | ⟨token, tokens⟩
    · exact absurd ran (edge reading tokens_eq _ _)
    · have extend_eq := Reading.tokens_extend_of_cons tokens_eq
      rw [run_peek, extend_eq, List.head?_cons] at ran
      rw [run_peek, run_peek, extend_eq, tokens_eq, List.head?_cons, List.head?_cons]
      rcases here token with follows | ⟨g₁, g₂, g₃, f₁_eq, f₂_eq, f₃_eq, follows⟩
      · exact follows.before _ short₁ short₂ short₃ ran
      · rw [f₁_eq] at ran
        rw [f₂_eq, f₃_eq]
        rcases run_bind_eq_ok.mp ran with ⟨_, between, advanced, ran⟩
        rcases goesOn_of_run_advance (extend_eq _) advanced with ⟨goesOn, rfl⟩
        have goesOn := (Token.dangling_append_iff respells.first_parts).not.mp goesOn
        have goesOn' : (tokens ++ spelling.second).head? ≠ some .dangling :=
          (Token.dangling_append_iff respells.second_opens).not.mpr goesOn
        rw [run_bind_of_ok (run_advance_of_goesOn (extend_eq _) goesOn'),
          run_bind_of_ok (run_advance_of_goesOn tokens_eq goesOn)]
        rw [extend_eq, List.length_cons] at short₁ short₂
        rw [tokens_eq, List.length_cons] at short₃
        have outcome := follows.before (reading.pass token tokens) (Nat.lt_sub_of_add_lt short₁)
          (Nat.lt_sub_of_add_lt short₂) (Nat.lt_sub_of_add_lt short₃) ran
        exact outcome.mono (Nat.sub_le _ _) (Nat.sub_le _ _) (Nat.sub_le _ _)

end Follows

end Markflow.Regex
