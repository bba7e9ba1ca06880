import Markflow.Proofs.Regex.Respelling

/-!
# Reading over a spelling

The short spelling of a group is read in sets and in comments alone, that of a reference in comments
alone.  A reader that has passed it in a comment goes on in the same way as a reader that has passed
the long spelling (`follows_skipPast_bind`), and a set in which it stands is missing its end before
the spelling (`follows_readSet`).
-/

namespace Markflow.Regex

open Read

section Comments

variable {α : Type} {spelling : Respelling} {fork front rest : List Token} {test : Token → Bool}
    {k k' k₁ k₂ k₃ : Nat}
  {reading left : Reading}

/-- A reading behind some of its tokens. -/
def Reading.passAll (reading : Reading) (front rest : List Token) : Reading :=
  { reading with
    tokens := rest
    position := front.foldl (fun position token => position + token.width) reading.position }

theorem steady_skipPast {fuel fuel' : Nat} (enough : k ≤ fuel) (enough' : k' ≤ fuel') :
    Steady fork none k k' (skipPast test fuel) (skipPast test fuel') := by
  induction fuel generalizing k k' fuel' with
  | zero => exact steady_of_zero (.inl (Nat.le_zero.mp enough))
  | succ fuel ih =>
    rcases fuel' with _ | fuel'
    · exact steady_of_zero (.inr (Nat.le_zero.mp enough'))
    refine steady_next_bind (steady_pure false) ?_ fun noSide => absurd rfl noSide
    intro token
    apply Steady.ite
    · intro _
      exact steady_pure true
    · intro _
      exact ih (Nat.sub_le_of_le_add enough) (Nat.sub_le_of_le_add enough')

theorem run_skipPast_over {fuel : Nat} {found : Bool} (fails : ∀ token ∈ front, test token = false)
    (inner : .dangling ∉ front) (tokens_eq : reading.tokens = front ++ rest) :
    (skipPast test (front.length + fuel)).run reading = .ok (found, left) ↔
      (front ≠ [] → rest.head? ≠ some .dangling) ∧
        (skipPast test fuel).run (reading.passAll front rest) = .ok (found, left) := by
  induction front generalizing reading with
  | nil =>
    have same : reading.passAll [] rest = reading := by
      cases reading
      cases tokens_eq
      rfl
    rw [same, List.length_nil, Nat.zero_add]
    simp
  | cons token front ih =>
    have passed_eq : (reading.pass token (front ++ rest)).passAll front rest =
        reading.passAll (token :: front) rest := rfl
    have below := @ih (reading.pass token (front ++ rest))
      (fun other mem => fails other (List.mem_cons_of_mem token mem))
      (fun mem => inner (List.mem_cons_of_mem token mem)) rfl
    rw [passed_eq] at below
    rw [List.length_cons, Nat.add_right_comm, skipPast, run_bind_eq_ok]
    constructor
    · rintro ⟨a, between, ran, ranOn⟩
      rcases run_next_eq_ok.mp ran with ⟨none_left, -⟩ | ⟨_, _, split, goesOn, rfl, rfl⟩
      · rw [tokens_eq] at none_left
        cases none_left
      · rw [tokens_eq] at split
        cases split
        dsimp only at ranOn
        rw [if_neg (by simp [fails token List.mem_cons_self])] at ranOn
        rcases below.mp ranOn with ⟨inside, ranOn⟩
        refine ⟨fun _ => ?_, ranOn⟩
        rcases front with _ | ⟨other, front⟩
        · exact goesOn
        · exact inside (List.cons_ne_nil other front)
    · rintro ⟨ends, ran⟩
      have goesOn := ends (List.cons_ne_nil token front)
      clear ends
      have inside : (front ++ rest).head? ≠ some .dangling := by
        rcases front with _ | ⟨other, front⟩
        · exact goesOn
        · intro isDangling
          cases isDangling
          simp at inner
      refine ⟨some token, _, run_next_eq_ok.mpr (.inr ⟨token, _, tokens_eq, inside, rfl, rfl⟩), ?_⟩
      dsimp only
      rw [if_neg (by simp [fails token List.mem_cons_self])]
      exact below.mpr ⟨fun _ => goesOn, ran⟩

/-- A search for a token that no spelling holds goes on behind either spelling in the same way. -/
theorem skipPast_across (respells : Respells spelling)
    (fails : ∀ token ∈ spelling.short ++ spelling.long, test token = false)
    {fuel fuel' : Nat} (enough : (reading.extend spelling.first).tokens.length < fuel)
    (enough' : (reading.extend spelling.second).tokens.length < fuel')
    (atEdge : reading.tokens = []) {found : Bool}
    (ran : (skipPast test fuel).run (reading.extend spelling.first) = .ok (found, left)) :
    ∃ left', (skipPast test fuel').run (reading.extend spelling.second) = .ok (found, left') ∧
      left.Alike left' ∧
      left.tokens.length ≤ spelling.rest.length := by
  have inner : .dangling ∉ spelling.short ∧ .dangling ∉ spelling.long := by
    cases respells <;> simp
  have extend_eq := Reading.tokens_extend_of_nil atEdge
  rw [extend_eq] at enough enough'
  rw [Respelling.first, List.length_append] at enough
  rw [Respelling.second, List.length_append] at enough'
  rcases Nat.exists_eq_add_of_le
    (Nat.le_of_lt (Nat.lt_of_le_of_lt (Nat.le_add_right _ _) enough)) with ⟨fuel, rfl⟩
  rcases Nat.exists_eq_add_of_le
    (Nat.le_of_lt (Nat.lt_of_le_of_lt (Nat.le_add_right _ _) enough')) with ⟨fuel', rfl⟩
  rcases (run_skipPast_over (fun token mem => fails token (List.mem_append_left _ mem)) inner.1
    (extend_eq spelling.first)).mp ran with ⟨goesOn, ran⟩
  have alike : ((reading.extend spelling.first).passAll spelling.short spelling.rest).Alike
      ((reading.extend spelling.second).passAll spelling.long spelling.rest) :=
    { mode := rfl, unicodeAsked := rfl, templateAsked := rfl, widths := rfl, names := rfl,
      lookbehindFrom := rfl, deferred := rfl, around := rfl, tokens := rfl, awaited := rfl }
  have steady : Steady spelling.first none (spelling.rest.length + 1) (spelling.rest.length + 1)
      (skipPast test fuel)
      (skipPast test fuel') := steady_skipPast (by omega) (by omega)
  rcases steady.keeps (.behind alike) (Nat.lt_succ_self _) (Nat.lt_succ_self _) ran with
    ⟨left', ran', beside, short, -⟩
  cases beside with
  | behind alike =>
    refine ⟨left', ?_, alike, Nat.le_of_lt_succ short⟩
    refine (run_skipPast_over (fun token mem => fails token (List.mem_append_right _ mem)) inner.2
      (extend_eq spelling.second)).mpr ⟨fun _ => goesOn ?_, ran'⟩
    cases respells <;> simp

/-- A comment that is open before the spelling goes on behind it, unless that spoils the reading. -/
theorem follows_skipPast_bind (respells : Respells spelling) {n₁ n₂ n₃ : Nat} (enough₁ : k₁ ≤ n₁)
    (enough₂ : k₂ ≤ n₂) (enough₃ : k₃ ≤ n₃) {f₁ f₂ f₃ : Bool → Read α}
    (continued : ∀ {j₁ j₂ j₃}, j₃ ≤ k₃ → ∀ found,
      Follows spelling j₁ j₂ j₃ (f₁ found) (f₂ found) (f₃ found))
    (edge : (∀ token ∈ spelling.short ++ spelling.long, test token = false) ∨
      ∀ reading, ∃ position, (f₃ false).run reading =
        .error (.malformed ⟨spelling.spoil, some position⟩)) :
    Follows spelling k₁ k₂ k₃ (skipPast test n₁ >>= f₁) (skipPast test n₂ >>= f₂)
      (skipPast test n₃ >>= f₃) := by
  have behind : ∀ {j₁ j₂} found, Steady spelling.first none j₁ j₂ (f₁ found) (f₂ found) :=
    fun found => (continued (Nat.zero_le k₃) found).behind
  induction n₁ generalizing k₁ k₂ k₃ n₂ n₃ with
  | zero => exact .of_zero (.inl (Nat.le_zero.mp enough₁))
  | succ n₁ ih =>
    rcases n₂ with _ | n₂
    · exact .of_zero (.inr (Nat.le_zero.mp enough₂))
    rcases n₃ with _ | n₃
    · cases Nat.le_zero.mp enough₃
      exact .of_behind ((steady_skipPast enough₁ enough₂).bind behind)
    rw [skipPast, skipPast, skipPast, bind_assoc, bind_assoc, bind_assoc]
    apply follows_next_bind respells
    · rw [pure_bind, pure_bind]
      exact behind false
    · intro token
      dsimp only
      by_cases ends : test token = true
      · rw [if_pos ends, if_pos ends, if_pos ends, pure_bind, pure_bind, pure_bind]
        exact continued (Nat.sub_le _ _) true
      · rw [if_neg ends, if_neg ends, if_neg ends]
        exact ih (Nat.sub_le_of_le_add enough₁) (Nat.sub_le_of_le_add enough₂)
          (Nat.sub_le_of_le_add enough₃)
          fun le => continued (le.trans (Nat.sub_le _ _))
    · intro reading atEdge short₁ short₂ y left ran
      rw [pure_bind]
      rcases edge with fails | spoils
      · rw [← bind_assoc] at ran ⊢
        rcases run_bind_eq_ok.mp ran with ⟨found, between, ran, ranOn⟩
        have crossed :=
          skipPast_across respells fails (short₁.trans_le enough₁) (short₂.trans_le enough₂) atEdge
            ran
        rcases crossed with ⟨between', ran', alike, less⟩
        have short :
            ∀ more,
              spelling.rest.length ≤ (reading.extend (more ++ spelling.rest)).tokens.length := by
          intro more
          rw [Reading.length_extend, List.length_append]
          omega
        have short₁ := (less.trans (short spelling.short)).trans_lt short₁
        have short₂ := (less.trans (short spelling.long)).trans_lt short₂
        rw [alike.tokens] at short₂
        rcases (behind found).keeps (.behind alike) short₁ short₂ ranOn with
          ⟨left', ranOn', beside, short₁, short₂⟩
        cases beside with
        | behind alike => exact .across ((run_bind_of_ok ran').trans ranOn') alike short₁ short₂
      · rcases spoils reading with ⟨position, third_eq⟩
        exact .spoiled third_eq

end Comments

section Sets

variable {α : Type} {spelling : Respelling} {k₁ k₂ k₃ : Nat}

/-- A set that is open before the spelling misses its end there; none is read over a reference. -/
theorem set_edge (respells : Respells spelling) {f₁ f₂ : Option Token → Read α} (start₃ : Nat)
    {third : Except Refusal (α × Reading)}
    (unclosed : third = .error (.malformed ⟨.unterminatedSet, some start₃⟩))
    (refuses : Fails (f₁ (some (.escaped 'k')))) {reading : Reading} (atEdge : reading.tokens = [])
    {y : α} {left : Reading}
    (ran : (next >>= f₁).run (reading.extend spelling.first) = .ok (y, left)) :
    Outcome spelling k₁ k₂ k₃ y left ((next >>= f₂).run (reading.extend spelling.second))
      third := by
  cases respells with
  | group starts goesOn =>
    exact .spoiled unclosed
  | reference starts goesOn =>
    rcases run_bind_eq_ok.mp ran with ⟨a, between, ran, ranOn⟩
    rcases run_next_eq_ok.mp ran with ⟨none_left, -⟩ | ⟨token, tokens, split, -, rfl, -⟩
    · rw [Reading.extend, atEdge] at none_left
      cases none_left
    · rw [Reading.extend, atEdge] at split
      cases split
      exact absurd ranOn (refuses _ _ _)

variable [Host]

theorem fails_readOther_k : Fails (readOther 'k') := (fails_fail _ _).bind

theorem fails_readMember_k : Fails (readMember (.escaped 'k')) := fails_readOther_k

theorem fails_readEscape_k (mode : Mode) : Fails (readEscape mode 'k') := fails_readOther_k

theorem follows_readMembers (respells : Respells spelling) (mode : Mode)
    (start₁ start₂ start₃ : Nat) {n₁ n₂ n₃ : Nat}
    (enough₁ : k₁ ≤ n₁) (enough₂ : k₂ ≤ n₂) (enough₃ : k₃ ≤ n₃) (items : List SetItem) :
    Follows spelling k₁ k₂ k₃ (readMembers mode start₁ n₁ items) (readMembers mode start₂ n₂ items)
      (readMembers mode start₃ n₃ items) := by
  have member : ∀ {k₁ k₂ k₃} token,
      Follows spelling k₁ k₂ k₃ (readMember token) (readMember token) (readMember token) := by
    intro k₁ k₂ k₃ token
    exact follows_same respells (steady_readMember token)
  induction n₁ generalizing k₁ k₂ k₃ n₂ n₃ items with
  | zero => exact .of_zero (.inl (Nat.le_zero.mp enough₁))
  | succ n₁ ih =>
    rcases n₂ with _ | n₂
    · exact .of_zero (.inr (Nat.le_zero.mp enough₂))
    have step : ∀ k₃ n₃, k₃ ≤ n₃ + 1 →
        Follows spelling k₁ k₂ k₃ (readMembers mode start₁ (n₁ + 1) items)
        (readMembers mode start₂ (n₂ + 1) items) (readMembers mode start₃ (n₃ + 1) items) := by
      intro k₃ n₃ enough₃
      apply follows_next_bind respells (fails_failAt _ _).steady
      · intro first
        apply Follows.ite
        · intro _
          exact follows_same respells (steady_pure _)
        · intro _
          apply (member first).bind
          intro low
          apply follows_accept_bind respells (by decide)
          · apply follows_next_bind respells (fails_failAt _ _).steady
            · intro last
              apply Follows.ite
              · intro _
                exact follows_same respells (steady_pure _)
              · intro _
                apply (member last).bind
                intro high
                dsimp only
                split
                · apply follows_unless (fails_fail _ _)
                  intro _
                  exact ih (by omega) (by omega) (by omega) _
                · exact (fails_fail _ _).follows
            · intro reading atEdge _ _ y left ran
              exact set_edge respells start₃ rfl fails_readMember_k.bind atEdge ran
          · exact ih (by omega) (by omega) (by omega) _
      · intro reading atEdge _ _ y left ran
        exact set_edge respells start₃ rfl fails_readMember_k.bind atEdge ran
    rcases n₃ with _ | n₃
    · cases Nat.le_zero.mp enough₃
      exact .of_behind (step 0 0 (Nat.zero_le 1)).behind
    · exact step k₃ n₃ enough₃

theorem follows_readSet (respells : Respells spelling) (mode : Mode) :
    Follows spelling k₁ k₂ k₃ (readSet mode) (readSet mode) (readSet mode) := by
  let made (complement : Bool) (items : List SetItem) : Item :=
    ⟨.one ⟨items, complement, mode.caseMode⟩, .plain⟩
  have members : ∀ complement start₁ start₂ start₃ n₁ n₂ n₃ k₁ k₂ k₃, k₁ ≤ n₁ → k₂ ≤ n₂ → k₃ ≤ n₃ →
      Follows spelling k₁ k₂ k₃
        (readMembers mode start₁ n₁ [] >>= fun items => pure (made complement items))
        (readMembers mode start₂ n₂ [] >>= fun items => pure (made complement items))
        (readMembers mode start₃ n₃ [] >>= fun items => pure (made complement items)) := by
    intro complement start₁ start₂ start₃ n₁ n₂ n₃ k₁ k₂ k₃ enough₁ enough₂ enough₃
    apply (follows_readMembers respells mode start₁ start₂ start₃ enough₁ enough₂ enough₃ []).bind
    intro items
    exact follows_same respells (steady_pure _)
  apply follows_count_bind
  intro r₁ r₂ r₃ j₃ _ enough
  apply follows_accept_bind respells (by decide)
  · exact members true _ _ _ _ _ _ _ _ _ (Nat.sub_le _ _) (Nat.sub_le _ _)
      ((Nat.sub_le _ _).trans enough)
  · exact members false _ _ _ _ _ _ _ _ _ le_rfl le_rfl enough

end Sets

end Markflow.Regex
