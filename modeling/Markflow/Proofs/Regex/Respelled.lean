import Markflow.Proofs.Regex.Crossing

/-!
# Respelled expressions

The reader of an expression goes on alike over either spelling of a group or of a reference, where
the expression is read at all and the spelling does not stand in a set or comment that it changes
(`read?_respelled`).  The reader's three functions call each other with less fuel, and what holds of
them is shown of all three at once (`InStep`).
-/

namespace Markflow.Regex

open Read

/-- The functions of the reader are run in step with these amounts of fuel, and with enough of it on
the third side. -/
structure InStep [Host] (spelling : Respelling) (n₁ n₂ : Nat) : Prop where
  choice : ∀ {k₁ k₂ k₃ n₃}, 3 * k₃ ≤ n₃ + 1 → ∀ top mode read,
    Follows spelling k₁ k₂ k₃ (readChoice top n₁ mode read) (readChoice top n₂ mode read)
      (readChoice top n₃ mode read)
  sequence : ∀ {k₁ k₂ k₃ n₃}, 3 * k₃ ≤ n₃ + 2 → ∀ top first mode items,
    Follows spelling k₁ k₂ k₃ (readSequence top first n₁ mode items)
      (readSequence top first n₂ mode items) (readSequence top first n₃ mode items)
  group : ∀ {k₁ k₂ k₃ n₃}, 3 * k₃ ≤ n₃ → ∀ first mode start₁ start₂ start₃,
    Follows spelling k₁ k₂ k₃ (readGroup first n₁ mode start₁) (readGroup first n₂ mode start₂)
      (readGroup first n₃ mode start₃)

section Spellings

variable {spelling : Respelling}

theorem not_mem_named {c d closer : Char} {name : List Char}
    (starts : Spelling.isNameStart c = true)
    (goesOn : ∀ d ∈ name, Spelling.isNameRest d = true) (noStart : Spelling.isNameStart d = false)
    (noRest : Spelling.isNameRest d = false) (other : d ≠ closer) :
    .plain d ∉ (c :: (name ++ [closer])).map Token.plain := by
  intro mem
  rcases List.mem_map.mp mem with ⟨_, mem, same⟩
  cases same
  rcases List.mem_cons.mp mem with rfl | inRest
  · rw [starts] at noStart
    cases noStart
  · rcases List.mem_append.mp inRest with inName | isCloser
    · rw [goesOn d inName] at noRest
      cases noRest
    · exact other (List.mem_singleton.mp isCloser)

theorem Respells.no_newline (respells : Respells spelling) :
    .plain '\n' ∉ spelling.short ++ spelling.long := by
  cases respells with
  | group starts goesOn =>
    have named := not_mem_named starts goesOn (by decide) (by decide) (by decide : '\n' ≠ '>')
    simpa [-List.map_cons, -List.map_append, -List.mem_map] using named
  | reference starts goesOn =>
    have short_named := not_mem_named starts goesOn (by decide) (by decide) (by decide : '\n' ≠ '>')
    have long_named := not_mem_named starts goesOn (by decide) (by decide) (by decide : '\n' ≠ ')')
    simpa [-List.map_cons, -List.map_append, -List.mem_map] using ⟨short_named, long_named⟩

/-- What ends a comment stands in no spelling of a group. -/
theorem Respells.no_closer (respells : Respells spelling) :
    .plain ')' ∉ spelling.short ++ spelling.long ∨ spelling.spoil = .unterminatedComment := by
  cases respells with
  | group starts goesOn =>
    left
    have named := not_mem_named starts goesOn (by decide) (by decide) (by decide : ')' ≠ '>')
    simpa [-List.map_cons, -List.map_append, -List.mem_map] using named
  | reference starts goesOn => exact .inr rfl

theorem condition_refuses {reading left : Reading}
    (isNext : reading.tokens.head? = some (.plain '?')) {index : Nat} :
    readCondition.run reading ≠ .ok (index, left) := by
  intro ran
  rcases run_bind_eq_ok.mp ran with ⟨name, between, named, ran⟩
  have taken : (takeUntil ')' "group name" (reading.tokens.length + 1) []).run reading =
      .ok (name, between) := named
  rcases run_takeUntil_eq_ok.mp taken with ⟨token, tokens, tokens_eq, -, ends⟩
  rw [tokens_eq] at isNext
  cases isNext
  rcases ends with ⟨isCloser, -⟩ | ⟨-, taken⟩
  · cases isCloser
  · have foreign : IsForeign '?' := .inr (.inl rfl)
    have mem : '?' ∈ name := (prefix_of_takeUntil taken).subset List.mem_cons_self
    rw [isIdentifier_of_foreign foreign mem, spelledNumber?_of_foreign foreign mem] at ran
    exact (fails_fail _ _).bind _ _ _ ran

/-- What comes next is refused where it is the beginning of a spelling. -/
theorem next_refuses {α : Type} (respells : Respells spelling) {f : Option Token → Read α}
    (group : ∀ reading y left, reading.tokens.head? = some (.plain '?') →
      (f (some (.plain '('))).run reading ≠ .ok (y, left))
    (reference : Fails (f (some (.escaped 'k')))) {reading : Reading} (atEdge : reading.tokens = [])
    {y : α} {left : Reading} :
    (next >>= f).run (reading.extend spelling.first) ≠ .ok (y, left) := by
  intro ran
  rcases run_bind_eq_ok.mp ran with ⟨a, between, ran, ranOn⟩
  have extend_eq := Reading.tokens_extend_of_nil atEdge spelling.first
  rcases run_next_eq_ok.mp ran with ⟨none_left, -⟩ | ⟨token, tokens, split, -, rfl, rfl⟩
  · rcases respells.first_opens with ⟨token, isFirst, -⟩
    rw [← extend_eq, none_left] at isFirst
    cases isFirst
  · rw [extend_eq] at split
    cases respells with
    | group =>
      cases split
      exact group _ _ _ rfl ranOn
    | reference =>
      cases split
      exact reference _ _ _ ranOn

/-- No group opens with a name alone. -/
theorem group_refuses [Host] {c : Char} (starts : Spelling.isNameStart c = true)
    {tokens : List Token} {reading left : Reading}
    (tokens_eq : reading.tokens = .plain '?' :: .plain '<' :: .plain c :: tokens) {first : Bool}
    {n start : Nat}
    {mode : Mode} {item : Option Item} :
    (readGroup first n mode start).run reading ≠ .ok (item, left) := by
  have neither : c ≠ '=' ∧ c ≠ '!' := by
    constructor <;>
    · rintro rfl
      exact absurd starts (by decide)
  intro ran
  rcases n with _ | n
  · cases ran
  rw [readGroup] at ran
  rcases run_bind_eq_ok.mp ran with ⟨asked, between, accepted, ran⟩
  rcases run_accept_eq_ok.mp accepted with ⟨_, split, -, rfl, rfl⟩ | ⟨missing, -⟩
  · rw [tokens_eq] at split
    cases split
    rw [if_neg (by decide)] at ran
    rcases run_bind_eq_ok.mp ran with ⟨a, between, ran, ranOn⟩
    rcases run_next_eq_ok.mp ran with ⟨none_left, -⟩ | ⟨_, _, split, -, rfl, rfl⟩
    · cases none_left
    · cases split
      rcases run_bind_eq_ok.mp ranOn with ⟨a, between, ran, ranOn⟩
      rcases run_next_eq_ok.mp ran with ⟨none_left, -⟩ | ⟨_, _, split, -, rfl, rfl⟩
      · cases none_left
      · cases split
        dsimp only at ranOn
        rw [if_pos (by simp [neither])] at ranOn
        exact (fails_fail _ _).bind _ _ _ ranOn
  · rw [tokens_eq] at missing
    exact missing rfl

end Spellings

section Parts

/-- Reads a comment, behind its opening. -/
def readComment (start : Nat) : Read (Option Item) := do
  if ← skipPast (· = .plain ')') ((← get).tokens.length + 1) then return none
  else failAt start .unterminatedComment

variable [Host]

/-- Reads a group that captures, behind its opening. -/
def readCaptured (n : Nat) (mode : Mode) (start : Nat) (name : Option (List Char)) :
    Read (Option Item) := do
  let index ← openGroup name
  let body ← inside .group (readChoice false n mode [])
  closeParenthesis start
  closeGroup index body
  return some ⟨.group index body, .plain⟩

/-- Reads a group that does not capture, behind its opening. -/
def readEnclosed (n : Nat) (mode : Mode) (start : Nat) (wrap : Node → Node) :
    Read (Option Item) := do
  let body ← inside .group (readChoice false n mode [])
  closeParenthesis start
  return some ⟨wrap body, .plain⟩

/-- Reads a look-behind, behind its opening. -/
def readLookbehind (n : Nat) (mode : Mode) (start : Nat) (among : Bool) : Read (Option Item) := do
  let outer := (← get).lookbehindFrom
  modify fun state => { state with lookbehindFrom := some (outer.getD state.widths.length) }
  let body ← inside .group (readChoice false n mode [])
  modify fun state => { state with lookbehindFrom := outer }
  closeParenthesis start
  let width ← lookbehindWidth body
  return some ⟨.behind among width body, .plain⟩

/-- Reads a condition and its alternatives. -/
def readConditional (n : Nat) (mode : Mode) (start : Nat) : Read (Option Item) := do
  let index ← readCondition
  let yes ← inside .condition (readSequence false false n mode [])
  let no ← if ← accept '|' then do
      let no ← inside .condition (readSequence false false n mode [])
      if (← peek) = some (.plain '|') then fail .tooManyBranches 0
      pure no
    else pure .empty
  closeParenthesis start
  return some ⟨.ifGroup index yes no, .plain⟩

end Parts

section Functions

variable {spelling : Respelling} {n₁ n₂ n₃ k₁ k₂ k₃ : Nat}

theorem follows_readComment (respells : Respells spelling) (start₁ start₂ start₃ : Nat) :
    Follows spelling k₁ k₂ k₃ (readComment start₁) (readComment start₂) (readComment start₃) := by
  apply follows_count_bind
  intro r₁ r₂ r₃ k _ enough
  apply follows_skipPast_bind respells le_rfl le_rfl enough
  · rintro j₁ j₂ j₃ - (_ | _)
    · exact (fails_failAt _ _).follows
    · exact follows_same respells (steady_pure _)
  · rcases respells.no_closer with missing | spoil_eq
    · left
      intro token mem
      exact decide_eq_false (ne_of_mem_of_not_mem mem missing)
    · right
      intro reading
      rw [spoil_eq]
      exact ⟨start₃, rfl⟩

variable [Host]

/-- What stands inside a group is followed where the group is. -/
theorem Follows.inside (respells : Respells spelling) {α : Type} {x₁ x₂ x₃ : Read α}
    (follows : Follows spelling k₁ k₂ k₃ x₁ x₂ x₃) (kind : Nesting) :
    Follows spelling k₁ k₂ k₃ (inside kind x₁) (inside kind x₂) (inside kind x₃) := by
  have moved : ∀ {side k k'} (around : List Nesting), Steady spelling.first side k k'
      (modify fun state => { state with around }) (modify fun state => { state with around }) := by
    intro side k k' around
    apply steady_modify
    · intro reading more
      rfl
    · intro reading
      rfl
    · intro reading reading' alike
      exact { alike with around := rfl }
    · intro reading
      rfl
  apply follows_read_bind
  intro r₁ r₂ r₃ agrees₂ agrees₃
  rw [← agrees₂.around, ← agrees₃.around]
  apply follows_unless (fails_throw _).bind
  intro _
  apply (follows_same respells (moved _)).bind
  intro _
  apply follows.bind
  intro result
  apply (follows_same respells (moved _)).bind
  intro _
  exact follows_same respells (steady_pure result)

theorem InStep.choice_succ (inStep : InStep spelling n₁ n₂) (respells : Respells spelling)
    (enough : 3 * k₃ ≤ n₃ + 2) (top : Bool) (mode : Mode) (read : List Node) :
    Follows spelling k₁ k₂ k₃ (readChoice top (n₁ + 1) mode read)
      (readChoice top (n₂ + 1) mode read) (readChoice top (n₃ + 1) mode read) := by
  rw [readChoice, readChoice, readChoice]
  apply (inStep.sequence enough top _ mode []).bind
  intro node
  apply follows_accept_bind respells (by decide)
  · apply follows_read_bind
    intro r₁ r₂ r₃ agrees₂ agrees₃
    rw [← agrees₂.mode, ← agrees₃.mode]
    exact inStep.choice (by omega) top _ _
  · exact follows_same respells (steady_pure _)

theorem InStep.sequence_succ (inStep : InStep spelling n₁ n₂) (respells : Respells spelling)
    (enough : 3 * k₃ ≤ n₃ + 3) (top first : Bool) (mode : Mode) (items : List Item) :
    Follows spelling k₁ k₂ k₃ (readSequence top first (n₁ + 1) mode items)
      (readSequence top first (n₂ + 1) mode items)
      (readSequence top first (n₃ + 1) mode items) := by
  have proceed : ∀ {k₁ k₂} items,
      Follows spelling k₁ k₂ (k₃ - 1) (readSequence top first n₁ mode items)
      (readSequence top first n₂ mode items) (readSequence top first n₃ mode items) :=
    fun items => inStep.sequence (by omega) top first mode items
  have repeated : ∀ position₁ position₂ position₃ least most,
      Follows spelling (k₁ - 1) (k₂ - 1) (k₃ - 1)
      (readQuantifier position₁ least most items >>= readSequence top first n₁ mode)
      (readQuantifier position₂ least most items >>= readSequence top first n₂ mode)
      (readQuantifier position₃ least most items >>= readSequence top first n₃ mode) := by
    intro position₁ position₂ position₃ least most
    refine Follows.bind ?_ proceed
    exact follows_of_steady respells (steady_readQuantifier _ _ least most items)
      (steady_readQuantifier _ _ least most items)
  rw [readSequence, readSequence, readSequence]
  apply follows_read_bind
  intro r₁ r₂ r₃ agrees₂ agrees₃
  dsimp only
  refine follows_peek_bind respells (steady_pure _) ?_ ?_
  · intro token
    by_cases stays : token = .plain '|' ∨ token = .plain ')'
    · left
      dsimp only
      rw [if_pos (by simpa using stays), if_pos (by simpa using stays),
        if_pos (by simpa using stays)]
      exact follows_same respells (steady_pure _)
    · right
      refine ⟨_, _, _, if_neg (by simpa using stays), if_neg (by simpa using stays),
        if_neg (by simpa using stays), ?_⟩
      apply Follows.ite
      · intro _
        exact proceed items
      · intro _
        apply Follows.ite
        · intro _
          apply follows_count_bind
          intro s₁ s₂ s₃ k fewer enough₃
          apply follows_skipPast_bind respells le_rfl le_rfl enough₃
          · intro j₁ j₂ j₃ le _
            exact inStep.sequence (by omega) top first mode items
          · left
            intro token mem
            exact decide_eq_false (ne_of_mem_of_not_mem mem respells.no_newline)
        · intro _
          split
          · apply Follows.bind
            · exact follows_same respells (steady_readEscape mode _)
            · intro escape
              exact proceed _
          · apply (follows_readSet respells mode).bind
            intro item
            exact proceed _
          · exact proceed _
          · exact proceed _
          · exact proceed _
          · exact repeated _ _ _ _ _
          · exact repeated _ _ _ _ _
          · exact repeated _ _ _ _ _
          · apply (follows_same respells steady_readBounds).bind
            rintro (_ | ⟨least, most⟩)
            · exact proceed _
            · exact repeated _ _ _ least most
          · apply (inStep.group (by omega) _ mode _ _ _).bind
            rintro (_ | item)
            · apply follows_read_bind
              intro s₁ s₂ s₃ agrees₂ agrees₃
              rw [← agrees₂.mode, ← agrees₃.mode]
              exact inStep.sequence (by omega) top first _ items
            · exact proceed _
          · exact proceed _
          · exact (fails_failAt _ _).follows
  · intro reading atEdge y left ran
    have extend_eq := Reading.tokens_extend_of_nil atEdge spelling.first
    rcases run_bind_eq_ok.mp ran with ⟨a, between, peeked, ran⟩
    have peek_eq : peek.run (reading.extend spelling.first) =
        .ok ((reading.extend spelling.first).tokens.head?, reading.extend spelling.first) := rfl
    rw [peek_eq, extend_eq] at peeked
    cases peeked
    cases respells with
    | @group c name starts goesOn rest =>
      rcases run_bind_eq_ok.mp ran with ⟨_, between, advanced, ran⟩
      rcases goesOn_of_run_advance extend_eq advanced with ⟨-, rfl⟩
      rw [if_neg (by simp [isFiller, Text.isAsciiBlank]), if_neg (by simp)] at ran
      rcases run_bind_eq_ok.mp ran with ⟨item, between, ran, -⟩
      exact group_refuses starts rfl ran
    | @reference c name starts goesOn rest =>
      rcases run_bind_eq_ok.mp ran with ⟨_, between, advanced, ran⟩
      rw [if_neg (by simp [isFiller]), if_neg (by simp)] at ran
      exact (fails_readEscape_k mode).bind _ _ _ ran

theorem InStep.captured (inStep : InStep spelling n₁ n₂) (respells : Respells spelling)
    (enough : 3 * k₃ ≤ n₃ + 1)
    (mode : Mode) (start₁ start₂ start₃ : Nat) (name : Option (List Char)) :
    Follows spelling k₁ k₂ k₃ (readCaptured n₁ mode start₁ name) (readCaptured n₂ mode start₂ name)
      (readCaptured n₃ mode start₃ name) := by
  apply (follows_same respells (steady_openGroup name)).bind
  intro index
  apply ((inStep.choice enough false mode []).inside respells .group).bind
  intro body
  apply (follows_of_steady respells (steady_closeParenthesis _ _)
    (steady_closeParenthesis _ _)).bind
  intro _
  apply (follows_same respells (steady_closeGroup index body)).bind
  intro _
  exact follows_same respells (steady_pure _)

theorem InStep.enclosed (inStep : InStep spelling n₁ n₂) (respells : Respells spelling)
    (enough : 3 * k₃ ≤ n₃ + 1) (mode : Mode) (start₁ start₂ start₃ : Nat) (wrap : Node → Node) :
    Follows spelling k₁ k₂ k₃ (readEnclosed n₁ mode start₁ wrap) (readEnclosed n₂ mode start₂ wrap)
      (readEnclosed n₃ mode start₃ wrap) := by
  apply ((inStep.choice enough false mode []).inside respells .group).bind
  intro body
  apply (follows_of_steady respells (steady_closeParenthesis _ _)
    (steady_closeParenthesis _ _)).bind
  intro _
  exact follows_same respells (steady_pure _)

theorem InStep.lookbehind (inStep : InStep spelling n₁ n₂) (respells : Respells spelling)
    (enough : 3 * k₃ ≤ n₃ + 1) (mode : Mode) (start₁ start₂ start₃ : Nat) (among : Bool) :
    Follows spelling k₁ k₂ k₃ (readLookbehind n₁ mode start₁ among)
      (readLookbehind n₂ mode start₂ among) (readLookbehind n₃ mode start₃ among) := by
  apply follows_read_bind
  intro r₁ r₂ r₃ agrees₂ agrees₃
  dsimp only
  rw [← agrees₂.lookbehindFrom, ← agrees₃.lookbehindFrom]
  have entered : ∀ {side k k'}, Steady spelling.first side k k'
      (modify fun state =>
        { state with lookbehindFrom := some (r₁.lookbehindFrom.getD state.widths.length) })
      (modify fun state =>
        { state with lookbehindFrom := some (r₁.lookbehindFrom.getD state.widths.length) }) := by
    intro side k k'
    apply steady_setLookbehind
    · intro reading more
      rfl
    · intro reading reading' agrees
      rw [agrees.widths]
  have exited : ∀ {side k k'}, Steady spelling.first side k k'
      (modify fun state => { state with lookbehindFrom := r₁.lookbehindFrom })
      (modify fun state => { state with lookbehindFrom := r₁.lookbehindFrom }) :=
    steady_setLookbehind (fun _ _ => rfl) fun _ _ _ => rfl
  apply (follows_same respells entered).bind
  intro _
  apply ((inStep.choice enough false mode []).inside respells .group).bind
  intro body
  apply (follows_same respells exited).bind
  intro _
  apply (follows_of_steady respells (steady_closeParenthesis _ _)
    (steady_closeParenthesis _ _)).bind
  intro _
  apply (follows_same respells (steady_lookbehindWidth body)).bind
  intro width
  exact follows_same respells (steady_pure _)

theorem InStep.conditional (inStep : InStep spelling n₁ n₂) (respells : Respells spelling)
    (enough : 3 * k₃ ≤ n₃ + 2) (mode : Mode) (start₁ start₂ start₃ : Nat) :
    Follows spelling k₁ k₂ k₃ (readConditional n₁ mode start₁) (readConditional n₂ mode start₂)
      (readConditional n₃ mode start₃) := by
  have closed : ∀ {side k k'} start start' (item : Item), Steady spelling.first side k k'
      (closeParenthesis start >>= fun _ => pure (some item))
      (closeParenthesis start' >>= fun _ => pure (some item)) := by
    intro side k k' start start' item
    apply (steady_closeParenthesis start start').bind
    intro _
    exact steady_pure _
  apply (follows_same respells steady_readCondition).bind
  intro index
  apply ((inStep.sequence enough false false mode []).inside respells .condition).bind
  intro yes
  apply follows_accept_bind respells (by decide)
  · have isTwo : true = true := rfl
    rw [if_pos isTwo, if_pos isTwo, if_pos isTwo]
    apply ((inStep.sequence (by omega) false false mode []).inside respells .condition).bind
    intro no
    exact follows_of_steady respells
      (steady_peek_bind (by decide) (fails_fail _ _).bind.steady (closed _ _ _))
      (steady_peek_bind (by decide) (fails_fail _ _).bind.steady (closed _ _ _))
  · have isOne : ¬ false = true := Bool.false_ne_true
    rw [if_neg isOne, if_neg isOne, if_neg isOne]
    exact follows_of_steady respells (closed _ _ _) (closed _ _ _)

theorem InStep.group_succ (inStep : InStep spelling n₁ n₂) (respells : Respells spelling)
    (enough : 3 * k₃ ≤ n₃ + 1) (first : Bool) (mode : Mode) (start₁ start₂ start₃ : Nat) :
    Follows spelling k₁ k₂ k₃ (readGroup first (n₁ + 1) mode start₁)
      (readGroup first (n₂ + 1) mode start₂) (readGroup first (n₃ + 1) mode start₃) := by
  have enclosed : ∀ mode wrap, Follows spelling (k₁ - 1 - 1) (k₂ - 1 - 1) (k₃ - 1 - 1)
      (readEnclosed n₁ mode start₁ wrap) (readEnclosed n₂ mode start₂ wrap)
        (readEnclosed n₃ mode start₃ wrap) :=
    fun mode => inStep.enclosed respells (by omega) mode start₁ start₂ start₃
  rw [readGroup, readGroup, readGroup]
  apply follows_accept_bind respells (by decide)
  · have isAsked : ¬ (!true) = true := by decide
    rw [if_neg isAsked, if_neg isAsked, if_neg isAsked]
    apply follows_next_bind respells (fails_fail _ _).steady
    · intro token
      dsimp only
      split
      · have isNamed : true = true := rfl
        have isOther : ¬ false = true := Bool.false_ne_true
        apply follows_accept_bind respells (by decide)
        · rw [if_pos isNamed, if_pos isNamed, if_pos isNamed]
          apply Follows.bind
          · exact follows_same respells (steady_readGroupName (by decide))
          · intro name
            exact inStep.captured respells (by omega) mode _ _ _ (some name)
        · rw [if_neg isOther, if_neg isOther, if_neg isOther]
          apply follows_accept_bind respells (by decide)
          · rw [if_pos isNamed]
            apply Follows.bind
            · exact follows_same respells (steady_readNamedReference mode)
            · intro item
              exact follows_same respells (steady_pure _)
          · rw [if_neg isOther]
            apply Fails.follows
            apply fails_bind
            rintro (_ | other)
            · exact fails_fail _ _
            · exact fails_fail _ _
      · exact enclosed mode id
      · exact enclosed mode .atomic
      · exact follows_readComment respells start₁ start₂ start₃
      · exact enclosed mode (.ahead true)
      · exact enclosed mode (.ahead false)
      · apply follows_next_bind respells (fails_fail _ _).steady
        · intro token
          apply follows_unless (fails_fail _ _).bind
          intro _
          exact inStep.lookbehind respells (by omega) mode _ _ _ (decide (token = .plain '='))
        · intro reading atEdge _ _ y left ran
          refine absurd ran (next_refuses respells ?_ ?_ atEdge)
          · intro reading y left _
            exact (fails_fail _ _).bind _ _ _
          · exact (fails_fail _ _).bind
      · exact inStep.conditional respells (by omega) mode _ _ _
      · split
        · next flag _ =>
          apply (follows_same respells (steady_readFlags flag)).bind
          rintro (_ | ⟨on, off⟩)
          · apply follows_unless (fails_failAt _ _).bind
            intro _
            exact follows_same respells (steady_pure _)
          · exact enclosed (mode.adjust on off) id
        · exact (fails_fail _ _).follows
    · intro reading atEdge _ _ y left ran
      refine absurd ran (next_refuses respells ?_ ?_ atEdge)
      · intro reading y left isNext ran
        rcases run_bind_eq_ok.mp ran with ⟨index, between, ran, -⟩
        exact condition_refuses isNext ran
      · exact fails_fail _ _
  · rw [if_pos (by decide), if_pos (by decide), if_pos (by decide)]
    exact inStep.captured respells (by omega) mode _ _ _ none

theorem inStep (respells : Respells spelling) (le : n₁ ≤ n₂) : InStep spelling n₁ n₂ := by
  induction n₁ generalizing n₂ with
  | zero =>
    constructor
    · intro k₁ k₂ k₃ n₃ _ top mode read
      exact (fails_throw _).follows
    · intro k₁ k₂ k₃ n₃ _ top first mode items
      exact (fails_throw _).follows
    · intro k₁ k₂ k₃ n₃ _ first mode start₁ start₂ start₃
      exact (fails_throw _).follows
  | succ n₁ ih =>
    rcases n₂ with _ | n₂
    · exact absurd le (Nat.not_succ_le_zero n₁)
    have below := ih (Nat.le_of_succ_le_succ le)
    -- Without fuel on the third side there are no tokens there either.
    constructor
    · intro k₁ k₂ k₃ n₃ enough top mode read
      rcases n₃ with _ | n₃
      · obtain rfl : k₃ = 0 := by omega
        exact .of_behind
          (below.choice_succ respells (by decide : 3 * 0 ≤ 0 + 2) top mode read).behind
      · exact below.choice_succ respells (by omega) top mode read
    · intro k₁ k₂ k₃ n₃ enough top first mode items
      rcases n₃ with _ | n₃
      · obtain rfl : k₃ = 0 := by omega
        exact .of_behind
          (below.sequence_succ respells (by decide : 3 * 0 ≤ 0 + 3) top first mode items).behind
      · exact below.sequence_succ respells (by omega) top first mode items
    · intro k₁ k₂ k₃ n₃ enough first mode start₁ start₂ start₃
      rcases n₃ with _ | n₃
      · obtain rfl : k₃ = 0 := by omega
        exact .of_behind
          (below.group_succ respells (by decide : 3 * 0 ≤ 0 + 1) first mode start₁ start₂
            start₃).behind
      · exact below.group_succ respells (by omega) first mode start₁ start₂ start₃

end Functions

section Whole

variable {spelling : Respelling} {mode : Mode} {regex : Regex} {reading left : Reading}

/-- What the reader knows at the end of an expression that nothing is wrong with. -/
structure Reading.Complete (reading : Reading) : Prop where
  modes : (reading.mode.ascii && reading.unicodeAsked) = false
  tokens : reading.tokens = []
  awaited : ∀ index ∈ reading.awaited.map (·.1), index < reading.widths.length
  deferred : reading.deferred = none

theorem Reading.Alike.complete {reading' : Reading} (alike : reading.Alike reading')
    (complete : reading.Complete) :
    reading'.Complete where
  modes := by
    rw [← alike.mode, ← alike.unicodeAsked]
    exact complete.modes
  tokens := by
    rw [← alike.tokens]
    exact complete.tokens
  awaited := by
    rw [← alike.awaited, ← alike.widths]
    exact complete.awaited
  deferred := by
    rw [← alike.deferred]
    exact complete.deferred

variable [Host]

theorem run_finish_eq_ok {root : Node} : (finish root).run reading = .ok (regex, left) ↔
    left = reading ∧ reading.Complete ∧ Host.isTooTall root.calls = false ∧
      regex = ⟨root, reading.widths.length - 1, reading.names.reverse⟩ := by
  have state_eq : (get : Read Reading).run reading = .ok (reading, reading) := rfl
  rw [finish, run_bind_of_ok state_eq]
  constructor
  · intro ended
    dsimp only at ended
    split at ended
    · exact absurd ended ((fails_throw _).bind _ _ _)
    · next modes =>
      split at ended
      · exact absurd ended ((fails_fail _ _).bind _ _ _)
      · next all_read =>
        split at ended
        · exact absurd ended (fails_failAt _ _ _ _ _)
        · next known =>
          split at ended
          · exact absurd ended ((fails_throw _).bind _ _ _)
          · next room =>
            split at ended
            · exact absurd ended (fails_throw _ _ _ _)
            · next deferred =>
              cases ended
              refine ⟨rfl, ?_, Bool.not_eq_true _ ▸ room, rfl⟩
              constructor
              · simpa using modes
              · simpa using all_read
              · intro index mem
                rcases List.mem_map.mp mem with ⟨mention, mentioned, rfl⟩
                simpa using List.find?_eq_none.mp known mention mentioned
              · exact deferred
  · rintro ⟨rfl, complete, room, rfl⟩
    have modes : ¬ (left.mode.ascii && left.unicodeAsked) = true := by simp [complete.modes]
    have all_read : ¬ (!left.tokens.isEmpty) = true := by simp [complete.tokens]
    have known : left.awaited.find? (fun mention => decide (left.widths.length ≤ mention.1)) =
        none := by
      rw [List.find?_eq_none]
      intro mention mem
      simpa using complete.awaited mention.1 (List.mem_map_of_mem mem)
    dsimp only
    rw [if_neg modes, if_neg all_read, known]
    dsimp only
    rw [if_neg (Bool.not_eq_true _ ▸ room), complete.deferred]
    rfl

theorem run_readWhole_eq_ok : (readWhole mode).run reading = .ok (regex, left) ↔
    reading.tokens.head? ≠ some .dangling ∧ ∃ root,
      (readChoice true (3 * reading.tokens.length + 6) mode []).run reading = .ok (root, left) ∧
        left.Complete ∧ Host.isTooTall root.calls = false ∧
        regex = ⟨root, left.widths.length - 1, left.names.reverse⟩ := by
  have state_eq : (get : Read Reading).run reading = .ok (reading, reading) := rfl
  rw [readWhole, run_bind_of_ok state_eq]
  by_cases dangling : reading.tokens.head? = some .dangling
  · rw [if_pos dangling]
    constructor
    · intro ran
      exact absurd ran ((fails_failAt _ _).bind _ _ _)
    · rintro ⟨goesOn, -⟩
      exact absurd dangling goesOn
  · rw [if_neg dangling, run_bind_eq_ok]
    simp only [run_finish_eq_ok]
    constructor
    · rintro ⟨root, _, ran, rfl, complete, room, regex_eq⟩
      exact ⟨dangling, root, ran, complete, room, regex_eq⟩
    · rintro ⟨-, root, ran, complete, room, regex_eq⟩
      exact ⟨root, left, ran, rfl, complete, room, regex_eq⟩

theorem run_readWhole_of_error (goesOn : reading.tokens.head? ≠ some .dangling) {refusal : Refusal}
    (failed : (readChoice true (3 * reading.tokens.length + 6) mode []).run reading =
      .error refusal) :
    (readWhole mode).run reading = .error refusal := by
  have state_eq : (get : Read Reading).run reading = .ok (reading, reading) := rfl
  rw [readWhole, run_bind_of_ok state_eq, if_neg goesOn]
  exact run_bind_of_error failed

theorem readWhole_respelled (respells : Respells spelling)
    (ran : (readWhole mode).run (reading.extend spelling.first) = .ok (regex, left))
    (unspoiled : ∀ position, (readWhole mode).run reading ≠
      .error (.malformed ⟨spelling.spoil, some position⟩)) :
    ∃ left', (readWhole mode).run (reading.extend spelling.second) = .ok (regex, left') := by
  rcases run_readWhole_eq_ok.mp ran with ⟨goesOn, root, chosen, complete, room, rfl⟩
  have alone := (Token.dangling_append_iff respells.first_parts).not.mp goesOn
  have longer : spelling.first.length ≤ spelling.second.length := by
    cases respells <;> simp [Respelling.first, Respelling.second]
  have fuels : 3 * (reading.extend spelling.first).tokens.length + 6 ≤
      3 * (reading.extend spelling.second).tokens.length + 6 := by
    rw [Reading.length_extend, Reading.length_extend]
    omega
  have follows : ∀ {k₁ k₂}, Follows spelling k₁ k₂ (reading.tokens.length + 1)
      (readChoice true _ mode [])
      (readChoice true _ mode []) (readChoice true (3 * reading.tokens.length + 6) mode []) :=
    (inStep respells fuels).choice (by omega) true mode []
  rcases follows.before reading (Nat.lt_succ_self _) (Nat.lt_succ_self _) (Nat.lt_succ_self _)
    chosen with
    @⟨between, rfl, second_eq, third_eq, -⟩ | @⟨left', second_eq, alike, -⟩ | @⟨position, third_eq⟩
  · -- Nothing closes the whole, and so nothing stays unread.
    rcases respells.first_opens with ⟨token, isFirst, -⟩
    have none_left := List.append_eq_nil_iff.mp complete.tokens
    rw [none_left.2] at isFirst
    cases isFirst
  · refine ⟨left', run_readWhole_eq_ok.mpr
      ⟨?_, root, second_eq, alike.complete complete, room, ?_⟩⟩
    · exact (Token.dangling_append_iff respells.second_opens).not.mpr alone
    · rw [alike.widths, alike.names]
  · exact absurd (run_readWhole_of_error alone third_eq) (unspoiled position)

theorem read?_eq_ok_iff {expression : List Char} : read? mode expression = .ok regex ↔
    ∃ left, (readWhole mode).run { tokens := Token.split expression, position := 0, mode } =
      .ok (regex, left) := by
  rw [read?]
  rcases (readWhole mode).run { tokens := Token.split expression, position := 0, mode } with
    refusal | ⟨found, left⟩
  · simp [Functor.map, Except.map]
  · simp [Functor.map, Except.map]

theorem read?_of_error {expression : List Char} {refusal : Refusal}
    (failed : (readWhole mode).run { tokens := Token.split expression, position := 0, mode } =
      .error refusal) :
    read? mode expression = .error refusal := by
  rw [read?, failed]
  rfl

/-- An expression that is read is read in the same way with the long spelling in place of the short
one. -/
theorem read?_respelled (respells : Respells spelling) {before first second : List Char}
    (cut : ∀ more, Token.split (before ++ more) = Token.split before ++ Token.split more)
    (first_eq : Token.split first = spelling.first)
    (second_eq : Token.split second = spelling.second)
    (reads : read? mode (before ++ first) = .ok regex)
    (unspoiled : ∀ position, read? mode before ≠ .error (.malformed ⟨spelling.spoil, position⟩)) :
    read? mode (before ++ second) = .ok regex := by
  rw [read?_eq_ok_iff, cut] at reads ⊢
  rw [first_eq] at reads
  rw [second_eq]
  rcases reads with ⟨left, ran⟩
  have alone := fun position failed => unspoiled (some position) (read?_of_error failed)
  exact readWhole_respelled respells ran alone

end Whole

end Markflow.Regex
