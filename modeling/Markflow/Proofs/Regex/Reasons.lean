import Markflow.Proofs.Regex.Reading

/-!
# Reasons for a refusal

A few refusals concern no defect of form.  The reader makes them only of expressions that ask for
it: a number of repetitions that is too large or too long is written in braces (`HasLargeBounds`,
`HasLongBounds`), and the classes of ASCII and of Unicode clash where flags for the whole expression
are written in it (`SetsFlag`).  There is no room only for groups that are written inside each other
(`HasDeepGroups`) and for going through what is read of them (`HasTallRoot`).  Between any two steps
the reader knows of such flags only what is written, and has numbered the groups with names in the
order in which they were opened (`Kept`).  `Keeps` is the logic of steps in which this is shown:
what a step asks of the tokens ahead, and what it leaves of them; most steps only go on (`GoesOn`).
-/

namespace Markflow.Regex

/-- Flags for the whole of an expression are written in it, a given one among them. -/
def SetsFlag (whole : List Token) (flag : Char) : Prop :=
  ∃ letters : List Char, flag ∈ letters ∧ (∀ letter ∈ letters, letter ∈ inlineFlags) ∧
    .plain '(' :: .plain '?' :: (letters.map .plain ++ [.plain ')']) <:+: whole

/-- A bound of a repetition is written in an expression with digits of which `test` holds. -/
inductive HasBound (test : List Char → Prop) (whole : List Token) : Prop
  | exactly {digits : List Char} (areDigits : ∀ c ∈ digits, c.isDigit = true) (holds : test digits)
      (written : .plain '{' :: (digits.map .plain ++ [.plain '}']) <:+: whole)
  | between {low high : List Char} (areDigits : ∀ c ∈ low ++ high, c.isDigit = true)
      (holds : test low ∨ test high)
      (written :
        .plain '{' :: (low.map .plain ++ .plain ',' :: (high.map .plain ++ [.plain '}'])) <:+:
        whole)

/-- Bounds of a repetition are written in an expression with a number that is too large. -/
def HasLargeBounds : List Token → Prop :=
  HasBound fun digits => repeatLimit ≤ Text.baseValue 10 digits

/-- Bounds of a repetition are written in an expression with so many digits, which are more than are
read. -/
def HasLongBounds (count : Nat) : List Token → Prop :=
  HasBound fun digits => digits.length = count ∧ Excess.digitLimit < count

/-- Groups for which there is no room inside each other, and for each of which an expression has a
parenthesis. -/
def HasDeepGroups [Host] (whole : List Token) : Prop :=
  ∃ groups, Host.isTooDeep groups = true ∧ groups.length ≤ whole.count (.plain '(')

/-- What is read of an expression is so tall that there is no room for going through it. -/
def HasTallRoot [Host] (whole : List Token) (start : Mode) : Prop :=
  ∃ root left, Host.isTooTall root.calls = true ∧
    (readChoice true (3 * whole.length + 6) start []).run
      { tokens := whole, position := 0, mode := start } = .ok (root, left)

/-- Groups with names, the latest first, among all groups with numbers below a bound.  There is no
group zero. -/
structure Numbered (bound : Nat) (names : List (String × Nat)) : Prop where
  positive : 0 < bound
  within : ∀ named ∈ names, 0 < named.2 ∧ named.2 < bound
  ordered : names.Pairwise fun later earlier => earlier.2 < later.2 ∧ earlier.1 ≠ later.1

namespace Numbered

variable {bound : Nat} {names : List (String × Nat)}

theorem start : Numbered 1 [] :=
  ⟨Nat.one_pos, List.forall_mem_nil _, .nil⟩

theorem opened (numbered : Numbered bound names) : Numbered (bound + 1) names where
  positive := Nat.succ_pos bound
  within named mem := (numbered.within named mem).imp_right Nat.lt_succ_of_lt
  ordered := numbered.ordered

theorem named {name : String} (numbered : Numbered bound names) (isNew : names.lookup name = none) :
    Numbered (bound + 1) ((name, bound) :: names) where
  positive := Nat.succ_pos bound
  within :=
    List.forall_mem_cons.mpr ⟨⟨numbered.positive, Nat.lt_succ_self bound⟩, numbered.opened.within⟩
  ordered := by
    refine List.pairwise_cons.mpr ⟨?_, numbered.ordered⟩
    intro earlier mem
    refine ⟨(numbered.within earlier mem).2, ?_⟩
    exact Ne.symm (bne_iff_ne.mp (List.lookup_eq_none_iff.mp isNew earlier mem))

end Numbered

/-- What a reader that started in a mode knows of the flags of an expression is written in it, and
its groups are numbered; it stands inside of so many groups at most. -/
structure Kept (whole : List Token) (start : Mode) (depth : Nat) (reading : Reading) : Prop where
  unicode : reading.unicodeAsked = true → SetsFlag whole 'u'
  ascii : reading.mode.ascii = true → start.ascii = true ∨ SetsFlag whole 'a'
  numbered : Numbered reading.widths.length reading.names
  nested : reading.around.length ≤ depth

/-- What is ahead in an expression, with parentheses that were passed before it. -/
structure Onward (whole : List Token) (passed : Nat) (ahead : List Token) : Prop where
  suffix : ahead <:+ whole
  opened : passed + ahead.count (.plain '(') ≤ whole.count (.plain '(')

namespace Onward

variable {whole ahead : List Token} {passed : Nat}

theorem behind (read : List Token) (onward : Onward whole passed (read ++ ahead)) :
    Onward whole passed ahead where
  suffix := (List.suffix_append read ahead).trans onward.suffix
  opened := by
    have opened := onward.opened
    rw [List.count_append] at opened
    omega

/-- Behind a parenthesis there is one more that was passed. -/
theorem pass (onward : Onward whole passed (.plain '(' :: ahead)) :
    Onward whole (passed + 1) ahead where
  suffix := (List.suffix_cons _ ahead).trans onward.suffix
  opened := by
    have opened := onward.opened
    rw [List.count_cons_self] at opened
    omega

theorem fewer (onward : Onward whole (passed + 1) ahead) : Onward whole passed ahead where
  suffix := onward.suffix
  opened := (Nat.add_le_add_right (Nat.le_succ passed) _).trans onward.opened

end Onward

variable [Host]

/-- A refusal that an expression gives reason for. -/
inductive Justified (whole : List Token) (start : Mode) : Refusal → Prop
  | malformed (problem : Malformed) : Justified whole start (.malformed problem)
  | repeatTooLarge (large : HasLargeBounds whole) : Justified whole start .repeatTooLarge
  | clashingModes (unicode : SetsFlag whole 'u') (ascii : start.ascii = true ∨ SetsFlag whole 'a') :
      Justified whole start .clashingModes
  | tooLong {count : Nat} (long : HasLongBounds count whole) :
      Justified whole start (.excess (.digits count))
  | tooDeep (deep : HasDeepGroups whole) : Justified whole start (.excess .calls)
  | tooTall (tall : HasTallRoot whole start) : Justified whole start (.excess .calls)

namespace Read

/-- A step that starts with tokens as `P` says leaves a result and tokens as `Q` says, or it refuses
for a reason. -/
def Keeps {α : Type} (whole : List Token) (start : Mode) (depth : Nat) (P : List Token → Prop)
    (x : Read α) (Q : α → List Token → Prop) : Prop :=
  ∀ reading, Kept whole start depth reading → P reading.tokens →
    (∀ a left, x.run reading = .ok (a, left) → Kept whole start depth left ∧ Q a left.tokens) ∧
      ∀ refusal, x.run reading = .error refusal → Justified whole start refusal

/-- A step that only goes on in an expression. -/
def GoesOn {α : Type} (whole : List Token) (start : Mode) (depth passed : Nat) (x : Read α) :
    Prop :=
  Keeps whole start depth (Onward whole passed) x fun _ => Onward whole passed

section Keeps

variable {α β : Type} {whole : List Token} {start : Mode} {depth : Nat} {P P' : List Token → Prop}
    {Q Q' : α → List Token → Prop}
  {R : β → List Token → Prop} {x y : Read α} {f : α → Read β} {reading : Reading}

theorem Keeps.mono (keeps : Keeps whole start depth P x Q) (before : ∀ tokens, P' tokens → P tokens)
    (after : ∀ a left, Q a left → Q' a left) : Keeps whole start depth P' x Q' := by
  intro reading kept holds
  rcases keeps reading kept (before _ holds) with ⟨done, refused⟩
  refine ⟨?_, refused⟩
  intro a left ran
  exact (done a left ran).imp_right (after a left.tokens)

theorem Keeps.bind (keeps : Keeps whole start depth P x Q)
    (further : ∀ a, Keeps whole start depth (Q a) (f a) R) :
    Keeps whole start depth P (x >>= f) R := by
  intro reading kept holds
  rcases keeps reading kept holds with ⟨done, refused⟩
  rcases ran : x.run reading with refusal | ⟨a, between⟩
  · rw [run_bind_of_error ran]
    refine ⟨(fun _ _ impossible => by cases impossible), ?_⟩
    rintro _ ⟨⟩
    exact refused refusal ran
  · rw [run_bind_of_ok ran]
    rcases done a between ran with ⟨kept, holds⟩
    exact further a between kept holds

/-- Nothing goes on behind a step that never succeeds. -/
theorem Keeps.stop (never : Keeps whole start depth P x fun _ _ => False) :
    Keeps whole start depth P (x >>= f) R :=
  never.bind fun _ _ _ impossible => impossible.elim

theorem Keeps.ite {c : Prop} [Decidable c] (yes : c → Keeps whole start depth P x Q)
    (no : ¬ c → Keeps whole start depth P y Q) :
    Keeps whole start depth P (if c then x else y) Q := by
  split
  case isTrue holds => exact yes holds
  case isFalse holds => exact no holds

theorem Keeps.ite_bind {c : Prop} [Decidable c]
    (further : ∀ a, Keeps whole start depth (Q a) (f a) R)
    (yes : c → Keeps whole start depth P x Q) (no : ¬ c → Keeps whole start depth P y Q) :
    Keeps whole start depth P (if c then x >>= f else y >>= f) R :=
  .ite (fun holds => (yes holds).bind further) fun fails => (no fails).bind further

theorem keeps_pure {a : α} (holds : ∀ tokens, P tokens → Q a tokens) :
    Keeps whole start depth P (pure a) Q := by
  intro reading kept before
  refine ⟨?_, fun _ impossible => by cases impossible⟩
  rintro _ _ ⟨⟩
  exact ⟨kept, holds _ before⟩

theorem keeps_throw {refusal : Refusal}
    (justified : ∀ tokens, P tokens → Justified whole start refusal) :
    Keeps whole start depth P (throw refusal) Q := by
  intro reading kept before
  refine ⟨(fun _ _ impossible => by cases impossible), ?_⟩
  rintro _ ⟨⟩
  exact justified _ before

theorem keeps_failAt (position : Nat) (problem : Problem) :
    Keeps whole start depth P (failAt position problem) Q :=
  keeps_throw fun _ _ => .malformed _

theorem keeps_get_bind {g : Reading → Read α}
    (further : ∀ reading, Kept whole start depth reading → P reading.tokens →
      Keeps whole start depth (· = reading.tokens) (g reading) Q) :
      Keeps whole start depth P (get >>= g) Q :=
  fun reading kept before => further reading kept before reading kept rfl

/-- What does not concern the tokens can be assumed. -/
theorem keeps_of_and {p : Prop} (keeps : p → Keeps whole start depth P x Q) :
    Keeps whole start depth (fun tokens => p ∧ P tokens) x Q :=
  fun reading kept before => keeps before.1 reading kept before.2

theorem keeps_set (kept : Kept whole start depth reading) {Q : PUnit → List Token → Prop}
    (holds : Q ⟨⟩ reading.tokens) :
    Keeps whole start depth P (set reading) Q := by
  intro _ _ _
  refine ⟨?_, fun _ impossible => by cases impossible⟩
  rintro _ _ ⟨⟩
  exact ⟨kept, holds⟩

theorem keeps_modify {change : Reading → Reading} {Q : PUnit → List Token → Prop}
    (holds : ∀ reading, Kept whole start depth reading → P reading.tokens →
      Kept whole start depth (change reading) ∧ Q ⟨⟩ (change reading).tokens) :
    Keeps whole start depth P (modify change) Q := by
  intro reading kept before
  refine ⟨?_, fun _ impossible => by cases impossible⟩
  rintro _ _ ⟨⟩
  exact holds reading kept before

theorem keeps_fail (problem : Problem) (back : Nat) :
    Keeps whole start depth P (fail problem back) Q :=
  keeps_get_bind fun _ _ _ => keeps_failAt _ _

/-- Whether a problem is reported or not, the tokens stay. -/
theorem keeps_unless {c : Prop} [Decidable c] {problem : Problem} {back : Nat} {f : Unit → Read α}
    (go : Keeps whole start depth P y Q) :
    Keeps whole start depth P (if c then fail problem back >>= f else y) Q :=
  .ite (fun _ => (keeps_fail _ _).stop) fun _ => go

theorem keeps_unlessAt {c : Prop} [Decidable c] {position : Nat} {problem : Problem}
    {f : Unit → Read α}
    (go : Keeps whole start depth P y Q) :
    Keeps whole start depth P (if c then failAt position problem >>= f else y) Q :=
  .ite (fun _ => (keeps_failAt _ _).stop) fun _ => go

end Keeps

section Steps

variable {α β : Type} {whole : List Token} {start : Mode} {depth passed : Nat}
    {P : List Token → Prop} {x y : Read α} {f : α → Read β}

theorem keeps_peek : Keeps whole start depth P peek fun next left => left.head? = next ∧ P left :=
  keeps_get_bind fun _ _ before => keeps_pure (by rintro _ rfl; exact ⟨rfl, before⟩)

theorem keeps_advance {token : Token} :
    Keeps whole start depth (fun tokens => tokens.head? = some token ∧ P tokens) advance
      fun _ left => P (token :: left) := by
  rintro reading kept ⟨isNext, before⟩
  rcases List.head?_eq_some_iff.mp isNext with ⟨tokens, tokens_eq⟩
  rw [run_advance_cons tokens_eq]
  rw [tokens_eq] at before
  split
  · refine ⟨(fun _ _ impossible => by cases impossible), ?_⟩
    rintro _ ⟨⟩
    exact .malformed _
  · refine ⟨?_, fun _ impossible => by cases impossible⟩
    rintro _ _ ⟨⟩
    exact ⟨⟨kept.unicode, kept.ascii, kept.numbered, kept.nested⟩, before⟩

theorem keeps_advance_end :
    Keeps whole start depth (fun tokens => tokens.head? = none ∧ P tokens) advance fun _ => P := by
  rintro reading kept ⟨isEnd, before⟩
  rw [run_advance_nil (List.head?_eq_none_iff.mp isEnd)]
  refine ⟨?_, fun _ impossible => by cases impossible⟩
  rintro _ _ ⟨⟩
  exact ⟨kept, before⟩

theorem keeps_next : Keeps whole start depth P next fun token left => P (token.toList ++ left) := by
  apply keeps_peek.bind
  intro token
  cases token with
  | none => exact keeps_advance_end.bind fun _ => keeps_pure fun _ before => before
  | some token => exact keeps_advance.bind fun _ => keeps_pure fun _ before => before

theorem keeps_accept (c : Char) :
    Keeps whole start depth P (accept c) fun found left =>
      P ((bif found then [.plain c] else []) ++ left) := by
  apply keeps_peek.bind
  intro token
  apply Keeps.ite
  · rintro rfl
    exact keeps_advance.bind fun _ => keeps_pure fun _ before => before
  · intro _
    exact keeps_pure fun _ before => before.2

theorem keeps_takeWhile (test : Char → Bool) (count : Nat) :
    Keeps whole start depth P (takeWhile test count)
    fun taken left => (∀ c ∈ taken, test c = true) ∧ P (taken.map .plain ++ left) := by
  induction count generalizing P with
  | zero => exact keeps_pure fun _ before => ⟨List.forall_mem_nil _, before⟩
  | succ count ih =>
    apply keeps_peek.bind
    intro token
    split
    · next c =>
      apply Keeps.ite
      · intro holds
        apply keeps_advance.bind
        intro _
        apply ih.bind
        intro more
        exact keeps_pure fun _ ⟨all, before⟩ => ⟨List.forall_mem_cons.mpr ⟨holds, all⟩, before⟩
      · intro _
        exact keeps_pure fun _ before => ⟨List.forall_mem_nil _, before.2⟩
    · exact keeps_pure fun _ before => ⟨List.forall_mem_nil _, before.2⟩

/-! ### Steps that only go on -/

theorem GoesOn.bind (goesOn : GoesOn whole start depth passed x)
    (further : ∀ a, GoesOn whole start depth passed (f a)) :
    GoesOn whole start depth passed (x >>= f) :=
  Keeps.bind goesOn further

theorem goesOn_pure (a : α) : GoesOn whole start depth passed (pure a) :=
  keeps_pure fun _ onward => onward

theorem goesOn_fail (problem : Problem) (back : Nat) :
    GoesOn whole start depth passed (fail problem back : Read α) :=
  keeps_fail _ _

theorem goesOn_get_bind {g : Reading → Read α}
    (further : ∀ reading, GoesOn whole start depth passed (g reading)) :
    GoesOn whole start depth passed (get >>= g) := by
  apply keeps_get_bind
  intro reading _ onward
  apply (further reading).mono _ fun _ _ onward => onward
  rintro _ rfl
  exact onward

/-- A step that goes on does so behind what is read as well. -/
theorem GoesOn.behind (goesOn : GoesOn whole start depth passed x) (read : List Token) :
    Keeps whole start depth (fun left => Onward whole passed (read ++ left)) x fun _ =>
      Onward whole passed :=
  goesOn.mono (fun _ onward => onward.behind read) fun _ _ onward => onward

/-- A step that needs one parenthesis more goes on behind one. -/
theorem GoesOn.opened (goesOn : GoesOn whole start depth (passed + 1) x) (read : List Token) :
    Keeps whole start depth (fun left => Onward whole passed (.plain '(' :: (read ++ left))) x
      fun _ =>
      Onward whole passed :=
  goesOn.mono (fun _ onward => onward.pass.behind read) fun _ _ onward => onward.fewer

/-- What stands inside a group is read where a parenthesis for it was passed. -/
theorem GoesOn.inside (goesOn : GoesOn whole start (depth + 1) passed x) (enough : depth < passed)
    (kind : Nesting) : GoesOn whole start depth passed (inside kind x) := by
  intro reading kept onward
  have nested : (kind :: reading.around).length ≤ depth + 1 := Nat.succ_le_succ kept.nested
  have state_eq : (get : Read Reading).run reading = .ok (reading, reading) := rfl
  rw [Read.inside, run_bind_of_ok state_eq]
  by_cases tooDeep : Host.isTooDeep (kind :: reading.around) = true
  · rw [if_pos tooDeep]
    refine ⟨(fun _ _ impossible => by cases impossible), ?_⟩
    rintro _ ⟨⟩
    refine .tooDeep ⟨_, tooDeep, ?_⟩
    have opened := onward.opened
    omega
  · rw [if_neg tooDeep]
    have entered : (modify fun state : Reading => { state with around := kind :: reading.around } :
        Read PUnit).run reading = .ok (⟨⟩, { reading with around := kind :: reading.around }) := rfl
    rw [run_bind_of_ok entered]
    rcases goesOn { reading with around := kind :: reading.around }
      ⟨kept.unicode, kept.ascii, kept.numbered, nested⟩ onward with ⟨done, refused⟩
    rcases ran : x.run { reading with around := kind :: reading.around } with refusal | ⟨a, left⟩
    · rw [run_bind_of_error ran]
      refine ⟨(fun _ _ impossible => by cases impossible), ?_⟩
      rintro _ ⟨⟩
      exact refused refusal ran
    · rw [run_bind_of_ok ran]
      refine ⟨?_, fun _ impossible => by cases impossible⟩
      rintro _ _ ⟨⟩
      rcases done a left ran with ⟨keptInside, onward⟩
      exact ⟨⟨keptInside.unicode, keptInside.ascii, keptInside.numbered, kept.nested⟩, onward⟩

theorem goesOn_modify {change : Reading → Reading}
    (kept : ∀ reading, Kept whole start depth reading → Kept whole start depth (change reading))
    (same : ∀ reading, (change reading).tokens = reading.tokens) :
    GoesOn whole start depth passed (modify change) :=
  keeps_modify fun reading holds onward => ⟨kept reading holds, (same reading).symm ▸ onward⟩

theorem goesOn_next : GoesOn whole start depth passed next :=
  keeps_next.mono (fun _ onward => onward) fun _ _ onward => onward.behind _

theorem goesOn_accept (c : Char) : GoesOn whole start depth passed (accept c) :=
  (keeps_accept c).mono (fun _ onward => onward) fun _ _ onward => onward.behind _

theorem goesOn_takeWhile (test : Char → Bool) (count : Nat) :
    GoesOn whole start depth passed (takeWhile test count) :=
  (keeps_takeWhile test count).mono (fun _ onward => onward) fun _ _ onward => onward.2.behind _

theorem goesOn_peek : GoesOn whole start depth passed peek :=
  goesOn_get_bind fun _ => goesOn_pure _

theorem goesOn_takeUntil (closer : Char) (what : String) (fuel : Nat) (taken : List Char) :
    GoesOn whole start depth passed (takeUntil closer what fuel taken) := by
  induction fuel generalizing taken with
  | zero => exact goesOn_pure _
  | succ fuel ih =>
    apply goesOn_next.bind
    intro token
    cases token with
    | none => exact Keeps.ite (fun _ => goesOn_fail _ _) fun _ => goesOn_fail _ _
    | some token => exact Keeps.ite (fun _ => keeps_unless (goesOn_pure _)) fun _ => ih _

theorem goesOn_takeName (closer : Char) (what : String) :
    GoesOn whole start depth passed (takeName closer what) :=
  goesOn_get_bind fun _ => goesOn_takeUntil _ _ _ _

theorem goesOn_skipPast (test : Token → Bool) (fuel : Nat) :
    GoesOn whole start depth passed (skipPast test fuel) := by
  induction fuel with
  | zero => exact goesOn_pure _
  | succ fuel ih =>
    apply goesOn_next.bind
    intro token
    cases token with
    | none => exact goesOn_pure _
    | some token => exact Keeps.ite (fun _ => goesOn_pure _) fun _ => ih

theorem goesOn_groupBound : GoesOn whole start depth passed groupBound :=
  goesOn_get_bind fun _ => goesOn_pure _

theorem goesOn_isClosed (index : Nat) : GoesOn whole start depth passed (isClosed index) :=
  goesOn_get_bind fun _ => goesOn_pure _

theorem goesOn_checkLookbehind (index : Nat) :
    GoesOn whole start depth passed (checkLookbehind index) := by
  apply goesOn_get_bind
  intro reading
  split
  · exact goesOn_pure _
  · apply (goesOn_isClosed index).bind
    intro closed
    exact keeps_unless (Keeps.ite (fun _ => goesOn_fail _ _) fun _ => goesOn_pure _)

theorem goesOn_defer (problem : Problem) : GoesOn whole start depth passed (defer problem) :=
  goesOn_modify (fun _ kept => ⟨kept.unicode, kept.ascii, kept.numbered, kept.nested⟩) fun _ => rfl

end Steps

end Read

end Markflow.Regex
