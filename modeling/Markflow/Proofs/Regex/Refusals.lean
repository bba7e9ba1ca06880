import Markflow.Proofs.Regex.Reasons
import Markflow.Proofs.Regex.Respelled

/-!
# Why an expression is refused

The reader goes on in an expression, function by function (`ReadersGoOn`).  Only bounds in braces
and the flags of a group depend on what stands before them, and there the reasons for refusals that
concern no defect of form are found (`keeps_readBounds`, `keeps_readFlags`).  What is left to do at
the end (`keeps_finish`) can find that there is no room for going through what was read.  Of an
expression that is not refused the same steps show that its groups with names stand in the order of
their numbers (`numbered_of_read?`).
-/

namespace Markflow.Regex

open Read

theorem flag?_eq_some {token : Token} {flag : Char} (isFlag : token.flag? = some flag) :
    token = .plain flag ∧ flag ∈ inlineFlags := by
  cases token with
  | plain c =>
    rw [Token.flag?] at isFlag
    split at isFlag
    · next known =>
      cases isFlag
      exact ⟨rfl, List.contains_iff_mem.mp known⟩
    · cases isFlag
  | _ => cases isFlag

theorem Mode.ascii_set {mode : Mode} {letter : Char}
    (isAscii : (mode.set true letter).ascii = true) :
    mode.ascii = true ∨ letter = 'a' := by
  unfold Mode.set at isAscii
  split at isAscii
  case h_5 => exact .inr rfl
  case h_6 => cases isAscii
  all_goals exact .inl isAscii

theorem Mode.ascii_foldl_set {mode : Mode} {letters : List Char}
    (isAscii : (letters.foldl (·.set true ·) mode).ascii = true) :
    mode.ascii = true ∨ 'a' ∈ letters := by
  induction letters generalizing mode with
  | nil => exact .inl isAscii
  | cons letter letters ih =>
    rcases ih isAscii with here | later
    · exact (Mode.ascii_set here).imp_right fun isA => List.mem_cons.mpr (.inl isA.symm)
    · exact .inr (List.mem_cons_of_mem _ later)

section Readers

variable [Host] {whole : List Token} {start : Mode} {depth passed : Nat} {P : List Token → Prop}

/-! ### Escapes and sets -/

theorem goesOn_readHex (letter : Char) (count : Nat) :
    GoesOn whole start depth passed (readHex letter count) :=
  (goesOn_takeWhile _ _).bind fun _ => keeps_unless (keeps_unless (goesOn_pure _))

theorem goesOn_readNamed : GoesOn whole start depth passed readNamed :=
  (goesOn_accept '{').bind fun _ => keeps_unless <| (goesOn_takeName _ _).bind fun name => by
    split
    · exact goesOn_pure _
    · exact goesOn_fail _ _

theorem goesOn_readOther (c : Char) : GoesOn whole start depth passed (readOther c) := by
  unfold readOther
  split
  · exact goesOn_readHex _ _
  · exact goesOn_readHex _ _
  · exact goesOn_readHex _ _
  · exact goesOn_readNamed
  · exact keeps_unless (goesOn_pure _)

theorem goesOn_octalCode (digits : List Char) :
    GoesOn whole start depth passed (octalCode digits) :=
  keeps_unless (goesOn_pure _)

theorem goesOn_readSetEscape (c : Char) : GoesOn whole start depth passed (readSetEscape c) := by
  unfold readSetEscape
  split
  · exact goesOn_pure _
  · split
    · exact goesOn_pure _
    · exact Keeps.ite (fun _ => (goesOn_takeWhile _ _).bind fun _ => goesOn_octalCode _) fun _ =>
        goesOn_readOther c

theorem goesOn_readNumbered (c : Char) : GoesOn whole start depth passed (readNumbered c) := by
  apply (goesOn_takeWhile _ _).bind
  intro more
  have rest (third : List Char) :
      GoesOn whole start depth passed (if !third.isEmpty then octalCode (c :: more ++ third) else do
      let index := Text.baseValue 10 (c :: more)
      let width := more.length + 2
      if (← groupBound) ≤ index then fail (.noSuchGroup index) (width - 1)
      if !(← isClosed index) then fail .openGroup width
      checkLookbehind index
      return .sameAs index) := by
    apply Keeps.ite
    · intro _
      exact goesOn_octalCode _
    · intro _
      apply goesOn_groupBound.bind
      intro bound
      apply keeps_unless
      apply (goesOn_isClosed _).bind
      intro closed
      exact keeps_unless ((goesOn_checkLookbehind _).bind fun _ => goesOn_pure _)
  exact Keeps.ite (fun _ => (goesOn_takeWhile _ _).bind rest) fun _ => rest []

theorem goesOn_readEscape (mode : Mode) (c : Char) :
    GoesOn whole start depth passed (readEscape mode c) := by
  unfold readEscape
  split
  · exact goesOn_pure _
  · split
    · exact goesOn_pure _
    · apply Keeps.ite
      · intro _
        exact (goesOn_takeWhile _ _).bind fun _ => goesOn_pure _
      · intro _
        exact Keeps.ite (fun _ => goesOn_readNumbered c) fun _ => goesOn_readOther c

theorem goesOn_readMember (token : Token) : GoesOn whole start depth passed (readMember token) := by
  cases token with
  | escaped c => exact goesOn_readSetEscape c
  | _ => exact goesOn_pure _

theorem goesOn_readMembers (mode : Mode) (position fuel : Nat) (items : List SetItem) :
    GoesOn whole start depth passed (readMembers mode position fuel items) := by
  induction fuel generalizing items with
  | zero => exact goesOn_pure _
  | succ fuel ih =>
    apply goesOn_next.bind
    intro first
    cases first with
    | none => exact keeps_failAt _ _
    | some first =>
      apply Keeps.ite
      · intro _
        exact goesOn_pure _
      · intro _
        apply (goesOn_readMember first).bind
        intro low
        apply (goesOn_accept '-').bind
        intro isRange
        apply Keeps.ite
        · intro _
          apply goesOn_next.bind
          intro last
          cases last with
          | none => exact keeps_failAt _ _
          | some last =>
            apply Keeps.ite
            · intro _
              exact goesOn_pure _
            · intro _
              apply (goesOn_readMember last).bind
              intro high
              dsimp only
              split
              · exact Keeps.ite (fun _ => goesOn_fail _ _) fun _ => ih _
              · exact goesOn_fail _ _
        · intro _
          exact ih _

theorem goesOn_readSet (mode : Mode) : GoesOn whole start depth passed (readSet mode) :=
  goesOn_get_bind fun _ => (goesOn_accept '^').bind fun _ =>
    (goesOn_readMembers _ _ _ _).bind fun _ => goesOn_pure _

/-! ### Repetitions and groups -/

/-- A bound is refused where it is too large or has too many digits. -/
theorem keeps_readBound {digits : List Char}
    (large : ∀ tokens, P tokens → repeatLimit ≤ Text.baseValue 10 digits → HasLargeBounds whole)
    (long : ∀ tokens, P tokens → Excess.digitLimit < digits.length →
      HasLongBounds digits.length whole) :
    Keeps whole start depth P (readBound digits) fun _ => P := by
  unfold readBound Text.decimal
  by_cases tooLong : Excess.digitLimit < digits.length
  · rw [if_pos tooLong]
    exact keeps_throw fun tokens before => .tooLong (long tokens before tooLong)
  · rw [if_neg tooLong]
    apply Keeps.ite
    · intro isLarge
      exact keeps_throw fun tokens before => .repeatTooLarge (large tokens before isLarge)
    · intro _
      exact keeps_pure fun _ before => before

/-- Behind the digits of bounds, `written` with the brace before them, nothing but a number that is
too large or too long gives reason for a refusal that is not of form. -/
theorem keeps_boundsEnd {opened : Reading} (kept : Kept whole start depth opened)
    (onward : Onward whole passed (.plain '{' :: opened.tokens)) (written : List Token)
    (low high : List Char)
    (bounds : written ++ [.plain '}'] <:+: whole → ∀ test : List Char → Prop,
      test low ∨ test high → HasBound test whole) :
    Keeps whole start depth (fun left => Onward whole passed (written ++ left)) (do
      if !(← accept '}') then
        set opened
        return none
      let least ← readBound low
      if high.isEmpty then return some (least, none)
      let most ← readBound high
      if most < least then failAt opened.position .leastAboveMost
      return some (least, some most)) fun _ => Onward whole passed := by
  apply (keeps_accept '}').bind
  intro closed
  cases closed with
  | false =>
    apply (keeps_set kept (Q := fun _ => Onward whole passed) (onward.behind [_])).bind
    intro _
    exact keeps_pure fun _ onward => onward
  | true =>
    apply Keeps.mono (P := fun left => written ++ [.plain '}'] <:+: whole ∧
      Onward whole passed left)
      _ _ fun _ _ onward => onward
    · rw [if_neg (by decide)]
      refine (keeps_readBound ?_ ?_).bind fun least => Keeps.ite (fun _ => ?_) fun _ => ?_
      · exact fun _ closed isLarge => bounds closed.1 _ (.inl isLarge)
      · exact fun _ closed isLong => bounds closed.1 _ (.inl ⟨rfl, isLong⟩)
      · exact keeps_pure fun _ closed => closed.2
      · refine (keeps_readBound ?_ ?_).bind fun most =>
          keeps_unlessAt (keeps_pure fun _ closed => closed.2)
        · exact fun _ closed isLarge => bounds closed.1 _ (.inr isLarge)
        · exact fun _ closed isLong => bounds closed.1 _ (.inr ⟨rfl, isLong⟩)
    · intro left onward
      have onward : Onward whole passed ((written ++ [.plain '}']) ++ left) :=
        (List.append_assoc _ _ left).symm ▸ onward
      exact ⟨(List.prefix_append _ left).isInfix.trans onward.suffix.isInfix, onward.behind _⟩

theorem keeps_readBounds :
    Keeps whole start depth (fun left => Onward whole passed (.plain '{' :: left)) readBounds
      fun _ => Onward whole passed := by
  apply keeps_get_bind
  intro opened kept onward
  apply Keeps.mono (P := fun left => Onward whole passed (.plain '{' :: left)) _
    (by rintro _ rfl; exact onward) fun _ _ onward => onward
  apply keeps_peek.bind
  intro next
  apply Keeps.ite
  · intro _
    exact keeps_pure fun _ before => before.2.behind [_]
  · intro _
    apply Keeps.mono (P := fun left => Onward whole passed (.plain '{' :: left))
      _ (fun _ before => before.2)
      fun _ _ onward => onward
    apply (keeps_takeWhile Char.isDigit _).bind
    intro low
    apply keeps_of_and
    intro lowDigits
    apply (keeps_accept ',').bind
    intro comma
    cases comma with
    | false =>
      apply keeps_boundsEnd kept onward (.plain '{' :: low.map .plain) low low
      intro written test holds
      exact .exactly lowDigits (or_self_iff.mp holds) written
    | true =>
      apply (keeps_takeWhile Char.isDigit _).bind
      intro high
      apply keeps_of_and
      intro highDigits
      apply (keeps_boundsEnd kept onward
        (.plain '{' :: (low.map .plain ++ .plain ',' :: high.map .plain)) low high _).mono
        _
        fun _ _ onward => onward
      · intro written test holds
        refine .between (List.forall_mem_append.mpr ⟨lowDigits, highDigits⟩) holds ?_
        simpa using written
      · intro left before
        simpa using before

theorem goesOn_readGreed : GoesOn whole start depth passed readGreed := by
  apply (goesOn_accept '?').bind
  intro isLazy
  apply Keeps.ite
  · intro _
    exact goesOn_pure _
  · intro _
    exact (goesOn_accept '+').bind fun _ => Keeps.ite (fun _ => goesOn_pure _) fun _ =>
      goesOn_pure _

theorem goesOn_readQuantifier (position least : Nat) (most : Option Nat) (items : List Item) :
    GoesOn whole start depth passed (readQuantifier position least most items) := by
  cases items with
  | nil => exact keeps_failAt _ _
  | cons last items =>
    unfold readQuantifier
    dsimp only
    split
    · exact keeps_failAt _ _
    · exact keeps_failAt _ _
    · apply goesOn_readGreed.bind
      intro greed
      apply goesOn_get_bind
      intro reading
      exact Keeps.ite (fun _ => (goesOn_defer _).bind fun _ => goesOn_pure _) fun _ => goesOn_pure _

theorem goesOn_openGroup (name : Option (List Char)) :
    GoesOn whole start depth passed (openGroup name) := by
  have stored {P : List Token → Prop} (changed : Reading) (kept : Kept whole start depth changed)
      (onward : Onward whole passed changed.tokens)
      (index : Nat) : Keeps whole start depth P (set changed >>= fun _ => pure index) fun _ =>
        Onward whole passed :=
    (keeps_set kept (Q := fun _ => Onward whole passed) onward).bind fun _ =>
      keeps_pure fun _ onward => onward
  apply keeps_get_bind
  intro reading kept onward
  cases name with
  | none =>
    refine stored _ ?_ ?_ _
    · exact ⟨kept.unicode, kept.ascii, by simpa using kept.numbered.opened, kept.nested⟩
    · exact onward
  | some chars =>
    dsimp only
    split
    · exact (keeps_fail _ _).stop
    · next isNew =>
      refine stored _ ?_ ?_ _
      · exact ⟨kept.unicode, kept.ascii, by simpa using kept.numbered.named isNew, kept.nested⟩
      · exact onward

theorem goesOn_widthOf (node : Node) : GoesOn whole start depth passed (widthOf node) :=
  goesOn_get_bind fun _ => goesOn_pure _

theorem goesOn_closeGroup (index : Nat) (body : Node) :
    GoesOn whole start depth passed (closeGroup index body) :=
  (goesOn_widthOf body).bind fun _ =>
    goesOn_modify
      (fun _ kept => ⟨kept.unicode, kept.ascii, by simpa using kept.numbered, kept.nested⟩) fun _ =>
      rfl

theorem goesOn_readGroupName (closer : Char) :
    GoesOn whole start depth passed (readGroupName closer) :=
  (goesOn_takeName _ _).bind fun _ => keeps_unless (goesOn_pure _)

theorem goesOn_readNamedReference (mode : Mode) :
    GoesOn whole start depth passed (readNamedReference mode) := by
  apply (goesOn_readGroupName _).bind
  intro name
  apply goesOn_get_bind
  intro reading
  split
  · exact goesOn_fail _ _
  · apply (goesOn_isClosed _).bind
    intro closed
    exact keeps_unless ((goesOn_checkLookbehind _).bind fun _ => goesOn_pure _)

theorem goesOn_readCondition : GoesOn whole start depth passed readCondition := by
  have rest (index : Nat) :
      GoesOn whole start depth passed (checkLookbehind index >>= fun _ => pure index) :=
    (goesOn_checkLookbehind _).bind fun _ => goesOn_pure _
  apply (goesOn_takeName _ _).bind
  intro name
  apply Keeps.ite
  · intro _
    apply goesOn_get_bind
    intro reading
    split
    · exact (keeps_fail _ _).stop
    · exact rest _
  · intro _
    dsimp only
    split
    · apply keeps_unless
      apply keeps_unless
      apply GoesOn.bind
      · apply goesOn_modify
        · intro reading kept
          split
          · exact kept
          · exact ⟨kept.unicode, kept.ascii, kept.numbered, kept.nested⟩
        · intro reading
          split <;> rfl
      · intro _
        exact rest _
    · exact (keeps_fail _ _).stop

theorem goesOn_lookbehindWidth (body : Node) :
    GoesOn whole start depth passed (lookbehindWidth body) := by
  apply (goesOn_widthOf body).bind
  rintro ⟨least, most⟩
  apply Keeps.ite
  · intro _
    exact (goesOn_defer _).bind fun _ => goesOn_pure _
  · intro _
    exact Keeps.ite (fun _ => (goesOn_defer _).bind fun _ => goesOn_pure _) fun _ => goesOn_pure _

theorem goesOn_closeParenthesis (position : Nat) :
    GoesOn whole start depth passed (closeParenthesis position) :=
  (goesOn_accept ')').bind fun _ => Keeps.ite (fun _ => keeps_failAt _ _) fun _ => goesOn_pure _

/-! ### Flags -/

theorem goesOn_readFlagsOff (fuel : Nat) (flag : Char) (taken : List Char) :
    GoesOn whole start depth passed (readFlagsOff fuel flag taken) := by
  induction fuel generalizing flag taken with
  | zero => exact goesOn_pure _
  | succ fuel ih =>
    apply keeps_unless
    apply goesOn_next.bind
    intro token
    cases token with
    | none => exact goesOn_fail _ _
    | some token =>
      apply Keeps.ite
      · intro _
        exact goesOn_pure _
      · intro _
        split
        · exact ih _ _
        · exact goesOn_fail _ _

/-- Flags that are set stand behind the opening of their group, up to the character that ends
them. -/
theorem keeps_readFlagsOn {fuel : Nat} {flag : Char} {taken : List Char}
    (known : ∀ letter ∈ flag :: taken, letter ∈ inlineFlags) :
    Keeps whole start depth
      (fun tokens => tokens.length < fuel ∧
        Onward whole passed
          (.plain '(' :: .plain '?' :: ((flag :: taken).reverse.map .plain ++ tokens)))
      (readFlagsOn fuel flag taken)
      fun read left => (∀ letter ∈ read.1, letter ∈ inlineFlags) ∧
        Onward whole passed
          (.plain '(' :: .plain '?' :: (read.1.reverse.map .plain ++ .plain read.2 :: left)) := by
  induction fuel generalizing flag taken with
  | zero => exact fun _ _ short => absurd short.1 (Nat.not_lt_zero _)
  | succ fuel ih =>
    apply keeps_unless
    apply keeps_unless
    apply keeps_next.bind
    intro token
    cases token with
    | none => exact keeps_fail _ _
    | some token =>
      dsimp only
      split
      · next flag' isFlag =>
        rcases flag?_eq_some isFlag with ⟨rfl, isKnown⟩
        apply (ih (List.forall_mem_cons.mpr ⟨isKnown, known⟩)).mono _ fun _ _ after => after
        rintro left ⟨short, written⟩
        refine ⟨Nat.lt_of_succ_lt_succ short, ?_⟩
        simpa using written
      · split
        · next c _ =>
          apply Keeps.ite
          · intro _
            exact keeps_pure fun left before => ⟨known, before.2⟩
          · intro _
            exact keeps_fail _ _
        · exact keeps_fail _ _

/-- The flags of a part change nothing of the whole; flags of the whole are written in it. -/
theorem keeps_readFlags {first : Char} (known : first = '-' ∨ first ∈ inlineFlags) :
    Keeps whole start depth
      (fun left => Onward whole passed (.plain '(' :: .plain '?' :: .plain first :: left))
      (readFlags first)
      fun _ => Onward whole (passed + 1) := by
  -- What is behind a character of the flags is behind the opening of the group.
  have behind {on : List Char} {closer : Char} {tokens : List Token}
      (written : Onward whole passed
        (.plain '(' :: .plain '?' :: (on.reverse.map .plain ++ .plain closer :: tokens))) :
      Onward whole (passed + 1) tokens := by
    apply Onward.behind (.plain '?' :: (on.reverse.map .plain ++ [.plain closer]))
    simpa using written.pass
  apply keeps_get_bind
  intro reading kept written
  apply Keeps.ite_bind (Q := fun read : List Char × Char => fun left =>
    (∀ letter ∈ read.1, letter ∈ inlineFlags) ∧
    Onward whole passed
      (.plain '(' :: .plain '?' :: (read.1.reverse.map .plain ++ .plain read.2 :: left)))
  · rintro ⟨on, closer⟩
    apply keeps_of_and
    intro inlined
    apply Keeps.ite
    · intro isEnd
      rw [beq_iff_eq] at isEnd
      apply Keeps.bind (keeps_modify (Q := fun _ => Onward whole (passed + 1)) _)
      · intro _
        exact keeps_pure fun _ onward => onward
      · intro reading kept written
        have sets {flag : Char} (mem : flag ∈ on) : SetsFlag whole flag := by
          refine ⟨on.reverse, List.mem_reverse.mpr mem, ?_, ?_⟩
          · intro letter mem
            exact inlined letter (List.mem_reverse.mp mem)
          · rw [isEnd] at written
            apply List.IsInfix.trans _ written.suffix.isInfix
            exact ⟨[], reading.tokens, by simp⟩
        refine ⟨⟨?_, ?_, kept.numbered, kept.nested⟩, behind written⟩
        · intro asked
          rcases Bool.or_eq_true_iff.mp asked with asked | here
          · exact kept.unicode asked
          · exact sets (List.contains_iff_mem.mp here)
        · intro isAscii
          rcases Mode.ascii_foldl_set isAscii with isAscii | here
          · exact kept.ascii isAscii
          · exact .inr (sets (List.mem_filter.mp here).1)
    · intro _
      have ended (off : List Char) : GoesOn whole start depth (passed + 1) (do
          if off.contains 't' then fail .globalFlagOff 1
          if on.any off.contains then fail .flagOnAndOff 1
          return some (on, off)) := keeps_unless (keeps_unless (goesOn_pure _))
      apply keeps_unless
      apply Keeps.mono (P := Onward whole (passed + 1)) _ (fun _ => behind) fun _ _ onward => onward
      apply Keeps.ite
      · intro _
        apply goesOn_next.bind
        intro token
        cases token with
        | none => exact (keeps_fail _ _).stop
        | some token =>
          dsimp only
          split
          · exact (goesOn_readFlagsOff _ _ _).bind ended
          · exact (keeps_fail _ _).stop
      · intro _
        exact ended []
  · intro isDash
    rw [beq_iff_eq] at isDash
    apply keeps_pure
    rintro _ rfl
    exact ⟨List.forall_mem_nil _, isDash ▸ written⟩
  · intro other
    have inlined : ∀ letter ∈ [first], letter ∈ inlineFlags :=
      List.forall_mem_singleton.mpr (known.resolve_left (by simpa using other))
    apply (keeps_readFlagsOn inlined).mono _ fun _ _ after => after
    rintro _ rfl
    exact ⟨Nat.lt_succ_self _, written⟩

/-- The readers with some fuel go on in an expression; that of groups is behind a parenthesis. -/
structure ReadersGoOn (whole : List Token) (start : Mode) (n : Nat) : Prop where
  choice : ∀ {depth passed}, depth ≤ passed → ∀ top mode read,
    GoesOn whole start depth passed (readChoice top n mode read)
  sequence : ∀ {depth passed}, depth ≤ passed → ∀ top first mode items,
    GoesOn whole start depth passed (readSequence top first n mode items)
  group : ∀ {depth passed}, depth ≤ passed → ∀ first mode position,
    Keeps whole start depth (fun left => Onward whole passed (.plain '(' :: left))
      (readGroup first n mode position) fun _ => Onward whole passed

variable {n : Nat}

theorem ReadersGoOn.choice_succ (goOn : ReadersGoOn whole start n) (enough : depth ≤ passed)
    (top : Bool) (mode : Mode) (read : List Node) :
    GoesOn whole start depth passed (readChoice top (n + 1) mode read) := by
  rw [readChoice]
  apply (goOn.sequence enough top _ mode []).bind
  intro node
  apply (goesOn_accept '|').bind
  intro more
  apply Keeps.ite
  · intro _
    exact goesOn_get_bind fun _ => goOn.choice enough top _ _
  · intro _
    exact goesOn_pure _

theorem ReadersGoOn.sequence_succ (goOn : ReadersGoOn whole start n) (enough : depth ≤ passed)
    (top first : Bool) (mode : Mode) (items : List Item) :
    GoesOn whole start depth passed (readSequence top first (n + 1) mode items) := by
  rw [readSequence]
  apply goesOn_get_bind
  intro reading
  apply keeps_peek.bind
  intro token
  cases token with
  | none => exact keeps_pure fun _ before => before.2
  | some token =>
    apply Keeps.ite
    · intro _
      exact keeps_pure fun _ before => before.2
    · intro _
      have proceed (items : List Item) := (goOn.sequence enough top first mode items).behind [token]
      have repeated (position least : Nat) (most : Option Nat) :
          GoesOn whole start depth passed
            (readQuantifier position least most items >>= readSequence top first n mode) :=
        (goesOn_readQuantifier _ _ _ _).bind fun items => goOn.sequence enough top first mode items
      apply keeps_advance.bind
      intro _
      apply Keeps.ite
      · intro _
        exact proceed items
      · intro _
        apply Keeps.ite
        · intro _
          apply GoesOn.behind _ [token]
          exact goesOn_get_bind fun _ => (goesOn_skipPast _ _).bind fun _ =>
            goOn.sequence enough top first mode items
        · intro _
          split
          · exact ((goesOn_readEscape mode _).bind fun _ =>
              goOn.sequence enough top first mode _).behind [_]
          · exact ((goesOn_readSet mode).bind fun _ => goOn.sequence enough top first mode _).behind
              [_]
          · exact proceed _
          · exact proceed _
          · exact proceed _
          · exact (repeated _ _ _).behind [_]
          · exact (repeated _ _ _).behind [_]
          · exact (repeated _ _ _).behind [_]
          · apply keeps_readBounds.bind
            rintro (_ | ⟨least, most⟩)
            · exact goOn.sequence enough top first mode _
            · exact repeated _ least most
          · apply (goOn.group enough _ mode _).bind
            rintro (_ | item)
            · exact goesOn_get_bind fun _ => goOn.sequence enough top first _ items
            · exact goOn.sequence enough top first mode _
          · exact proceed _
          · exact keeps_failAt _ _

theorem ReadersGoOn.captured (goOn : ReadersGoOn whole start n) (enough : depth < passed)
    (mode : Mode) (position : Nat) (name : Option (List Char)) :
    GoesOn whole start depth passed (readCaptured n mode position name) :=
  (goesOn_openGroup name).bind fun index =>
    ((goOn.choice enough false mode []).inside enough .group).bind fun body =>
    (goesOn_closeParenthesis _).bind fun _ => (goesOn_closeGroup index body).bind fun _ =>
      goesOn_pure _

theorem ReadersGoOn.enclosed (goOn : ReadersGoOn whole start n) (enough : depth < passed)
    (mode : Mode) (position : Nat) (wrap : Node → Node) :
    GoesOn whole start depth passed (readEnclosed n mode position wrap) :=
  ((goOn.choice enough false mode []).inside enough .group).bind fun _ =>
    (goesOn_closeParenthesis _).bind fun _ => goesOn_pure _

theorem goesOn_readComment (position : Nat) :
    GoesOn whole start depth passed (readComment position) :=
  goesOn_get_bind fun _ => (goesOn_skipPast _ _).bind fun _ =>
    Keeps.ite (fun _ => goesOn_pure _) fun _ => keeps_failAt _ _

theorem ReadersGoOn.lookbehind (goOn : ReadersGoOn whole start n) (enough : depth < passed)
    (mode : Mode) (position : Nat) (among : Bool) :
    GoesOn whole start depth passed (readLookbehind n mode position among) := by
  have bounded {bound : Reading → Option Nat} :
      GoesOn whole start depth passed
        (modify fun state => { state with lookbehindFrom := bound state }) :=
    goesOn_modify (fun _ kept => ⟨kept.unicode, kept.ascii, kept.numbered, kept.nested⟩) fun _ =>
      rfl
  apply goesOn_get_bind
  intro reading
  apply bounded.bind
  intro _
  apply ((goOn.choice enough false mode []).inside enough .group).bind
  intro body
  apply bounded.bind
  intro _
  exact (goesOn_closeParenthesis _).bind fun _ => (goesOn_lookbehindWidth body).bind fun _ =>
    goesOn_pure _

theorem ReadersGoOn.conditional (goOn : ReadersGoOn whole start n) (enough : depth < passed)
    (mode : Mode) (position : Nat) :
    GoesOn whole start depth passed (readConditional n mode position) := by
  have closed (index : Nat) (yes no : Node) : GoesOn whole start depth passed (do
      closeParenthesis position
      return some (⟨.ifGroup index yes no, .plain⟩ : Item)) :=
    (goesOn_closeParenthesis _).bind fun _ => goesOn_pure _
  apply goesOn_readCondition.bind
  intro index
  apply ((goOn.sequence enough false false mode []).inside enough .condition).bind
  intro yes
  apply (goesOn_accept '|').bind
  intro another
  apply Keeps.ite
  · intro _
    apply ((goOn.sequence enough false false mode []).inside enough .condition).bind
    intro no
    exact goesOn_peek.bind fun _ => keeps_unless (closed index yes no)
  · intro _
    exact closed index yes .empty

/-- Flags for the whole are the one thing for which the opening of a group matters. -/
theorem ReadersGoOn.group_succ (goOn : ReadersGoOn whole start n) (enough : depth ≤ passed)
    (first : Bool) (mode : Mode) (position : Nat) :
    Keeps whole start depth (fun left => Onward whole passed (.plain '(' :: left))
      (readGroup first (n + 1) mode position) fun _ => Onward whole passed := by
  have inner : depth < passed + 1 := Nat.lt_succ_of_le enough
  rw [readGroup]
  apply (keeps_accept '?').bind
  intro isExtension
  cases isExtension with
  | false => exact (goOn.captured inner mode position none).opened []
  | true =>
    rw [if_neg (by decide)]
    apply keeps_next.bind
    intro token
    cases token with
    | none => exact keeps_fail _ _
    | some token =>
      have inside {x : Read (Option Item)} (goesOn : GoesOn whole start depth (passed + 1) x) :
          Keeps whole start depth
            (fun left => Onward whole passed (.plain '(' :: .plain '?' :: token :: left)) x
            fun _ => Onward whole passed :=
        goesOn.opened [.plain '?', token]
      dsimp only
      split
      · apply inside
        apply (goesOn_accept '<').bind
        intro named
        apply Keeps.ite
        · intro _
          exact (goesOn_readGroupName _).bind fun name =>
            goOn.captured inner mode position (some name)
        · intro _
          apply (goesOn_accept '=').bind
          intro refers
          apply Keeps.ite
          · intro _
            exact (goesOn_readNamedReference mode).bind fun _ => goesOn_pure _
          · intro _
            apply goesOn_next.bind
            rintro (_ | other)
            · exact goesOn_fail _ _
            · exact goesOn_fail _ _
      · exact inside (goOn.enclosed inner mode position id)
      · exact inside (goOn.enclosed inner mode position .atomic)
      · exact inside (goesOn_readComment position)
      · exact inside (goOn.enclosed inner mode position (.ahead true))
      · exact inside (goOn.enclosed inner mode position (.ahead false))
      · apply inside
        apply goesOn_next.bind
        rintro (_ | other)
        · exact goesOn_fail _ _
        · exact keeps_unless (goOn.lookbehind inner mode position (decide (other = .plain '=')))
      · exact inside (goOn.conditional inner mode position)
      · split
        · next flag isFlag =>
          have known : token = .plain flag ∧ (flag = '-' ∨ flag ∈ inlineFlags) := by
            split at isFlag
            · next isDash =>
              cases isFlag
              exact ⟨isDash, .inl rfl⟩
            · exact (flag?_eq_some isFlag).imp_right .inr
          rcases known with ⟨rfl, known⟩
          apply (keeps_readFlags known).bind
          rintro (_ | ⟨on, off⟩)
          · exact keeps_unlessAt (keeps_pure fun _ onward => onward.fewer)
          · exact (goOn.enclosed inner (mode.adjust on off) position id).mono
              (fun _ onward => onward)
              fun _ _ onward => onward.fewer
        · exact keeps_fail _ _

theorem readersGoOn (whole : List Token) (start : Mode) (n : Nat) : ReadersGoOn whole start n := by
  induction n with
  | zero =>
    constructor
    · intro _ _ _ top mode read
      exact keeps_throw fun _ _ => .malformed _
    · intro _ _ _ top first mode items
      exact keeps_throw fun _ _ => .malformed _
    · intro _ _ _ first mode position
      exact keeps_throw fun _ _ => .malformed _
  | succ n goOn => exact ⟨goOn.choice_succ, goOn.sequence_succ, goOn.group_succ⟩

end Readers

section Whole

theorem kept_at_start (mode : Mode) (tokens : List Token) :
    Kept tokens mode 0 { tokens, position := 0, mode } :=
  ⟨fun asked => absurd asked Bool.false_ne_true, .inl, .start, le_rfl⟩

variable [Host]

/-- What is left to do behind the last token gives reason for a refusal, or the groups are numbered.
-/
theorem keeps_finish {whole : List Token} {mode : Mode} {P : List Token → Prop} {root : Node}
    (tall : Host.isTooTall root.calls = true → HasTallRoot whole mode) :
    Keeps whole mode 0 P (finish root) fun regex _ =>
      Numbered (regex.groupCount + 1) regex.names.reverse := by
  apply keeps_get_bind
  intro state kept _
  apply Keeps.ite
  · intro clash
    rcases Bool.and_eq_true_iff.mp clash with ⟨isAscii, asked⟩
    exact (keeps_throw fun _ _ => .clashingModes (kept.unicode asked) (kept.ascii isAscii)).stop
  · intro _
    apply keeps_unless
    dsimp only
    split
    · exact keeps_failAt _ _
    · apply Keeps.ite
      · intro isTooTall
        exact (keeps_throw fun _ _ => .tooTall (tall isTooTall)).stop
      · intro _
        split
        · exact keeps_throw fun _ _ => .malformed _
        · apply keeps_pure
          intro _ _
          simpa [Nat.sub_add_cancel kept.numbered.positive] using kept.numbered

theorem outcome_of_readWhole {whole : List Token} {mode : Mode} {reading : Reading}
    (start : reading = { tokens := whole, position := 0, mode }) :
    (∀ regex left, (readWhole mode).run reading = .ok (regex, left) →
      Numbered (regex.groupCount + 1) regex.names.reverse) ∧
    ∀ refusal, (readWhole mode).run reading = .error refusal → Justified whole mode refusal := by
  have kept : Kept whole mode 0 reading := start ▸ kept_at_start mode whole
  have tokens_eq : reading.tokens = whole := start ▸ rfl
  have state_eq : (get : Read Reading).run reading = .ok (reading, reading) := rfl
  rw [readWhole, run_bind_of_ok state_eq, tokens_eq]
  split
  · have failed : (failAt 0 .danglingEscape : Read Unit).run reading =
        .error (.malformed ⟨.danglingEscape, some 0⟩) := rfl
    rw [run_bind_of_error failed]
    refine ⟨fun _ _ impossible => (by cases impossible), ?_⟩
    rintro _ ⟨⟩
    exact .malformed _
  · have onward : Onward whole 0 reading.tokens :=
      tokens_eq ▸ ⟨List.suffix_rfl, (Nat.zero_add _).le⟩
    have choice := (readersGoOn whole mode (3 * whole.length + 6)).choice (Nat.zero_le 0) true mode
      [] reading kept onward
    rcases ran : (readChoice true (3 * whole.length + 6) mode []).run reading with
      refusal | ⟨root, left⟩
    · rw [run_bind_of_error ran]
      refine ⟨fun _ _ impossible => (by cases impossible), ?_⟩
      rintro _ ⟨⟩
      exact choice.2 refusal ran
    · rw [run_bind_of_ok ran]
      have tall (isTooTall : Host.isTooTall root.calls = true) : HasTallRoot whole mode :=
        ⟨root, left, isTooTall, start ▸ ran⟩
      have outcome := keeps_finish (P := fun _ => True) tall left (choice.1 root left ran).1 trivial
      exact ⟨fun regex left ended => (outcome.1 regex left ended).2, outcome.2⟩

/-- An expression is refused for a defect of form, or for what is written in it. -/
theorem justified_of_read? {mode : Mode} {expression : List Char} {refusal : Refusal}
    (refused : read? mode expression = .error refusal) :
    Justified (Token.split expression) mode refusal := by
  rw [read?] at refused
  rcases ran : (readWhole mode).run { tokens := Token.split expression, position := 0, mode } with
    cause | ⟨regex, left⟩
  · rw [ran] at refused
    cases refused
    exact (outcome_of_readWhole rfl).2 refusal ran
  · rw [ran] at refused
    cases refused

/-- The groups with names of an expression stand in the order of their numbers, and no name is given
twice. -/
theorem numbered_of_read? {mode : Mode} {expression : List Char} {regex : Regex}
    (read : read? mode expression = .ok regex) :
    Numbered (regex.groupCount + 1) regex.names.reverse := by
  rw [read?] at read
  rcases ran : (readWhole mode).run { tokens := Token.split expression, position := 0, mode } with
    cause | ⟨regex', left⟩
  · rw [ran] at read
    cases read
  · rw [ran] at read
    cases read
    exact (outcome_of_readWhole rfl).1 _ _ ran

end Whole

end Markflow.Regex
