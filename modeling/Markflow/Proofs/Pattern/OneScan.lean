import Markflow.Proofs.Pattern.Spelling
import Mathlib.Algebra.Ring.Parity
import Mathlib.Data.List.Induction

/-!
# Names are spelled out in one scan

Groups are spelled out first and references in the result, but neither makes or hides work for the
other.  So both come to one scan from left to right (`Spelled`): a backslash and the character
behind it are copied as a unit, short spellings outside of such units are spelled out, and
everything else is copied.  What the scan makes of a text has no short spelling left outside of
these units, so that a second scan changes nothing.
-/

namespace Markflow.Spelling

/-- ASCII letters, digits and low lines of which the first is no digit. -/
def IsName (name : List Char) : Prop :=
  ∃ c rest, name = c :: rest ∧ isNameStart c = true ∧ ∀ d ∈ rest, isNameRest d = true

/-- A text starts with an opener, a name and a closing angle bracket. -/
def Opens (opener text : List Char) : Prop :=
  ∃ name rest, IsName name ∧ text = opener ++ (name ++ '>' :: rest)

/-- A pattern and what one scan from left to right makes of it. -/
inductive Spelled : List Char → List Char → Prop
  | done : Spelled [] []
  | group {name rest result : List Char} (named : IsName name) (goesOn : Spelled rest result) :
      Spelled ('(' :: '?' :: '<' :: (name ++ '>' :: rest))
        ('(' :: '?' :: 'P' :: '<' :: (name ++ '>' :: result))
  | reference {name rest result : List Char} (named : IsName name) (goesOn : Spelled rest result) :
      Spelled ('\\' :: 'k' :: '<' :: (name ++ '>' :: rest))
        ('(' :: '?' :: 'P' :: '=' :: (name ++ ')' :: result))
  | escape {c : Char} {rest result : List Char}
      (other : ¬ Opens ['\\', 'k', '<'] ('\\' :: c :: rest))
      (goesOn : Spelled rest result) : Spelled ('\\' :: c :: rest) ('\\' :: c :: result)
  | backslash : Spelled ['\\'] ['\\']
  | copy {c : Char} {rest result : List Char} (unescaping : c ≠ '\\')
      (other : ¬ Opens ['(', '?', '<'] (c :: rest))
      (goesOn : Spelled rest result) : Spelled (c :: rest) (c :: result)

section Scan

variable {name text rest result opener : List Char} {c : Char}

theorem IsName.goesOn (named : IsName name) : ∀ c ∈ name, isNameRest c = true := by
  rcases named with ⟨c, rest, rfl, starts, goesOn⟩
  exact List.forall_mem_cons.mpr ⟨isNameRest_of_isNameStart starts, goesOn⟩

theorem IsName.opensName (named : IsName name) (rest : List Char) :
    opensName (name ++ '>' :: rest) = true := by
  rcases named with ⟨c, name, rfl, starts, goesOn⟩
  exact opensName_iff.mpr ⟨c, name, rest, starts, goesOn, rfl⟩

theorem opens_iff : Opens opener text ↔ ∃ rest, text = opener ++ rest ∧ opensName rest = true := by
  constructor
  · rintro ⟨name, rest, named, rfl⟩
    exact ⟨_, rfl, named.opensName rest⟩
  · rintro ⟨rest, rfl, opens⟩
    rcases opensName_iff.mp opens with ⟨c, name, rest, starts, goesOn, rfl⟩
    exact ⟨c :: name, rest, ⟨c, name, rfl, starts, goesOn⟩, rfl⟩

theorem opens_cons_iff {first : Char} :
    Opens (first :: opener) (c :: text) ↔ c = first ∧ Opens opener text := by
  constructor
  · rintro ⟨name, rest, named, same⟩
    rcases List.cons.inj same with ⟨rfl, text_eq⟩
    exact ⟨rfl, name, rest, named, text_eq⟩
  · rintro ⟨rfl, name, rest, named, rfl⟩
    exact ⟨name, rest, named, rfl⟩

/-- A character stays where it does not begin a group. -/
theorem expandGroups_other {escaped : Bool} (unescaping : c ≠ '\\')
    (other : ∀ rest, c :: text = '(' :: '?' :: '<' :: rest → (!escaped && opensName rest) = false) :
    expandGroups escaped (c :: text) = c :: expandGroups false text := by
  by_cases starts : ∃ rest, c :: text = '(' :: '?' :: '<' :: rest
  · rcases starts with ⟨rest, text_eq⟩
    have noName := other rest text_eq
    cases text_eq
    rw [expandGroups, noName, if_neg Bool.false_ne_true, expandGroups_cons (by decide) (by decide),
      expandGroups_cons (by decide) (by decide)]
  · rw [expandGroups]
    · intro rest opener text_eq
      exact starts ⟨rest, by rw [opener, text_eq]⟩
    · exact unescaping

theorem expandGroups_escaped : expandGroups true (c :: text) = c :: expandGroups false text := by
  by_cases backslash : c = '\\'
  · subst backslash
    rfl
  · exact expandGroups_other backslash fun _ _ => rfl

theorem expandReferences_escaped :
    expandReferences true false (c :: text) = c :: expandReferences false false text := by
  by_cases backslash : c = '\\'
  · subst backslash
    exact expandReferences_backslash fun _ _ => rfl
  · exact expandReferences_other backslash

theorem expandGroups_escape :
    expandGroups false ('\\' :: c :: text) = '\\' :: c :: expandGroups false text := by
  rw [expandGroups, Bool.not_false, expandGroups_escaped]

theorem expandReferences_of_not_opens (other : ¬ Opens ['\\', 'k', '<'] ('\\' :: c :: text)) :
    expandReferences false false ('\\' :: c :: text) =
      '\\' :: c :: expandReferences false false text := by
  rw [expandReferences_backslash, Bool.not_false, expandReferences_escaped]
  intro rest text_eq
  rw [Bool.eq_false_iff, ne_eq, Bool.not_false, Bool.true_and]
  exact fun opens => other (opens_iff.mpr ⟨rest, congrArg (List.cons '\\') text_eq, opens⟩)

theorem expandGroups_of_not_opens (unescaping : c ≠ '\\')
    (other : ¬ Opens ['(', '?', '<'] (c :: text)) :
    expandGroups false (c :: text) = c :: expandGroups false text := by
  apply expandGroups_other unescaping
  intro rest text_eq
  rw [Bool.eq_false_iff, ne_eq, Bool.not_false, Bool.true_and]
  exact fun opens => other (opens_iff.mpr ⟨rest, text_eq, opens⟩)

theorem expand_nil : expand [] = [] := by
  rw [expand, expandGroups, expandReferences]

theorem expandGroups_spelling (named : IsName name) :
    expandGroups false ('(' :: '?' :: '<' :: (name ++ '>' :: rest)) =
    '(' :: '?' :: 'P' :: '<' :: (name ++ '>' :: expandGroups false rest) := by
  have opens : (!false && opensName (name ++ '>' :: rest)) = true := named.opensName rest
  rw [expandGroups, if_pos opens, expandGroups_name named.goesOn]

theorem expandReferences_spelling (named : IsName name) :
    expandReferences false false ('\\' :: 'k' :: '<' :: (name ++ '>' :: rest)) =
      '(' :: '?' :: 'P' :: '=' :: (name ++ ')' :: expandReferences false false rest) := by
  have opens : (!false && opensName (name ++ '>' :: rest)) = true := named.opensName rest
  rw [expandReferences, if_pos opens, expandReferences_name named.goesOn, if_pos rfl]

theorem expand_group (named : IsName name) :
    expand ('(' :: '?' :: '<' :: (name ++ '>' :: rest)) =
      '(' :: '?' :: 'P' :: '<' :: (name ++ '>' :: expand rest) := by
  rw [expand, expandGroups_spelling named, expandReferences_other (by decide),
    expandReferences_other (by decide), expandReferences_other (by decide),
    expandReferences_other (by decide), expandReferences_name named.goesOn,
    if_neg Bool.false_ne_true]
  rfl

theorem expand_reference (named : IsName name) :
    expand ('\\' :: 'k' :: '<' :: (name ++ '>' :: rest)) =
      '(' :: '?' :: 'P' :: '=' :: (name ++ ')' :: expand rest) := by
  rw [expand, expandGroups_escape, expandGroups_cons (by decide) (by decide),
    expandGroups_name named.goesOn, expandReferences_spelling named]
  rfl

theorem expand_escape (other : ¬ Opens ['\\', 'k', '<'] ('\\' :: c :: rest)) :
    expand ('\\' :: c :: rest) = '\\' :: c :: expand rest := by
  rw [expand, expandGroups_escape, expandReferences_of_not_opens]
  · rfl
  · rw [opens_cons_iff, opens_cons_iff, opens_iff] at other ⊢
    rintro ⟨backslash, letter, more, text_eq, opens⟩
    rcases expandGroups_eq_cons (by decide) (by decide) text_eq with ⟨rest, rfl, rfl⟩
    rw [opensName_expandGroups] at opens
    exact other ⟨backslash, letter, rest, rfl, opens⟩

theorem expand_backslash : expand ['\\'] = ['\\'] := by
  decide

theorem expand_copy (unescaping : c ≠ '\\') (other : ¬ Opens ['(', '?', '<'] (c :: rest)) :
    expand (c :: rest) = c :: expand rest := by
  rw [expand, expandGroups_of_not_opens unescaping other, expandReferences_other unescaping]
  rfl

theorem Spelled.expand_eq (spelled : Spelled text result) : expand text = result := by
  induction spelled with
  | done => exact expand_nil
  | group named goesOn ih => rw [expand_group named, ih]
  | reference named goesOn ih => rw [expand_reference named, ih]
  | escape other goesOn ih => rw [expand_escape other, ih]
  | backslash => exact expand_backslash
  | copy unescaping other goesOn ih => rw [expand_copy unescaping other, ih]

/-- A scan goes through every text. -/
theorem exists_spelled (text : List Char) : ∃ result, Spelled text result := by
  induction sized : text.length using Nat.strongRecOn generalizing text with
  | _ size ih =>
    subst sized
    rcases text with _ | ⟨c, rest⟩
    · exact ⟨_, .done⟩
    by_cases backslash : c = '\\'
    · subst backslash
      by_cases reference : Opens ['\\', 'k', '<'] ('\\' :: rest)
      · rcases reference with ⟨name, more, named, text_eq⟩
        rw [text_eq] at ih ⊢
        rcases ih more.length (by simp only [List.length_append, List.length_cons]; omega) more
          rfl with ⟨result, goesOn⟩
        exact ⟨_, .reference named goesOn⟩
      · rcases rest with _ | ⟨d, rest⟩
        · exact ⟨_, .backslash⟩
        · rcases ih rest.length (by simp only [List.length_cons]; omega) rest rfl with
            ⟨result, goesOn⟩
          exact ⟨_, .escape reference goesOn⟩
    · by_cases group : Opens ['(', '?', '<'] (c :: rest)
      · rcases group with ⟨name, more, named, text_eq⟩
        rw [text_eq] at ih ⊢
        rcases ih more.length (by simp only [List.length_append, List.length_cons]; omega) more
          rfl with ⟨result, goesOn⟩
        exact ⟨_, .group named goesOn⟩
      · rcases ih rest.length (Nat.lt_succ_self _) rest rfl with ⟨result, goesOn⟩
        exact ⟨_, .copy backslash group goesOn⟩

/-- Spelling names out is one scan. -/
theorem spelled_iff : Spelled text result ↔ expand text = result := by
  constructor
  · exact Spelled.expand_eq
  · rintro rfl
    rcases exists_spelled text with ⟨result, spelled⟩
    rwa [spelled.expand_eq]

end Scan

section Laws

variable {name front before kept piece back rest result : List Char} {c first : Char}

/-- Neither an escape nor a short spelling begins with these characters. -/
def IsInert (c : Char) : Prop :=
  c ≠ '(' ∧ c ≠ '\\'

instance (c : Char) : Decidable (IsInert c) :=
  inferInstanceAs (Decidable (_ ∧ _))

theorem not_opens_of_ne {opener : List Char} (different : c ≠ first) :
    ¬ Opens (first :: opener) (c :: rest) :=
  fun opens => different (opens_cons_iff.mp opens).1

theorem not_opens_reference (different : c ≠ 'k') : ¬ Opens ['\\', 'k', '<'] ('\\' :: c :: rest) :=
  fun opens => not_opens_of_ne different (opens_cons_iff.mp opens).2

theorem expand_inert (inert : ∀ c ∈ kept, IsInert c) :
    expand (kept ++ rest) = kept ++ expand rest := by
  induction kept with
  | nil => rfl
  | cons c kept ih =>
    have here := inert c List.mem_cons_self
    rw [List.cons_append, expand_copy here.2 (not_opens_of_ne here.1), ih fun d mem =>
      inert d (List.mem_cons_of_mem c mem), List.cons_append]

theorem isInert_of_isNameRest (goesOn : isNameRest c = true) : IsInert c :=
  ⟨ne_of_isNameRest goesOn (by decide), ne_of_isNameRest goesOn (by decide)⟩

theorem IsName.inert (named : IsName name) : ∀ c ∈ name, IsInert c :=
  fun c mem => isInert_of_isNameRest (named.goesOn c mem)

theorem IsName.inert_within {opener : List Char} {closer : Char} (named : IsName name)
    (opener_inert : ∀ c ∈ opener, IsInert c) (closer_inert : IsInert closer) :
    ∀ c ∈ opener ++ (name ++ [closer]), IsInert c := by
  intro c mem
  rw [List.mem_append, List.mem_append, List.mem_singleton] at mem
  rcases mem with mem | mem | rfl
  · exact opener_inert c mem
  · exact named.inert c mem
  · exact closer_inert

/-- A spelling that begins before a parenthesis or a backslash ends before it. -/
theorem Opens.of_append {opener : List Char} (inert : ∀ d ∈ opener, IsInert d)
    (apart : ∀ d ∈ back.head?, ¬ IsInert d)
    (opens : Opens (first :: opener) (c :: (rest ++ back))) :
    Opens (first :: opener) (c :: rest) := by
  rcases opens_cons_iff.mp opens with ⟨rfl, name, more, named, cut_eq⟩
  have spelling_inert := named.inert_within inert (by decide : IsInert '>')
  have spelled_eq : opener ++ (name ++ '>' :: more) = (opener ++ (name ++ ['>'])) ++ more := by
    simp
  rw [spelled_eq] at cut_eq
  -- The spelling ends with the text, it goes on into what follows, or it ends within the text.
  rcases List.append_eq_append_iff.mp cut_eq with ⟨_ | ⟨d, passed⟩, spelling_eq, back_eq⟩
    | ⟨others, rest_eq, -⟩
  · refine ⟨name, [], named, ?_⟩
    rw [← List.append_nil rest, ← spelling_eq, List.cons_append]
  · refine absurd (spelling_inert d ?_) (apart d ?_)
    · rw [spelling_eq]
      exact List.mem_append_right rest List.mem_cons_self
    · rw [back_eq]
      rfl
  · refine ⟨name, others, named, ?_⟩
    rw [rest_eq]
    simp

/-- A text that does not end with a backslash is scanned before a parenthesis or a backslash as it
is scanned alone. -/
theorem expand_append (complete : front.getLast? ≠ some '\\')
    (apart : ∀ d ∈ back.head?, ¬ IsInert d) :
    expand (front ++ back) = expand front ++ expand back := by
  rcases exists_spelled front with ⟨result, spelled⟩
  rw [spelled.expand_eq]
  have whole : ¬ ['\\'] <:+ front := by
    rintro ⟨start, rfl⟩
    exact complete List.getLast?_concat
  clear complete
  -- At each step the rest of the text is a suffix of it, so it does not end with a backslash
  -- either.
  induction spelled with
  | done => rfl
  | @group name rest result named goesOn ih =>
    have below := ih fun isSuffix =>
      whole (isSuffix.trans ⟨'(' :: '?' :: '<' :: (name ++ ['>']), by simp⟩)
    have split : '(' :: '?' :: '<' :: (name ++ '>' :: rest) ++ back =
        '(' :: '?' :: '<' :: (name ++ '>' :: (rest ++ back)) := by
      simp
    rw [split, expand_group named, below]
    simp
  | @reference name rest result named goesOn ih =>
    have below := ih fun isSuffix =>
      whole (isSuffix.trans ⟨'\\' :: 'k' :: '<' :: (name ++ ['>']), by simp⟩)
    have split : '\\' :: 'k' :: '<' :: (name ++ '>' :: rest) ++ back =
        '\\' :: 'k' :: '<' :: (name ++ '>' :: (rest ++ back)) := by
      simp
    rw [split, expand_reference named, below]
    simp
  | @escape c rest result other goesOn ih =>
    have below := ih fun isSuffix => whole (isSuffix.trans (List.suffix_append ['\\', c] rest))
    have other_back : ¬ Opens ['\\', 'k', '<'] ('\\' :: c :: (rest ++ back)) := by
      intro opens
      exact other (Opens.of_append (by decide) apart opens)
    rw [List.cons_append, List.cons_append, expand_escape other_back, below]
    rfl
  | backslash => exact absurd (List.suffix_refl _) whole
  | @copy c rest result unescaping other goesOn ih =>
    have below := ih fun isSuffix => whole (isSuffix.trans (List.suffix_cons c rest))
    have other_back : ¬ Opens ['(', '?', '<'] (c :: (rest ++ back)) := by
      intro opens
      exact other (Opens.of_append (by decide) apart opens)
    rw [List.cons_append, expand_copy unescaping other_back, below]
    rfl

theorem exists_backslashes (front : List Char) :
    ∃ before count, front = before ++ List.replicate count '\\' ∧ before.getLast? ≠ some '\\' := by
  induction front using List.reverseRecOn with
  | nil => exact ⟨[], 0, rfl, by decide⟩
  | append_singleton start c ih =>
    by_cases backslash : c = '\\'
    · rcases ih with ⟨before, count, rfl, complete⟩
      refine ⟨before, count + 1, ?_, complete⟩
      rw [List.replicate_succ', backslash, List.append_assoc]
    · refine ⟨start ++ [c], 0, (List.append_nil _).symm, ?_⟩
      rw [List.getLast?_concat]
      exact fun same => backslash (Option.some.inj same)

/-- A backslash is copied together with the backslash behind it. -/
def CopiesPairs (pass : List Char → List Char) : Prop :=
  ∀ rest, pass ('\\' :: '\\' :: rest) = '\\' :: '\\' :: pass rest

namespace CopiesPairs

variable {pass : List Char → List Char} {count : Nat} (copies : CopiesPairs pass)

include copies

theorem of_even (even : Even count) (rest : List Char) :
    pass (List.replicate count '\\' ++ rest) = List.replicate count '\\' ++ pass rest := by
  rcases even with ⟨half, rfl⟩
  induction half with
  | zero => rfl
  | succ half ih =>
    have one_more : half + 1 + (half + 1) = half + half + 1 + 1 := by omega
    rw [one_more, List.replicate_succ, List.replicate_succ, List.cons_append,
      List.cons_append, copies, ih]
    rfl

theorem of_odd (odd : Odd count) (copied : pass ('\\' :: c :: rest) = '\\' :: c :: pass rest) :
    pass (List.replicate count '\\' ++ c :: rest) =
      List.replicate count '\\' ++ c :: pass rest := by
  rcases odd with ⟨half, rfl⟩
  rw [List.replicate_succ', List.append_assoc, List.append_assoc,
    copies.of_even (even_two_mul half), List.singleton_append, List.singleton_append, copied]

theorem alone (nil : pass [] = []) (last : pass ['\\'] = ['\\']) (count : Nat) :
    pass (List.replicate count '\\') = List.replicate count '\\' := by
  rcases Nat.even_or_odd' count with ⟨half, rfl | rfl⟩
  · rw [← List.append_nil (List.replicate _ _), copies.of_even (even_two_mul half), nil]
  · rw [List.replicate_succ', copies.of_even (even_two_mul half), last]

end CopiesPairs

theorem copiesPairs_expand : CopiesPairs expand :=
  fun _ => expand_escape (not_opens_reference (by decide))

theorem expand_append_backslashes {count : Nat} (complete : before.getLast? ≠ some '\\')
    (active : ¬ IsInert c) :
    expand (before ++ (List.replicate count '\\' ++ c :: rest)) =
      expand before ++ expand (List.replicate count '\\' ++ c :: rest) := by
  apply expand_append complete
  intro d first_eq
  cases count with
  | zero =>
    cases first_eq
    exact active
  | succ count =>
    cases first_eq
    decide

/-- Without the character that makes it one, the short spelling of a group or of a reference is
copied. -/
theorem expand_named (inert : ∀ c ∈ kept, IsInert c) (named : IsName name) :
    expand (kept ++ (name ++ '>' :: rest)) = kept ++ (name ++ '>' :: expand rest) := by
  have closer_inert : ∀ c ∈ ['>'], IsInert c := by decide
  have closed : expand ('>' :: rest) = '>' :: expand rest := expand_inert closer_inert
  rw [expand_inert inert, expand_inert named.inert, closed]

/-- Whether the short spelling of a group is spelled out is decided by the parity of the backslashes
before it. -/
theorem expand_group_behind (named : IsName name) (complete : before.getLast? ≠ some '\\')
    (count : Nat) :
    expand (before ++ (List.replicate count '\\' ++ '(' :: '?' :: '<' :: (name ++ '>' :: rest))) =
      expand before ++ (List.replicate count '\\' ++
        ((if Even count then ['(', '?', 'P', '<'] else ['(', '?', '<']) ++
          (name ++ '>' :: expand rest))) := by
  rw [expand_append_backslashes complete (by decide)]
  by_cases even : Even count
  · rw [if_pos even, copiesPairs_expand.of_even even, expand_group named]
    rfl
  · have inert : ∀ c ∈ ['?', '<'], IsInert c := by decide
    have copied :
        expand ('?' :: '<' :: (name ++ '>' :: rest)) = '?' :: '<' :: (name ++ '>' :: expand rest) :=
      expand_named inert named
    have escaped :=
      @expand_escape ('?' :: '<' :: (name ++ '>' :: rest)) '(' (not_opens_reference (by decide))
    rw [if_neg even, copiesPairs_expand.of_odd (Nat.not_even_iff_odd.mp even) escaped, copied]
    rfl

/-- Whether the short spelling of a reference is spelled out is decided by the parity of the
backslashes before it. -/
theorem expand_reference_behind (named : IsName name) (complete : before.getLast? ≠ some '\\')
    (count : Nat) :
    expand (before ++ (List.replicate count '\\' ++ '\\' :: 'k' :: '<' :: (name ++ '>' :: rest))) =
      expand before ++ (List.replicate count '\\' ++
        if Even count then '(' :: '?' :: 'P' :: '=' :: (name ++ ')' :: expand rest)
        else '\\' :: 'k' :: '<' :: (name ++ '>' :: expand rest)) := by
  rw [expand_append_backslashes complete (by decide)]
  by_cases even : Even count
  · rw [if_pos even, copiesPairs_expand.of_even even, expand_reference named]
  · have inert : ∀ c ∈ ['k', '<'], IsInert c := by decide
    have copied :
        expand ('k' :: '<' :: (name ++ '>' :: rest)) = 'k' :: '<' :: (name ++ '>' :: expand rest) :=
      expand_named inert named
    -- The backslash of the reference makes the number of backslashes even, so that all of them are
    -- copied in pairs.
    have one_more : ∀ tail, List.replicate count '\\' ++ '\\' :: tail =
        List.replicate (count + 1) '\\' ++ tail := by
      intro tail
      rw [List.replicate_succ', List.append_assoc, List.singleton_append]
    rw [if_neg even, one_more, one_more, copiesPairs_expand.of_even (Nat.even_add_one.mpr even),
      copied]

/-- What begins with a parenthesis and is no short spelling is copied wherever it stands. -/
theorem expand_kept (inert : ∀ c ∈ kept, IsInert c)
    (other : ¬ Opens ['(', '?', '<'] ('(' :: (kept ++ back))) :
    expand (front ++ '(' :: (kept ++ back)) = expand front ++ '(' :: (kept ++ expand back) := by
  rcases exists_backslashes front with ⟨before, count, rfl, complete⟩
  have front_eq :
      expand (before ++ List.replicate count '\\') =
        expand before ++ List.replicate count '\\' := by
    rw [expand_append complete, copiesPairs_expand.alone expand_nil expand_backslash]
    intro c first_eq
    rw [List.eq_of_mem_replicate (List.mem_of_mem_head? first_eq)]
    decide
  have below : expand (List.replicate count '\\' ++ '(' :: (kept ++ back)) =
      List.replicate count '\\' ++ '(' :: (kept ++ expand back) := by
    rcases Nat.even_or_odd count with even | odd
    · rw [copiesPairs_expand.of_even even, expand_copy (by decide) other, expand_inert inert]
    · rw [copiesPairs_expand.of_odd odd (expand_escape (not_opens_reference (by decide))),
        expand_inert inert]
  rw [List.append_assoc, expand_append_backslashes complete (by decide), below, front_eq,
    List.append_assoc]

/-- A look-behind, or the long spelling of a group or a reference. -/
inductive IsLong : List Char → Prop
  | behind : IsLong ['(', '?', '<', '=']
  | notBehind : IsLong ['(', '?', '<', '!']
  | group {name : List Char} (named : IsName name) :
      IsLong ('(' :: '?' :: 'P' :: '<' :: (name ++ ['>']))
  | reference {name : List Char} (named : IsName name) :
      IsLong ('(' :: '?' :: 'P' :: '=' :: (name ++ [')']))

/-- No name starts with a character that is none of a name. -/
theorem not_opens_nil (other : isNameStart c = false) : ¬ Opens [] (c :: rest) := by
  rintro ⟨_, more, ⟨d, name, rfl, starts, -⟩, same⟩
  rw [(List.cons.inj same).1, starts] at other
  cases other

theorem IsLong.exists_inert (long : IsLong piece) :
    ∃ kept, piece = '(' :: kept ∧ (∀ c ∈ kept, IsInert c) ∧
    ∀ back, ¬ Opens ['(', '?', '<'] ('(' :: (kept ++ back)) := by
  cases long with
  | behind =>
    refine ⟨['?', '<', '='], rfl, by decide, fun back => ?_⟩
    simp only [List.cons_append, opens_cons_iff,
      not_opens_nil (by decide : isNameStart '=' = false), and_false,
      not_false_eq_true]
  | notBehind =>
    refine ⟨['?', '<', '!'], rfl, by decide, fun back => ?_⟩
    simp only [List.cons_append, opens_cons_iff,
      not_opens_nil (by decide : isNameStart '!' = false), and_false,
      not_false_eq_true]
  | @group name named =>
    refine ⟨['?', 'P', '<'] ++ (name ++ ['>']), rfl, named.inert_within (by decide) (by decide),
      fun back => ?_⟩
    simp only [List.cons_append, opens_cons_iff, not_opens_of_ne (by decide : 'P' ≠ '<'), and_false,
      not_false_eq_true]
  | @reference name named =>
    refine ⟨['?', 'P', '='] ++ (name ++ [')']), rfl, named.inert_within (by decide) (by decide),
      fun back => ?_⟩
    simp only [List.cons_append, opens_cons_iff, not_opens_of_ne (by decide : 'P' ≠ '<'), and_false,
      not_false_eq_true]

theorem expand_long (long : IsLong piece) (front back : List Char) :
    expand (front ++ (piece ++ back)) = expand front ++ (piece ++ expand back) := by
  rcases long.exists_inert with ⟨kept, rfl, inert, other⟩
  exact expand_kept inert (other back)

theorem Spelled.of_cons (inert : IsInert c) (spelled : Spelled text (c :: result)) :
    ∃ rest, text = c :: rest ∧ Spelled rest result := by
  cases spelled with
  | group => exact absurd rfl inert.1
  | reference => exact absurd rfl inert.1
  | escape => exact absurd rfl inert.2
  | backslash => exact absurd rfl inert.2
  | copy _ _ goesOn => exact ⟨_, rfl, goesOn⟩

/-- What a scan writes begins with inert characters only where the text does. -/
theorem Spelled.of_inert (inert : ∀ c ∈ kept, IsInert c) (spelled : Spelled text (kept ++ result)) :
    ∃ rest, text = kept ++ rest ∧ Spelled rest result := by
  induction kept generalizing text with
  | nil => exact ⟨text, rfl, spelled⟩
  | cons c kept ih =>
    rcases spelled.of_cons (inert c List.mem_cons_self) with ⟨below, rfl, goesOn⟩
    rcases ih (fun d mem => inert d (List.mem_cons_of_mem c mem)) goesOn with ⟨rest, rfl, last⟩
    exact ⟨rest, rfl, last⟩

/-- What a scan writes makes no short spelling of what was none. -/
theorem Spelled.opens {opener : List Char} (inert : ∀ c ∈ opener, IsInert c)
    (spelled : Spelled text result) (opens : Opens opener result) : Opens opener text := by
  rcases opens with ⟨name, more, named, rfl⟩
  have split : ∀ tail, opener ++ (name ++ '>' :: tail) = (opener ++ (name ++ ['>'])) ++ tail := by
    simp
  rw [split] at spelled
  rcases spelled.of_inert (named.inert_within inert (by decide)) with ⟨rest, rfl, -⟩
  exact ⟨name, rest, named, (split rest).symm⟩

/-- What a scan writes is scanned without a change. -/
theorem Spelled.again (spelled : Spelled text result) : expand result = result := by
  induction spelled with
  | done => exact expand_nil
  | @group name rest result named goesOn ih =>
    have kept := expand_long (.group named) [] result
    rw [expand_nil, ih] at kept
    simpa using kept
  | @reference name rest result named goesOn ih =>
    have kept := expand_long (.reference named) [] result
    rw [expand_nil, ih] at kept
    simpa using kept
  | @escape c rest result other goesOn ih =>
    rw [expand_escape, ih]
    rw [opens_cons_iff, opens_cons_iff] at other ⊢
    rintro ⟨backslash, letter, opens⟩
    exact other ⟨backslash, letter, goesOn.opens (by decide) opens⟩
  | backslash => exact expand_backslash
  | @copy c rest result unescaping other goesOn ih =>
    rw [expand_copy unescaping, ih]
    rw [opens_cons_iff] at other ⊢
    rintro ⟨opener, opens⟩
    exact other ⟨opener, goesOn.opens (by decide) opens⟩

/-- A text whose names are spelled out is not changed by spelling them out again. -/
theorem expand_expand (text : List Char) : expand (expand text) = expand text :=
  (spelled_iff.mpr rfl).again

end Laws

end Markflow.Spelling
