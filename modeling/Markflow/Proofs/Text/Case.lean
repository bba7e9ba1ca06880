import Markflow.Text.Case
import Mathlib.Data.List.Basic

/-!
# Words in any letter case

Of the characters beyond ASCII one alone has a letter of ASCII for its lower case form, the sign for
kelvins.  So a word of ASCII without a `k` is the lower case form of the same texts whether all
their letters are lowered or only those of ASCII (`lower_eq_iff`).
-/

namespace Markflow.Text

/-- A character of ASCII that is the lower case form of characters of ASCII alone. -/
def LowersFromAscii (c : Char) : Prop :=
  0 < c.toNat ∧ c.toNat < 128 ∧ c ≠ 'k'

instance (c : Char) : Decidable (LowersFromAscii c) :=
  inferInstanceAs (Decidable (0 < c.toNat ∧ c.toNat < 128 ∧ c ≠ 'k'))

/-- The lower case form of one character. -/
def lowerChars (c : Char) : List Char :=
  if c.toNat == 0x130 then ['i', Char.ofNat 0x307] else [Char.ofNat (lowerCode c.toNat)]

theorem toList_lower (text : String) : (lower text).toList = text.toList.flatMap lowerChars := by
  rw [lower, String.toList_ofList]
  rfl

/-- Two runs alone lead into ASCII, and each has one character. -/
theorem lowerRuns_cases : ∀ run ∈ lowerRuns.toList, 128 ≤ (run.first : Int) + run.shift ∨
    run.first = 0x130 ∧ run.last = 0x130 ∨ run.first = 0x212A ∧ run.last = 0x212A ∧
      run.shift = -8383 := by
  decide +kernel

theorem lowerCode_of_not_ascii {code : Nat} (beyond : 128 ≤ code) (undotted : code ≠ 0x130) :
    128 ≤ lowerCode code ∨ lowerCode code = 'k'.toNat := by
  rw [lowerCode, if_neg (Nat.not_lt.mpr beyond)]
  split
  · next run found =>
    have holds := Array.find?_some found
    simp only [CaseRun.holds, Bool.and_eq_true, decide_eq_true_eq] at holds
    rcases holds with ⟨⟨first_le, le_last⟩, -⟩
    rw [CaseRun.apply, Int.ofNat_eq_natCast]
    have run_mem := (Array.mem_of_find?_eq_some found).val
    rcases lowerRuns_cases run run_mem with high | ⟨first_eq, last_eq⟩
      | ⟨first_eq, last_eq, shift_eq⟩
    · left
      omega
    · omega
    · right
      obtain rfl : code = 0x212A := by omega
      rw [shift_eq]
      rfl
  · exact .inl beyond

theorem isAsciiLetter_iff {c : Char} :
    c.isAlpha = true ↔ (65 ≤ c.toNat ∧ c.toNat ≤ 90) ∨ (97 ≤ c.toNat ∧ c.toNat ≤ 122) := by
  delta Char.isAlpha Char.isUpper Char.isLower
  simp only [UInt32.le_iff_toNat_le, Bool.or_eq_true, Bool.and_eq_true, decide_eq_true_eq]
  rfl

theorem toLower_of_not_ascii {c : Char} (beyond : 128 ≤ c.toNat) : c.toLower = c := by
  delta Char.toLower
  rw [dif_neg]
  rintro ⟨-, le_last⟩
  have inAscii : c.toNat ≤ 'Z'.toNat := le_last
  exact absurd (Nat.le_trans beyond inAscii) (by decide)

theorem ofNat_lowerCode_of_ascii :
    ∀ code < 128, Char.ofNat (lowerCode code) = (Char.ofNat code).toLower := by
  decide +kernel

/-- The character of a code point has that code point, or it is the null character. -/
theorem toNat_ofNat_cases (code : Nat) :
    (Char.ofNat code).toNat = code ∨ (Char.ofNat code).toNat = 0 := by
  by_cases valid : code.isValidChar
  · left
    rw [Char.ofNat, dif_pos valid]
    rfl
  · right
    rw [Char.ofNat, dif_neg valid]
    rfl

/-- Lowering all letters gives a character of ASCII without a `k` where lowering those of ASCII
does. -/
theorem ofNat_lowerCode_eq_iff {c d : Char} (undotted : c.toNat ≠ 0x130)
    (fromAscii : LowersFromAscii d) :
    Char.ofNat (lowerCode c.toNat) = d ↔ c.toLower = d := by
  rcases fromAscii with ⟨pos, isAscii, notK⟩
  rcases Nat.lt_or_ge c.toNat 128 with inAscii | beyond
  · rw [ofNat_lowerCode_of_ascii c.toNat inAscii, Char.ofNat_toNat]
  · rw [toLower_of_not_ascii beyond]
    apply iff_of_false
    · intro same
      rcases lowerCode_of_not_ascii beyond undotted with high | isK
      · rw [← same] at pos isAscii
        rcases toNat_ofNat_cases (lowerCode c.toNat) with code_eq | null
        · omega
        · omega
      · rw [isK, Char.ofNat_toNat] at same
        exact notK same.symm
    · rintro rfl
      exact absurd beyond (Nat.not_le.mpr isAscii)

/-- A word of ASCII without a `k` is the lower case form of the texts that are it after the letters
of ASCII are lowered. -/
theorem lower_eq_iff {text word : String} (fromAscii : ∀ c ∈ word.toList, LowersFromAscii c) :
    lower text = word ↔ String.ofList (text.toList.map Char.toLower) = word := by
  rw [String.ext_iff, String.ext_iff, toList_lower, String.toList_ofList]
  generalize text.toList = text at *
  generalize word.toList = word at *
  induction text generalizing word with
  | nil => rfl
  | cons c text ih =>
    rcases word with _ | ⟨d, word⟩
    · rw [List.flatMap_cons, lowerChars]
      split <;> simp
    have d_fromAscii := fromAscii d List.mem_cons_self
    have word_fromAscii : ∀ c ∈ word, LowersFromAscii c := fun c mem =>
      fromAscii c (List.mem_cons_of_mem d mem)
    rw [List.flatMap_cons, List.map_cons, List.cons.injEq]
    by_cases dotted : c.toNat = 0x130
    · have beyond : 128 ≤ c.toNat := by omega
      rw [toLower_of_not_ascii beyond, lowerChars, if_pos (by simpa using dotted)]
      apply iff_of_false
      · intro same
        rcases List.cons.inj same with ⟨-, rfl⟩
        exact absurd (word_fromAscii (Char.ofNat 0x307) List.mem_cons_self) (by decide)
      · rintro ⟨rfl, -⟩
        exact absurd beyond (Nat.not_le.mpr d_fromAscii.2.1)
    · rw [lowerChars, if_neg (by simpa using dotted), List.singleton_append, List.cons.injEq,
        ofNat_lowerCode_eq_iff dotted d_fromAscii, ih word word_fromAscii]

end Markflow.Text
