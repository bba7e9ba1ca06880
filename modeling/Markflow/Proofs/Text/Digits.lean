import Markflow.Text.Digit

/-!
# Decimal numbers

The decimal digits of a number denote the number again, and every run of decimal digits, of whatever
script, can be read as a number (`readDecimal?_eq_some`).
-/

namespace Markflow.Text

theorem isAsciiDigit_iff {c : Char} : c.isDigit = true ↔ 48 ≤ c.toNat ∧ c.toNat ≤ 57 := by
  simp [Char.isDigit, UInt32.le_iff_toNat_le, ← Char.toNat_val]

theorem digitValue?_of_isDigit {c : Char} (digit : c.isDigit = true) :
    digitValue? c = some (c.toNat - '0'.toNat) := by
  have range := isAsciiDigit_iff.mp digit
  have small : (c.toNat - 48) % 10 = c.toNat - 48 := Nat.mod_eq_of_lt (by omega)
  simp [digitValue?, digitRanges, range.1, range.2, small]

theorem isDigit_of_isDigit {c : Char} (digit : c.isDigit = true) : isDigit c = true := by
  have range := isAsciiDigit_iff.mp digit
  have ascii : c.toNat < 128 := by omega
  rw [isDigit, if_pos ascii, digit]

theorem digitsValue_toDigits (n : Nat) : digitsValue (Nat.toDigits 10 n) = n := by
  have same : ∀ (digits : List Char) (value : Nat), (∀ c ∈ digits, c.isDigit = true) →
      digits.foldl (fun value c => value * 10 + (digitValue? c).getD 0) value =
        Nat.ofDigitChars 10 digits value := by
    intro digits value all
    induction digits generalizing value with
    | nil => rfl
    | cons c digits ih =>
      rw [List.foldl_cons, ih _ fun d mem => all d (by simp [mem]),
        digitValue?_of_isDigit (all c (by simp)), Nat.ofDigitChars_cons, Nat.mul_comm,
        Option.getD_some]
  rw [digitsValue, same _ _ fun c mem => Nat.isDigit_of_mem_toDigits (by decide) (by decide) mem,
    Nat.ofDigitChars_ten_toDigits]

theorem not_mem_toDigits {c : Char} (other : c.isDigit = false) (n : Nat) :
    c ∉ Nat.toDigits 10 n := by
  intro mem
  rw [Nat.isDigit_of_mem_toDigits (by decide) (by decide) mem] at other
  cases other

/-- The number that decimal digits denote.  There has to be a digit, and nothing but digits. -/
def readDecimal? : List Char → Option Nat
  | [] => none
  | digits => digits.foldlM (fun value c => (digitValue? c).map (value * 10 + ·)) 0

theorem exists_digitValue? {c : Char} (digit : isDigit c = true) :
    ∃ value, digitValue? c = some value := by
  unfold isDigit at digit
  split at digit
  · exact ⟨_, digitValue?_of_isDigit digit⟩
  · exact Option.isSome_iff_exists.mp digit

theorem readDecimal?_eq_some {digits : List Char} (digits_ne : digits ≠ [])
    (digits_all : ∀ c ∈ digits, isDigit c = true) :
    readDecimal? digits = some (digitsValue digits) := by
  have reads : ∀ (digits : List Char) (value : Nat), (∀ c ∈ digits, isDigit c = true) →
      digits.foldlM (fun value c => (digitValue? c).map (value * 10 + ·)) value =
        some (digits.foldl (fun value c => value * 10 + (digitValue? c).getD 0) value) := by
    intro digits value all
    induction digits generalizing value with
    | nil => rfl
    | cons c digits ih =>
      obtain ⟨d, value_eq⟩ := exists_digitValue? (all c (by simp))
      rw [List.foldlM_cons, value_eq, List.foldl_cons, value_eq]
      exact ih _ fun c mem => all c (by simp [mem])
  obtain ⟨c, more, rfl⟩ := List.exists_cons_of_ne_nil digits_ne
  exact reads _ 0 digits_all

end Markflow.Text
