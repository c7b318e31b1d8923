import Mathlib.Data.List.TakeWhile
import Mathlib.Data.Nat.Notation

/-!
# Decimal numerals

Words as lists of characters, and the numbers they write. `value` reads a word of digits, of any
length and with any number of zeros in front; `Nat.toDigits` prints the numeral without such zeros.
`toDigits_value` says that the printed numerals are the canonical ones: printing the value of one
gives it back.

A reader that stops at the first character it does not know sees the `leading` digits of a word.
-/

namespace Decimal

/-- The number a word of digits writes. -/
def value (w : List Char) : ℕ := Nat.ofDigitChars 10 w 0

/-- The digits a word begins with. -/
def leading (w : List Char) : List Char := w.takeWhile Char.isDigit

/-- At least one digit, and nothing else. -/
def Numeral (w : List Char) : Prop := w ≠ [] ∧ ∀ c ∈ w, c.isDigit = true

/-- Zero is the only numeral that begins with a zero. -/
def NoLeadingZero (w : List Char) : Prop := w.head? = some '0' → w = ['0']

instance (w : List Char) : Decidable (Numeral w) :=
  haveI := List.decidableBAll (fun c : Char => c.isDigit = true) w
  instDecidableAnd

instance (w : List Char) : Decidable (NoLeadingZero w) := inferInstanceAs (Decidable (_ → _))

variable {c : Char} {w : List Char}

theorem toNat_of_isDigit (h : c.isDigit = true) : 48 ≤ c.toNat ∧ c.toNat ≤ 57 :=
  Char.isDigit_iff_toNat.mp h

theorem digitChar_of_isDigit (h : c.isDigit = true) : Nat.digitChar (c.toNat - 48) = c := by
  have hc := toNat_of_isDigit h
  apply Char.toNat_inj.mp
  rw [Nat.toNat_digitChar_of_lt_ten (by omega)]
  omega

/-- A numeral consists of its leading digits. -/
theorem Numeral.leading_eq (h : Numeral w) : leading w = w :=
  List.takeWhile_eq_self_iff.mpr h.2

theorem numeral_toDigits (n : ℕ) : Numeral (Nat.toDigits 10 n) :=
  ⟨Nat.toDigits_ne_nil, fun _ hc => Nat.isDigit_of_mem_toDigits (by decide) (by decide) hc⟩

@[simp] theorem value_toDigits (n : ℕ) : value (Nat.toDigits 10 n) = n :=
  Nat.ofDigitChars_ten_toDigits

/-- More digits behind a number that is not zero. -/
theorem toDigits_append {n : ℕ} (hn : 0 < n) (h : ∀ c ∈ w, c.isDigit = true) :
    Nat.toDigits 10 n ++ w = Nat.toDigits 10 (Nat.ofDigitChars 10 w n) := by
  induction w generalizing n with
  | nil => simp
  | cons c w ih =>
    have hc := h c List.mem_cons_self
    have hle := toNat_of_isDigit hc
    have hd : c.toNat - 48 < 10 := by omega
    have hnext : Nat.toDigits 10 n ++ [c] = Nat.toDigits 10 (10 * n + (c.toNat - 48)) := by
      rw [← Nat.toDigits_append_toDigits (by decide) hn hd, Nat.toDigits_of_lt_base hd,
        digitChar_of_isDigit hc]
    rw [Nat.ofDigitChars_cons]
    refine Eq.trans ?_ (ih (by omega) fun d hd => h d (List.mem_cons_of_mem _ hd))
    refine Eq.trans ?_ (congrArg (· ++ w) hnext)
    simp

/-- **Canonical numerals** are what printing their value yields. -/
theorem toDigits_value (h : Numeral w) (hz : NoLeadingZero w) : Nat.toDigits 10 (value w) = w := by
  cases w with
  | nil => exact absurd rfl h.1
  | cons c w =>
    have hc := h.2 c List.mem_cons_self
    have hle := toNat_of_isDigit hc
    by_cases hzero : c = '0'
    · have hw : c :: w = ['0'] := hz (by rw [hzero]; rfl)
      rw [hw]
      decide
    · have hpos : 0 < c.toNat - 48 := by
        have hne : c.toNat ≠ 48 := fun heq => hzero (Char.toNat_inj.mp heq)
        omega
      have hd : c.toNat - 48 < 10 := by omega
      rw [value, Nat.ofDigitChars_cons, Nat.mul_zero, Nat.zero_add]
      refine (toDigits_append hpos fun d hd => h.2 d (List.mem_cons_of_mem _ hd)).symm.trans ?_
      rw [Nat.toDigits_of_lt_base hd, digitChar_of_isDigit hc]
      rfl

end Decimal
