import HopVault.Framework.Utf8
import Mathlib.Data.Nat.Digits.Defs

/-! # Decimal numerals

    Integers as decimal byte strings, and the numerals a strict parser
    takes: an optional sign and one or more digits. -/

namespace Framework.Decimal

/-- An ASCII digit. -/
def isDigit (b : UInt8) : Bool := decide (48 ≤ b.toNat ∧ b.toNat ≤ 57)

/-- The decimal digits of a natural number. -/
def digits (n : Nat) : Bytes := (Nat.toDigits 10 n).map fun c => UInt8.ofNat c.toNat

/-- The decimal numeral of an integer. -/
def itoa : Int → Bytes
  | .ofNat n => digits n
  | .negSucc n => 45 :: digits (n + 1)

/-- The number a string of digits stands for. -/
def value (s : Bytes) : Nat := s.foldl (fun a b => 10 * a + (b.toNat - 48)) 0

/-- The natural number of a non-empty string of digits. -/
def parseDigits (s : Bytes) : Option Nat :=
  if s ≠ [] ∧ s.all isDigit then some (value s) else none

/-- The integer of a numeral with an optional sign. -/
def parseInt : Bytes → Option Int
  | [] => none
  | b :: t =>
    if b = 45 then (parseDigits t).map fun n => -(n : Int)
    else if b = 43 then (parseDigits t).map fun n => (n : Int)
    else (parseDigits (b :: t)).map fun n => (n : Int)

/-! ## Round trip -/

theorem digit_range {c : Char} (h : c.isDigit = true) : 48 ≤ c.toNat ∧ c.toNat ≤ 57 := by
  simpa [Char.isDigit, UInt32.le_iff_toNat_le] using h

theorem toNat_digit {c : Char} (h : c.isDigit = true) : (UInt8.ofNat c.toNat).toNat = c.toNat := by
  have hr := digit_range h
  rw [UInt8.toNat_ofNat_of_lt' (by simp only [UInt8.size]; omega)]

/-- Every octet of a numeral is a digit. -/
theorem isDigit_of_mem_digits {n : Nat} {b : UInt8} (h : b ∈ digits n) : isDigit b = true := by
  obtain ⟨c, hc, rfl⟩ := List.mem_map.mp h
  have hd := Nat.isDigit_of_mem_toDigits (by decide) (by decide) hc
  have hr := digit_range hd
  simp only [isDigit, toNat_digit hd, decide_eq_true_eq]
  exact hr

@[simp] theorem digits_ne_nil (n : Nat) : digits n ≠ [] := by
  simp [digits]

theorem digits_of_lt {n : Nat} (h : n < 10) : digits n = [UInt8.ofNat (48 + n)] := by
  revert n
  decide

/-- A numeral of more than one digit is its quotient's and a last digit. -/
theorem digits_of_ge {n : Nat} (h : 10 ≤ n) :
    digits n = digits (n / 10) ++ [UInt8.ofNat (48 + n % 10)] := by
  have hlast : digits (n % 10) = [UInt8.ofNat (48 + n % 10)] := digits_of_lt (by omega)
  rw [← hlast]
  have happ := Nat.toDigits_append_toDigits (b := 10) (n := n / 10) (d := n % 10) (by decide)
    (by omega) (by omega)
  rw [show 10 * (n / 10) + n % 10 = n by omega] at happ
  unfold digits
  rw [← happ, List.map_append]

/-- Only zero's numeral starts with a zero. -/
theorem digits_head_ne {n : Nat} (h : 0 < n) : (digits n).head? ≠ some 48 := by
  induction n using Nat.strong_induction_on with
  | _ n ih =>
    by_cases hlt : n < 10
    · clear ih
      revert h
      revert n
      decide
    · have hq := ih (n / 10) (by omega) (by omega)
      obtain ⟨b, t, hb⟩ := List.exists_cons_of_ne_nil (digits_ne_nil (n / 10))
      rw [digits_of_ge (by omega)]
      rw [hb] at hq ⊢
      exact hq

theorem value_append (s : Bytes) (b : UInt8) : value (s ++ [b]) = 10 * value s + (b.toNat - 48) := by
  simp [value]

/-- **Round trip** for natural numbers. -/
@[simp] theorem value_digits (n : Nat) : value (digits n) = n := by
  induction n using Nat.strong_induction_on with
  | _ n ih =>
    by_cases h : n < 10
    · clear ih
      revert n
      decide
    · rw [digits_of_ge (by omega), value_append, ih (n / 10) (by omega)]
      have hmod : n % 10 < 10 := Nat.mod_lt _ (by decide)
      rw [UInt8.toNat_ofNat_of_lt' (by simp only [UInt8.size]; omega)]
      omega

theorem parseDigits_digits (n : Nat) : parseDigits (digits n) = some n := by
  have hall : (digits n).all isDigit = true :=
    List.all_eq_true.mpr fun b hb => isDigit_of_mem_digits hb
  simp [parseDigits, hall]

/-- **Round trip** for integers. -/
@[simp] theorem parseInt_itoa (i : Int) : parseInt (itoa i) = some i := by
  cases i with
  | negSucc n => simp [itoa, parseInt, parseDigits_digits, Int.negSucc_eq]
  | ofNat n =>
    obtain ⟨b, t, hb⟩ := List.exists_cons_of_ne_nil (digits_ne_nil n)
    have hdig : isDigit b = true := isDigit_of_mem_digits (n := n) (by rw [hb]; simp)
    have h45 : b ≠ 45 := by rintro rfl; revert hdig; decide
    have h43 : b ≠ 43 := by rintro rfl; revert hdig; decide
    have hp := parseDigits_digits n
    rw [hb] at hp
    simp [itoa, hb, parseInt, h45, h43, hp]

@[simp] theorem itoa_ne_nil (i : Int) : itoa i ≠ [] := by
  cases i <;> simp [itoa]

end Framework.Decimal
