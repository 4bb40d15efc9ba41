/-
# Numerals

Natural numbers in decimal (`decimal`), and what the shell's arithmetic reads
from a text that stands where it expects a number (`arith`): decimal digits,
octal ones after a leading `0`, in 64-bit two's complement. A number it
printed below `2 ^ 63` it reads back (`arith_decimal`).
-/
import Mathlib.Tactic.IntervalCases
import Longan.Lib.Text

namespace Longan
namespace Text

/-- `n` in decimal. -/
def decimal (n : ℕ) : Text := Nat.toDigits 10 n

/-- The number that digits denote in base 10. -/
def number (t : Text) : ℕ := Nat.ofDigitChars 10 t 0

/-- The 64-bit integer an integer wraps to. -/
def int64 (n : ℤ) : ℤ := n.bmod (2 ^ 64)

/-- The shell's reading of an integer literal: base 8 after a leading `0`,
else base 10, wrapped to 64 bits; `none` for any other text. -/
def arith (t : Text) : Option ℤ :=
  if t ≠ [] ∧ t.all Char.isDigit then
    match t with
    | '0' :: d :: r =>
      if (d :: r).all (fun c => decide (c < '8')) then some (int64 (Nat.ofDigitChars 8 (d :: r) 0))
      else none
    | _ => some (int64 (number t))
  else none

theorem number_decimal (n : ℕ) : number (decimal n) = n := Nat.ofDigitChars_ten_toDigits

theorem decimal_ne_nil (n : ℕ) : decimal n ≠ [] := Nat.toDigits_ne_nil

theorem isDigit_of_mem_decimal {n : ℕ} {c : Char} (h : c ∈ decimal n) : c.isDigit = true :=
  Nat.isDigit_of_mem_toDigits (by decide) (by decide) h

theorem not_isBlank_of_isDigit {c : Char} (h : c.isDigit = true) : isBlank c = false := by
  simp only [isBlank, decide_eq_false_iff_not, not_or]
  refine ⟨?_, ?_, ?_⟩ <;> rintro rfl <;> exact absurd h (by decide)

theorem isWord_decimal (n : ℕ) : IsWord (decimal n) :=
  ⟨decimal_ne_nil n, fun _ hc => not_isBlank_of_isDigit (isDigit_of_mem_decimal hc)⟩

theorem not_mem_decimal {c : Char} (h : c.isDigit = false) (n : ℕ) : c ∉ decimal n := fun hc => by
  rw [isDigit_of_mem_decimal hc] at h
  exact absurd h (by decide)

/-- Only 0 starts with a `0`. -/
theorem decimal_head {n : ℕ} (h : 0 < n) : (decimal n).head? ≠ some '0' := by
  induction n using Nat.strong_induction_on with
  | _ n ih =>
    by_cases hn : n < 10
    · rw [decimal, Nat.toDigits_of_lt_base hn]
      interval_cases n <;> decide
    · have hd := Nat.toDigits_append_toDigits (b := 10) (n := n / 10) (d := n % 10) (by decide)
        (by omega) (by omega)
      rw [Nat.div_add_mod] at hd
      have ih' := ih (n / 10) (by omega) (by omega)
      rw [decimal, ← hd, List.head?_append_of_ne_nil _ Nat.toDigits_ne_nil]
      exact ih'

theorem arith_decimal (n : ℕ) : arith (decimal n) = some (int64 n) := by
  have hall : (decimal n).all Char.isDigit = true :=
    List.all_eq_true.mpr fun c hc => isDigit_of_mem_decimal hc
  unfold arith
  rw [if_pos ⟨decimal_ne_nil n, hall⟩]
  rcases Nat.eq_zero_or_pos n with rfl | hn
  · rfl
  · have hh := decimal_head hn
    split
    · rename_i d r he
      rw [he] at hh
      exact absurd rfl hh
    · rw [number_decimal]

theorem arith_of_not_digit {t : Text} {c : Char} (hc : c ∈ t) (h : c.isDigit = false) :
    arith t = none := by
  unfold arith
  rw [if_neg]
  rintro ⟨-, hall⟩
  have := List.all_eq_true.mp hall c hc
  rw [h] at this
  exact absurd this (by decide)

theorem int64_of_lt {n : ℕ} (h : n < 2 ^ 63) : int64 n = n := by
  unfold int64
  rw [Int.bmod_eq_of_le] <;> omega

/-- `%0kd`. -/
def pad (k n : ℕ) : Text := List.replicate (k - (decimal n).length) '0' ++ decimal n

theorem not_mem_pad {c : Char} (h : c.isDigit = false) (k n : ℕ) : c ∉ pad k n := by
  simp only [pad, List.mem_append, List.mem_replicate, not_or, not_and]
  refine ⟨fun _ hc => ?_, not_mem_decimal h n⟩
  rw [hc] at h
  exact absurd h (by decide)

theorem number_pad (k n : ℕ) : number (pad k n) = n := by
  rw [number, pad, Nat.ofDigitChars_append, Nat.ofDigitChars_replicate_zero, Nat.mul_zero]
  exact number_decimal n

/-- An integer as it is printed. -/
def intText (z : ℤ) : Text := if z < 0 then '-' :: decimal z.natAbs else decimal z.natAbs

/-- The digits of a text that has only digits. -/
def allDigits (t : Text) : Option ℕ := if t ≠ [] ∧ t.all Char.isDigit then some (number t) else none

/-- An integer read back: digits, perhaps after a minus sign. -/
def readInt : Text → Option ℤ
  | '-' :: t => (allDigits t).map fun n : ℕ => -(n : ℤ)
  | t => (allDigits t).map Nat.cast

theorem allDigits_decimal (n : ℕ) : allDigits (decimal n) = some n := by
  have hall : (decimal n).all Char.isDigit = true :=
    List.all_eq_true.mpr fun c hc => isDigit_of_mem_decimal hc
  rw [allDigits, if_pos ⟨decimal_ne_nil n, hall⟩, number_decimal]

theorem readInt_intText (z : ℤ) : readInt (intText z) = some z := by
  unfold intText
  split_ifs with h
  · rw [readInt, allDigits_decimal, Option.map_some]
    exact congrArg some (by omega)
  · unfold readInt
    split
    · rename_i t ht
      exact absurd (ht ▸ List.mem_cons_self) (not_mem_decimal (by decide) _)
    · rw [allDigits_decimal, Option.map_some]
      exact congrArg some (by omega)

end Text
end Longan
