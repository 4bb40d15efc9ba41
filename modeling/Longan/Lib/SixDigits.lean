/-
# Numbers as awk prints them

awk prints an integral number with all its digits and any other with the
format `%.6g` (`awkPrint`): rounded to six significant digits (`sixDigits`,
half to even), with an exponent when it is below `10 ^ -4` or has more than
six digits before the point, and without trailing zeros.

Rounding does not cross an integer of at most six digits (`le_sixValue`). What
is left of the print once the shell has cut it at the point is the integer
part of the rounded number (`arith_cut_fixed`) or, with an exponent, its first
digit (`arith_cut_exponent`), unless there is no point to cut at.
-/
import Mathlib.Data.Int.Log
import Mathlib.Data.Rat.Floor
import Mathlib.Algebra.Order.Floor.Semiring
import Mathlib.Tactic.Linarith
import Mathlib.Tactic.Positivity
import Mathlib.Tactic.NormNum
import Mathlib.Tactic.Ring
import Mathlib.Tactic.FieldSimp
import Longan.Lib.Numeral

namespace Longan
namespace Text

/-! ### Rounding -/

/-- The nearest natural number, the even one of two. -/
def roundHalfEven (q : ℚ) : ℕ :=
  if q - ⌊q⌋₊ < 1 / 2 then ⌊q⌋₊
  else if 1 / 2 < q - ⌊q⌋₊ then ⌊q⌋₊ + 1
  else if ⌊q⌋₊ % 2 = 0 then ⌊q⌋₊ else ⌊q⌋₊ + 1

theorem floor_le_round (q : ℚ) : ⌊q⌋₊ ≤ roundHalfEven q := by
  unfold roundHalfEven
  split_ifs <;> omega

theorem round_le_succ_floor (q : ℚ) : roundHalfEven q ≤ ⌊q⌋₊ + 1 := by
  unfold roundHalfEven
  split_ifs <;> omega

theorem le_round {k : ℕ} {q : ℚ} (h : (k : ℚ) ≤ q) : k ≤ roundHalfEven q :=
  (Nat.le_floor h).trans (floor_le_round q)

theorem round_le {k : ℕ} {q : ℚ} (hq : 0 ≤ q) (h : q ≤ k) : roundHalfEven q ≤ k := by
  rcases Nat.lt_or_ge ⌊q⌋₊ k with hl | hl
  · exact (round_le_succ_floor q).trans hl
  · have h1 : (k : ℚ) ≤ q := (Nat.cast_le.mpr hl).trans (Nat.floor_le hq)
    have h2 : q = k := le_antisymm h h1
    subst h2
    simp [roundHalfEven]

/-- The six significant digits of `q > 0` as a number, and the exponent of the
first of them. -/
def sixDigits (q : ℚ) : ℕ × ℤ :=
  let e := Int.log 10 q
  let n := roundHalfEven (q * 10 ^ (5 - e))
  if n = 10 ^ 6 then (10 ^ 5, e + 1) else (n, e)

/-- The rounded number. -/
def sixValue (q : ℚ) : ℚ := (sixDigits q).1 * 10 ^ ((sixDigits q).2 - 5)

theorem scaled_bounds {q : ℚ} (hq : 0 < q) :
    (10 : ℚ) ^ 5 ≤ q * 10 ^ (5 - Int.log 10 q) ∧ q * 10 ^ (5 - Int.log 10 q) ≤ (10 : ℚ) ^ 6 := by
  have h10 : (10 : ℚ) ≠ 0 := by norm_num
  have hlo : (10 : ℚ) ^ Int.log 10 q ≤ q := Int.zpow_log_le_self (by norm_num) hq
  have hhi : q < (10 : ℚ) ^ (Int.log 10 q + 1) := Int.lt_zpow_succ_log_self (by norm_num) q
  have hpos : (0 : ℚ) < 10 ^ (5 - Int.log 10 q) := zpow_pos (by norm_num) _
  have e1 : (10 : ℚ) ^ Int.log 10 q * 10 ^ (5 - Int.log 10 q) = 10 ^ 5 := by
    rw [← zpow_add₀ h10]
    norm_num
  have e2 : (10 : ℚ) ^ (Int.log 10 q + 1) * 10 ^ (5 - Int.log 10 q) = 10 ^ 6 := by
    rw [← zpow_add₀ h10, show Int.log 10 q + 1 + (5 - Int.log 10 q) = 6 by ring]
    norm_num
  exact ⟨e1 ▸ mul_le_mul_of_nonneg_right hlo hpos.le, e2 ▸ mul_le_mul_of_nonneg_right hhi.le hpos.le⟩

theorem round_bounds {q : ℚ} (hq : 0 < q) :
    10 ^ 5 ≤ roundHalfEven (q * 10 ^ (5 - Int.log 10 q)) ∧
      roundHalfEven (q * 10 ^ (5 - Int.log 10 q)) ≤ 10 ^ 6 := by
  obtain ⟨h1, h2⟩ := scaled_bounds hq
  exact ⟨le_round (by exact_mod_cast h1), round_le ((pow_nonneg (by norm_num) 5).trans h1) (by exact_mod_cast h2)⟩

theorem sixDigits_bounds {q : ℚ} (hq : 0 < q) :
    10 ^ 5 ≤ (sixDigits q).1 ∧ (sixDigits q).1 < 10 ^ 6 := by
  obtain ⟨h1, h2⟩ := round_bounds hq
  simp only [sixDigits]
  split_ifs
  · norm_num
  · exact ⟨h1, by simp only; omega⟩

/-- The exponent is that of `q`, or one more when rounding reached the next
power of 10. -/
theorem log_le_exponent (q : ℚ) :
    Int.log 10 q ≤ (sixDigits q).2 ∧ (sixDigits q).2 ≤ Int.log 10 q + 1 := by
  simp only [sixDigits]
  split_ifs <;> simp

theorem sixValue_eq (q : ℚ) :
    sixValue q = roundHalfEven (q * 10 ^ (5 - Int.log 10 q)) * 10 ^ (Int.log 10 q - 5) := by
  have h10 : (10 : ℚ) ≠ 0 := by norm_num
  simp only [sixValue, sixDigits]
  split_ifs with h
  · rw [h, show Int.log 10 q + 1 - 5 = (Int.log 10 q - 5) + 1 by ring, zpow_add_one₀ h10]
    push_cast
    ring
  · rfl

/-- Rounding stays on its side of an integer that six digits can write. -/
theorem le_sixValue {k : ℕ} {q : ℚ} (hk : (k : ℚ) ≤ q) (he : (sixDigits q).2 < 6) :
    (k : ℚ) ≤ sixValue q := by
  have h10 : (10 : ℚ) ≠ 0 := by norm_num
  obtain ⟨d, hd⟩ : ∃ d : ℕ, 5 - Int.log 10 q = d :=
    Int.eq_ofNat_of_zero_le (by have := (log_le_exponent q).1; omega)
  have hr : k * 10 ^ d ≤ roundHalfEven (q * 10 ^ (5 - Int.log 10 q)) := by
    apply le_round
    rw [hd, zpow_natCast]
    push_cast
    exact mul_le_mul_of_nonneg_right hk (by positivity)
  have hinv : (10 : ℚ) ^ d * 10 ^ (Int.log 10 q - 5) = 1 := by
    rw [← zpow_natCast, ← hd, ← zpow_add₀ h10]
    norm_num
  calc (k : ℚ) = k * (10 ^ d * 10 ^ (Int.log 10 q - 5)) := by rw [hinv, mul_one]
    _ = (k * 10 ^ d : ℕ) * 10 ^ (Int.log 10 q - 5) := by push_cast; ring
    _ ≤ roundHalfEven (q * 10 ^ (5 - Int.log 10 q)) * 10 ^ (Int.log 10 q - 5) :=
        mul_le_mul_of_nonneg_right (Nat.cast_le.mpr hr) (zpow_pos (by norm_num) _).le
    _ = sixValue q := (sixValue_eq q).symm

/-- A rounded number with six digits before the point was large. -/
theorem le_of_exponent {q : ℚ} (hq : 0 < q) (he : 6 ≤ (sixDigits q).2) : (10 : ℚ) ^ 5 ≤ q := by
  have h1 := (log_le_exponent q).2
  have h2 : (10 : ℚ) ^ Int.log 10 q ≤ q := Int.zpow_log_le_self (by norm_num) hq
  have h3 : (10 : ℚ) ^ (5 : ℤ) ≤ 10 ^ Int.log 10 q := zpow_le_zpow_right₀ (by norm_num) (by omega)
  calc (10 : ℚ) ^ 5 = 10 ^ (5 : ℤ) := by norm_num
    _ ≤ q := h3.trans h2

/-- A number rounded to a negative exponent was below 1, and still is. -/
theorem lt_one_of_exponent {q : ℚ} (hq : 0 < q) (he : (sixDigits q).2 < 0) :
    q < 1 ∧ sixValue q < 1 := by
  have h1 := (log_le_exponent q).1
  have h2 : q < (10 : ℚ) ^ (Int.log 10 q + 1) := Int.lt_zpow_succ_log_self (by norm_num) q
  have h3 : (10 : ℚ) ^ (Int.log 10 q + 1) ≤ 10 ^ (0 : ℤ) :=
    zpow_le_zpow_right₀ (by norm_num) (by omega)
  refine ⟨by simpa using h2.trans_le h3, ?_⟩
  have h4 : ((sixDigits q).1 : ℚ) < 10 ^ 6 := by exact_mod_cast (sixDigits_bounds hq).2
  have h5 : (10 : ℚ) ^ ((sixDigits q).2 - 5) ≤ 10 ^ (-6 : ℤ) :=
    zpow_le_zpow_right₀ (by norm_num) (by omega)
  have h6 : (0 : ℚ) < 10 ^ ((sixDigits q).2 - 5) := zpow_pos (by norm_num) _
  calc sixValue q < 10 ^ 6 * 10 ^ ((sixDigits q).2 - 5) := mul_lt_mul_of_pos_right h4 h6
    _ ≤ 10 ^ 6 * 10 ^ (-6 : ℤ) := mul_le_mul_of_nonneg_left h5 (by norm_num)
    _ = 1 := by norm_num

/-! ### Printing -/

/-- An integer part and the digits after the point, without trailing zeros and
without a point before nothing. -/
def withPoint (w : ℕ) (f : Text) : Text :=
  let f := f.rdropWhile (· = '0')
  if f = [] then decimal w else decimal w ++ '.' :: f

/-- `%.6g` of `q > 0`. -/
def sixG (q : ℚ) : Text :=
  let n := (sixDigits q).1
  let e := (sixDigits q).2
  if -4 ≤ e ∧ e < 6 then
    let d := (5 - e).toNat
    withPoint (n / 10 ^ d) (pad d (n % 10 ^ d))
  else
    withPoint (n / 10 ^ 5) (pad 5 (n % 10 ^ 5)) ++ 'e' :: (if e < 0 then '-' else '+') ::
      pad 2 e.natAbs

/-- awk's `print` of a number that is not negative. -/
def awkPrint (q : ℚ) : Text := if q.den = 1 then decimal q.num.toNat else sixG q

theorem number_of_zeros {t : Text} (h : ∀ c ∈ t, c = '0') : number t = 0 := by
  rw [number, List.eq_replicate_of_mem h, Nat.ofDigitChars_replicate_zero, Nat.mul_zero]

/-- The trailing zeros are all of it just for 0. -/
theorem strip_pad (k n : ℕ) : (pad k n).rdropWhile (· = '0') = [] ↔ n = 0 := by
  rw [List.rdropWhile_eq_nil_iff]
  constructor
  · intro h
    rw [← number_pad k n]
    exact number_of_zeros fun c hc => by simpa using h c hc
  · rintro rfl c hc
    simp only [pad, List.mem_append, List.mem_replicate] at hc
    rcases hc with ⟨-, rfl⟩ | hc
    · rfl
    · have h0 : decimal 0 = ['0'] := rfl
      simpa [h0] using hc

theorem cut_withPoint (w : ℕ) {f s : Text} (hf : '.' ∉ f) (hs : '.' ∉ s) :
    beforeLast '.' (withPoint w f ++ s) =
      if f.rdropWhile (· = '0') = [] then decimal w ++ s else decimal w := by
  simp only [withPoint]
  split_ifs
  · apply beforeLast_of_not_mem
    simpa using ⟨not_mem_decimal (by decide) w, hs⟩
  · rw [List.append_assoc, List.cons_append]
    apply beforeLast_append _
    simp only [List.mem_append, not_or]
    exact ⟨fun h => hf ((List.rdropWhile_prefix _ _).subset h), hs⟩

/-- Without an exponent, the integer part of the rounded number is read. -/
theorem arith_cut_fixed {q : ℚ} (he : -4 ≤ (sixDigits q).2 ∧ (sixDigits q).2 < 6) :
    arith (beforeLast '.' (sixG q)) =
      some (int64 ((sixDigits q).1 / 10 ^ (5 - (sixDigits q).2).toNat : ℕ)) := by
  simp only [sixG, if_pos he]
  have h := cut_withPoint ((sixDigits q).1 / 10 ^ (5 - (sixDigits q).2).toNat)
    (not_mem_pad (c := '.') (by decide) (5 - (sixDigits q).2).toNat
      ((sixDigits q).1 % 10 ^ (5 - (sixDigits q).2).toNat)) (List.not_mem_nil (a := '.'))
  rw [List.append_nil, List.append_nil, ite_self] at h
  rw [h, arith_decimal]

/-- With an exponent, the first digit is read, or nothing when there is no
other. -/
theorem arith_cut_exponent {q : ℚ} (he : ¬ (-4 ≤ (sixDigits q).2 ∧ (sixDigits q).2 < 6)) :
    arith (beforeLast '.' (sixG q)) =
      if (sixDigits q).1 % 10 ^ 5 = 0 then none else some (int64 ((sixDigits q).1 / 10 ^ 5 : ℕ)) := by
  simp only [sixG, if_neg he]
  have hs : '.' ∉ ('e' :: (if (sixDigits q).2 < 0 then '-' else '+') ::
      pad 2 (sixDigits q).2.natAbs) := by
    simp only [List.mem_cons, not_or]
    refine ⟨by decide, by split_ifs <;> decide, not_mem_pad (by decide) _ _⟩
  rw [cut_withPoint _ (not_mem_pad (by decide) _ _) hs]
  simp only [strip_pad]
  by_cases h0 : (sixDigits q).1 % 10 ^ 5 = 0
  · rw [if_pos h0, if_pos h0]
    exact arith_of_not_digit (List.mem_append_right _ List.mem_cons_self) (by decide)
  · rw [if_neg h0, if_neg h0, arith_decimal]

/-- An integral number has no point. -/
theorem arith_cut_integral {q : ℚ} (h : q.den = 1) :
    arith (beforeLast '.' (awkPrint q)) = some (int64 q.num.toNat) := by
  rw [awkPrint, if_pos h, beforeLast_of_not_mem (not_mem_decimal (by decide) _), arith_decimal]

end Text
end Longan
