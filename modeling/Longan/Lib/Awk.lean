/-
# Numbers that awk reads

`awkNum` is the number awk reads at the start of a text: an optional sign,
digits with a point among them, an optional exponent; 0 where there is none.
On a plain decimal it is the decimal's value (`awkNum_text`). `awkSum` and
`awkMean` are `{s += $n}` over the lines and the sum divided by their number;
they do not depend on the order of the lines (`awkSum_perm`). awk's own
arithmetic rounds each number that it reads and each result (`roundedMean`).
-/
import Mathlib.Algebra.BigOperators.Group.List.Basic
import Mathlib.Algebra.Order.Field.Basic
import Mathlib.Data.Char
import Mathlib.Data.List.Lex
import Mathlib.Data.List.Sort
import Mathlib.Data.Rat.Floor
import Mathlib.Tactic.Linarith
import Mathlib.Algebra.Order.Ring.Rat
import Mathlib.Algebra.Field.Rat
import Mathlib.Tactic.Positivity
import Mathlib.Tactic.Ring
import Mathlib.Tactic.FieldSimp
import Mathlib.Tactic.NormNum
import Longan.Lib.Numeral

namespace Longan
namespace Text

/-- The digits a text starts with. -/
def digits (t : Text) : Text := t.takeWhile Char.isDigit

/-- The power of 10 that an exponent at the start of the text denotes. -/
def awkExponent : Text → ℚ
  | [] => 1
  | c :: r =>
    if c = 'e' ∨ c = 'E' then
      match r with
      | '-' :: d => (10 ^ number (digits d))⁻¹
      | '+' :: d => 10 ^ number (digits d)
      | d => 10 ^ number (digits d)
    else 1

/-- An unsigned number at the start of a text. -/
def awkUnsigned (t : Text) : ℚ :=
  match t.dropWhile Char.isDigit with
  | '.' :: r =>
    number (digits t ++ digits r) / 10 ^ (digits r).length * awkExponent (r.dropWhile Char.isDigit)
  | r => number (digits t) * awkExponent r

/-- The number awk reads from a text. -/
def awkNum (t : Text) : ℚ :=
  match t.dropWhile isBlank with
  | '-' :: r => -awkUnsigned r
  | '+' :: r => awkUnsigned r
  | r => awkUnsigned r

/-- A decimal without sign or exponent. -/
structure Decimal where
  whole : Text
  frac : Text
  whole_ne : whole ≠ []
  whole_digits : ∀ c ∈ whole, c.isDigit = true
  frac_digits : ∀ c ∈ frac, c.isDigit = true

namespace Decimal

variable (d : Decimal)

def text : Text := if d.frac = [] then d.whole else d.whole ++ '.' :: d.frac

def value : ℚ := number d.whole + number d.frac / 10 ^ d.frac.length

theorem value_nonneg : 0 ≤ d.value := by
  unfold value
  positivity

theorem mem_text {c : Char} (h : c ∈ d.text) : c.isDigit = true ∨ c = '.' := by
  unfold text at h
  split_ifs at h
  · exact .inl (d.whole_digits c h)
  · rcases List.mem_append.mp h with h | h
    · exact .inl (d.whole_digits c h)
    · rcases List.mem_cons.mp h with h | h
      · exact .inr h
      · exact .inl (d.frac_digits c h)

theorem isWord_text : IsWord d.text := by
  refine ⟨?_, fun c hc => ?_⟩
  · unfold text
    split_ifs
    · exact d.whole_ne
    · simp
  · rcases d.mem_text hc with h | rfl
    · exact not_isBlank_of_isDigit h
    · decide

end Decimal

theorem digits_append {w : Text} (hw : ∀ c ∈ w, c.isDigit = true) {c : Char}
    (hc : c.isDigit = false) (r : Text) :
    digits (w ++ c :: r) = w ∧ (w ++ c :: r).dropWhile Char.isDigit = c :: r := by
  constructor
  · rw [digits, List.takeWhile_append_of_pos hw, List.takeWhile_cons_of_neg (by simp [hc]),
      List.append_nil]
  · rw [List.dropWhile_append_of_pos hw, List.dropWhile_cons_of_neg (by simp [hc])]

theorem digits_self {w : Text} (hw : ∀ c ∈ w, c.isDigit = true) :
    digits w = w ∧ w.dropWhile Char.isDigit = [] :=
  ⟨List.takeWhile_eq_self_iff.mpr hw, List.dropWhile_eq_nil_iff.mpr hw⟩

theorem number_append (w f : Text) : number (w ++ f) = 10 ^ f.length * number w + number f := by
  rw [number, Nat.ofDigitChars_append, Nat.ofDigitChars_eq_ofDigitChars_zero]
  rfl

theorem number_lt : ∀ {f : Text}, (∀ c ∈ f, c.isDigit = true) → number f < 10 ^ f.length
  | [], _ => by decide
  | c :: f, h => by
    have ih := number_lt fun x hx => h x (List.mem_cons_of_mem c hx)
    have hc : number [c] ≤ 9 := by
      have hd := h c List.mem_cons_self
      simp only [Char.isDigit, Bool.and_eq_true, decide_eq_true_eq] at hd
      have h9 : c.toNat ≤ 57 := hd.2
      show 10 * 0 + (c.toNat - 48) ≤ 9
      omega
    have hcons : number (c :: f) = 10 ^ f.length * number [c] + number f := number_append [c] f
    rw [hcons, List.length_cons, Nat.pow_succ]
    have hmul := Nat.mul_le_mul_left (10 ^ f.length) hc
    omega

theorem awkUnsigned_text (d : Decimal) : awkUnsigned d.text = d.value := by
  unfold Decimal.text Decimal.value awkUnsigned
  split_ifs with hf
  · obtain ⟨h1, h2⟩ := digits_self d.whole_digits
    rw [h2]
    simp [h1, hf, awkExponent, number]
  · obtain ⟨h1, h2⟩ := digits_append d.whole_digits (c := '.') (by decide) d.frac
    obtain ⟨h3, h4⟩ := digits_self d.frac_digits
    rw [h2]
    simp only [h1, h3, h4, awkExponent, number_append]
    push_cast
    field_simp

/-- awk reads a decimal as its value. -/
theorem awkNum_text (d : Decimal) : awkNum d.text = d.value := by
  -- the text starts with a digit, so with no blank and no sign
  obtain ⟨c, t, hct⟩ := List.exists_cons_of_ne_nil d.isWord_text.1
  have hc : c.isDigit = true := by
    obtain ⟨x, w, hw⟩ := List.exists_cons_of_ne_nil d.whole_ne
    have hx := d.whole_digits x (by rw [hw]; exact List.mem_cons_self)
    have : c = x := by
      unfold Decimal.text at hct
      rw [hw] at hct
      split_ifs at hct <;> simp at hct <;> exact hct.1.symm
    rwa [this]
  have hb : d.text.dropWhile isBlank = d.text := by
    rw [hct, List.dropWhile_cons_of_neg (by simp [not_isBlank_of_isDigit hc])]
  unfold awkNum
  rw [hb]
  split
  · rename_i r he
    rw [hct] at he
    cases he
    exact absurd hc (by decide)
  · rename_i r he
    rw [hct] at he
    cases he
    exact absurd hc (by decide)
  · exact awkUnsigned_text d

/-- `{s += $n} END {print s}`, before printing. -/
def awkSum (n : ℕ) (ls : List Text) : ℚ := (ls.map fun l => awkNum (field n l)).sum

/-- The sum divided by the number of lines. -/
def awkMean (n : ℕ) (ls : List Text) : ℚ := awkSum n ls / ls.length

/-- The same, with each number read and each result rounded. -/
def roundedSum (round : ℚ → ℚ) (n : ℕ) (ls : List Text) : ℚ :=
  ls.foldl (fun s l => round (s + round (awkNum (field n l)))) 0

def roundedMean (round : ℚ → ℚ) (n : ℕ) (ls : List Text) : ℚ :=
  round (roundedSum round n ls / ls.length)

/-- Without rounding it is the mean. -/
theorem roundedMean_id (n : ℕ) (ls : List Text) : roundedMean id n ls = awkMean n ls := by
  have hsum : ∀ (ls : List Text) (s : ℚ),
      ls.foldl (fun s l => s + awkNum (field n l)) s = s + awkSum n ls := by
    intro ls
    induction ls with
    | nil => intro s; simp [awkSum]
    | cons l ls ih => intro s; rw [List.foldl_cons, ih]; simp [awkSum, add_assoc]
  have h := hsum ls 0
  rw [zero_add] at h
  show ls.foldl (fun s l => s + awkNum (field n l)) 0 / (ls.length : ℚ) = _
  rw [h, awkMean]

theorem awkSum_perm {n : ℕ} {ls ls' : List Text} (h : ls.Perm ls') : awkSum n ls = awkSum n ls' :=
  (h.map _).sum_eq

theorem awkMean_perm {n : ℕ} {ls ls' : List Text} (h : ls.Perm ls') :
    awkMean n ls = awkMean n ls' := by
  rw [awkMean, awkMean, awkSum_perm h, h.length_eq]

/-- `int(q)`: the fraction goes. -/
def awkInt (q : ℚ) : ℤ := if 0 ≤ q then ⌊q⌋ else ⌈q⌉

/-- Whether it is above a bound that is not negative, the floor tells. -/
theorem lt_awkInt_mul {q : ℚ} {a b : ℤ} (ha : 0 < a) (hb : 0 ≤ b) :
    b < awkInt q * a ↔ b < ⌊q⌋ * a := by
  unfold awkInt
  split_ifs with h
  · rfl
  · have h1 : ⌈q⌉ ≤ 0 := Int.ceil_le.mpr (by push_cast; linarith)
    have h2 : ⌊q⌋ ≤ 0 := (Int.floor_le_ceil q).trans h1
    exact ⟨fun h => absurd h (by nlinarith), fun h => absurd h (by nlinarith)⟩

/-- `sort`: the lines in the order of their characters. -/
def sort (ls : List Text) : List Text := ls.insertionSort (· ≤ ·)

theorem sort_perm (ls : List Text) : (sort ls).Perm ls := List.perm_insertionSort _ _

end Text
end Longan
