/-
# Numbers in hexadecimal

`hex` is what `0x%x` prints, and `strtoul` what the C function of that name
makes of a whole word when it is left to find the base: blanks and a sign, then
`0x` for base 16, a `0` for base 8, or base 10. A number that was printed is
read back (`strtoul_hex`).
-/
import Mathlib.Tactic.IntervalCases
import Longan.Lib.Numeral

namespace Longan
namespace Text

/-- `n` with its `0x`. -/
def hex (n : ℕ) : Text := '0' :: 'x' :: Nat.toDigits 16 n

def digitValue (c : Char) : Option ℕ :=
  if '0' ≤ c ∧ c ≤ '9' then some (c.toNat - 48)
  else if 'a' ≤ c ∧ c ≤ 'f' then some (c.toNat - 87)
  else if 'A' ≤ c ∧ c ≤ 'F' then some (c.toNat - 55)
  else none

/-- The digits of a base, all of them. -/
def readDigits (b : ℕ) : ℕ → Text → Option ℕ
  | acc, [] => some acc
  | acc, c :: cs =>
    match digitValue c with
    | some d => if d < b then readDigits b (b * acc + d) cs else none
    | none => none

/-- The digits after the sign. -/
def unsigned : Text → Option ℕ
  | [] => none
  | '0' :: 'x' :: t => if t = [] then none else readDigits 16 0 t
  | '0' :: 'X' :: t => if t = [] then none else readDigits 16 0 t
  | '0' :: t => readDigits 8 0 ('0' :: t)
  | t => readDigits 10 0 t

/-- What `isspace` says. -/
def isSpace (c : Char) : Bool := isBlank c || c == '\x0b' || c == '\x0c' || c == '\r'

/-- `strtoul(t, &end, 0)` where `*end` has to be the end of the word. -/
def strtoul (t : Text) : Option ℕ :=
  match t.dropWhile isSpace with
  | '+' :: r => (unsigned r).map (min (2 ^ 64 - 1))
  | '-' :: r => (unsigned r).map fun n => if 2 ^ 64 ≤ n then 2 ^ 64 - 1 else (2 ^ 64 - n) % 2 ^ 64
  | r => (unsigned r).map (min (2 ^ 64 - 1))

theorem readDigits_append (b : ℕ) : ∀ (u v : Text) (acc : ℕ),
    readDigits b acc (u ++ v) = (readDigits b acc u).bind fun n => readDigits b n v
  | [], _, _ => rfl
  | c :: u, v, acc => by
    rw [List.cons_append, readDigits, readDigits]
    cases digitValue c with
    | none => rfl
    | some d =>
      by_cases h : d < b
      · simp only [if_pos h]
        exact readDigits_append b u v _
      · simp only [if_neg h]
        rfl

theorem digitValue_digitChar {d : ℕ} (h : d < 16) : digitValue d.digitChar = some d := by
  interval_cases d <;> decide

theorem readDigits_toDigits (n : ℕ) : readDigits 16 0 (Nat.toDigits 16 n) = some n := by
  induction n using Nat.strong_induction_on with
  | _ n ih =>
    by_cases hn : n < 16
    · rw [Nat.toDigits_of_lt_base hn, readDigits, digitValue_digitChar hn]
      simp only [if_pos hn, readDigits]
      simp
    · have hd : n % 16 < 16 := Nat.mod_lt _ (by decide)
      rw [Nat.toDigits_of_base_le (by decide) (by omega), readDigits_append,
        ih (n / 16) (by omega), Option.bind_some, readDigits, digitValue_digitChar hd]
      simp only [if_pos hd, readDigits]
      congr 1
      omega

theorem strtoul_hex {n : ℕ} (h : n < 2 ^ 64) : strtoul (hex n) = some n := by
  have h1 : (hex n).dropWhile isSpace = hex n := by
    rw [hex, List.dropWhile_cons_of_neg (by decide)]
  unfold strtoul
  rw [h1]
  show (unsigned (hex n)).map (min (2 ^ 64 - 1)) = some n
  have h2 : unsigned (hex n) = some n := by
    show (if Nat.toDigits 16 n = [] then none else readDigits 16 0 (Nat.toDigits 16 n)) = some n
    rw [if_neg Nat.toDigits_ne_nil, readDigits_toDigits]
  rw [h2, Option.map_some]
  congr 1
  omega

/-- What holds of the sixteen digits holds of each digit of a number. -/
theorem forall_mem_toDigits {P : Char → Prop} (hdigit : ∀ d < 16, P (Nat.digitChar d)) (n : ℕ) :
    ∀ c ∈ Nat.toDigits 16 n, P c := by
  induction n using Nat.strong_induction_on with
  | _ n ih =>
    intro c hc
    by_cases hn : n < 16
    · rw [Nat.toDigits_of_lt_base hn, List.mem_singleton] at hc
      exact hc ▸ hdigit n hn
    · rw [Nat.toDigits_of_base_le (by decide) (by omega), List.mem_append,
        List.mem_singleton] at hc
      rcases hc with hc | hc
      · exact ih (n / 16) (by omega) c hc
      · exact hc ▸ hdigit _ (Nat.mod_lt _ (by decide))

/-- There is no blank in a number. -/
theorem isBlank_of_mem_toDigits (n : ℕ) : ∀ c ∈ Nat.toDigits 16 n, isBlank c = false :=
  forall_mem_toDigits (fun d hd => by interval_cases d <;> decide) n

theorem isWord_hex (n : ℕ) : IsWord (hex n) := by
  refine ⟨List.cons_ne_nil _ _, fun c hc => ?_⟩
  rw [hex, List.mem_cons, List.mem_cons] at hc
  rcases hc with rfl | rfl | hc
  · decide
  · decide
  · exact isBlank_of_mem_toDigits n c hc

/-- A 32-bit word takes ten characters at most. -/
theorem length_hex_le {n : ℕ} (h : n < 2 ^ 32) : (hex n).length ≤ 10 := by
  have h1 : (Nat.toDigits 16 n).length ≤ 8 := (Nat.length_toDigits_le_iff (by decide) (by decide)).mpr h
  rw [hex, List.length_cons, List.length_cons]
  omega

end Text
end Longan
