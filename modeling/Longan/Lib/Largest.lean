/-
# The largest of a list

`Largest key k l c`: `c` are `k` elements of `l` with the largest keys. Which
they are is open where keys are equal, their keys are not
(`Largest.keys_perm`). The first `k` of a list in the order of falling keys
are such a choice (`largest_take`), so `sort -n -r | head` makes one
(`largest_sortDown`).
-/
import Mathlib.Data.List.Sort
import Mathlib.Data.Prod.Lex
import Longan.Lib.Awk

namespace Longan

variable {α β : Type*} [LinearOrder β]

/-- `c` are `k` elements of `l`, and none of the others has a larger key. -/
def Largest (key : α → β) (k : ℕ) (l c : List α) : Prop :=
  c.length = k ∧ ∃ r, (c ++ r).Perm l ∧ ∀ x ∈ c, ∀ y ∈ r, key y ≤ key x

namespace Largest

variable {key : α → β} {k : ℕ} {l c d : List α}

/-- The keys of a choice, in falling order, are the first `k` of all the keys. -/
theorem keys_eq_take (h : Largest key k l c) :
    (c.map key).insertionSort (· ≥ ·) = ((l.map key).insertionSort (· ≥ ·)).take k := by
  obtain ⟨hlen, r, hr, hle⟩ := h
  have hperm : ((c.map key).insertionSort (· ≥ ·) ++ (r.map key).insertionSort (· ≥ ·)).Perm
      ((l.map key).insertionSort (· ≥ ·)) := by
    apply ((List.perm_insertionSort _ _).append (List.perm_insertionSort _ _)).trans
    rw [← List.map_append]
    exact (hr.map key).trans (List.perm_insertionSort _ _).symm
  have hsorted : ((c.map key).insertionSort (· ≥ ·) ++ (r.map key).insertionSort (· ≥ ·)).Pairwise
      (· ≥ ·) := by
    refine List.pairwise_append.mpr ⟨List.pairwise_insertionSort _ _, List.pairwise_insertionSort _ _, ?_⟩
    intro a ha b hb
    obtain ⟨x, hx, rfl⟩ := List.mem_map.mp ((List.mem_insertionSort _).mp ha)
    obtain ⟨y, hy, rfl⟩ := List.mem_map.mp ((List.mem_insertionSort _).mp hb)
    exact hle x hx y hy
  have heq := List.Perm.eq_of_pairwise' hsorted (List.pairwise_insertionSort _ _) hperm
  rw [← heq, List.take_left' (by rw [List.length_insertionSort, List.length_map, hlen])]

/-- Two choices have the same keys. -/
theorem keys_perm (hc : Largest key k l c) (hd : Largest key k l d) :
    (c.map key).Perm (d.map key) := by
  have h : (c.map key).insertionSort (· ≥ ·) = (d.map key).insertionSort (· ≥ ·) := by
    rw [hc.keys_eq_take, hd.keys_eq_take]
  have hc' := List.perm_insertionSort (· ≥ ·) (c.map key)
  rw [h] at hc'
  exact hc'.symm.trans (List.perm_insertionSort _ _)

end Largest

/-- The first `k` of a list in the order of falling keys. -/
theorem largest_take {key : α → β} {k : ℕ} {l l' : List α} (hk : k ≤ l.length) (hp : l'.Perm l)
    (hs : l'.Pairwise fun x y => key y ≤ key x) : Largest key k l (l'.take k) := by
  refine ⟨?_, l'.drop k, ?_, ?_⟩
  · rw [List.length_take, hp.length_eq]
    exact min_eq_left hk
  · rw [List.take_append_drop]
    exact hp
  · rw [← List.take_append_drop k l'] at hs
    exact (List.pairwise_append.mp hs).2.2

/-! ### Lines in the order of a number in them -/

namespace Text

/-- Digits, and more of them after a point. -/
def plainNumber (t : Text) : ℚ :=
  match t.dropWhile Char.isDigit with
  | '.' :: r => number (digits t ++ digits r) / 10 ^ (digits r).length
  | _ => number (digits t)

/-- The number `sort -n` reads at the start of a text: 0 where there is none,
and no exponent. -/
def sortNumber (t : Text) : ℚ :=
  match t.dropWhile isBlank with
  | '-' :: r => -plainNumber r
  | r => plainNumber r

/-- The order of `sort -k n -n -r`: falling numbers, and falling lines where
they are equal. The key goes on to the end of the line, its number ends with
the `n`th word at the latest. -/
def Down (n : ℕ) (a b : Text) : Prop :=
  sortNumber (field n b) < sortNumber (field n a) ∨
    sortNumber (field n b) = sortNumber (field n a) ∧ b ≤ a

instance (n : ℕ) : DecidableRel (Down n) := fun _ _ => inferInstanceAs (Decidable (_ ∨ _))

/-- `sort -k n -n -r`. -/
def sortDown (n : ℕ) (ls : List Text) : List Text := ls.insertionSort (Down n)

theorem down_iff {n : ℕ} {a b : Text} :
    Down n a b ↔ toLex (sortNumber (field n b), b) ≤ toLex (sortNumber (field n a), a) := by
  rw [Prod.Lex.toLex_le_toLex]
  rfl

instance (n : ℕ) : Std.Total (Down n) := ⟨fun _ _ => by
  rw [down_iff, down_iff]
  exact le_total _ _⟩

instance (n : ℕ) : IsTrans Text (Down n) := ⟨fun _ _ _ h1 h2 => by
  rw [down_iff] at *
  exact h2.trans h1⟩

theorem Down.le {n : ℕ} {a b : Text} (h : Down n a b) :
    sortNumber (field n b) ≤ sortNumber (field n a) := by
  rcases h with h | h
  · exact h.le
  · exact h.1.le

/-- `sort -k n -n -r | head -k` on the lines of things that have the number as
their key: the lines of `k` of the largest of them. -/
theorem largest_sortDown {key : α → ℚ} {line : α → Text} {n k : ℕ} {l : List α}
    (hkey : ∀ x ∈ l, sortNumber (field n (line x)) = key x) (hk : k ≤ l.length) :
    ∃ c, Largest key k l c ∧ (sortDown n (l.map line)).take k = c.map line := by
  have hmap : (l.insertionSort fun a b => Down n (line a) (line b)).map line =
      sortDown n (l.map line) :=
    List.map_insertionSort _ _ line l fun _ _ _ _ => Iff.rfl
  have htotal : Std.Total fun a b => Down n (line a) (line b) :=
    ⟨fun a b => Std.Total.total (line a) (line b)⟩
  have htrans : IsTrans α fun a b => Down n (line a) (line b) :=
    ⟨fun a b c h1 h2 => IsTrans.trans (line a) (line b) (line c) h1 h2⟩
  refine ⟨(l.insertionSort fun a b => Down n (line a) (line b)).take k, ?_, ?_⟩
  · apply largest_take hk (List.perm_insertionSort _ _)
    refine (List.pairwise_insertionSort (fun a b => Down n (line a) (line b)) l).imp_of_mem ?_
    intro x y hx hy h
    rw [← hkey x ((List.mem_insertionSort _).mp hx), ← hkey y ((List.mem_insertionSort _).mp hy)]
    exact h.le
  · rw [← hmap, List.map_take]

/-- `sort -n` reads a decimal as its value. -/
theorem sortNumber_text (d : Decimal) : sortNumber d.text = d.value := by
  obtain ⟨c, t, hct⟩ := List.exists_cons_of_ne_nil d.isWord_text.1
  have hb : d.text.dropWhile isBlank = d.text := by
    rw [hct, List.dropWhile_cons_of_neg (by simp [d.isWord_text.2 c (hct ▸ List.mem_cons_self)])]
  have hplain : plainNumber d.text = d.value := by
    unfold Decimal.text Decimal.value plainNumber
    split_ifs with hf
    · obtain ⟨h1, h2⟩ := digits_self d.whole_digits
      rw [h2]
      simp [h1, hf, number]
    · obtain ⟨h1, h2⟩ := digits_append d.whole_digits (c := '.') (by decide) d.frac
      obtain ⟨h3, -⟩ := digits_self d.frac_digits
      rw [h2]
      simp only [h1, h3, number_append]
      push_cast
      field_simp
  unfold sortNumber
  rw [hb]
  split
  · rename_i r he
    have hm : '-' ∈ d.text := he ▸ List.mem_cons_self
    exact absurd (d.mem_text hm) (by decide)
  · exact hplain

end Text
end Longan
