/-
# The last entries of a log

A log of `N` places is written round and round: the place of the next entry,
the number of entries so far, and the places. `Holds` says which entries such
a log has seen; reading it from its oldest place gives the last `N` of them
(`oldest_first`).
-/
import Mathlib.Data.List.Basic

namespace Longan
namespace Ring

variable {α : Type} (N : ℕ)

/-- The places of the log, the next one, and the count, after these entries. -/
structure Holds (place : ℕ → α) (next count : ℕ) (es : List α) : Prop where
  next : next = es.length % N
  count : count = es.length
  last : ∀ j (h : j < es.length), es.length ≤ j + N → place (j % N) = es[j]

/-- From a place on, round and round. -/
def walk (place : ℕ → α) : ℕ → ℕ → List α
  | _, 0 => []
  | i, k + 1 => place i :: walk place (if i + 1 = N then 0 else i + 1) k

/-- The log from its oldest entry on. -/
def oldestFirst (place : ℕ → α) (next count : ℕ) : List α :=
  if count < N then walk N place 0 count else walk N place next N

variable {N} {place : ℕ → α} {next count : ℕ} {es : List α}

theorem Holds.nil : Holds N place 0 0 ([] : List α) where
  next := (Nat.zero_mod N).symm
  count := rfl
  last _ h := absurd h (Nat.not_lt_zero _)

/-- Distinct entries that are both kept are in distinct places. -/
theorem mod_ne {i j n : ℕ} (hi : i < n) (hj : j < n) (h1 : n ≤ i + N) (h2 : n ≤ j + N)
    (hne : i ≠ j) : i % N ≠ j % N := by
  intro he
  have h3 : ∀ a b : ℕ, a < b → b < a + N → a % N ≠ b % N := by
    intro a b hab hb hmod
    have h4 := Nat.sub_mod_eq_zero_of_mod_eq hmod.symm
    rw [Nat.mod_eq_of_lt (by omega)] at h4
    omega
  rcases Nat.lt_or_gt_of_ne hne with h | h
  · exact h3 i j h (by omega) he
  · exact h3 j i h (by omega) he.symm

theorem Holds.push (hN : 0 < N) (h : Holds N place next count es) (e : α) :
    Holds N (fun i => if i = next then e else place i)
      (if N ≤ next + 1 then 0 else next + 1) (count + 1) (es ++ [e]) := by
  have hlt := Nat.mod_lt es.length hN
  refine ⟨?_, ?_, ?_⟩
  · rw [List.length_append, List.length_singleton, h.next, Nat.add_mod]
    by_cases h1 : N ≤ es.length % N + 1
    · rw [if_pos h1]
      have h2 : es.length % N + 1 = N := by omega
      by_cases hone : N = 1
      · subst hone
        omega
      · rw [Nat.mod_eq_of_lt (by omega : 1 < N), h2, Nat.mod_self]
    · rw [if_neg h1, Nat.mod_eq_of_lt (by omega : 1 < N),
        Nat.mod_eq_of_lt (by omega : es.length % N + 1 < N)]
  · rw [List.length_append, List.length_singleton, h.count]
  · intro j hj hle
    rw [List.length_append, List.length_singleton] at hj hle
    by_cases h1 : j = es.length
    · subst h1
      rw [h.next, if_pos rfl]
      simp
    · have hj' : j < es.length := by omega
      rw [List.getElem_append_left hj', h.next, if_neg]
      · exact h.last j hj' (by omega)
      · exact mod_ne (n := es.length + 1) (by omega) (by omega) (by omega) (by omega) h1

theorem walk_eq (hN : 0 < N) : ∀ (k i : ℕ), i < N →
    walk N place i k = (List.range k).map fun j => place ((i + j) % N)
  | 0, i, _ => rfl
  | k + 1, i, hi => by
    rw [walk, List.range_succ_eq_map, List.map_cons, List.map_map,
      show (i + 0) % N = i from Nat.mod_eq_of_lt hi]
    congr 1
    by_cases h : i + 1 = N
    · rw [if_pos h, walk_eq hN k 0 hN]
      refine List.map_congr_left fun j _ => ?_
      simp only [Function.comp]
      rw [show i + (j + 1) = N + (0 + j) by omega, Nat.add_mod_left]
    · rw [if_neg h, walk_eq hN k (i + 1) (by omega)]
      refine List.map_congr_left fun j _ => ?_
      simp only [Function.comp]
      rw [show i + 1 + j = i + (j + 1) by omega]

/-- The log, read from its oldest entry on, is the last `N` entries. -/
theorem oldest_first (hN : 0 < N) (h : Holds N place next count es) :
    oldestFirst N place next count = es.drop (es.length - N) := by
  unfold oldestFirst
  by_cases hc : count < N
  · have hlen : es.length < N := h.count ▸ hc
    rw [if_pos hc, walk_eq hN count 0 hN, h.count, Nat.sub_eq_zero_of_le (Nat.le_of_lt hlen),
      List.drop_zero]
    apply List.ext_getElem (by simp)
    intro j h1 h2
    simp only [List.getElem_map, List.getElem_range, Nat.zero_add]
    exact h.last j h2 (by omega)
  · have hlen : N ≤ es.length := by
      have := h.count
      omega
    rw [if_neg hc, walk_eq hN N next (h.next ▸ Nat.mod_lt _ hN)]
    apply List.ext_getElem
    · rw [List.length_map, List.length_range, List.length_drop]
      omega
    · intro j h1 h2
      rw [List.length_map, List.length_range] at h1
      simp only [List.getElem_map, List.getElem_range, List.getElem_drop]
      have h3 := h.last (es.length - N + j) (by omega) (by omega)
      rw [← h3, h.next]
      congr 1
      have h4 : es.length - N + j + N = es.length + j := by omega
      rw [← Nat.add_mod_right (es.length - N + j) N, h4, Nat.add_mod (es.length % N), Nat.mod_mod,
        ← Nat.add_mod]

end Ring
end Longan
