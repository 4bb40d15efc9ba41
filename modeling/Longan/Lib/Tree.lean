/-
# Trees of files

A `Tree` says what is at each path. A path has the innermost name first, so
that what is in a directory is one name longer than its path. Files are put,
cut off, moved and exchanged; a move takes along what is below, and says where
each path goes (`relocate`, `swap`).
-/
import Mathlib.Data.List.Infix

namespace Longan

variable {ν κ : Type}

/-- What there is at each path, the innermost name first. -/
abbrev Tree (ν κ : Type) := List ν → Option κ

namespace Tree

variable [DecidableEq ν]

/-- What is left of a path below `p`. -/
def below (p : List ν) : List ν → Option (List ν)
  | [] => if p = [] then some [] else none
  | x :: r => if p = x :: r then some [] else (below p r).map (x :: ·)

/-- Where a path goes when `p` becomes `q`. -/
def relocate (p q r : List ν) : List ν :=
  match below p r with
  | some s => s ++ q
  | none => r

/-- Where a path goes when `p` and `q` change places. -/
def swap (p q r : List ν) : List ν :=
  match below p r with
  | some s => s ++ q
  | none => relocate q p r

def put (T : Tree ν κ) (p : List ν) (k : κ) : Tree ν κ := fun r => if r = p then some k else T r

def cut (T : Tree ν κ) (p : List ν) : Tree ν κ := fun r => if r = p then none else T r

/-- What is at `p` and below is at `q`. -/
def move (T : Tree ν κ) (p q : List ν) : Tree ν κ := fun r =>
  match below q r with
  | some s => T (s ++ p)
  | none => if (below p r).isSome then none else T r

def exchange (T : Tree ν κ) (p q : List ν) : Tree ν κ := fun r => T (swap p q r)

theorem below_eq_some {p : List ν} : ∀ {r s : List ν}, below p r = some s ↔ r = s ++ p
  | [], s => by
    rw [below]
    by_cases h : p = []
    · simp [h, eq_comm]
    · simp [h]
  | x :: r, s => by
    rw [below]
    by_cases h : p = x :: r
    · rw [if_pos h, ← h]
      simp [eq_comm]
    · rw [if_neg h, Option.map_eq_some_iff]
      simp only [below_eq_some]
      constructor
      · rintro ⟨s', rfl, rfl⟩
        rfl
      · intro hs
        match s with
        | [] => exact absurd hs.symm h
        | y :: s' =>
          obtain ⟨rfl, rfl⟩ := List.cons.inj hs
          exact ⟨s', rfl, rfl⟩

theorem below_append (s p : List ν) : below p (s ++ p) = some s := below_eq_some.mpr rfl

theorem below_eq_none {p r : List ν} : below p r = none ↔ ¬ p <:+ r := by
  rw [Option.eq_none_iff_forall_not_mem]
  simp only [Option.mem_def, below_eq_some]
  exact ⟨fun h ⟨s, hs⟩ => h s hs.symm, fun h s hs => h ⟨s, hs.symm⟩⟩

theorem below_cons {p : List ν} {x : ν} {r : List ν} (h : p ≠ x :: r) :
    below p (x :: r) = (below p r).map (x :: ·) := by
  rw [below, if_neg h]

theorem relocate_below {p q s : List ν} : relocate p q (s ++ p) = s ++ q := by
  rw [relocate, below_append]

theorem relocate_self {p q : List ν} : relocate p q p = q := relocate_below (s := [])

theorem relocate_not_below {p q r : List ν} (h : ¬ p <:+ r) : relocate p q r = r := by
  rw [relocate, below_eq_none.mpr h]

theorem relocate_cons {p q : List ν} {x : ν} {r : List ν} (h : p ≠ x :: r) :
    relocate p q (x :: r) = x :: relocate p q r := by
  unfold relocate
  rw [below_cons h]
  cases below p r with
  | none => rfl
  | some s => rfl

theorem swap_cons {p q : List ν} {x : ν} {r : List ν} (hp : p ≠ x :: r) (hq : q ≠ x :: r) :
    swap p q (x :: r) = x :: swap p q r := by
  unfold swap
  rw [below_cons hp, relocate_cons hq]
  cases below p r with
  | none => rfl
  | some s => rfl

theorem swap_left {p q s : List ν} : swap p q (s ++ p) = s ++ q := by
  rw [swap, below_append]

theorem swap_left_self {p q : List ν} : swap p q p = q := swap_left (s := [])

omit [DecidableEq ν] in
/-- Two paths neither of which goes through the other have nothing below in common. -/
theorem not_suffix_append {p q : List ν} (hpq : ¬ p <:+ q) (hqp : ¬ q <:+ p) (s : List ν) :
    ¬ p <:+ s ++ q := fun h =>
  (List.suffix_or_suffix_of_suffix h (List.suffix_append s q)).elim hpq hqp

theorem swap_right {p q s : List ν} (hpq : ¬ p <:+ q) (hqp : ¬ q <:+ p) :
    swap p q (s ++ q) = s ++ p := by
  rw [swap, below_eq_none.mpr (not_suffix_append hpq hqp s)]
  exact relocate_below

theorem swap_right_self {p q : List ν} (hpq : ¬ p <:+ q) (hqp : ¬ q <:+ p) : swap p q q = p :=
  swap_right (s := []) hpq hqp

theorem swap_neither {p q r : List ν} (hp : ¬ p <:+ r) (hq : ¬ q <:+ r) : swap p q r = r := by
  rw [swap, below_eq_none.mpr hp]
  exact relocate_not_below hq

theorem swap_swap {p q : List ν} (hpq : ¬ p <:+ q) (hqp : ¬ q <:+ p) (r : List ν) :
    swap p q (swap p q r) = r := by
  by_cases hp : p <:+ r
  · obtain ⟨s, rfl⟩ := hp
    rw [swap_left, swap_right hpq hqp]
  · by_cases hq : q <:+ r
    · obtain ⟨s, rfl⟩ := hq
      rw [swap_right hpq hqp, swap_left]
    · rw [swap_neither hp hq, swap_neither hp hq]

theorem swap_eq {p q r s : List ν} (hpq : ¬ p <:+ q) (hqp : ¬ q <:+ p) (h : swap p q r = s) :
    r = swap p q s := h ▸ (swap_swap hpq hqp r).symm

theorem swap_self {p : List ν} (r : List ν) : swap p p r = r := by
  by_cases hp : p <:+ r
  · obtain ⟨s, rfl⟩ := hp
    exact swap_left
  · exact swap_neither hp hp

theorem move_below (T : Tree ν κ) (p q s : List ν) : T.move p q (s ++ q) = T (s ++ p) := by
  rw [move, below_append]

theorem move_away {T : Tree ν κ} {p q r : List ν} (hq : ¬ q <:+ r) (hp : p <:+ r) :
    T.move p q r = none := by
  obtain ⟨s, rfl⟩ := hp
  rw [move, below_eq_none.mpr hq, below_append]
  rfl

theorem move_else {T : Tree ν κ} {p q r : List ν} (hq : ¬ q <:+ r) (hp : ¬ p <:+ r) :
    T.move p q r = T r := by
  rw [move, below_eq_none.mpr hq, below_eq_none.mpr hp]
  rfl

end Tree
end Longan
