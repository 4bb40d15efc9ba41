/-
# expect

A process that was spawned prints texts, is silent for longer than the timeout,
and closes its output in the end. `expect` has clauses for some of these
events: it passes over a text without a clause, and it ends, with or without an
action, at a timeout and at the end of the output (`await`).

`for {} {1} {} { ... }` passes through its body until an action leaves it, so
it has no end of its own (`forever` takes the number of passes it is given).
-/
import Mathlib.Data.List.Basic

namespace Longan
namespace Expect

variable {π α ε : Type*}

/-- What a process does; at the end of the list it closes its output. -/
inductive Signal (π : Type*) where
  | text (p : π)
  | timeout

/-- What a clause waits for. -/
inductive Event (π : Type*) where
  | text (p : π)
  | timeout
  | eof
  deriving DecidableEq

/-- The clauses of an `expect`, with their actions. -/
abbrev Clauses (π α : Type*) := List (Event π × α)

/-- The event that ends the `expect`, and what the process does after it. -/
def await [DecidableEq π] (cs : Clauses π α) : List (Signal π) → Event π × List (Signal π)
  | [] => (.eof, [])
  | .timeout :: r => (.timeout, r)
  | .text p :: r => if Event.text p ∈ cs.map Prod.fst then (.text p, r) else await cs r

/-- The action of an event, if it has one. -/
def action [DecidableEq π] (cs : Clauses π α) (e : Event π) : Option α := cs.lookup e

/-! ### The loop -/

/-- At most `fuel` passes of the loop, whose pass `n` goes on or leaves with
`body n`: how many were made and what the last one left with. -/
def forever (body : ℕ → Option ε) : ℕ → ℕ × Option ε
  | 0 => (0, none)
  | fuel + 1 => match body 0 with
    | some e => (1, some e)
    | none => ((forever (fun n => body (n + 1)) fuel).1 + 1, (forever (fun n => body (n + 1)) fuel).2)

/-- It ends with the first pass that leaves. -/
theorem forever_leaves : ∀ {body : ℕ → Option ε} {k : ℕ} {e : ε}, (∀ i < k, body i = none) →
    body k = some e → ∀ {fuel : ℕ}, k < fuel → forever body fuel = (k + 1, some e)
  | body, 0, e, _, hk, fuel + 1, _ => by rw [forever, hk]
  | body, k + 1, e, h, hk, fuel + 1, hf => by
    have hrest : ∀ i < k, (fun n => body (n + 1)) i = none := fun i hi => h (i + 1) (by omega)
    rw [forever, h 0 (by omega), forever_leaves hrest hk (show k < fuel by omega)]

/-- Where no pass leaves, all are made. -/
theorem forever_goes_on : ∀ {body : ℕ → Option ε} {fuel : ℕ}, (∀ i < fuel, body i = none) →
    forever body fuel = (fuel, none)
  | _, 0, _ => rfl
  | body, fuel + 1, h => by
    have hrest : ∀ i < fuel, (fun n => body (n + 1)) i = none := fun i hi => h (i + 1) (by omega)
    rw [forever, h 0 (by omega), forever_goes_on hrest]

/-- The first pass that leaves, if there is one among these. -/
theorem leaves_or_goes_on (body : ℕ → Option ε) (fuel : ℕ) :
    (∃ k e, k < fuel ∧ (∀ i < k, body i = none) ∧ body k = some e) ∨ ∀ i < fuel, body i = none := by
  induction fuel with
  | zero => exact .inr fun i hi => absurd hi (Nat.not_lt_zero i)
  | succ fuel ih =>
    rcases ih with ⟨k, e, hk, h, he⟩ | h
    · exact .inl ⟨k, e, by omega, h, he⟩
    · cases he : body fuel with
      | some e => exact .inl ⟨fuel, e, by omega, h, he⟩
      | none =>
        refine .inr fun i hi => ?_
        rcases Nat.lt_succ_iff_lt_or_eq.mp hi with hi | rfl
        · exact h i hi
        · exact he

/-- Another pass is made only after one that goes on. -/
theorem goes_on_of_lt_forever {body : ℕ → Option ε} {fuel n : ℕ} (h : n + 1 < (forever body fuel).1) :
    body n = none := by
  rcases leaves_or_goes_on body fuel with ⟨k, e, hk, hb, he⟩ | hb
  · rw [forever_leaves hb he hk] at h
    exact hb n (by omega)
  · rw [forever_goes_on hb] at h
    exact hb n (by omega)

end Expect
end Longan
