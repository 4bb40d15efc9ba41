/-
# Pre- and postconditions of commands

A command is a function of a state that returns a value, in most places its
status. `Triple P m Q` says that from a state with `P` the command `m` ends
with a value `a` in a state with `Q a`. The rules take a script apart along its
`;`, its `if` and its `return`; `Keeps` is the triple of a command that leaves
a property of the state alone.
-/
import Mathlib.Logic.Basic

namespace Longan

variable {σ α β : Type}

def Triple (P : σ → Prop) (m : StateM σ α) (Q : α → σ → Prop) : Prop := ∀ s, P s → Q (m s).1 (m s).2

/-- `P` holds after the command if it held before. -/
abbrev Keeps (P : σ → Prop) (m : StateM σ α) : Prop := Triple P m fun _ => P

namespace Triple

variable {P P' : σ → Prop} {m n : StateM σ α} {Q Q' : α → σ → Prop}

theorem pure {a : α} (h : ∀ s, P s → Q a s) : Triple P (Pure.pure a) Q := h

theorem bind {R : α → σ → Prop} {f : α → StateM σ β} {Q : β → σ → Prop} (hm : Triple P m R)
    (hf : ∀ a, Triple (R a) (f a) Q) : Triple P (m >>= f) Q := fun s hs => hf _ _ (hm s hs)

/-- A command whose value is known. -/
theorem bind_eq {v : α} {R : σ → Prop} {f : α → StateM σ β} {Q : β → σ → Prop}
    (hm : Triple P m fun a s => a = v ∧ R s) (hf : Triple R (f v) Q) : Triple P (m >>= f) Q :=
  hm.bind fun _ _ ⟨ha, hs⟩ => ha ▸ hf _ hs

theorem ite {c : Prop} [Decidable c] (ht : c → Triple P m Q) (hf : ¬ c → Triple P n Q) :
    Triple P (if c then m else n) Q := by
  by_cases h : c
  · rw [if_pos h]
    exact ht h
  · rw [if_neg h]
    exact hf h

theorem weaken (h : Triple P m Q) (hP : ∀ s, P' s → P s) (hQ : ∀ a s, Q a s → Q' a s) :
    Triple P' m Q' := fun s hs => hQ _ _ (h s (hP s hs))

end Triple
end Longan
