/-
# Programs that may stop

A `Prog` runs on a state and ends with a value, or stops before its end with a
reason, in the state it has reached. `Ends P m Q E` says what holds of both
ends: from a state with `P`, the program `m` ends with a value `a` in a state
with `Q a` or stops for `e` in a state with `E e`. The rules take a program
apart along its `do` block. `Maps p m n` says that `n` is what is left of `m`
when of each state only `p` of it is kept.
-/
import Mathlib.Logic.Basic

namespace Longan

/-- A program on `σ` that may stop for a reason in `ε`. -/
abbrev Prog (σ ε α : Type) := StateT σ (Except (ε × σ)) α

variable {σ ε α β : Type}

/-- Stop here. -/
def stop (e : ε) : Prog σ ε α := fun s => .error (e, s)

/-- `if` without `else`. -/
def onlyIf (c : Prop) [Decidable c] (m : Prog σ ε PUnit) : Prog σ ε PUnit :=
  if c then m else pure ⟨⟩

/-- What holds where a program ends, with a value or for a reason. -/
def AtEnd (Q : α → σ → Prop) (E : ε → σ → Prop) : Except (ε × σ) (α × σ) → Prop
  | .ok (a, s) => Q a s
  | .error (e, s) => E e s

def Ends (P : σ → Prop) (m : Prog σ ε α) (Q : α → σ → Prop) (E : ε → σ → Prop) : Prop :=
  ∀ s, P s → AtEnd Q E (m s)

theorem AtEnd.mono {Q Q' : α → σ → Prop} {E E' : ε → σ → Prop} {r : Except (ε × σ) (α × σ)}
    (h : AtEnd Q E r) (hQ : ∀ a s, Q a s → Q' a s) (hE : ∀ e s, E e s → E' e s) :
    AtEnd Q' E' r := by
  match r with
  | .ok (a, s) => exact hQ a s h
  | .error (e, s) => exact hE e s h

namespace Ends

variable {P P' : σ → Prop} {m n : Prog σ ε α} {Q Q' : α → σ → Prop} {E E' : ε → σ → Prop}

theorem pure {a : α} (h : ∀ s, P s → Q a s) : Ends P (Pure.pure a) Q E := h

theorem stop {e : ε} (h : ∀ s, P s → E e s) : Ends P (Longan.stop e : Prog σ ε α) Q E := h

theorem bind {R : α → σ → Prop} {f : α → Prog σ ε β} {Q : β → σ → Prop} (hm : Ends P m R E)
    (hf : ∀ a, Ends (R a) (f a) Q E) : Ends P (m >>= f) Q E := by
  intro s hs
  have h1 := hm s hs
  show AtEnd Q E (Except.bind (m s) fun r => f r.1 r.2)
  match hr : m s with
  | .ok (a, s') =>
    rw [hr] at h1
    exact hf a s' h1
  | .error (e, s') =>
    rw [hr] at h1
    exact h1

/-- What is read is the state. -/
theorem get_bind {f : σ → Prog σ ε β} {Q : β → σ → Prop}
    (h : ∀ s, P s → Ends (fun s' => s' = s) (f s) Q E) : Ends P (get >>= f) Q E := by
  intro s hs
  exact h s hs s rfl

theorem modify {f : σ → σ} {Q : PUnit → σ → Prop} (h : ∀ s, P s → Q ⟨⟩ (f s)) :
    Ends P (modify f : Prog σ ε PUnit) Q E := h

theorem ite {c : Prop} [Decidable c] (ht : c → Ends P m Q E) (hf : ¬ c → Ends P n Q E) :
    Ends P (if c then m else n) Q E := by
  by_cases h : c
  · rw [if_pos h]
    exact ht h
  · rw [if_neg h]
    exact hf h

theorem onlyIf {c : Prop} [Decidable c] {m : Prog σ ε PUnit} {Q : PUnit → σ → Prop}
    (ht : c → Ends P m Q E) (hf : ¬ c → ∀ s, P s → Q ⟨⟩ s) : Ends P (onlyIf c m) Q E :=
  Ends.ite ht fun h => Ends.pure (hf h)

theorem weaken (h : Ends P m Q E) (hP : ∀ s, P' s → P s) (hQ : ∀ a s, Q a s → Q' a s)
    (hE : ∀ e s, E e s → E' e s) : Ends P' m Q' E' := fun s hs => (h s (hP s hs)).mono hQ hE

theorem and (h : Ends P m Q E) (h' : Ends P' m Q' E') :
    Ends (fun s => P s ∧ P' s) m (fun a s => Q a s ∧ Q' a s) fun e s => E e s ∧ E' e s := by
  rintro s ⟨hs, hs'⟩
  have h1 := h s hs
  have h2 := h' s hs'
  match hr : m s with
  | .ok (a, s') =>
    rw [hr] at h1 h2
    exact ⟨h1, h2⟩
  | .error (e, s') =>
    rw [hr] at h1 h2
    exact ⟨h1, h2⟩

theorem imp (h : Ends P m Q E) (hQ : ∀ a s, Q a s → Q' a s) : Ends P m Q' E :=
  h.weaken (fun _ hs => hs) hQ fun _ _ he => he

/-- From one state that is as it has to be. -/
theorem start {s : σ} (h : Ends P m Q E) (hs : P s) : Ends (fun s' => s' = s) m Q E := by
  rintro _ rfl
  exact h _ hs

/-- What does not depend on the state. -/
theorem given {p : Prop} (h : p → Ends P m Q E) : Ends (fun s => P s ∧ p) m Q E :=
  fun s hs => h hs.2 s hs.1

/-- One state at a time. -/
theorem of_eq (h : ∀ s, P s → Ends (fun s' => s' = s) m Q E) : Ends P m Q E :=
  fun s hs => h s hs s rfl

end Ends

/-! ### Two programs side by side -/

section Maps

variable {τ : Type}

/-- The end of a run, with a state of the other program. -/
def endMap (p : σ → τ) : Except (ε × σ) (α × σ) → Except (ε × τ) (α × τ)
  | .ok (a, s) => .ok (a, p s)
  | .error (e, s) => .error (e, p s)

def Maps (p : σ → τ) (m : Prog σ ε α) (n : Prog τ ε α) : Prop := ∀ s, n (p s) = endMap p (m s)

namespace Maps

variable {p : σ → τ} {m m' : Prog σ ε α} {n n' : Prog τ ε α}

theorem pure {a : α} : Maps p (Pure.pure a : Prog σ ε α) (Pure.pure a) := fun _ => rfl

theorem stop {e : ε} : Maps p (Longan.stop e : Prog σ ε α) (Longan.stop e) := fun _ => rfl

theorem bind {f : α → Prog σ ε β} {g : α → Prog τ ε β} (hm : Maps p m n)
    (hf : ∀ a, Maps p (f a) (g a)) : Maps p (m >>= f) (n >>= g) := by
  intro s
  have h1 := hm s
  show Except.bind (n (p s)) (fun r => g r.1 r.2) =
    endMap p (Except.bind (m s) fun r => f r.1 r.2)
  rw [h1]
  match m s with
  | .ok (a, s') => exact hf a s'
  | .error (e, s') => rfl

/-- What the one reads is `p` of what the other reads. -/
theorem get_bind {f : σ → Prog σ ε β} {g : τ → Prog τ ε β} (h : ∀ s, Maps p (f s) (g (p s))) :
    Maps p (get >>= f) (get >>= g) := fun s => h s s

theorem modify {f : σ → σ} {g : τ → τ} (h : ∀ s, g (p s) = p (f s)) :
    Maps p (modify f : Prog σ ε PUnit) (modify g) := by
  intro s
  show Except.ok (PUnit.unit, g (p s)) = Except.ok (PUnit.unit, p (f s))
  rw [h s]

theorem ite {c : Prop} [Decidable c] (ht : c → Maps p m n) (hf : ¬ c → Maps p m' n') :
    Maps p (if c then m else m') (if c then n else n') := by
  by_cases h : c
  · rw [if_pos h, if_pos h]
    exact ht h
  · rw [if_neg h, if_neg h]
    exact hf h

theorem onlyIf {c : Prop} [Decidable c] {m : Prog σ ε PUnit} {n : Prog τ ε PUnit}
    (h : Maps p m n) : Maps p (onlyIf c m) (Longan.onlyIf c n) :=
  ite (fun _ => h) fun _ => pure

end Maps
end Maps
end Longan
