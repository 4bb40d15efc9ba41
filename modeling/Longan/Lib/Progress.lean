/-
# Runs that come to an end

A system whose steps all lower a measure has no run longer than the measure
of its first state (`run_length_le`), and each of its states can be run on
until no action is left (`exists_run_final`). Where the system is made of
numbered parties, the measure is a sum over them and a step of one party
changes one summand (`sum_update`). What holds at the end of a run and did not
hold at its start was brought about by an action of the run (`run_cause`).
-/
import Longan.Lib.Runs
import Mathlib.Algebra.BigOperators.Group.Finset.Basic
import Mathlib.Algebra.BigOperators.Intervals

namespace Longan

variable {σ α : Type*} {step : σ → α → Option σ}

/-- No action can be taken. -/
def Final (step : σ → α → Option σ) (s : σ) : Prop := ∀ a, step s a = none

theorem run_append : ∀ (as bs : List α) (s : σ),
    run step s (as ++ bs) = (run step s as).bind fun s' => run step s' bs
  | [], _, _ => rfl
  | a :: as, bs, s => by
    rw [List.cons_append, run_cons, run_cons, Option.bind_assoc]
    exact congrArg _ (funext fun s' => run_append as bs s')

section Measure

variable {I : σ → Prop} {m : σ → ℕ}

/-- Every step of a run pays for itself. -/
theorem run_length_le (hI : ∀ s a s', I s → step s a = some s' → I s')
    (hm : ∀ s a s', I s → step s a = some s' → m s' < m s) :
    ∀ (as : List α) (s s' : σ), I s → run step s as = some s' → as.length + m s' ≤ m s
  | [], s, s', _, h => by
    simp only [run_nil, Option.some.injEq] at h
    simp [h]
  | a :: as, s, s', hs, h => by
    rw [run_cons] at h
    obtain ⟨s1, h1, h2⟩ := Option.bind_eq_some_iff.mp h
    have h3 := run_length_le hI hm as s1 s' (hI s a s1 hs h1) h2
    have h4 := hm s a s1 hs h1
    simp only [List.length_cons]
    omega

/-- Every state can be run on to one with no step left. -/
theorem exists_run_final (hI : ∀ s a s', I s → step s a = some s' → I s')
    (hm : ∀ s a s', I s → step s a = some s' → m s' < m s) (s : σ) (hs : I s) :
    ∃ as s', run step s as = some s' ∧ Final step s' := by
  induction hn : m s using Nat.strong_induction_on generalizing s with
  | _ n ih =>
    by_cases hf : Final step s
    · exact ⟨[], s, rfl, hf⟩
    · obtain ⟨a, ha⟩ := not_forall.mp hf
      obtain ⟨s1, h1⟩ := Option.ne_none_iff_exists'.mp ha
      obtain ⟨as, s', h2, h3⟩ := ih (m s1) (hn ▸ hm s a s1 hs h1) s1 (hI s a s1 hs h1) rfl
      exact ⟨a :: as, s', by rw [run_cons, h1]; exact h2, h3⟩

end Measure

/-- What only the actions in `A` bring about holds after a run if it held
before or the run took one of them. -/
theorem run_cause {P : σ → Prop} {A : α → Prop}
    (h : ∀ s a s', step s a = some s' → P s' → P s ∨ A a) :
    ∀ (as : List α) (s s' : σ), run step s as = some s' → P s' → P s ∨ ∃ a ∈ as, A a
  | [], s, s', hr, hP => by
    simp only [run_nil, Option.some.injEq] at hr
    exact Or.inl (hr ▸ hP)
  | a :: as, s, s', hr, hP => by
    rw [run_cons] at hr
    obtain ⟨s1, h1, h2⟩ := Option.bind_eq_some_iff.mp hr
    rcases run_cause h as s1 s' h2 hP with h3 | ⟨b, hb, hA⟩
    · rcases h s a s1 h1 h3 with h4 | h4
      · exact Or.inl h4
      · exact Or.inr ⟨a, List.mem_cons_self, h4⟩
    · exact Or.inr ⟨b, List.mem_cons_of_mem _ hb, hA⟩

/-- The system without some of its actions. -/
def restrict (step : σ → α → Option σ) (ok : α → Bool) (s : σ) (a : α) : Option σ :=
  if ok a then step s a else none

theorem restrict_eq_some {ok : α → Bool} {s s' : σ} {a : α} :
    restrict step ok s a = some s' ↔ ok a = true ∧ step s a = some s' := by
  unfold restrict
  by_cases h : ok a = true
  · rw [if_pos h]
    exact ⟨fun hs => ⟨h, hs⟩, fun hs => hs.2⟩
  · rw [if_neg h]
    exact ⟨fun hs => (nomatch hs), fun hs => absurd hs.1 h⟩

/-- Its runs are the runs that do without them. -/
theorem run_restrict {ok : α → Bool} : ∀ (as : List α) (s s' : σ),
    run (restrict step ok) s as = some s' ↔ run step s as = some s' ∧ ∀ a ∈ as, ok a = true
  | [], s, s' => by simp [run_nil]
  | a :: as, s, s' => by
    rw [run_cons, run_cons, Option.bind_eq_some_iff, Option.bind_eq_some_iff]
    constructor
    · rintro ⟨s1, h1, h2⟩
      obtain ⟨h3, h4⟩ := restrict_eq_some.mp h1
      obtain ⟨h5, h6⟩ := (run_restrict as s1 s').mp h2
      exact ⟨⟨s1, h4, h5⟩, List.forall_mem_cons.mpr ⟨h3, h6⟩⟩
    · rintro ⟨⟨s1, h1, h2⟩, h3⟩
      obtain ⟨h4, h5⟩ := List.forall_mem_cons.mp h3
      exact ⟨s1, restrict_eq_some.mpr ⟨h4, h1⟩, (run_restrict as s1 s').mpr ⟨h2, h5⟩⟩

/-- One party's share of a sum over the parties is replaced. -/
theorem sum_update {β : Type*} (c : ℕ → β → ℕ) (f : ℕ → β) (n i : ℕ) (v : β) (h : i < n) :
    (∑ x ∈ Finset.range n, c x (Function.update f i v x)) + c i (f i) =
      (∑ x ∈ Finset.range n, c x (f x)) + c i v := by
  have hi : i ∈ Finset.range n := Finset.mem_range.mpr h
  rw [← Finset.add_sum_erase _ _ hi, ← Finset.add_sum_erase _ (fun x => c x (f x)) hi]
  have : ∑ x ∈ (Finset.range n).erase i, c x (Function.update f i v x) =
      ∑ x ∈ (Finset.range n).erase i, c x (f x) := by
    apply Finset.sum_congr rfl
    intro x hx
    rw [Function.update_of_ne (Finset.ne_of_mem_erase hx)]
  rw [this]
  simp only [Function.update_self]
  omega

end Longan
