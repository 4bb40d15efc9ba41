/-
# Runs of a step function

A system is a partial step function on states and actions. `run` takes a list
of actions one after the other; `Along` says that every action of a run meets
a condition in the state it is taken in. What a step that meets the condition
preserves, a run along it preserves (`run_inv`); where a step keeps an
invariant exactly when it meets the condition, so does a run
(`run_inv_iff`).
-/
import Mathlib.Data.Option.Basic
import Mathlib.Data.List.Basic

namespace Longan

variable {σ α : Type*} (step : σ → α → Option σ)

/-- The state after the actions; `none` if one of them cannot be taken. -/
def run : σ → List α → Option σ
  | s, [] => some s
  | s, a :: as => (step s a).bind fun s' => run s' as

/-- Every action of the run meets `P` in the state it is taken in. -/
def Along (P : σ → α → Prop) : σ → List α → Prop
  | _, [] => True
  | s, a :: as => P s a ∧ ∀ s', step s a = some s' → Along P s' as

theorem run_nil (s : σ) : run step s [] = some s := rfl

theorem run_cons (s : σ) (a : α) (as : List α) :
    run step s (a :: as) = (step s a).bind fun s' => run step s' as := rfl

variable {step}

theorem Along.trivial : ∀ (s : σ) (as : List α), Along step (fun _ _ => True) s as
  | _, [] => True.intro
  | _, _ :: as => ⟨True.intro, fun s' _ => Along.trivial s' as⟩

/-- A run is along `P` when every action meets it in the state that those
before it lead to. -/
theorem along_of_take {P : σ → α → Prop} : ∀ (as : List α) (s : σ),
    (∀ n a s', as[n]? = some a → run step s (as.take n) = some s' → P s' a) → Along step P s as
  | [], _, _ => True.intro
  | a :: as, s, h => by
    refine ⟨h 0 a s rfl rfl, fun s1 h1 => along_of_take as s1 fun n b s' hb hs' => ?_⟩
    apply h (n + 1) b s' hb
    rw [List.take_succ_cons, run_cons, h1]
    exact hs'

/-- What every step under `P` preserves, a run under `P` preserves. -/
theorem run_inv {I : σ → Prop} {P : σ → α → Prop}
    (hstep : ∀ s a s', I s → P s a → step s a = some s' → I s') :
    ∀ (as : List α) (s s' : σ), I s → Along step P s as → run step s as = some s' → I s'
  | [], s, s', hI, _, h => by
    simp only [run_nil, Option.some.injEq] at h
    exact h ▸ hI
  | a :: as, s, s', hI, hP, h => by
    rw [run_cons] at h
    obtain ⟨s1, h1, h2⟩ := Option.bind_eq_some_iff.mp h
    exact run_inv hstep as s1 s' (hstep s a s1 hI hP.1 h1) (hP.2 s1 h1) h2

/-- What every step preserves, every run preserves. -/
theorem run_inv' {I : σ → Prop} (hstep : ∀ s a s', I s → step s a = some s' → I s')
    (as : List α) (s s' : σ) (hI : I s) (h : run step s as = some s') : I s' :=
  run_inv (P := fun _ _ => True) (fun s a s' hI _ h => hstep s a s' hI h) as s s' hI
    (Along.trivial s as) h

/-- Where the invariant holds after a step just when it held before and the
step met `P`, it holds after a run just when it held before and the run was
along `P`. -/
theorem run_inv_iff {I J : σ → Prop} {P : σ → α → Prop}
    (hJ : ∀ s a s', J s → step s a = some s' → J s')
    (hI : ∀ s a s', J s → step s a = some s' → (I s' ↔ I s ∧ P s a)) :
    ∀ (as : List α) (s s' : σ), J s → run step s as = some s' → (I s' ↔ I s ∧ Along step P s as)
  | [], s, s', _, h => by
    simp only [run_nil, Option.some.injEq] at h
    rw [h, Along, and_true]
  | a :: as, s, s', hs, h => by
    rw [run_cons] at h
    obtain ⟨s1, h1, h2⟩ := Option.bind_eq_some_iff.mp h
    have hall : (∀ t, step s a = some t → Along step P t as) ↔ Along step P s1 as :=
      ⟨fun ht => ht s1 h1, fun ha t ht => (Option.some.inj (h1.symm.trans ht)) ▸ ha⟩
    rw [run_inv_iff hJ hI as s1 s' (hJ s a s1 hs h1) h2, hI s a s1 hs h1, Along, hall, and_assoc]

/-- A system in which every step can be taken runs to the end. -/
theorem run_total (ht : ∀ s a, (step s a).isSome) : ∀ (as : List α) (s : σ),
    ∃ s', run step s as = some s'
  | [], s => ⟨s, rfl⟩
  | a :: as, s => by
    obtain ⟨s1, h1⟩ := Option.isSome_iff_exists.mp (ht s a)
    obtain ⟨s', h'⟩ := run_total ht as s1
    exact ⟨s', by rw [run_cons, h1]; exact h'⟩

end Longan
