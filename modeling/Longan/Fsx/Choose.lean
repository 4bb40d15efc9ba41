/-
# fsx: what is chosen can be done

`choose` cuts a size to `maxoplen`, takes a clone's and a copy's source from
inside the file and keeps a copy's destination away from it (`choose_ok`). It
reads the size of the file and nothing else, and changes only `closeopen`: so
this holds beside whatever else is known of the world.
-/
import Longan.Fsx.Test

namespace Longan
namespace Fsx

/-- What `choose` promises of an operation. -/
structure Choice.Ok (C : Config) (fileSize : ℕ) (ch : Choice) : Prop where
  lite : C.lite = true → ch.op = .read ∨ ch.op = .write ∨ ch.op = .mapread ∨ ch.op = .mapwrite
  size : ch.op ≠ .truncate → ch.size ≤ C.maxoplen
  cut : ch.op = .truncate → ch.size < C.maxfilelen
  source : ch.op = .cloneRange ∨ ch.op = .copyRange → ch.offset + ch.size ≤ fileSize
  apart : ch.op = .copyRange →
    ch.offset + ch.size ≤ ch.offset2 ∨ ch.offset2 + ch.size ≤ ch.offset

/-! ### The arithmetic of the ranges -/

theorem trim_le (off len size : ℕ) :
    trimOff off size + trimLen (trimOff off size) len size ≤ size := by
  have h1 : trimOff off size ≤ size := by
    unfold trimOff
    by_cases h : size = 0
    · rw [if_pos h]
      exact Nat.zero_le _
    · rw [if_neg h]
      exact Nat.le_of_lt (Nat.mod_lt _ (Nat.pos_of_ne_zero h))
  unfold trimLen
  by_cases h : size < trimOff off size + len
  · rw [if_pos h]
    omega
  · rw [if_neg h]
    omega

theorem trimLen_le (off len size : ℕ) : trimLen off len size ≤ len := by
  unfold trimLen
  by_cases h : size < off + len
  · rw [if_pos h]
    omega
  · exact Nat.le_of_eq (if_neg h)

theorem alignDown_le (bs x : ℕ) : alignDown bs x ≤ x := Nat.sub_le _ _

theorem alignDown_mod (b x : ℕ) : alignDown b x % b = 0 :=
  Nat.mod_eq_zero_of_dvd (Nat.dvd_sub_mod x)

theorem alignDown_of_mod {b x : ℕ} (h : x % b = 0) : alignDown b x = x := by
  unfold alignDown
  omega

theorem fitsAt_apart {offset size limit dest : ℕ} (h : fitsAt offset size limit dest = true) :
    (offset + size ≤ dest ∨ dest + size ≤ offset) ∧ dest + size ≤ limit := by
  unfold fitsAt distance at h
  simp only [Bool.not_eq_true', Bool.or_eq_false_iff, decide_eq_false_iff_not] at h
  omega

theorem pick_fits {place : ℕ → ℕ} {fits : ℕ → Bool} : ∀ {rs : List ℕ} {r : ℕ × List ℕ},
    pick place fits rs = some r → fits r.1 = true
  | [], _, h => absurd h (by simp [pick])
  | r :: rs, p, h => by
    rw [pick] at h
    by_cases hf : fits (place r) = true
    · rw [if_pos hf] at h
      rw [← Option.some.inj h]
      exact hf
    · rw [if_neg hf] at h
      exact pick_fits h

theorem le_of_direct {b n : ℕ} {o : Bool} : (if o = true then n - n % b else n) ≤ n := by
  cases o with
  | true => exact Nat.sub_le _ _
  | false => exact Nat.le_refl _

section

variable {φ α : Type} {C : Config} {P : World φ → Prop} {E : Stop → World φ → Prop} {s : ℕ}

/-- What is known of a world and does not depend on the random numbers; where
these run out, the run is cut. -/
structure Anywhere (P : World φ → Prop) (E : Stop → World φ → Prop) : Prop where
  random : ∀ w rs, P w → P { w with random := rs }
  closeopen : ∀ w b, P w → P { w with closeopen := b }
  cut : ∀ w, P w → E .cut w

theorem random_keeps (h : Anywhere P E) : Ends P (random : Run φ ℕ) (fun _ => P) E := by
  intro w hw
  unfold random
  cases w.random with
  | nil => exact h.cut w hw
  | cons r rs => exact h.random w rs hw

theorem draw_keeps (h : Anywhere P E) {g : List ℕ → Option (α × List ℕ)} :
    Ends P (draw g : Run φ α) (fun a w => P w ∧ ∃ rs rs', g rs = some (a, rs')) E := by
  intro w hw
  unfold draw
  cases hr : g w.random with
  | none => exact h.cut w hw
  | some r => exact ⟨h.random w r.2 hw, w.random, r.2, hr⟩

theorem oplen_keeps (h : Anywhere P E) :
    Ends P (oplen C : Run φ ℕ) (fun n w => P w ∧ n ≤ C.maxoplen) E := by
  refine Ends.ite (fun _ => ?_) fun _ => Ends.pure fun w hw => ⟨hw, Nat.le_refl _⟩
  refine Ends.bind (random_keeps h) fun r => Ends.pure fun w hw => ⟨hw, ?_⟩
  exact Nat.le_of_lt_succ (Nat.mod_lt _ (Nat.succ_pos _))

theorem keepOrNot_keeps (h : Anywhere P E) {p : Prop} [Decidable p] :
    Ends P (keepOrNot p : Run φ Bool) (fun _ => P) E :=
  Ends.ite (fun _ => Ends.bind (random_keeps h) fun _ => Ends.pure fun _ h => h)
    fun _ => Ends.pure fun _ h => h

/-- With `-L` there are four operations. -/
theorem opOf_lite (rv : ℕ) (h : C.lite = true) :
    opOf (rv % C.opMax) = .read ∨ opOf (rv % C.opMax) = .write ∨
      opOf (rv % C.opMax) = .mapread ∨ opOf (rv % C.opMax) = .mapwrite := by
  have h4 : C.opMax = 4 := if_pos h
  rw [h4]
  have : rv % 4 = 0 ∨ rv % 4 = 1 ∨ rv % 4 = 2 ∨ rv % 4 = 3 := by omega
  rcases this with h | h | h | h <;> rw [h] <;> simp [opOf]

/-- An operation whose size is drawn and whose range is cut later. -/
theorem Choice.Ok.plain {op : Op} {offset size fileSize : ℕ} {keepSize : Bool}
    (hl : C.lite = true → op = .read ∨ op = .write ∨ op = .mapread ∨ op = .mapwrite)
    (hn : size ≤ C.maxoplen) (h : op ≠ .truncate ∧ op ≠ .cloneRange ∧ op ≠ .copyRange) :
    Choice.Ok C fileSize ⟨op, offset, size, 0, keepSize⟩ where
  lite := hl
  size _ := hn
  cut he := absurd he h.1
  source he := he.elim (fun he => absurd he h.2.1) fun he => absurd he h.2.2
  apart he := absurd he h.2.2

/-- What is chosen can be done. -/
theorem choose_ok (hmax : 0 < C.maxfilelen) (h : Anywhere P E) (hs : ∀ w, P w → w.fileSize = s) :
    Ends P (choose C : Run φ Choice) (fun ch w => P w ∧ ch.Ok C s) E := by
  refine Ends.bind (random_keeps h) fun rv => ?_
  refine Ends.bind (R := fun _ => P) ?_ fun _ => ?_
  · exact Ends.onlyIf (fun _ => Ends.modify fun w hw => h.closeopen w _ hw) fun _ _ h => h
  refine Ends.bind (random_keeps h) fun offset => ?_
  refine Ends.bind (oplen_keeps h) fun size => Ends.of_eq fun w hw => ?_
  have hn := hw.2
  refine Ends.weaken (P := P) ?_ (fun _ hv => hv ▸ hw.1) (fun _ _ h => h) fun _ _ h => h
  refine Ends.get_bind fun w hw => Ends.weaken (P := P) ?_ (fun _ hv => hv ▸ hw) (fun _ _ h => h)
    fun _ _ h => h
  rw [hs w hw]
  have hlite : C.lite = true → _ := opOf_lite rv
  have htrim := trim_le offset size s
  have hlen := trimLen_le (trimOff offset s) size s
  cases hop : opOf (rv % C.opMax) with
  | truncate =>
    rw [hop] at hlite
    refine Ends.bind (random_keeps h) fun r => Ends.pure fun w hw => ⟨hw, ?_⟩
    exact ⟨fun h => absurd (hlite h) (by simp), fun h => absurd rfl h,
      fun _ => Nat.mod_lt _ hmax, fun h => absurd h (by simp), fun h => absurd h (by simp)⟩
  | fallocate =>
    rw [hop] at hlite
    exact Ends.bind (keepOrNot_keeps h) fun _ => Ends.pure fun w hw => ⟨hw, .plain hlite hn (by simp)⟩
  | zeroRange =>
    rw [hop] at hlite
    exact Ends.bind (keepOrNot_keeps h) fun _ => Ends.pure fun w hw => ⟨hw, .plain hlite hn (by simp)⟩
  | cloneRange =>
    rw [hop] at hlite
    dsimp only
    have h1 := alignDown_le C.blockSize (trimOff offset s)
    have h2 := alignDown_le C.blockSize (trimLen (trimOff offset s) size s)
    refine Ends.bind (draw_keeps h) fun dest => Ends.pure fun w hw => ⟨hw.1, ?_⟩
    exact ⟨fun h => absurd (hlite h) (by simp), fun _ => by simp only; omega,
      fun h => absurd h (by simp), fun _ => by simp only; omega, fun h => absurd h (by simp)⟩
  | dedupeRange =>
    rw [hop] at hlite
    dsimp only
    have h2 := alignDown_le C.blockSize (trimLen (trimOff offset s) size s)
    refine Ends.bind (draw_keeps h) fun r => Ends.pure fun w hw => ⟨hw.1, ?_⟩
    refine ⟨fun h => absurd (hlite h) (by simp), fun _ => ?_, fun h => absurd h (by simp),
      fun h => absurd h (by simp), fun h => absurd h (by simp)⟩
    by_cases hr : r.2 = true
    · simp only [if_pos hr]
      omega
    · simp only [if_neg hr]
      exact Nat.zero_le _
  | copyRange =>
    rw [hop] at hlite
    dsimp only
    have h2 := le_of_direct (b := C.readbdy) (n := trimLen (trimOff offset s) size s)
      (o := C.oDirect)
    refine Ends.bind (draw_keeps h) fun dest => Ends.pure fun w hw => ⟨hw.1, ?_⟩
    obtain ⟨-, rs, rs', hr⟩ := hw
    have hfits := fitsAt_apart (pick_fits hr)
    exact ⟨fun h => absurd (hlite h) (by simp), fun _ => by simp only; omega,
      fun h => absurd h (by simp), fun _ => by simp only; omega, fun _ => hfits.1⟩
  | _ =>
    rw [hop] at hlite
    exact Ends.pure fun w hw => ⟨hw, .plain hlite hn (by simp)⟩

end

end Fsx
end Longan
