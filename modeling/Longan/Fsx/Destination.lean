/-
# fsx: the destination of a clone and of a copy

`test` draws the destination of a clone or a copy until one keeps away from
the source and inside `maxfilelen`, however often that takes. Near the size of
the file there is none, and the loop goes on for ever; `destination_stuck`
says when. A `maxfilelen` of three times `maxoplen`, and a write
boundary for a copy, leaves room for every source (`never_stuck`).
-/
import Longan.Fsx.Verdict

namespace Longan
namespace Fsx

/-- The next multiple of `b`. -/
def roundUp (b x : ℕ) : ℕ := (x + b - 1) / b * b

theorem le_roundUp {b : ℕ} (hb : 0 < b) (x : ℕ) : x ≤ roundUp b x := by
  unfold roundUp
  have h1 := Nat.div_add_mod (x + b - 1) b
  have h2 := Nat.mod_lt (x + b - 1) hb
  rw [Nat.mul_comm] at h1
  omega

theorem roundUp_lt {b : ℕ} (hb : 0 < b) (x : ℕ) : roundUp b x < x + b := by
  unfold roundUp
  have := Nat.div_mul_le_self (x + b - 1) b
  omega

theorem roundUp_mod (b x : ℕ) : roundUp b x % b = 0 := Nat.mul_mod_left _ _

/-- No multiple lies between. -/
theorem roundUp_le {b x y : ℕ} (hb : 0 < b) (hy : y % b = 0) (h : x ≤ y) : roundUp b x ≤ y := by
  obtain ⟨k, rfl⟩ := Nat.dvd_of_mod_eq_zero hy
  unfold roundUp
  have h1 : (x + b - 1) / b < k + 1 := by
    rw [Nat.div_lt_iff_lt_mul hb, Nat.succ_mul, Nat.mul_comm]
    omega
  rw [Nat.mul_comm b k]
  exact Nat.mul_le_mul_right b (Nat.le_of_lt_succ h1)

theorem roundUp_of_mod {b x : ℕ} (hb : 0 < b) (hx : x % b = 0) : roundUp b x = x :=
  Nat.le_antisymm (roundUp_le hb hx (Nat.le_refl x)) (le_roundUp hb x)

/-- There is a place for the destination just when there is one at the
beginning of the file or behind the source. -/
theorem destination_iff {b off len limit : ℕ} (hb : 0 < b) (hpos : 0 < limit)
    (hlim : limit ≤ 2 ^ 31) (hin : off + len ≤ limit) :
    (∃ r < 2 ^ 31, fitsAt off len limit (alignDown b (trimOff r limit)) = true) ↔
      len ≤ off ∨ roundUp b (off + len) + len ≤ limit := by
  constructor
  · rintro ⟨r, -, hr⟩
    obtain ⟨happ, hle⟩ := fitsAt_apart hr
    rcases happ with h | h
    · have := roundUp_le hb (alignDown_mod b (trimOff r limit)) h
      omega
    · omega
  · -- a multiple of `b` below the limit is its own place
    have hplace : ∀ d, d % b = 0 → d < limit → alignDown b (trimOff d limit) = d := by
      intro d hd hlt
      unfold trimOff
      rw [if_neg (by omega), Nat.mod_eq_of_lt hlt, alignDown_of_mod hd]
    have hfits : ∀ d, (d + len ≤ off ∨ off + len ≤ d) → d + len ≤ limit →
        fitsAt off len limit d = true := by
      intro d h1 h2
      unfold fitsAt distance
      simp only [Bool.not_eq_true', Bool.or_eq_false_iff, decide_eq_false_iff_not]
      omega
    intro h
    by_cases h0 : len ≤ off
    · refine ⟨0, by omega, ?_⟩
      rw [hplace 0 (Nat.zero_mod b) hpos]
      exact hfits 0 (by omega) (by omega)
    · have h1 := le_roundUp hb (off + len)
      have hup : roundUp b (off + len) + len ≤ limit := h.resolve_left h0
      refine ⟨roundUp b (off + len), by omega, ?_⟩
      rw [hplace _ (roundUp_mod b _) (by omega)]
      exact hfits _ (by omega) hup

theorem pick_eq_none {place : ℕ → ℕ} {fits : ℕ → Bool} : ∀ {rs : List ℕ},
    pick place fits rs = none ↔ ∀ r ∈ rs, fits (place r) = false
  | [] => by simp [pick]
  | r :: rs => by
    rw [pick]
    cases h : fits (place r) with
    | true => simp [h]
    | false =>
      have ih : pick place fits rs = none ↔ _ := pick_eq_none
      simp [h, ih]

/-- The loop never ends, whatever is drawn, just when no number is good. -/
theorem pick_stuck {place : ℕ → ℕ} {fits : ℕ → Bool} {bound : ℕ} :
    (∀ rs : List ℕ, (∀ r ∈ rs, r < bound) → pick place fits rs = none) ↔
      ¬ ∃ r < bound, fits (place r) = true := by
  constructor
  · rintro h ⟨r, hr, hf⟩
    have h1 := pick_eq_none.mp (h [r] (by simpa using hr)) r (by simp)
    rw [hf] at h1
    exact Bool.noConfusion h1
  · intro h rs hrs
    refine pick_eq_none.mpr fun r hr => ?_
    exact Bool.eq_false_iff.mpr fun hf => h ⟨r, hrs r hr, hf⟩

section

variable {φ : Type} {C : Config}

/-- The random numbers of a call: one for the operation, one for the offset,
with `-O` none for the size, and those for the destination. -/
def Config.draws (C : Config) (rv offset r : ℕ) (rest : List ℕ) : List ℕ :=
  rv :: offset :: if C.randomoplen then r :: rest else rest

/-- The size that is drawn with them. -/
def Config.drawnSize (C : Config) (r : ℕ) : ℕ :=
  if C.randomoplen then r % (C.maxoplen + 1) else C.maxoplen

/-- The numbers before the destination are used up first. -/
theorem draws_spent {α : Type} (w : World φ) (rv offset r : ℕ) (rest : List ℕ)
    (K : ℕ → ℕ → ℕ → Run φ α) : ∃ w0 : World φ, w0.random = rest ∧ w0.fileSize = w.fileSize ∧
      (do
        let rv ← random
        onlyIf (C.closeprob ≠ 0)
          (modify fun w => { w with closeopen := decide (rv / 2 ^ 3 < 2 ^ 28 / C.closeprob) })
        let offset ← random
        let size ← oplen C
        K rv offset size : Run φ α) { w with random := C.draws rv offset r rest } =
      K rv offset (C.drawnSize r) w0 := by
  refine ⟨{ w with
    random := rest
    closeopen := if C.closeprob ≠ 0 then decide (rv / 2 ^ 3 < 2 ^ 28 / C.closeprob)
      else w.closeopen }, rfl, rfl, ?_⟩
  unfold Config.draws Config.drawnSize onlyIf oplen
  by_cases h1 : C.closeprob ≠ 0
  · by_cases h2 : C.randomoplen = true
    · simp only [if_pos h1, if_pos h2]
      rfl
    · simp only [if_pos h1, if_neg h2]
      rfl
  · by_cases h2 : C.randomoplen = true
    · simp only [if_neg h1, if_pos h2]
      rfl
    · simp only [if_neg h1, if_neg h2]
      rfl

/-- The source of a clone, as it is drawn. -/
def Config.cloneSource (C : Config) (fileSize offset size : ℕ) : ℕ × ℕ :=
  (alignDown C.blockSize (trimOff offset fileSize),
    alignDown C.blockSize (trimLen (trimOff offset fileSize) size fileSize))

/-- The source of a copy. -/
def Config.copySource (C : Config) (fileSize offset size : ℕ) : ℕ × ℕ :=
  (alignDown C.readbdy (trimOff offset fileSize),
    if C.oDirect then alignDown C.readbdy (trimLen (trimOff offset fileSize) size fileSize)
    else trimLen (trimOff offset fileSize) size fileSize)

/-- No call of `test` with these random numbers gets as far as an operation. -/
def Stuck (C : Config) (w : World φ) (rv offset r : ℕ) : Prop :=
  ∀ rest : List ℕ, (∀ x ∈ rest, x < 2 ^ 31) →
    ∃ w', choose C { w with random := C.draws rv offset r rest } = .error (.cut, w')

/-- What is left of `choose` is the loop. -/
theorem stuck_iff {w : World φ} {rv offset r : ℕ} {place : ℕ → ℕ} {fits : ℕ → Bool}
    {m : ℕ → Choice}
    (h : ∀ rest, ∃ w0 : World φ, w0.random = rest ∧
      choose C { w with random := C.draws rv offset r rest } =
        (draw (pick place fits) >>= fun dest => pure (m dest) : Run φ Choice) w0) :
    Stuck C w rv offset r ↔ ¬ ∃ x < 2 ^ 31, fits (place x) = true := by
  rw [← pick_stuck]
  refine forall_congr' fun rest => forall_congr' fun _ => ?_
  obtain ⟨w0, hw0, he⟩ := h rest
  rw [he]
  show (∃ w', Except.bind (draw (pick place fits) w0) _ = _) ↔ _
  unfold draw
  rw [hw0]
  cases pick place fits rest with
  | none => exact iff_of_true ⟨w0, rfl⟩ rfl
  | some x => exact iff_of_false (fun ⟨_, h⟩ => by cases h) (by simp)

theorem clone_loop {w : World φ} {rv offset r : ℕ} (hop : opOf (rv % C.opMax) = .cloneRange) :
    Stuck C w rv offset r ↔ ¬ ∃ x < 2 ^ 31,
      fitsAt (C.cloneSource w.fileSize offset (C.drawnSize r)).1
        (C.cloneSource w.fileSize offset (C.drawnSize r)).2 C.maxfilelen (C.clonePlace x) = true := by
  refine stuck_iff (m := fun dest => ⟨.cloneRange, (C.cloneSource w.fileSize offset (C.drawnSize r)).1,
    (C.cloneSource w.fileSize offset (C.drawnSize r)).2, dest, false⟩) fun rest => ?_
  obtain ⟨w0, h1, h2, h3⟩ := draws_spent (C := C) w rv offset r rest _
  refine ⟨w0, h1, h3.trans ?_⟩
  simp only [bind, StateT.bind, get, getThe, MonadStateOf.get, StateT.get, Except.bind, pure,
    Except.pure, hop]
  rw [h2]
  rfl

theorem copy_loop {w : World φ} {rv offset r : ℕ} (hop : opOf (rv % C.opMax) = .copyRange) :
    Stuck C w rv offset r ↔ ¬ ∃ x < 2 ^ 31,
      fitsAt (C.copySource w.fileSize offset (C.drawnSize r)).1
        (C.copySource w.fileSize offset (C.drawnSize r)).2 C.maxfilelen (C.copyPlace x) = true := by
  refine stuck_iff (m := fun dest => ⟨.copyRange, (C.copySource w.fileSize offset (C.drawnSize r)).1,
    (C.copySource w.fileSize offset (C.drawnSize r)).2, dest, false⟩) fun rest => ?_
  obtain ⟨w0, h1, h2, h3⟩ := draws_spent (C := C) w rv offset r rest _
  refine ⟨w0, h1, h3.trans ?_⟩
  simp only [bind, StateT.bind, get, getThe, MonadStateOf.get, StateT.get, Except.bind, pure,
    Except.pure, hop]
  rw [h2]
  rfl

/-- **When fsx hangs.** With at most 2 ^ 31 bytes, a call of `test` that draws a
clone (a copy) never ends, whatever random numbers follow, just when the
source is longer than what is in front of it and, with the next place a
destination can have behind it, does not fit a second time. -/
theorem destination_stuck (hC : C.Ok) (hlim : C.maxfilelen ≤ 2 ^ 31) {w : World φ}
    (hw : w.fileSize ≤ C.maxfilelen) (rv offset r : ℕ) :
    (opOf (rv % C.opMax) = .cloneRange → ∀ off len,
      (off, len) = C.cloneSource w.fileSize offset (C.drawnSize r) →
        (Stuck C w rv offset r ↔ off < len ∧ C.maxfilelen < off + 2 * len)) ∧
    (opOf (rv % C.opMax) = .copyRange → ∀ off len,
      (off, len) = C.copySource w.fileSize offset (C.drawnSize r) →
        (Stuck C w rv offset r ↔
          off < len ∧ C.maxfilelen < roundUp C.writebdy (off + len) + len)) := by
  have htrim := trim_le offset (C.drawnSize r) w.fileSize
  constructor
  · intro hop off len he
    have h1 := alignDown_le C.blockSize (trimOff offset w.fileSize)
    have h2 := alignDown_le C.blockSize
      (trimLen (trimOff offset w.fileSize) (C.drawnSize r) w.fileSize)
    obtain ⟨rfl, rfl⟩ := Prod.mk.inj he
    rw [clone_loop hop]
    have hin : alignDown C.blockSize (trimOff offset w.fileSize) + alignDown C.blockSize
        (trimLen (trimOff offset w.fileSize) (C.drawnSize r) w.fileSize) ≤ C.maxfilelen := by omega
    have hiff := destination_iff hC.blockSize hC.maxfilelen hlim hin
    rw [roundUp_of_mod hC.blockSize (by
      rw [Nat.add_mod, alignDown_mod, alignDown_mod]
      exact Nat.zero_mod _)] at hiff
    refine (not_congr hiff).trans ?_
    omega
  · intro hop off len he
    have h1 := alignDown_le C.readbdy (trimOff offset w.fileSize)
    have h2 := le_of_direct (b := C.readbdy) (o := C.oDirect)
      (n := trimLen (trimOff offset w.fileSize) (C.drawnSize r) w.fileSize)
    obtain ⟨rfl, rfl⟩ := Prod.mk.inj he
    rw [copy_loop hop]
    refine (not_congr (destination_iff hC.writebdy hC.maxfilelen hlim ?_)).trans ?_
    · exact Nat.le_trans (Nat.add_le_add h1 h2) (Nat.le_trans htrim hw)
    · simp only [Config.copySource]
      omega

/-- A file as long as it may get, and a clone of all of it. -/
theorem destination_stuck_whole :
    Stuck { smallConfig with maxoplen := 16 } { emptyWorld [] with fileSize := 16 } 10 0 16 :=
  ((destination_stuck ⟨by decide, by decide, by decide, by decide, by decide, by decide⟩ (by decide)
    (by decide) 10 0 16).1 (by decide) 0 16 (by decide)).mpr (by decide)

/-- Three times the largest operation, and a write boundary, is room enough. -/
theorem never_stuck (hC : C.Ok) (hlim : C.maxfilelen ≤ 2 ^ 31) {w : World φ}
    (hw : w.fileSize ≤ C.maxfilelen) (h3 : 3 * C.maxoplen + C.writebdy ≤ C.maxfilelen)
    (rv offset r : ℕ)
    (hop : opOf (rv % C.opMax) = .cloneRange ∨ opOf (rv % C.opMax) = .copyRange) :
    ¬ Stuck C w rv offset r := by
  have hsize : C.drawnSize r ≤ C.maxoplen := by
    unfold Config.drawnSize
    by_cases h : C.randomoplen = true
    · rw [if_pos h]
      exact Nat.le_of_lt_succ (Nat.mod_lt _ (Nat.succ_pos _))
    · exact Nat.le_of_eq (if_neg h)
  have hlen := trimLen_le (trimOff offset w.fileSize) (C.drawnSize r) w.fileSize
  have hstuck := destination_stuck hC hlim hw rv offset r
  rcases hop with hop | hop
  · rw [hstuck.1 hop _ _ rfl]
    have h2 := alignDown_le C.blockSize
      (trimLen (trimOff offset w.fileSize) (C.drawnSize r) w.fileSize)
    omega
  · rw [hstuck.2 hop _ _ rfl]
    have h2 := le_of_direct (b := C.readbdy) (o := C.oDirect)
      (n := trimLen (trimOff offset w.fileSize) (C.drawnSize r) w.fileSize)
    rintro ⟨h4, h5⟩
    have h6 := roundUp_lt hC.writebdy (alignDown C.readbdy (trimOff offset w.fileSize) +
      if C.oDirect then alignDown C.readbdy
        (trimLen (trimOff offset w.fileSize) (C.drawnSize r) w.fileSize)
      else trimLen (trimOff offset w.fileSize) (C.drawnSize r) w.fileSize)
    simp only [alignDown] at *
    omega

end

end Fsx
end Longan
