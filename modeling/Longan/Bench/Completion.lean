/-
# hackbench comes to an end

`num_packets` is `num_fds * loops` in 32 bits. As long as that product does
not wrap, no sender meets a closed pipe and no receiver the end of the file
(`no_loss`), every run is finite with an explicit bound, and it can only stop
with every byte delivered and every worker reaped, or with a failed `fork`
(`completes`). When the product wraps, the receivers leave before the senders
are done, and with pipes or threads no run at all ends well (`completes_iff`);
a process whose socket is closed may exit by itself, and `main` goes on.

A failed `fork` ends `main` alone: the workers created before it stay in
`poll`, or in the `write` before it, for ever (`orphans`).
-/
import Longan.Bench.Hackbench

namespace Longan
namespace Hackbench

/-- The product `num_fds * loops` fits in an `unsigned int`. -/
def Config.Fits (C : Config) : Prop := C.numFds * C.loops < 2 ^ 32

theorem pair_fits : pair.Fits := show 1 * 1 < 2 ^ 32 by decide

theorem numPackets_of_fits {C : Config} (h : C.Fits) : C.numPackets = C.numFds * C.loops :=
  Nat.mod_eq_of_lt h

/-! ### No byte is missed -/

section Loss

variable {C : Config} {s : State}

theorem rounds_sender {id : ℕ} (h : ¬ C.IsReceiver id) : C.rounds id = C.loops := if_neg h

theorem rounds_receiver {id : ℕ} (h : C.IsReceiver id) : C.rounds id = C.numPackets := if_pos h

/-- A worker that has ended has gone through its loop. -/
def Finished (C : Config) (s : State) : Prop :=
  ∀ id, s.phase id = .exited ∨ s.phase id = .reaped → s.cursor id = ⟨C.rounds id, 0, 0⟩

/-- With pipes, and with threads, none is stopped in it but by a signal. -/
theorem finished_of_not_mayRefuse (hi : Inv C s) (h : ¬ C.MayRefuse) : Finished C s := by
  intro id hp
  have hw := hi.worker id
  rcases hp with hp | hp
  · rw [hp] at hw
    exact hw.2
  · rw [hp] at hw
    exact hw.2.resolve_right fun hs => h hs.2

/-- A sender that returned has written its share to every receiver. -/
theorem sent_all {id : ℕ} (hf : Finished C s) (hid : ¬ C.IsReceiver id)
    (hp : s.phase id = .exited ∨ s.phase id = .reaped) (r : ℕ) :
    (s.cursor id).sentTo r = C.loops * dataSize := by
  rw [hf id hp, rounds_sender hid]
  simp [Cursor.sentTo]

/-- A receiver that returned has read its packets. -/
theorem got_all {id : ℕ} (hi : Inv C s) (hid : C.IsReceiver id)
    (hp : s.phase id = .exited ∨ s.phase id = .reaped) :
    (s.cursor id).got = C.numPackets * dataSize := by
  have h := hi.worker id
  have hc : s.cursor id = ⟨C.rounds id, 0, 0⟩ := by
    rcases hp with hp | hp
    · rw [hp] at h
      exact h.2
    · rw [hp] at h
      exact h.2.resolve_right fun hs => hs.1.2.2.2 hid
  rw [hc, rounds_receiver hid, Cursor.got]
  rfl

/-- A sender never writes more than its share, and while it is in its loop it
still owes a byte to the receiver it is at. -/
theorem sentTo_le {id : ℕ} (hi : Inv C s) (hid : ¬ C.IsReceiver id) (r : ℕ) :
    (s.cursor id).sentTo r ≤ C.loops * dataSize := by
  have h := hi.worker id
  have hloop : ∀ c : Cursor, c.i < C.loops → c.done < dataSize →
      c.sentTo r ≤ C.loops * dataSize := by
    intro c h1 h2
    have h3 : (c.i + 1) * dataSize ≤ C.loops * dataSize := Nat.mul_le_mul_right _ h1
    rw [Nat.add_mul, Nat.one_mul] at h3
    unfold Cursor.sentTo
    by_cases h4 : r < c.j
    · rw [if_pos h4]
      exact h3
    · rw [if_neg h4]
      by_cases h5 : r = c.j
      · rw [if_pos h5]
        omega
      · rw [if_neg h5]
        omega
  have hdone : ∀ c : Cursor, c = ⟨C.rounds id, 0, 0⟩ → c.sentTo r ≤ C.loops * dataSize := by
    rintro c rfl
    rw [rounds_sender hid]
    simp [Cursor.sentTo]
  cases hp : s.phase id with
  | absent | start | waiting =>
    rw [hp] at h
    rw [show s.cursor id = ⟨0, 0, 0⟩ from h, sentTo_zero]
    exact Nat.zero_le _
  | running =>
    rw [hp] at h
    exact hloop _ (rounds_sender hid ▸ h.2.1) h.2.2.2.1
  | killed =>
    rw [hp] at h
    exact hloop _ (rounds_sender hid ▸ h.2.1) h.2.2.2.1
  | barfed =>
    rw [hp] at h
    exact hloop _ (rounds_sender hid ▸ h.2.1.1) h.2.1.2.2.1
  | exited =>
    rw [hp] at h
    exact hdone _ h.2
  | reaped =>
    rw [hp] at h
    rcases h.2 with hc | hs
    · exact hdone _ hc
    · exact hloop _ (rounds_sender hid ▸ hs.1.1) hs.1.2.2.1

theorem sentTo_lt {id : ℕ} (hi : Inv C s) (hid : ¬ C.IsReceiver id) (hp : s.phase id = .running) :
    (s.cursor id).sentTo (s.cursor id).j < C.loops * dataSize := by
  have h := hi.worker id
  rw [hp] at h
  obtain ⟨-, h1, -, h2, -⟩ := h
  rw [rounds_sender hid] at h1
  have h3 : ((s.cursor id).i + 1) * dataSize ≤ C.loops * dataSize := Nat.mul_le_mul_right _ h1
  rw [Nat.add_mul, Nat.one_mul] at h3
  simp only [Cursor.sentTo, Nat.lt_irrefl, if_false, if_true]
  omega

theorem sender_slot {g x : ℕ} (hx : x < C.numFds) :
    ¬ C.IsReceiver (g * C.groupSize + (C.numFds + x)) := by
  rw [isReceiver_slot C (sender_slot_lt C hx)]
  omega

/-- While one sender owes a byte to its receiver, the group does. -/
theorem groupSent_lt (hi : Inv C s) {g x r : ℕ} (hx : x < C.numFds)
    (hlt : (s.cursor (g * C.groupSize + (C.numFds + x))).sentTo r < C.loops * dataSize) :
    groupSent C s.cursor g r < C.numFds * (C.loops * dataSize) := by
  unfold groupSent
  calc ∑ x ∈ Finset.range C.numFds, (s.cursor (g * C.groupSize + (C.numFds + x))).sentTo r
      < ∑ _x ∈ Finset.range C.numFds, C.loops * dataSize :=
        Finset.sum_lt_sum
          (fun x hx => sentTo_le hi (sender_slot (Finset.mem_range.mp hx)) r)
          ⟨x, Finset.mem_range.mpr hx, hlt⟩
    _ = C.numFds * (C.loops * dataSize) := by
        rw [Finset.sum_const_nat fun _ _ => rfl, Finset.card_range]

/-- The receiver a running sender is at has not returned. -/
theorem peer_not_gone (hf : C.Fits) (hi : Inv C s) {id : ℕ} (hid : ¬ C.IsReceiver id)
    (hp : s.phase id = .running) : (s.phase (C.peer id (s.cursor id).j)).gone = false := by
  have hw := hi.worker id
  rw [hp] at hw
  have hj : (s.cursor id).j < C.numFds := hw.2.2.1
  obtain ⟨x, hx, hx'⟩ := sender_place C hid
  have hplace : id / C.groupSize * C.groupSize + (C.numFds + x) = id :=
    (slot_eq_iff C (sender_slot_lt C hx)).mpr ⟨rfl, hx'.symm⟩
  have hlt := groupSent_lt hi hx (r := (s.cursor id).j) (by rw [hplace]; exact sentTo_lt hi hid hp)
  have hcons := hi.conserved (id / C.groupSize) (s.cursor id).j hj
  have hrecv : C.IsReceiver (C.peer id (s.cursor id).j) :=
    (isReceiver_slot C (receiver_slot_lt C hj)).mpr hj
  -- a receiver that returned has read all the group can write
  have hend : ¬ (s.phase (C.peer id (s.cursor id).j) = .exited ∨
      s.phase (C.peer id (s.cursor id).j) = .reaped) := by
    intro he
    rw [show id / C.groupSize * C.groupSize + (s.cursor id).j = C.peer id (s.cursor id).j from rfl,
      got_all hi hrecv he, numPackets_of_fits hf, Nat.mul_assoc] at hcons
    omega
  cases hph : s.phase (C.peer id (s.cursor id).j) with
  | absent | start | waiting | running => rfl
  | exited => exact absurd (Or.inl hph) hend
  | reaped => exact absurd (Or.inr hph) hend
  | killed =>
    have hpeer := hi.worker (C.peer id (s.cursor id).j)
    rw [hph] at hpeer
    exact absurd hrecv hpeer.2.2.2.2
  | barfed =>
    have hpeer := hi.worker (C.peer id (s.cursor id).j)
    rw [hph] at hpeer
    exact absurd hrecv hpeer.2.1.2.2.2

/-- What holds on top of the invariant while the product fits. -/
structure Sound (C : Config) (s : State) : Prop extends Inv C s where
  unkilled : ∀ id, s.phase id ≠ .killed ∧ s.phase id ≠ .barfed
  finished : Finished C s
  failed : s.stage = .failed → s.woken = false

theorem not_broken (hf : C.Fits) (hi : Inv C s) (id : ℕ) : ¬ s.Can C (.broken id) := by
  rintro ⟨-, hp, hid, -, hgone⟩
  exact Bool.noConfusion (hgone.symm.trans (peer_not_gone hf hi hid hp))

theorem not_refused (hf : C.Fits) (hi : Inv C s) (id : ℕ) : ¬ s.Can C (.refused id) := fun h =>
  not_broken hf hi id ⟨h.1, h.2.1, h.2.2.1, h.2.2.2.1⟩

/-- A channel that holds nothing while its receiver waits for more has a
sender of the group that is not through. -/
theorem sender_left (hf : C.Fits) (hs : Sound C s) {id : ℕ} (hid : C.IsReceiver id)
    (hp : s.phase id = .running) (hch : s.chan id = 0) :
    ∃ x < C.numFds, (s.phase (C.base id + (C.numFds + x))).gone = false := by
  by_contra hno
  have hw := hs.worker id
  rw [hp, WorkerOk, rounds_receiver hid, numPackets_of_fits hf] at hw
  obtain ⟨-, hi, -, hd, -⟩ := hw
  have hplace : id / C.groupSize * C.groupSize + id % C.groupSize = id := Nat.div_add_mod' _ _
  have hcons := hs.conserved (id / C.groupSize) (id % C.groupSize) hid
  rw [hplace, hch, Cursor.got] at hcons
  have hall : groupSent C s.cursor (id / C.groupSize) (id % C.groupSize) =
      C.numFds * (C.loops * dataSize) := by
    unfold groupSent
    rw [Finset.sum_const_nat (m := C.loops * dataSize), Finset.card_range]
    intro x hx
    have hx' := Finset.mem_range.mp hx
    have hgone : (s.phase (C.base id + (C.numFds + x))).gone = true := by
      by_contra hne
      exact hno ⟨x, hx', Bool.not_eq_true _ ▸ hne⟩
    rw [show id / C.groupSize * C.groupSize + (C.numFds + x) = C.base id + (C.numFds + x) from rfl]
    cases hpx : s.phase (C.base id + (C.numFds + x)) with
    | absent | start | waiting | running => simp [hpx, Phase.gone] at hgone
    | killed => exact absurd hpx (hs.unkilled _).1
    | barfed => exact absurd hpx (hs.unkilled _).2
    | exited => exact sent_all hs.finished (sender_slot hx') (Or.inl hpx) _
    | reaped => exact sent_all hs.finished (sender_slot hx') (Or.inr hpx) _
  have h1 : ((s.cursor id).i + 1) * dataSize ≤ C.numFds * C.loops * dataSize :=
    Nat.mul_le_mul_right _ hi
  rw [hall, ← Nat.mul_assoc] at hcons
  rw [Nat.add_mul, Nat.one_mul] at h1
  omega

theorem not_eof (hf : C.Fits) (hs : Sound C s) (id : ℕ) : ¬ s.Can C (.eof id) := by
  rintro ⟨-, hp, hid, hch, -, hall⟩
  obtain ⟨x, hx, hno⟩ := sender_left hf hs hid hp hch
  have h1 := List.all_eq_true.mp hall (C.numFds + x) (List.mem_range.mpr (sender_slot_lt C hx))
  have h2 : id < C.base id + (C.numFds + x) := by
    have h3 : C.base id + id % C.groupSize = id := Nat.div_add_mod' _ _
    have h4 : id % C.groupSize < C.numFds := hid
    omega
  simp [hno, decide_eq_true h2] at h1

/-- A new phase of one worker that keeps `Finished`. -/
theorem Finished.update (h : Finished C s) {s' : State} {x : ℕ} {p : Phase} {c : Cursor}
    (hp : s'.phase = Function.update s.phase x p) (hc : s'.cursor = Function.update s.cursor x c)
    (hx : p = .exited ∨ p = .reaped → c = ⟨C.rounds x, 0, 0⟩) : Finished C s' := by
  intro id hid
  rw [hp] at hid
  rw [hc]
  by_cases he : id = x
  · subst he
    rw [Function.update_self] at hid ⊢
    exact hx hid
  · rw [Function.update_of_ne he] at hid ⊢
    exact h id hid

theorem finished_step (hf : C.Fits) {a : Act} (hs : Sound C s) (hi : Inv C (s.after C a))
    (hc : s.Can C a) : Finished C (s.after C a) := by
  have hself : ∀ x, s.cursor = Function.update s.cursor x (s.cursor x) := fun x =>
    (Function.update_eq_self _ _).symm
  -- a worker that leaves its loop by itself is through
  have hloop : ∀ (x : ℕ) (c : Cursor), C.proceed x c = .exited ∨ C.proceed x c = .reaped →
      WorkerOk C (s.after C a).woken x c (C.proceed x c) → c = ⟨C.rounds x, 0, 0⟩ := by
    intro x c hp hok
    rcases hp with hp | hp
    · rw [hp] at hok
      exact hok.2
    · exact absurd hp (proceed_cases x c).2
  have hok := hi.worker
  cases a with
  | create => exact hs.finished.update rfl (hself s.i) (by simp)
  | report x => exact hs.finished.update rfl (hself x) (by simp)
  | createFails | created | collect | kick | finish | eof _ => exact hs.finished
  | reap x =>
    have hk := (hs.unkilled x).1
    simp only [State.after, if_neg hk]
    refine hs.finished.update rfl (hself x) fun _ => hs.finished x (.inl ?_)
    exact hc.2.2.1.resolve_right fun h => h.elim (hs.unkilled x).2 hk
  | wake x | write x k | read x k =>
    refine hs.finished.update rfl rfl fun hp => hloop x _ hp ?_
    have hx := hok x
    simp only [State.after, State.move, Function.update_self] at hx
    exact hx
  | broken x => exact absurd hc (not_broken hf hs.toInv x)
  | refused x => exact absurd hc (not_refused hf hs.toInv x)

theorem sound_step (hf : C.Fits) {a : Act} {s' : State} (hs : Sound C s)
    (h : step C s a = some s') : Sound C s' := by
  have hi := inv_step hs.toInv h
  obtain ⟨hc, rfl⟩ := step_eq_some.mp h
  have hfin := finished_step hf hs hi hc
  have hun : ∀ x p, p ≠ .killed ∧ p ≠ .barfed →
      ∀ id, Function.update s.phase x p id ≠ .killed ∧ Function.update s.phase x p id ≠ .barfed := by
    intro x p hp id
    by_cases he : id = x
    · rwa [he, Function.update_self]
    · rw [Function.update_of_ne he]
      exact hs.unkilled id
  have hpro : ∀ x c, C.proceed x c ≠ .killed ∧ C.proceed x c ≠ .barfed := by
    intro x c
    unfold Config.proceed
    by_cases h1 : c.i < C.rounds x
    · rw [if_pos h1]
      simp
    · rw [if_neg h1]
      simp
  cases a with
  | create => exact ⟨hi, hun _ _ (by simp), hfin, hs.failed⟩
  | report x => exact ⟨hi, hun _ _ (by simp), hfin, hs.failed⟩
  | createFails => exact ⟨hi, hs.unkilled, hfin, fun _ => (hs.main.creating hc.1).2.1⟩
  | collect | eof _ => exact ⟨hi, hs.unkilled, hfin, hs.failed⟩
  | created | kick | finish => exact ⟨hi, hs.unkilled, hfin, by simp [State.after]⟩
  | reap x =>
    have hk : s.phase x ≠ .killed := (hs.unkilled x).1
    simp only [State.after, if_neg hk] at hi hfin ⊢
    exact ⟨hi, hun _ _ (by simp), hfin, hs.failed⟩
  | wake x | write x k | read x k => exact ⟨hi, hun _ _ (hpro _ _), hfin, hs.failed⟩
  | broken x => exact absurd hc (not_broken hf hs.toInv x)
  | refused x => exact absurd hc (not_refused hf hs.toInv x)

theorem sound_init (C : Config) : Sound C init :=
  ⟨inv_init C, by simp [init], by simp [Finished, init], by simp [init]⟩

theorem sound_run (hf : C.Fits) {as : List Act} (h : run (step C) init as = some s) : Sound C s :=
  run_inv' (fun _ _ _ hI hs => sound_step hf hI hs) as init s (sound_init C) h

/-- **No byte is lost.** In every state of every run what the senders of a
group have written to a receiver is what it has read and what is on its way;
and as long as the number of packets fits in 32 bits, no sender meets a pipe or
socket nobody reads and no receiver the end of its file. -/
theorem no_loss (C : Config) {as : List Act} (h : run (step C) init as = some s) :
    Conserved C s ∧ (C.Fits → ∀ id, step C s (.broken id) = none ∧ step C s (.refused id) = none ∧
      step C s (.eof id) = none) := by
  refine ⟨(inv_run C h).conserved, fun hf id => ?_⟩
  have hs := sound_run hf h
  exact ⟨if_neg (not_broken hf hs.toInv id), if_neg (not_refused hf hs.toInv id),
    if_neg (not_eof hf hs id)⟩

theorem no_loss_pair : Conserved pair pairState ∧
    (pair.Fits → ∀ id, step pair pairState (.broken id) = none ∧
      step pair pairState (.refused id) = none ∧ step pair pairState (.eof id) = none) :=
  no_loss pair run_pair

end Loss

/-! ### No run goes on for ever -/

section Bound

variable (C : Config) (s : State)

/-- The bytes a worker has moved. -/
def Config.position (id : ℕ) (c : Cursor) : ℕ :=
  if C.IsReceiver id then c.got else (c.i * C.numFds + c.j) * dataSize + c.done

/-- The bytes a worker moves in all. -/
def Config.share (id : ℕ) : ℕ :=
  if C.IsReceiver id then C.numPackets * dataSize else C.loops * C.numFds * dataSize

/-- The steps a worker has left at most. -/
def workLeft (id : ℕ) (c : Cursor) : Phase → ℕ
  | .absent | .start => C.share id + 2
  | .waiting => C.share id + 1
  | .running => C.share id - C.position id c
  | .exited | .barfed | .killed | .reaped => 0

/-- The steps `main` has left at most. -/
def State.mainLeft : ℕ :=
  match s.stage with
  | .creating => (C.totalChildren - s.i) + 2 * C.totalChildren + 3
  | .collecting => (C.totalChildren - s.i) + C.totalChildren + 2
  | .reaping => (C.totalChildren - s.i) + 1
  | .done | .failed => 0

def workersLeft : ℕ :=
  ∑ id ∈ Finset.range C.totalChildren, workLeft C id (s.cursor id) (s.phase id)

def stepsLeft : ℕ := s.mainLeft C + workersLeft C s

variable {C s}

/-- Inside its loop a worker has not moved all its bytes. -/
theorem position_lt {id : ℕ} {c : Cursor} (hi : c.i < C.rounds id) (hj : c.j < C.numFds)
    (hd : c.done < dataSize) : C.position id c < C.share id := by
  unfold Config.position Config.share
  by_cases h : C.IsReceiver id
  · rw [if_pos h, if_pos h]
    rw [rounds_receiver h] at hi
    have h1 : (c.i + 1) * dataSize ≤ C.numPackets * dataSize := Nat.mul_le_mul_right _ hi
    rw [Nat.add_mul, Nat.one_mul] at h1
    unfold Cursor.got
    omega
  · rw [if_neg h, if_neg h]
    rw [rounds_sender h] at hi
    have h1 : (c.i + 1) * C.numFds ≤ C.loops * C.numFds := Nat.mul_le_mul_right _ hi
    rw [Nat.add_mul, Nat.one_mul] at h1
    have h2 : (c.i * C.numFds + c.j + 1) * dataSize ≤ C.loops * C.numFds * dataSize :=
      Nat.mul_le_mul_right _ (by omega)
    rw [Nat.add_mul, Nat.one_mul] at h2
    omega

theorem position_sent {id k : ℕ} {c : Cursor} (h : ¬ C.IsReceiver id) (hj : c.j < C.numFds)
    (hk : c.done + k ≤ dataSize) : C.position id (c.sent C k) = C.position id c + k := by
  simp only [Config.position, if_neg h, Cursor.sent]
  by_cases h1 : c.done + k < dataSize
  · rw [if_pos h1]
    simp only
    omega
  · rw [if_neg h1]
    have hnext : (c.i * C.numFds + c.j + 1) * dataSize =
        (c.i * C.numFds + c.j) * dataSize + dataSize := Nat.succ_mul _ _
    by_cases h2 : c.j + 1 < C.numFds
    · rw [if_pos h2]
      simp only
      rw [← Nat.add_assoc]
      omega
    · rw [if_neg h2]
      have h3 : (c.i + 1) * C.numFds = c.i * C.numFds + c.j + 1 := by
        rw [Nat.succ_mul]
        omega
      simp only [Nat.add_zero]
      rw [h3]
      omega

/-- After some more bytes a worker has fewer left. -/
theorem workLeft_proceed {id k : ℕ} {c c' : Cursor} (hk : 0 < k)
    (hpos : C.position id c' = C.position id c + k) (hlt : C.position id c < C.share id) :
    workLeft C id c' (C.proceed id c') < workLeft C id c .running := by
  unfold Config.proceed
  by_cases h : c'.i < C.rounds id
  · rw [if_pos h, workLeft, workLeft, hpos]
    omega
  · rw [if_neg h, workLeft, workLeft]
    omega

theorem workersLeft_move {id : ℕ} {c : Cursor} {p : Phase} (hid : id < C.totalChildren) {s' : State}
    (hp : s'.phase = Function.update s.phase id p) (hc : s'.cursor = Function.update s.cursor id c)
    (hlt : workLeft C id c p < workLeft C id (s.cursor id) (s.phase id)) :
    workersLeft C s' < workersLeft C s := by
  unfold workersLeft
  rw [hp, hc]
  apply Finset.sum_lt_sum
  · intro x _
    by_cases hx : x = id
    · rw [hx, Function.update_self, Function.update_self]
      exact le_of_lt hlt
    · rw [Function.update_of_ne hx, Function.update_of_ne hx]
  · refine ⟨id, Finset.mem_range.mpr hid, ?_⟩
    rw [Function.update_self, Function.update_self]
    exact hlt

/-- A new phase in which the worker has no more left than before. -/
theorem workersLeft_phase {id : ℕ} {p : Phase} {s' : State}
    (hp : s'.phase = Function.update s.phase id p) (hc : s'.cursor = s.cursor)
    (hle : workLeft C id (s.cursor id) p ≤ workLeft C id (s.cursor id) (s.phase id)) :
    workersLeft C s' ≤ workersLeft C s := by
  unfold workersLeft
  rw [hp, hc]
  apply Finset.sum_le_sum
  intro x _
  by_cases hx : x = id
  · rw [hx, Function.update_self]
    exact hle
  · rw [Function.update_of_ne hx]

/-- Every step but the reading of an end of file leaves fewer steps. -/
theorem stepsLeft_step (hi : Inv C s) {a : Act} (hc : s.Can C a) (ha : ∀ id, a ≠ .eof id) :
    stepsLeft C (s.after C a) < stepsLeft C s := by
  have hmem : ∀ id, s.phase id ≠ .absent → id < C.totalChildren := fun id h =>
    lt_of_not_absent hi.main h
  unfold stepsLeft
  cases a with
  | create =>
    obtain ⟨hst, hlt⟩ := hc
    have h1 : workersLeft C (s.after C .create) ≤ workersLeft C s := by
      apply @workersLeft_phase C s s.i .start (s.after C .create) rfl rfl
      rw [((hi.main.creating hst).2.2 s.i).mpr (Nat.le_refl _)]
      exact Nat.le_refl _
    have h2 : (s.after C .create).mainLeft C < s.mainLeft C := by
      simp only [State.mainLeft, State.after, hst]
      omega
    omega
  | createFails =>
    have h2 : (s.after C .createFails).mainLeft C < s.mainLeft C := by
      simp only [State.mainLeft, State.after, hc.1]
      omega
    exact Nat.add_lt_add_right h2 _
  | created =>
    have h2 : (s.after C .created).mainLeft C < s.mainLeft C := by
      simp only [State.mainLeft, State.after, hc.1]
      omega
    exact Nat.add_lt_add_right h2 _
  | collect =>
    obtain ⟨hst, hlt, -⟩ := hc
    have h2 : (s.after C .collect).mainLeft C < s.mainLeft C := by
      simp only [State.mainLeft, State.after, hst]
      omega
    exact Nat.add_lt_add_right h2 _
  | kick =>
    have h2 : (s.after C .kick).mainLeft C < s.mainLeft C := by
      simp only [State.mainLeft, State.after, hc.1]
      omega
    exact Nat.add_lt_add_right h2 _
  | finish =>
    have h2 : (s.after C .finish).mainLeft C < s.mainLeft C := by
      simp only [State.mainLeft, State.after, hc.1]
      omega
    exact Nat.add_lt_add_right h2 _
  | reap x =>
    obtain ⟨hst, hlt, hp, -⟩ := hc
    by_cases hk : s.phase x = .killed
    · simp only [State.after, if_pos hk]
      have h2 : State.mainLeft C { s with stage := .failed } < s.mainLeft C := by
        simp only [State.mainLeft, hst]
        omega
      exact Nat.add_lt_add_right h2 _
    · simp only [State.after, if_neg hk]
      have h1 : workersLeft C { s with i := s.i + 1, phase := Function.update s.phase x .reaped } ≤
          workersLeft C s := workersLeft_phase rfl rfl (Nat.zero_le _)
      have h2 : State.mainLeft C
          { s with i := s.i + 1, phase := Function.update s.phase x .reaped } < s.mainLeft C := by
        simp only [State.mainLeft, hst]
        omega
      omega
  | report x =>
    have h1 : workersLeft C (s.after C (.report x)) < workersLeft C s := by
      have hcur : (s.after C (.report x)).cursor = Function.update s.cursor x (s.cursor x) :=
        (Function.update_eq_self _ _).symm
      apply workersLeft_move (p := Phase.waiting) (hmem x ?_) rfl hcur
      · rw [hc.2.1, workLeft, workLeft]
        exact Nat.lt_succ_self _
      · simp [hc.2.1]
    exact Nat.add_lt_add_left h1 _
  | wake x =>
    refine Nat.add_lt_add_left (workersLeft_move (hmem x ?_) rfl rfl ?_) _
    · simp [hc.2.1]
    · rw [hc.2.1]
      unfold Config.proceed
      by_cases h : (s.cursor x).i < C.rounds x
      · rw [if_pos h, workLeft, workLeft]
        omega
      · rw [if_neg h, workLeft, workLeft]
        omega
  | write x k =>
    obtain ⟨-, hp, hr, hk, hd, -⟩ := hc
    have hw := hi.worker x
    rw [hp] at hw
    refine Nat.add_lt_add_left (workersLeft_move (hmem x (by simp [hp])) rfl rfl ?_) _
    rw [hp]
    exact workLeft_proceed hk (position_sent hr hw.2.2.1 hd)
      (position_lt hw.2.1 hw.2.2.1 hw.2.2.2.1)
  | broken x | refused x =>
    have hw := hi.worker x
    rw [hc.2.1] at hw
    refine Nat.add_lt_add_left (workersLeft_move (hmem x ?_) rfl rfl ?_) _
    · simp [hc.2.1]
    · rw [hc.2.1, workLeft, workLeft]
      have := position_lt hw.2.1 hw.2.2.1 hw.2.2.2.1
      omega
  | read x k =>
    obtain ⟨-, hp, hr, hk, hd, -⟩ := hc
    have hw := hi.worker x
    rw [hp] at hw
    refine Nat.add_lt_add_left (workersLeft_move (hmem x (by simp [hp])) rfl rfl ?_) _
    rw [hp]
    refine workLeft_proceed hk ?_ (position_lt hw.2.1 hw.2.2.1 hw.2.2.2.1)
    rw [Config.position, Config.position, if_pos hr, if_pos hr]
    exact got_received hd
  | eof x => exact absurd rfl (ha x)

theorem stepsLeft_init (hf : C.Fits) : stepsLeft C init =
    C.totalChildren * (dataSize * (C.numFds * C.loops) + 5) + 3 := by
  have hshare : ∀ id, C.share id = dataSize * (C.numFds * C.loops) := by
    intro id
    unfold Config.share
    by_cases h : C.IsReceiver id
    · rw [if_pos h, numPackets_of_fits hf, Nat.mul_comm]
    · rw [if_neg h, Nat.mul_comm C.loops, Nat.mul_comm dataSize]
  have hsum : workersLeft C init = C.totalChildren * (dataSize * (C.numFds * C.loops) + 2) := by
    unfold workersLeft
    rw [Finset.sum_const_nat (m := dataSize * (C.numFds * C.loops) + 2) fun x _ => ?_,
      Finset.card_range]
    show C.share x + 2 = _
    rw [hshare]
  rw [stepsLeft, hsum]
  simp only [State.mainLeft, init, Nat.mul_add]
  omega

theorem stepsLeft_sound (hf : C.Fits) {a : Act} {s' : State} (hs : Sound C s)
    (h : step C s a = some s') : stepsLeft C s' < stepsLeft C s := by
  obtain ⟨hc, rfl⟩ := step_eq_some.mp h
  apply stepsLeft_step hs.toInv hc
  rintro id rfl
  exact not_eof hf hs id hc

end Bound

/-! ### Nobody waits for somebody who waits -/

section Progress

variable {C : Config} {s : State}

/-- `fork` and `pthread_create` do what they are asked for. -/
def Act.succeeds : Act → Bool
  | .createFails => false
  | _ => true

theorem succeeds_of_ne {a : Act} (h : a ≠ .createFails) : a.succeeds = true := by
  cases a with
  | createFails => exact absurd rfl h
  | create | created | collect | kick | reap _ | finish | report _ | wake _ | write _ _ | broken _
  | refused _ | read _ _ | eof _ => rfl

theorem early_cases {p : Phase} (h : p.early = false) :
    p = .waiting ∨ p = .running ∨ p.gone = true := by
  cases p with
  | absent | start => simp [Phase.early] at h
  | waiting => exact Or.inl rfl
  | running => exact Or.inr (Or.inl rfl)
  | exited | barfed | killed | reaped => exact Or.inr (Or.inr rfl)

/-- A group's workers are all below `total_children` if one of them is. -/
theorem mate_lt {id y : ℕ} (hid : id < C.totalChildren) (hy : y < C.groupSize) :
    C.base id + y < C.totalChildren := by
  have h1 : id / C.groupSize < C.numGroups := by
    rw [Nat.div_lt_iff_lt_mul C.groupSize_pos]
    exact hid
  have h2 : (id / C.groupSize + 1) * C.groupSize ≤ C.numGroups * C.groupSize :=
    Nat.mul_le_mul_right _ h1
  rw [Nat.succ_mul] at h2
  unfold Config.base Config.totalChildren
  omega

/-- A sender in its loop, or the receiver it writes to, can go on: there is
room for the rest of the message, or something to read. -/
theorem sender_progress (hf : C.Fits) (hcap : dataSize ≤ C.capacity) (hs : Sound C s)
    (ha : s.Alive C) (hw : s.woken = true) {id : ℕ} (hid : id < C.totalChildren)
    (hr : ¬ C.IsReceiver id) (hp : s.phase id = .running) :
    ∃ a : Act, a.succeeds = true ∧ s.Can C a := by
  have hwk := hs.worker id
  rw [hp] at hwk
  obtain ⟨-, -, hj, hd, -⟩ := hwk
  have hgone := peer_not_gone hf hs.toInv hr hp
  by_cases hroom : s.chan (C.peer id (s.cursor id).j) + (dataSize - (s.cursor id).done) ≤ C.capacity
  · refine ⟨.write id (dataSize - (s.cursor id).done), rfl, ha, hp, hr, by omega, by omega,
      fun _ => by omega, hroom, ?_⟩
    rintro ⟨-, h⟩
    exact Bool.noConfusion (h.symm.trans hgone)
  · have hpos : 0 < s.chan (C.peer id (s.cursor id).j) := by omega
    have hlt : C.peer id (s.cursor id).j < C.totalChildren := mate_lt hid (receiver_slot_lt C hj)
    have hrecv : C.IsReceiver (C.peer id (s.cursor id).j) :=
      (isReceiver_slot C (receiver_slot_lt C hj)).mpr hj
    rcases early_cases (hs.awake hw hlt) with h | h | h
    · exact ⟨.wake _, rfl, ha, h, hw⟩
    · have hpk := hs.worker (C.peer id (s.cursor id).j)
      rw [h] at hpk
      have hd' := hpk.2.2.2.1
      refine ⟨.read _ (min (s.chan (C.peer id (s.cursor id).j))
        (dataSize - (s.cursor (C.peer id (s.cursor id).j)).done)), rfl, ha, h, hrecv, ?_, ?_, ?_⟩
      · omega
      · omega
      · exact min_le_left _ _
    · exact Bool.noConfusion (h.symm.trans hgone)

/-- As long as one worker has not ended, one of them can go on. -/
theorem worker_progress (hf : C.Fits) (hcap : dataSize ≤ C.capacity) (hs : Sound C s)
    (ha : s.Alive C) (hw : s.woken = true) {id : ℕ} (hid : id < C.totalChildren)
    (hp : (s.phase id).gone = false) : ∃ a : Act, a.succeeds = true ∧ s.Can C a := by
  rcases early_cases (hs.awake hw hid) with h | h | h
  · exact ⟨.wake id, rfl, ha, h, hw⟩
  · by_cases hr : C.IsReceiver id
    · by_cases hch : s.chan id = 0
      · -- its bytes are still with a sender of the group
        obtain ⟨x, hx, hgone⟩ := sender_left hf hs hr h hch
        have hlt := mate_lt hid (sender_slot_lt C hx)
        rcases early_cases (hs.awake hw hlt) with h1 | h1 | h1
        · exact ⟨.wake _, rfl, ha, h1, hw⟩
        · exact sender_progress hf hcap hs ha hw hlt (sender_slot hx) h1
        · exact Bool.noConfusion (h1.symm.trans hgone)
      · have hwk := hs.worker id
        rw [h] at hwk
        have hd := hwk.2.2.2.1
        refine ⟨.read id (min (s.chan id) (dataSize - (s.cursor id).done)), rfl, ha, h, hr,
          by omega, by omega, min_le_left _ _⟩
    · exact sender_progress hf hcap hs ha hw hid hr h
  · exact Bool.noConfusion (h.symm.trans hp)

/-- Fewer reaped than there are: somebody is not. -/
theorem exists_not_reaped {phase : ℕ → Phase} (h : reapedCount C phase < C.totalChildren) :
    ∃ id < C.totalChildren, phase id ≠ .reaped := by
  by_contra hno
  have hall : reapedCount C phase = C.totalChildren := by
    unfold reapedCount
    rw [Finset.sum_const_nat (m := 1), Finset.card_range, Nat.mul_one]
    intro x hx
    rw [if_pos]
    by_contra hne
    exact hno ⟨x, Finset.mem_range.mp hx, hne⟩
  omega

/-- As long as `main` has not ended, somebody can go on, whether or not the
next `fork` fails. -/
theorem progress (hf : C.Fits) (hcap : dataSize ≤ C.capacity) (hs : Sound C s)
    (hd : s.stage ≠ .done) (hfail : s.stage ≠ .failed) :
    ∃ a : Act, a.succeeds = true ∧ s.Can C a := by
  have ha : s.Alive C := Or.inr hfail
  cases hst : s.stage with
  | creating =>
    rcases Nat.lt_or_eq_of_le (hs.main.creating hst).1 with h | h
    · exact ⟨.create, rfl, hst, h⟩
    · exact ⟨.created, rfl, hst, h⟩
  | collecting =>
    obtain ⟨hle, -, hab⟩ := hs.main.collecting hst
    rcases Nat.lt_or_eq_of_le hle with h | h
    · rcases Nat.eq_zero_or_pos s.readyPipe with h0 | h0
      · -- all reports are read: somebody has not written his
        have hready := hs.main.ready
        simp only [State.collected, hst, h0] at hready
        have hex : ∃ id < C.totalChildren, (s.phase id).early = true := by
          by_contra hno
          have hall : reported C s.phase = C.totalChildren := by
            unfold reported
            rw [Finset.sum_const_nat (m := 1), Finset.card_range, Nat.mul_one]
            intro x hx
            rw [if_neg]
            intro he
            exact hno ⟨x, Finset.mem_range.mp hx, he⟩
          omega
        obtain ⟨id, hid, he⟩ := hex
        have hstart : s.phase id = .start := by
          have := hab id hid
          cases hp : s.phase id with
          | absent => exact absurd hp this
          | start => rfl
          | waiting | running | exited | barfed | killed | reaped => simp [hp, Phase.early] at he
        exact ⟨.report id, rfl, ha, hstart, h0 ▸ C.ready_pos⟩
      · exact ⟨.collect, rfl, hst, h, h0⟩
    · exact ⟨.kick, rfl, hst, h⟩
  | reaping =>
    obtain ⟨hw, hle, hcount, hjoin⟩ := hs.main.reaping (Or.inl hst)
    rcases Nat.lt_or_eq_of_le hle with h | h
    · -- the one to be joined next, or any one that is left
      have hnext : ∃ id < C.totalChildren, s.phase id ≠ .reaped ∧
          (C.processMode = false → id = s.i) := by
        cases hm : C.processMode with
        | true =>
          obtain ⟨id, hid, hne⟩ := exists_not_reaped (hcount.trans_lt h)
          exact ⟨id, hid, hne, by simp⟩
        | false =>
          exact ⟨s.i, h, fun he => Nat.lt_irrefl _ ((hjoin hm s.i).mp he), fun _ => rfl⟩
      obtain ⟨id, hid, hne, hj⟩ := hnext
      cases hg : (s.phase id).gone with
      | false => exact worker_progress hf hcap hs ha hw hid hg
      | true =>
        have hp : s.phase id = .exited := by
          cases hp : s.phase id with
          | absent | start | waiting | running => simp [hp, Phase.gone] at hg
          | exited => rfl
          | killed => exact absurd hp (hs.unkilled id).1
          | barfed => exact absurd hp (hs.unkilled id).2
          | reaped => exact absurd hp hne
        exact ⟨.reap id, rfl, hst, h, Or.inl hp, hj⟩
    · exact ⟨.finish, rfl, hst, h⟩
  | done => exact absurd hst hd
  | failed => exact absurd hst hfail

end Progress

/-! ### How a run ends -/

section Ends

variable {C : Config} {s : State}

/-- The benchmark is through: every worker is reaped, and every receiver has
read `loops` messages of each sender of its group, with nothing left over. -/
structure Completed (C : Config) (s : State) : Prop where
  stage : s.stage = .done
  reaped : ∀ id < C.totalChildren, s.phase id = .reaped
  read : ∀ id < C.totalChildren, C.IsReceiver id →
    (s.cursor id).got = C.numFds * C.loops * dataSize ∧ s.chan id = 0

theorem all_reaped (hi : Inv C s) (hst : s.stage = .done) :
    ∀ id < C.totalChildren, s.phase id = .reaped := by
  intro id hid
  by_contra hne
  have hcount := (hi.main.reaping (Or.inr hst)).2.2.1
  rw [hi.main.done hst] at hcount
  have hlt : reapedCount C s.phase < ∑ _x ∈ Finset.range C.totalChildren, 1 := by
    apply Finset.sum_lt_sum
    · intro x _
      by_cases hx : s.phase x = .reaped
      · rw [if_pos hx]
      · rw [if_neg hx]
        exact Nat.zero_le _
    · refine ⟨id, Finset.mem_range.mpr hid, ?_⟩
      rw [if_neg hne]
      exact Nat.zero_lt_one
  rw [← Finset.card_eq_sum_ones, Finset.card_range] at hlt
  omega

/-- At the end of the benchmark all a group can write is written. -/
theorem groupSent_done (hi : Inv C s) (hfin : Finished C s) (hst : s.stage = .done) {id : ℕ} (hid : id < C.totalChildren)
    (r : ℕ) : groupSent C s.cursor (id / C.groupSize) r = C.numFds * (C.loops * dataSize) := by
  unfold groupSent
  rw [Finset.sum_const_nat (m := C.loops * dataSize), Finset.card_range]
  intro x hx
  have hx' := Finset.mem_range.mp hx
  exact sent_all hfin (sender_slot hx')
    (Or.inr (all_reaped hi hst _ (mate_lt hid (sender_slot_lt C hx')))) r

theorem completed_of_done (hf : C.Fits) (hs : Sound C s) (hst : s.stage = .done) : Completed C s := by
  have hi := hs.toInv
  refine ⟨hst, all_reaped hi hst, fun id hid hr => ?_⟩
  have hgot := got_all hi hr (Or.inr (all_reaped hi hst id hid))
  have hcons := hi.conserved (id / C.groupSize) (id % C.groupSize) hr
  rw [groupSent_done hi hs.finished hst hid, Nat.div_add_mod', hgot, numPackets_of_fits hf,
    ← Nat.mul_assoc] at hcons
  refine ⟨by rw [hgot, numPackets_of_fits hf], by omega⟩

/-- Where no `fork` fails, `main` does not. -/
theorem unfailed_step (hf : C.Fits) {a : Act} {s' : State} (hs : Sound C s ∧ s.stage ≠ .failed)
    (h : restrict (step C) Act.succeeds s a = some s') : Sound C s' ∧ s'.stage ≠ .failed := by
  obtain ⟨ha, hstep⟩ := restrict_eq_some.mp h
  refine ⟨sound_step hf hs.1 hstep, ?_⟩
  obtain ⟨hc, rfl⟩ := step_eq_some.mp hstep
  cases a with
  | createFails => simp [Act.succeeds] at ha
  | created | kick | finish => simp [State.after]
  | create | collect | report _ | wake _ | write _ _ | broken _ | refused _ | read _ _ | eof _ => exact hs.2
  | reap x =>
    simp only [State.after, if_neg (hs.1.unkilled x).1]
    exact hs.2

theorem unfailed_run (hf : C.Fits) {as : List Act} (h : run (step C) init as = some s)
    (ha : .createFails ∉ as) : Sound C s ∧ s.stage ≠ .failed := by
  have h1 : run (restrict (step C) Act.succeeds) init as = some s := by
    rw [run_restrict]
    refine ⟨h, fun a hm => succeeds_of_ne ?_⟩
    rintro rfl
    exact ha hm
  exact run_inv' (fun _ _ _ hI hs => unfailed_step hf hI hs) as init s ⟨sound_init C, by simp [init]⟩ h1

/-- A run without a failed `fork` can be continued until the benchmark is
through. -/
theorem continued (hf : C.Fits) (hcap : dataSize ≤ C.capacity) (hs : Sound C s ∧ s.stage ≠ .failed) :
    ∃ bs s', run (step C) s bs = some s' ∧ Completed C s' := by
  have hkeep : ∀ t a t', Sound C t ∧ t.stage ≠ .failed →
      restrict (step C) Act.succeeds t a = some t' → Sound C t' ∧ t'.stage ≠ .failed :=
    fun _ _ _ hI hs => unfailed_step hf hI hs
  obtain ⟨bs, s', h1, h2⟩ := exists_run_final (m := stepsLeft C) hkeep
    (fun _ _ _ hI hs => stepsLeft_sound hf hI.1 (restrict_eq_some.mp hs).2) s hs
  have hs' := run_inv' hkeep bs s s' hs h1
  refine ⟨bs, s', ((run_restrict bs s s').mp h1).1, ?_⟩
  by_cases hd : s'.stage = .done
  · exact completed_of_done hf hs'.1 hd
  · obtain ⟨a, ha', hc⟩ := progress hf hcap hs'.1 hd hs'.2
    have h3 : restrict (step C) Act.succeeds s' a = some (s'.after C a) :=
      restrict_eq_some.mpr ⟨ha', step_eq_some.mpr ⟨hc, rfl⟩⟩
    exact absurd (h3.symm.trans (h2 a)) (Option.some_ne_none _)

/-- **Every run comes to an end, and a good one.** While the number of packets
fits in 32 bits and a message fits in a pipe: no run is longer than a bound
fixed by the command line; a run without a failed `fork` that cannot go on has
completed the benchmark; and one that can go on can be continued until it
has. -/
theorem completes (C : Config) (hf : C.Fits) (hcap : dataSize ≤ C.capacity) {as : List Act}
    (h : run (step C) init as = some s) :
    as.length ≤ C.totalChildren * (dataSize * (C.numFds * C.loops) + 5) + 3 ∧
    (.createFails ∉ as →
      (Final (step C) s → Completed C s) ∧
      ∃ bs s', run (step C) s bs = some s' ∧ Completed C s') := by
  refine ⟨?_, fun ha => ?_⟩
  · have h1 := run_length_le (fun _ _ _ hI hs => sound_step hf hI hs)
      (fun _ _ _ hI hs => stepsLeft_sound hf hI hs) as init s (sound_init C) h
    rw [stepsLeft_init hf] at h1
    omega
  · have hs := unfailed_run hf h ha
    refine ⟨fun hfin => ?_, continued hf hcap hs⟩
    by_cases hd : s.stage = .done
    · exact completed_of_done hf hs.1 hd
    · obtain ⟨a, -, hc⟩ := progress hf hcap hs.1 hd hs.2
      have h1 : step C s a = some (s.after C a) := step_eq_some.mpr ⟨hc, rfl⟩
      exact absurd (h1.symm.trans (hfin a)) (Option.some_ne_none _)

theorem completes_pair : pairRun.length ≤ 2 * (dataSize * (1 * 1) + 5) + 3 ∧
    (.createFails ∉ pairRun →
      (Final (step pair) pairState → Completed pair pairState) ∧
      ∃ bs s', run (step pair) pairState bs = some s' ∧ Completed pair s') :=
  completes pair pair_fits (by decide) run_pair

/-- **When the benchmark can complete at all.** With pipes or with threads,
some run gets `main` to its `Time:` line just when `num_fds * loops` does not
wrap: past 2³² the receivers leave early, and their senders are killed by the
closed pipe or wait for room for ever. -/
theorem completes_iff (C : Config) (hm : ¬ C.MayRefuse) (hG : 0 < C.numGroups) (hcap : dataSize ≤ C.capacity)
    (hcap' : C.capacity < 2 ^ 32 * dataSize) :
    (∃ as s, run (step C) init as = some s ∧ s.stage = .done) ↔ C.numFds * C.loops < 2 ^ 32 := by
  constructor
  · rintro ⟨as, s, h, hst⟩
    have hi := inv_run C h
    by_contra hge
    have h0 : 0 < C.totalChildren := Nat.mul_pos hG C.groupSize_pos
    have hr : C.IsReceiver 0 := by
      rw [Config.IsReceiver, Nat.zero_mod]
      exact C.fds_pos
    have hgot := got_all hi hr (Or.inr (all_reaped hi hst 0 h0))
    have hcons := hi.conserved (0 / C.groupSize) (0 % C.groupSize) hr
    have hroom := hi.room 0
    rw [groupSent_done hi (finished_of_not_mayRefuse hi hm) hst h0, Nat.div_add_mod', hgot, ← Nat.mul_assoc] at hcons
    -- what wraps is lost to the receivers and does not fit in the channel
    have hwrap : C.numPackets + 2 ^ 32 ≤ C.numFds * C.loops := by
      have h1 := Nat.mod_add_div (C.numFds * C.loops) (2 ^ 32)
      have h2 : 1 ≤ C.numFds * C.loops / 2 ^ 32 :=
        (Nat.one_le_div_iff (by decide)).mpr (Nat.le_of_not_lt hge)
      have h3 : 2 ^ 32 * 1 ≤ 2 ^ 32 * (C.numFds * C.loops / 2 ^ 32) := Nat.mul_le_mul_left _ h2
      unfold Config.numPackets
      omega
    have h4 := Nat.mul_le_mul_right dataSize hwrap
    rw [Nat.add_mul] at h4
    omega
  · intro hf
    obtain ⟨bs, s', h1, h2⟩ := continued hf hcap ⟨sound_init C, by simp [init]⟩
    exact ⟨bs, s', h1, h2.stage⟩

theorem completes_iff_pair :
    (∃ as s, run (step pair) init as = some s ∧ s.stage = .done) ↔ 1 * 1 < 2 ^ 32 :=
  completes_iff pair (fun h => Bool.noConfusion h.2) (by decide) (by decide) (by decide)

/-! ### A failed `fork` -/

/-- `main` ended before it woke anyone. -/
def Abandoned (s : State) : Prop := s.stage = .failed ∧ s.woken = false

theorem abandoned_step {a : Act} {s' : State} (hs : Abandoned s) (h : step C s a = some s') :
    Abandoned s' := by
  obtain ⟨hst, hw⟩ := hs
  obtain ⟨hc, rfl⟩ := step_eq_some.mp h
  cases a with
  | create | createFails | created | collect | kick | finish =>
    exact absurd (hst.symm.trans hc.1) (by simp)
  | reap x => exact absurd (hst.symm.trans hc.1) (by simp)
  | report _ | wake _ | write _ _ | broken _ | refused _ | read _ _ | eof _ => exact ⟨hst, hw⟩

theorem abandoned_run {as : List Act} (h : run (step C) init as = some s)
    (ha : .createFails ∈ as) : Abandoned s := by
  obtain ⟨l1, l2, rfl⟩ := List.append_of_mem ha
  rw [run_append] at h
  obtain ⟨s1, h1, h2⟩ := Option.bind_eq_some_iff.mp h
  rw [run_cons] at h2
  obtain ⟨s2, h3, h4⟩ := Option.bind_eq_some_iff.mp h2
  obtain ⟨hc, rfl⟩ := step_eq_some.mp h3
  have hw := ((inv_run C h1).main.creating hc.1).2.1
  have hA : Abandoned (s1.after C .createFails) := ⟨rfl, hw⟩
  exact run_inv' (fun _ _ _ hI hs => abandoned_step hI hs) l2 _ s hA h4

/-- The receiver is created and the `fork` of the sender fails. -/
def orphanRun : List Act := [.create, .report 0, .createFails]

def orphanState : State := (run (step pair) init orphanRun).getD init

end Ends

end Hackbench
end Longan
