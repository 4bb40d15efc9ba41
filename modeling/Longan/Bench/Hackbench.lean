/-
# hackbench: groups of senders and receivers behind one barrier

`main` creates `num_groups` groups one after the other, each of `num_fds`
receivers and `num_fds` senders, reads one ready byte of every worker, writes
one byte to wake them all, and reaps them. Each sender then writes `loops`
messages of 100 bytes to every receiver of its group, and each receiver reads
`num_packets = num_fds * loops` messages. The workers and `main` run
concurrently: a run is any interleaving of their reads and writes.

What holds in every state of every run is `Inv`, put together from what each
worker's phase says of its loop variables (`WorkerOk`), the bytes of each
channel (`Conserved`) and where `main` is (`Bookkeeping`). From it:
nobody moves data before everyone is ready (`barrier`), and no byte is lost
(`conserved`).

The kernel is the part that is not the program's: how much a pipe or socket
holds, whether it takes a message whole or in parts, and how a write ends that
nobody will read. A pipe kills the writer. A socket may also let it return with
an error, and then the worker calls `barf`: it exits by itself with status 1,
which `main` does not look at.
-/
import Longan.Lib.Progress
import Mathlib.Algebra.Order.BigOperators.Group.Finset

namespace Longan
namespace Hackbench

/-- `DATASIZE`. -/
def dataSize : ℕ := 100

/-- What `main` fixes before the groups are created, and what the kernel's
pipes and sockets hold, in bytes of messages and in ready bytes (`whole`: a
message is taken whole or not at all). -/
structure Config where
  processMode : Bool
  usePipes : Bool
  numGroups : ℕ
  numFds : ℕ
  fds_pos : 0 < numFds
  loops : ℕ
  capacity : ℕ
  readyCapacity : ℕ
  ready_pos : 0 < readyCapacity
  whole : Bool

namespace Config

variable (C : Config)

/-- `ctx->num_packets = num_fds * loops`, an `unsigned int`. -/
def numPackets : ℕ := C.numFds * C.loops % 2 ^ 32

/-- The workers `group` creates: `num_fds * 2`. -/
def groupSize : ℕ := C.numFds * 2

def totalChildren : ℕ := C.numGroups * C.groupSize

/-- Workers are numbered in the order of their creation, the index into
`pth_tab`: in each group the receivers come first. -/
def IsReceiver (id : ℕ) : Prop := id % C.groupSize < C.numFds

instance : DecidablePred C.IsReceiver := fun id => Nat.decLt (id % C.groupSize) C.numFds

/-- The first worker of the group of `id`. -/
def base (id : ℕ) : ℕ := id / C.groupSize * C.groupSize

/-- The receiver that reads what is written to `ctx->out_fds[j]`. -/
def peer (id j : ℕ) : ℕ := C.base id + j

end Config

/-- Where `main` is. -/
inductive Stage
  | creating | collecting | reaping | done | failed
deriving DecidableEq, Repr

/-- Where a worker is: not created yet, before its ready byte, in `poll`, in
its loop, ended, ended by `barf`, or ended by a signal. -/
inductive Phase
  | absent | start | waiting | running | exited | barfed | killed | reaped
deriving DecidableEq, Repr

/-- A worker's loop variables `i`, `j` and `done` (a receiver has no `j`). -/
structure Cursor where
  i : ℕ
  j : ℕ
  done : ℕ
deriving DecidableEq, Repr

structure State where
  stage : Stage
  /-- The loop variable of `main`. -/
  i : ℕ
  phase : ℕ → Phase
  cursor : ℕ → Cursor
  /-- The bytes on their way to each receiver. -/
  chan : ℕ → ℕ
  /-- The bytes in the ready pipe. -/
  readyPipe : ℕ
  /-- The wake byte is written (nobody reads it). -/
  woken : Bool

def init : State where
  stage := .creating
  i := 0
  phase := fun _ => .absent
  cursor := fun _ => ⟨0, 0, 0⟩
  chan := fun _ => 0
  readyPipe := 0
  woken := false

inductive Act
  | create | createFails | created | collect | kick
  | reap (id : ℕ) | finish
  | report (id : ℕ) | wake (id : ℕ)
  | write (id k : ℕ) | broken (id : ℕ) | refused (id : ℕ)
  | read (id k : ℕ) | eof (id : ℕ)
deriving DecidableEq, Repr

/-- `sender` after a `write` that took `k` bytes. -/
def Cursor.sent (C : Config) (c : Cursor) (k : ℕ) : Cursor :=
  if c.done + k < dataSize then { c with done := c.done + k }
  else if c.j + 1 < C.numFds then ⟨c.i, c.j + 1, 0⟩
  else ⟨c.i + 1, 0, 0⟩

/-- `receiver` after a `read` that got `k` bytes. -/
def Cursor.received (c : Cursor) (k : ℕ) : Cursor :=
  if c.done + k < dataSize then { c with done := c.done + k }
  else ⟨c.i + 1, c.j, 0⟩

/-- The iterations of a worker's outer loop. -/
def Config.rounds (C : Config) (id : ℕ) : ℕ :=
  if C.IsReceiver id then C.numPackets else C.loops

/-- A worker at the head of its outer loop goes on or returns. -/
def Config.proceed (C : Config) (id : ℕ) (c : Cursor) : Phase :=
  if c.i < C.rounds id then .running else .exited

/-- The process or thread has ended, its descriptors with it. -/
def Phase.gone : Phase → Bool
  | .exited | .barfed | .killed | .reaped => true
  | _ => false

namespace State

variable (C : Config) (s : State)

/-- Threads end when `main` exits. -/
def Alive : Prop := C.processMode = true ∨ s.stage ≠ .failed

instance : Decidable (s.Alive C) := inferInstanceAs (Decidable (_ ∨ _))

/-- In process mode a receiver is the only one with the read end of its
channel: `main` closes it right after the fork. Threads share every
descriptor. -/
def NoReader (id : ℕ) : Prop := C.processMode = true ∧ (s.phase id).gone = true

instance (id : ℕ) : Decidable (s.NoReader C id) := inferInstanceAs (Decidable (_ ∧ _))

/-- The write end of a receiver's channel is inherited by all workers of the
group that are created after it (`main` has closed its own before it wakes
anyone). -/
def NoWriter (id : ℕ) : Prop :=
  C.processMode = true ∧ (List.range C.groupSize).all (fun y =>
    !decide (id < C.base id + y) || (s.phase (C.base id + y)).gone) = true

instance (id : ℕ) : Decidable (s.NoWriter C id) := inferInstanceAs (Decidable (_ ∧ _))

/-- What has to hold for an action to be taken. -/
def Can : Act → Prop
  | .create => s.stage = .creating ∧ s.i < C.totalChildren
  | .createFails => s.stage = .creating ∧ s.i < C.totalChildren
  | .created => s.stage = .creating ∧ s.i = C.totalChildren
  | .collect => s.stage = .collecting ∧ s.i < C.totalChildren ∧ 0 < s.readyPipe
  | .kick => s.stage = .collecting ∧ s.i = C.totalChildren
  -- `wait` takes any child that ended, `pthread_join` the one of `pth_tab[i]`
  | .reap id => s.stage = .reaping ∧ s.i < C.totalChildren ∧
      (s.phase id = .exited ∨ s.phase id = .barfed ∨ s.phase id = .killed) ∧ (C.processMode = false → id = s.i)
  | .finish => s.stage = .reaping ∧ s.i = C.totalChildren
  | .report id => s.Alive C ∧ s.phase id = .start ∧ s.readyPipe < C.readyCapacity
  | .wake id => s.Alive C ∧ s.phase id = .waiting ∧ s.woken = true
  | .write id k => s.Alive C ∧ s.phase id = .running ∧ ¬ C.IsReceiver id ∧
      0 < k ∧ (s.cursor id).done + k ≤ dataSize ∧
      (C.whole = true → (s.cursor id).done + k = dataSize) ∧
      s.chan (C.peer id (s.cursor id).j) + k ≤ C.capacity ∧
      ¬ s.NoReader C (C.peer id (s.cursor id).j)
  | .broken id => s.Alive C ∧ s.phase id = .running ∧ ¬ C.IsReceiver id ∧
      s.NoReader C (C.peer id (s.cursor id).j)
  | .refused id => s.Alive C ∧ s.phase id = .running ∧ ¬ C.IsReceiver id ∧
      s.NoReader C (C.peer id (s.cursor id).j) ∧ C.usePipes = false
  | .read id k => s.Alive C ∧ s.phase id = .running ∧ C.IsReceiver id ∧
      0 < k ∧ (s.cursor id).done + k ≤ dataSize ∧ k ≤ s.chan id
  | .eof id => s.Alive C ∧ s.phase id = .running ∧ C.IsReceiver id ∧
      s.chan id = 0 ∧ s.NoWriter C id

instance : ∀ a, Decidable (s.Can C a)
  | .create | .createFails | .created | .kick | .finish => inferInstanceAs (Decidable (_ ∧ _))
  | .collect | .wake _ | .report _ => inferInstanceAs (Decidable (_ ∧ _ ∧ _))
  | .reap _ | .broken _ => inferInstanceAs (Decidable (_ ∧ _ ∧ _ ∧ _))
  | .eof _ | .refused _ => inferInstanceAs (Decidable (_ ∧ _ ∧ _ ∧ _ ∧ _))
  | .read _ _ => inferInstanceAs (Decidable (_ ∧ _ ∧ _ ∧ _ ∧ _ ∧ _))
  | .write _ _ => inferInstanceAs (Decidable (_ ∧ _ ∧ _ ∧ _ ∧ _ ∧ _ ∧ _ ∧ _))

/-- Worker `id` at a new place. -/
def move (id : ℕ) (p : Phase) (c : Cursor) : State :=
  { s with phase := Function.update s.phase id p, cursor := Function.update s.cursor id c }

/-- The state after an action. -/
def after : Act → State
  | .create => { s with i := s.i + 1, phase := Function.update s.phase s.i .start }
  | .createFails => { s with stage := .failed }
  | .created => { s with stage := .collecting, i := 0 }
  | .collect => { s with i := s.i + 1, readyPipe := s.readyPipe - 1 }
  | .kick => { s with stage := .reaping, i := 0, woken := true }
  -- a child that did not exit by itself ends `main` too
  | .reap id =>
    if s.phase id = .killed then { s with stage := .failed }
    else { s with i := s.i + 1, phase := Function.update s.phase id .reaped }
  | .finish => { s with stage := .done }
  | .report id =>
    { s with phase := Function.update s.phase id .waiting, readyPipe := s.readyPipe + 1 }
  | .wake id => s.move id (C.proceed id (s.cursor id)) (s.cursor id)
  | .write id k =>
    let c := (s.cursor id).sent C k
    let p := C.peer id (s.cursor id).j
    { s.move id (C.proceed id c) c with chan := Function.update s.chan p (s.chan p + k) }
  -- SIGPIPE
  | .broken id => s.move id .killed (s.cursor id)
  -- EPIPE or ECONNRESET without the signal
  | .refused id => s.move id .barfed (s.cursor id)
  | .read id k =>
    let c := (s.cursor id).received k
    { s.move id (C.proceed id c) c with chan := Function.update s.chan id (s.chan id - k) }
  -- `read` returns 0 and the loop goes round again
  | .eof _ => s

end State

def step (C : Config) (s : State) (a : Act) : Option State :=
  if s.Can C a then some (s.after C a) else none

theorem step_eq_some {C : Config} {s s' : State} {a : Act} :
    step C s a = some s' ↔ s.Can C a ∧ s' = s.after C a := by
  unfold step
  by_cases h : s.Can C a
  · rw [if_pos h, Option.some.injEq]
    exact ⟨fun he => ⟨h, he.symm⟩, fun he => he.2.symm⟩
  · rw [if_neg h]
    exact ⟨fun he => (nomatch he), fun he => absurd he.1 h⟩

/-! ### The numbering of the workers -/

section Numbering

variable (C : Config)

theorem Config.groupSize_pos : 0 < C.groupSize :=
  Nat.mul_pos C.fds_pos (by decide)

/-- A worker's number is its group's first and its place in the group. -/
theorem slot_eq_iff {g y id : ℕ} (hy : y < C.groupSize) :
    g * C.groupSize + y = id ↔ g = id / C.groupSize ∧ y = id % C.groupSize := by
  constructor
  · intro h
    subst h
    rw [Nat.mul_comm, Nat.mul_add_div C.groupSize_pos, Nat.mul_add_mod, Nat.div_eq_of_lt hy,
      Nat.mod_eq_of_lt hy]
    simp
  · rintro ⟨rfl, rfl⟩
    exact Nat.div_add_mod' id C.groupSize

theorem isReceiver_slot {g y : ℕ} (hy : y < C.groupSize) :
    C.IsReceiver (g * C.groupSize + y) ↔ y < C.numFds := by
  obtain ⟨-, h⟩ := (slot_eq_iff C hy).mp rfl
  rw [Config.IsReceiver, ← h]

theorem receiver_slot_lt {r : ℕ} (hr : r < C.numFds) : r < C.groupSize := by
  unfold Config.groupSize
  omega

theorem sender_slot_lt {x : ℕ} (hx : x < C.numFds) : C.numFds + x < C.groupSize := by
  unfold Config.groupSize
  omega

/-- A sender is the `x`-th of its group. -/
theorem sender_place {id : ℕ} (h : ¬ C.IsReceiver id) :
    ∃ x < C.numFds, id % C.groupSize = C.numFds + x := by
  have h1 := Nat.mod_lt id C.groupSize_pos
  unfold Config.IsReceiver at h
  refine ⟨id % C.groupSize - C.numFds, ?_, by omega⟩
  unfold Config.groupSize at h1 h ⊢
  omega

end Numbering

/-! ### The bytes of a channel -/

/-- What a sender at this place of its loop has written to its `r`-th
receiver. -/
def Cursor.sentTo (c : Cursor) (r : ℕ) : ℕ :=
  c.i * dataSize + if r < c.j then dataSize else if r = c.j then c.done else 0

/-- What a receiver at this place of its loop has read. -/
def Cursor.got (c : Cursor) : ℕ := c.i * dataSize + c.done

/-- What the senders of group `g` have written to its `r`-th receiver. -/
def groupSent (C : Config) (cursor : ℕ → Cursor) (g r : ℕ) : ℕ :=
  ∑ x ∈ Finset.range C.numFds, (cursor (g * C.groupSize + (C.numFds + x))).sentTo r

/-- No byte is lost or made up: what was written is read or on its way. -/
def Conserved (C : Config) (s : State) : Prop :=
  ∀ g r, r < C.numFds → groupSent C s.cursor g r =
    (s.cursor (g * C.groupSize + r)).got + s.chan (g * C.groupSize + r)

theorem sentTo_zero (r : ℕ) : (⟨0, 0, 0⟩ : Cursor).sentTo r = 0 := by
  simp only [Cursor.sentTo, Nat.zero_mul, Nat.zero_add, Nat.not_lt_zero, if_false, ite_self]

theorem sentTo_sent {C : Config} {c : Cursor} {k r : ℕ} (hj : c.j < C.numFds) (hr : r < C.numFds)
    (hk : c.done + k ≤ dataSize) :
    (c.sent C k).sentTo r = c.sentTo r + if r = c.j then k else 0 := by
  unfold Cursor.sent Cursor.sentTo
  by_cases h1 : c.done + k < dataSize
  · rw [if_pos h1]
    by_cases h2 : r < c.j
    · simp [h2, Nat.ne_of_lt h2]
    · by_cases h3 : r = c.j
      · simp [h3, Nat.add_assoc]
      · simp [h2, h3]
  · rw [if_neg h1]
    have h4 : c.done + k = dataSize := by omega
    by_cases h5 : c.j + 1 < C.numFds
    · rw [if_pos h5]
      by_cases h2 : r < c.j
      · simp [h2, Nat.ne_of_lt h2, Nat.lt_succ_of_lt h2]
      · by_cases h3 : r = c.j
        · simp [h3, ← h4, Nat.add_assoc]
        · have h6 : ¬ r < c.j + 1 := by omega
          simp [h2, h3, h6]
    · rw [if_neg h5]
      by_cases h3 : r = c.j
      · simp [h3, ← h4, Nat.add_mul, Nat.add_assoc]
      · have h2 : r < c.j := by omega
        simp [h2, h3, Nat.add_mul]

theorem got_received {c : Cursor} {k : ℕ} (hk : c.done + k ≤ dataSize) :
    (c.received k).got = c.got + k := by
  unfold Cursor.received Cursor.got
  by_cases h1 : c.done + k < dataSize
  · rw [if_pos h1]
    exact (Nat.add_assoc _ _ _).symm
  · rw [if_neg h1, Nat.add_mul]
    simp only
    omega

/-- A sender that moves changes the bytes of its own group by its own. -/
theorem groupSent_update {C : Config} (cursor : ℕ → Cursor) {id : ℕ} (h : ¬ C.IsReceiver id)
    (c : Cursor) (g r : ℕ) :
    groupSent C (Function.update cursor id c) g r +
        (if g = id / C.groupSize then (cursor id).sentTo r else 0) =
      groupSent C cursor g r + if g = id / C.groupSize then c.sentTo r else 0 := by
  obtain ⟨x, hx, hid⟩ := sender_place C h
  have hslot : ∀ y < C.numFds, g * C.groupSize + (C.numFds + y) = id ↔
      g = id / C.groupSize ∧ y = x := by
    intro y hy
    rw [slot_eq_iff C (sender_slot_lt C hy), hid, Nat.add_left_cancel_iff]
  by_cases hg : g = id / C.groupSize
  · have h1 := sum_update (fun _ c => Cursor.sentTo c r)
      (fun y => cursor (g * C.groupSize + (C.numFds + y))) C.numFds x c hx
    rw [(hslot x hx).mpr ⟨hg, rfl⟩] at h1
    rw [if_pos hg, if_pos hg, groupSent, groupSent, ← h1]
    congr 1
    apply Finset.sum_congr rfl
    intro y hy
    have h2 := hslot y (Finset.mem_range.mp hy)
    by_cases hyx : y = x
    · rw [h2.mpr ⟨hg, hyx⟩, hyx, Function.update_self, Function.update_self]
    · rw [Function.update_of_ne (fun he => hyx (h2.mp he).2), Function.update_of_ne hyx]
  · rw [if_neg hg, if_neg hg, groupSent, groupSent]
    congr 1
    apply Finset.sum_congr rfl
    intro y hy
    rw [Function.update_of_ne fun he => hg ((hslot y (Finset.mem_range.mp hy)).mp he).1]

/-- A receiver that moves has written nothing. -/
theorem groupSent_update_receiver {C : Config} (cursor : ℕ → Cursor) {id : ℕ}
    (h : C.IsReceiver id) (c : Cursor) (g r : ℕ) :
    groupSent C (Function.update cursor id c) g r = groupSent C cursor g r := by
  unfold groupSent
  apply Finset.sum_congr rfl
  intro y hy
  have hy' := sender_slot_lt C (Finset.mem_range.mp hy)
  rw [Function.update_of_ne]
  intro he
  have h1 := (isReceiver_slot C hy').mp (he ▸ h)
  omega

/-! ### The invariant -/

/-- A sender inside its loop. -/
def Config.Sending (C : Config) (id : ℕ) (c : Cursor) : Prop :=
  c.i < C.rounds id ∧ c.j < C.numFds ∧ c.done < dataSize ∧ ¬ C.IsReceiver id

/-- A write can be refused without a signal: the write end is a socket, and
its reader a process. -/
def Config.MayRefuse (C : Config) : Prop := C.processMode = true ∧ C.usePipes = false

/-- What a worker's phase says of its loop variables: nothing is written or
read before the wake byte, an ended worker has gone through its loop or was
stopped in it. -/
def WorkerOk (C : Config) (woken : Bool) (id : ℕ) (c : Cursor) : Phase → Prop
  | .absent | .start | .waiting => c = ⟨0, 0, 0⟩
  | .running => woken = true ∧ c.i < C.rounds id ∧ c.j < C.numFds ∧ c.done < dataSize ∧
      (C.IsReceiver id → c.j = 0)
  | .exited => woken = true ∧ c = ⟨C.rounds id, 0, 0⟩
  | .barfed => woken = true ∧ C.Sending id c ∧ C.MayRefuse
  | .reaped => woken = true ∧ (c = ⟨C.rounds id, 0, 0⟩ ∨ C.Sending id c ∧ C.MayRefuse)
  | .killed => woken = true ∧ C.Sending id c

/-- The phases before a worker's ready byte. -/
def Phase.early : Phase → Bool
  | .absent | .start => true
  | _ => false

/-- How many workers have written their ready byte. -/
def reported (C : Config) (phase : ℕ → Phase) : ℕ :=
  ∑ id ∈ Finset.range C.totalChildren, if (phase id).early then 0 else 1

/-- How many workers `main` has reaped. -/
def reapedCount (C : Config) (phase : ℕ → Phase) : ℕ :=
  ∑ id ∈ Finset.range C.totalChildren, if phase id = .reaped then 1 else 0

/-- How many ready bytes `main` has read. -/
def State.collected (C : Config) (s : State) : ℕ :=
  match s.stage with
  | .creating => 0
  | .collecting => s.i
  | .failed => if s.woken then C.totalChildren else 0
  | _ => C.totalChildren

/-- Where `main` is, and what that says of the workers. -/
structure Bookkeeping (C : Config) (s : State) : Prop where
  range : ∀ id, C.totalChildren ≤ id → s.phase id = .absent
  creating : s.stage = .creating → s.i ≤ C.totalChildren ∧ s.woken = false ∧
    ∀ id, s.phase id = .absent ↔ s.i ≤ id
  collecting : s.stage = .collecting → s.i ≤ C.totalChildren ∧ s.woken = false ∧
    ∀ id < C.totalChildren, s.phase id ≠ .absent
  reaping : s.stage = .reaping ∨ s.stage = .done → s.woken = true ∧ s.i ≤ C.totalChildren ∧
    reapedCount C s.phase = s.i ∧ (C.processMode = false → ∀ id, s.phase id = .reaped ↔ id < s.i)
  done : s.stage = .done → s.i = C.totalChildren
  failed : s.stage = .failed → s.woken = false →
    s.i < C.totalChildren ∧ ∀ id, s.phase id = .absent ↔ s.i ≤ id
  ready : s.readyPipe + s.collected C = reported C s.phase

/-- The invariant. -/
structure Inv (C : Config) (s : State) : Prop where
  worker : ∀ id, WorkerOk C s.woken id (s.cursor id) (s.phase id)
  conserved : Conserved C s
  room : ∀ id, s.chan id ≤ C.capacity
  main : Bookkeeping C s

theorem inv_init (C : Config) : Inv C init where
  worker _ := rfl
  conserved g r _ := by
    simp [init, groupSent, sentTo_zero, Cursor.got]
  room _ := Nat.zero_le _
  main :=
    { range := fun _ _ => rfl
      creating := fun _ => ⟨Nat.zero_le _, rfl, fun _ => ⟨fun _ => Nat.zero_le _, fun _ => rfl⟩⟩
      collecting := fun h => nomatch h
      reaping := fun h => by rcases h with h | h <;> exact nomatch h
      done := fun h => nomatch h
      failed := fun h => nomatch h
      ready := by simp [init, State.collected, reported, Phase.early] }

section Steps

variable {C : Config} {s : State}

/-! #### The workers -/

theorem WorkerOk.woken {w : Bool} {id : ℕ} {c : Cursor} {p : Phase} (h : WorkerOk C w id c p) :
    WorkerOk C true id c p := by
  cases p with
  | absent | start | waiting => exact h
  | running => exact ⟨rfl, h.2⟩
  | exited | barfed | killed | reaped => exact ⟨rfl, h.2⟩

/-- At the head of its loop a worker goes on or has gone through it. -/
theorem proceed_ok {w : Bool} {id : ℕ} {c : Cursor} (hw : w = true) (hj : c.j < C.numFds)
    (hd : c.done < dataSize) (hi : c.i < C.rounds id ∨ c = ⟨C.rounds id, 0, 0⟩)
    (hr : C.IsReceiver id → c.j = 0) : WorkerOk C w id c (C.proceed id c) := by
  unfold Config.proceed
  by_cases h : c.i < C.rounds id
  · rw [if_pos h]
    exact ⟨hw, h, hj, hd, hr⟩
  · rw [if_neg h]
    exact ⟨hw, hi.resolve_left h⟩

theorem worker_update {w w' : Bool} {id : ℕ} {c : Cursor} {p : Phase}
    (h : ∀ id, WorkerOk C w id (s.cursor id) (s.phase id)) (hw : w = true → w' = true)
    (hp : WorkerOk C w' id c p) (x : ℕ) :
    WorkerOk C w' x (Function.update s.cursor id c x) (Function.update s.phase id p x) := by
  by_cases hx : x = id
  · subst hx
    rw [Function.update_self, Function.update_self]
    exact hp
  · rw [Function.update_of_ne hx, Function.update_of_ne hx]
    cases w with
    | false =>
      cases w' with
      | false => exact h x
      | true => exact (h x).woken
    | true => exact hw rfl ▸ h x

theorem sent_lt {c : Cursor} {k : ℕ} (hj : c.j < C.numFds) :
    (c.sent C k).j < C.numFds ∧ (c.sent C k).done < dataSize := by
  have h0 : 0 < dataSize := by decide
  unfold Cursor.sent
  by_cases h1 : c.done + k < dataSize
  · rw [if_pos h1]
    exact ⟨hj, h1⟩
  · rw [if_neg h1]
    by_cases h2 : c.j + 1 < C.numFds
    · rw [if_pos h2]
      exact ⟨h2, h0⟩
    · rw [if_neg h2]
      exact ⟨C.fds_pos, h0⟩

theorem sent_next {c : Cursor} {k n : ℕ} (hi : c.i < n) :
    (c.sent C k).i < n ∨ c.sent C k = ⟨n, 0, 0⟩ := by
  unfold Cursor.sent
  by_cases h1 : c.done + k < dataSize
  · rw [if_pos h1]
    exact Or.inl hi
  · rw [if_neg h1]
    by_cases h2 : c.j + 1 < C.numFds
    · rw [if_pos h2]
      exact Or.inl hi
    · rw [if_neg h2]
      rcases Nat.lt_or_eq_of_le (Nat.succ_le_of_lt hi) with h3 | h3
      · exact Or.inl h3
      · exact Or.inr (by rw [← h3])

theorem received_next {c : Cursor} {k n : ℕ} (hi : c.i < n) (hj : c.j = 0) :
    (c.received k).j = 0 ∧ (c.received k).done < dataSize ∧
      ((c.received k).i < n ∨ c.received k = ⟨n, 0, 0⟩) := by
  have h0 : 0 < dataSize := by decide
  unfold Cursor.received
  by_cases h1 : c.done + k < dataSize
  · rw [if_pos h1]
    exact ⟨hj, h1, Or.inl hi⟩
  · rw [if_neg h1]
    refine ⟨hj, h0, ?_⟩
    rcases Nat.lt_or_eq_of_le (Nat.succ_le_of_lt hi) with h3 | h3
    · exact Or.inl h3
    · exact Or.inr (by rw [← h3, hj])

/-- A worker whose phase alone changes. -/
theorem worker_phase {x : ℕ} {p : Phase}
    (h : ∀ id, WorkerOk C s.woken id (s.cursor id) (s.phase id))
    (hp : WorkerOk C s.woken x (s.cursor x) p) (id : ℕ) :
    WorkerOk C s.woken id (s.cursor id) (Function.update s.phase x p id) := by
  have h1 := worker_update h (fun hw => hw) hp id
  rwa [Function.update_eq_self] at h1

theorem worker_step (h : ∀ id, WorkerOk C s.woken id (s.cursor id) (s.phase id))
    (hb : Bookkeeping C s) {a : Act} (hc : s.Can C a) (id : ℕ) :
    WorkerOk C (s.after C a).woken id ((s.after C a).cursor id) ((s.after C a).phase id) := by
  cases a with
  | create =>
    have hx := h s.i
    rw [((hb.creating hc.1).2.2 s.i).mpr (Nat.le_refl _)] at hx
    exact worker_phase (p := .start) h hx id
  | createFails | created | collect | finish | eof _ => exact h id
  | kick => exact (h id).woken
  | reap x =>
    have hx := h x
    by_cases hk : s.phase x = .killed
    · simp only [State.after, if_pos hk]
      exact h id
    · simp only [State.after, if_neg hk]
      have hok : WorkerOk C s.woken x (s.cursor x) .reaped := by
        rcases hc.2.2.1 with hp | hp | hp
        · rw [hp] at hx
          exact ⟨hx.1, .inl hx.2⟩
        · rw [hp] at hx
          exact ⟨hx.1, .inr hx.2⟩
        · exact absurd hp hk
      exact worker_phase (p := .reaped) h hok id
  | report x =>
    have hx := h x
    rw [hc.2.1] at hx
    exact worker_phase (p := .waiting) h hx id
  | wake x =>
    have hx := h x
    rw [hc.2.1] at hx
    have h0 : (s.cursor x).i < C.rounds x ∨ s.cursor x = ⟨C.rounds x, 0, 0⟩ := by
      rw [hx]
      rcases Nat.eq_zero_or_pos (C.rounds x) with h1 | h1
      · exact Or.inr (by rw [h1])
      · exact Or.inl h1
    exact worker_update h (fun hw => hw) (proceed_ok hc.2.2 (by rw [hx]; exact C.fds_pos)
      (by rw [hx]; decide) h0 (fun _ => by rw [hx])) id
  | write x k =>
    have hx := h x
    rw [hc.2.1] at hx
    obtain ⟨hw, hi, hj, -, -⟩ := hx
    have h1 := sent_lt (k := k) hj
    exact worker_update h (fun hw => hw)
      (proceed_ok hw h1.1 h1.2 (sent_next hi) (fun hr => absurd hr hc.2.2.1)) id
  | broken x =>
    have hx := h x
    rw [hc.2.1] at hx
    exact worker_update (p := .killed) h (fun hw => hw)
      ⟨hx.1, hx.2.1, hx.2.2.1, hx.2.2.2.1, hc.2.2.1⟩ id
  | refused x =>
    have hx := h x
    rw [hc.2.1] at hx
    exact worker_update (p := .barfed) h (fun hw => hw)
      ⟨hx.1, ⟨hx.2.1, hx.2.2.1, hx.2.2.2.1, hc.2.2.1⟩, hc.2.2.2.1.1, hc.2.2.2.2⟩ id
  | read x k =>
    have hx := h x
    rw [hc.2.1] at hx
    obtain ⟨hw, hi, hj, -, hr⟩ := hx
    obtain ⟨h1, h2, h3⟩ := received_next (k := k) hi (hr hc.2.2.1)
    exact worker_update h (fun hw => hw)
      (proceed_ok hw (h1 ▸ C.fds_pos) h2 h3 (fun _ => h1)) id

/-! #### The channels -/

theorem conserved_write {id k : ℕ} (h : Conserved C s) (hid : ¬ C.IsReceiver id)
    (hj : (s.cursor id).j < C.numFds) (hk : (s.cursor id).done + k ≤ dataSize) :
    Conserved C (s.after C (.write id k)) := by
  intro g r hr
  have h1 := groupSent_update s.cursor hid ((s.cursor id).sent C k) g r
  have hne : g * C.groupSize + r ≠ id := by
    rintro rfl
    exact hid ((isReceiver_slot C (receiver_slot_lt C hr)).mpr hr)
  have hp : g * C.groupSize + r = C.peer id (s.cursor id).j ↔
      g = id / C.groupSize ∧ r = (s.cursor id).j := by
    rw [slot_eq_iff C (receiver_slot_lt C hr), Config.peer, Config.base]
    obtain ⟨h2, h3⟩ := (slot_eq_iff C (g := id / C.groupSize) (receiver_slot_lt C hj)).mp rfl
    rw [← h2, ← h3]
  show groupSent C (Function.update s.cursor id ((s.cursor id).sent C k)) g r =
    (Function.update s.cursor id ((s.cursor id).sent C k) (g * C.groupSize + r)).got +
      Function.update s.chan (C.peer id (s.cursor id).j) (s.chan (C.peer id (s.cursor id).j) + k)
        (g * C.groupSize + r)
  rw [Function.update_of_ne hne]
  have h2 := h g r hr
  by_cases hg : g = id / C.groupSize
  · rw [if_pos hg, if_pos hg, sentTo_sent hj hr hk] at h1
    by_cases hrj : r = (s.cursor id).j
    · rw [if_pos hrj] at h1
      rw [← hp.mpr ⟨hg, hrj⟩, Function.update_self]
      omega
    · rw [if_neg hrj] at h1
      rw [Function.update_of_ne fun he => hrj (hp.mp he).2]
      omega
  · rw [if_neg hg, if_neg hg] at h1
    rw [Function.update_of_ne fun he => hg (hp.mp he).1]
    omega

theorem conserved_read {id k : ℕ} (h : Conserved C s) (hid : C.IsReceiver id)
    (hk : (s.cursor id).done + k ≤ dataSize) (hch : k ≤ s.chan id) :
    Conserved C (s.after C (.read id k)) := by
  intro g r hr
  show groupSent C (Function.update s.cursor id ((s.cursor id).received k)) g r =
    (Function.update s.cursor id ((s.cursor id).received k) (g * C.groupSize + r)).got +
      Function.update s.chan id (s.chan id - k) (g * C.groupSize + r)
  rw [groupSent_update_receiver s.cursor hid, h g r hr]
  by_cases hx : g * C.groupSize + r = id
  · rw [hx, Function.update_self, Function.update_self, got_received hk]
    omega
  · rw [Function.update_of_ne hx, Function.update_of_ne hx]

/-- An action that moves no byte. -/
theorem Conserved.congr {s' : State} (h : Conserved C s) (hc : s'.cursor = s.cursor)
    (hch : s'.chan = s.chan) : Conserved C s' := by
  intro g r hr
  rw [hc, hch]
  exact h g r hr

theorem conserved_step (hi : Inv C s) {a : Act} (hc : s.Can C a) : Conserved C (s.after C a) := by
  have h := hi.conserved
  cases a with
  | create | createFails | created | collect | kick | finish | report _ | eof _ =>
    exact h.congr rfl rfl
  | reap x =>
    by_cases hk : s.phase x = .killed
    · simp only [State.after, if_pos hk]
      exact h.congr rfl rfl
    · simp only [State.after, if_neg hk]
      exact h.congr rfl rfl
  | wake x | broken x | refused x => exact h.congr (Function.update_eq_self _ _) rfl
  | write x k =>
    have hx := hi.worker x
    rw [hc.2.1] at hx
    exact conserved_write h hc.2.2.1 hx.2.2.1 hc.2.2.2.2.1
  | read x k => exact conserved_read h hc.2.2.1 hc.2.2.2.2.1 hc.2.2.2.2.2

theorem room_step (h : ∀ id, s.chan id ≤ C.capacity) {a : Act} (hc : s.Can C a) (id : ℕ) :
    (s.after C a).chan id ≤ C.capacity := by
  cases a with
  | create | createFails | created | collect | kick | finish | report _ | eof _ | wake _
  | broken _ | refused _ => exact h id
  | reap x =>
    by_cases hk : s.phase x = .killed
    · simp only [State.after, if_pos hk]
      exact h id
    · simp only [State.after, if_neg hk]
      exact h id
  | write x k =>
    show Function.update s.chan _ _ id ≤ _
    by_cases hx : id = C.peer x (s.cursor x).j
    · rw [hx, Function.update_self]
      exact hc.2.2.2.2.2.2.1
    · rw [Function.update_of_ne hx]
      exact h id
  | read x k =>
    show Function.update s.chan _ _ id ≤ _
    by_cases hx : id = x
    · rw [hx, Function.update_self]
      exact le_trans (Nat.sub_le _ _) (h x)
    · rw [Function.update_of_ne hx]
      exact h id

/-! #### `main` -/

/-- What a new phase does not change for its worker it changes for none. -/
theorem update_congr {β : Type*} (q : Phase → β) {phase : ℕ → Phase} {id : ℕ} {p : Phase}
    (h : q p = q (phase id)) (x : ℕ) : q (Function.update phase id p x) = q (phase x) := by
  by_cases hx : x = id
  · rw [hx, Function.update_self, h]
  · rw [Function.update_of_ne hx]

theorem reported_congr {phase : ℕ → Phase} {id : ℕ} {p : Phase}
    (h : p.early = (phase id).early) :
    reported C (Function.update phase id p) = reported C phase := by
  unfold reported
  apply Finset.sum_congr rfl
  intro x _
  rw [update_congr Phase.early h x]

theorem reapedCount_congr {phase : ℕ → Phase} {id : ℕ} {p : Phase}
    (h : p ≠ .reaped) (h' : phase id ≠ .reaped) :
    reapedCount C (Function.update phase id p) = reapedCount C phase := by
  unfold reapedCount
  apply Finset.sum_congr rfl
  intro x _
  exact update_congr (fun p => if p = .reaped then 1 else 0) (by simp only [if_neg h, if_neg h']) x

theorem lt_of_not_absent (h : Bookkeeping C s) {id : ℕ} (hid : s.phase id ≠ .absent) :
    id < C.totalChildren :=
  Nat.lt_of_not_le fun hle => hid (h.range id hle)

/-- A worker goes on by itself: nothing changes for `main`. -/
theorem Bookkeeping.move (h : Bookkeeping C s) {s' : State} {id : ℕ} {p : Phase}
    (hp : s'.phase = Function.update s.phase id p) (hs : s'.stage = s.stage) (hi : s'.i = s.i)
    (hr : s'.readyPipe = s.readyPipe) (hw : s'.woken = s.woken)
    (h0 : (s.phase id).early = false ∧ s.phase id ≠ .reaped)
    (h1 : p.early = false ∧ p ≠ .reaped) : Bookkeeping C s' := by
  have ha : ∀ {q : Phase}, q.early = false → q ≠ .absent := by
    rintro q hq rfl
    exact nomatch hq
  have hab : ∀ x, s'.phase x = .absent ↔ s.phase x = .absent := by
    intro x
    rw [hp]
    exact Eq.to_iff (update_congr (· = .absent) (by simp only [ha h0.1, ha h1.1]) x)
  have hre : ∀ x, s'.phase x = .reaped ↔ s.phase x = .reaped := by
    intro x
    rw [hp]
    exact Eq.to_iff (update_congr (· = .reaped) (by simp only [h0.2, h1.2]) x)
  have hcol : s'.collected C = s.collected C := by
    unfold State.collected
    rw [hs, hi, hw]
  constructor
  · intro x hx
    exact (hab x).mpr (h.range x hx)
  · intro hst
    rw [hi, hw]
    obtain ⟨h2, h3, h4⟩ := h.creating (hs ▸ hst)
    exact ⟨h2, h3, fun x => (hab x).trans (h4 x)⟩
  · intro hst
    rw [hi, hw]
    obtain ⟨h2, h3, h4⟩ := h.collecting (hs ▸ hst)
    exact ⟨h2, h3, fun x hx he => h4 x hx ((hab x).mp he)⟩
  · intro hst
    rw [hi, hw]
    obtain ⟨h2, h3, h4, h5⟩ := h.reaping (hs ▸ hst)
    refine ⟨h2, h3, ?_, fun hm x => (hre x).trans (h5 hm x)⟩
    rw [hp, reapedCount_congr h1.2 h0.2, h4]
  · intro hst
    rw [hi]
    exact h.done (hs ▸ hst)
  · intro hst hwk
    rw [hi]
    obtain ⟨h2, h3⟩ := h.failed (hs ▸ hst) (hw ▸ hwk)
    exact ⟨h2, fun x => (hab x).trans (h3 x)⟩
  · rw [hr, hcol, hp, reported_congr (h1.1.trans h0.1.symm)]
    exact h.ready

theorem proceed_cases (id : ℕ) (c : Cursor) :
    (C.proceed id c).early = false ∧ C.proceed id c ≠ .reaped := by
  unfold Config.proceed
  by_cases h : c.i < C.rounds id
  · rw [if_pos h]
    exact ⟨rfl, fun h => nomatch h⟩
  · rw [if_neg h]
    exact ⟨rfl, fun h => nomatch h⟩

theorem Bookkeeping.create (h : Bookkeeping C s) (hc : s.Can C .create) :
    Bookkeeping C (s.after C .create) := by
  obtain ⟨hst, hlt⟩ := hc
  obtain ⟨-, hw, hab⟩ := h.creating hst
  have hi : s.phase s.i = .absent := (hab s.i).mpr (Nat.le_refl _)
  have hne : s.stage ≠ .reaping ∧ s.stage ≠ .done := by rw [hst]; exact ⟨nofun, nofun⟩
  constructor
  · intro x hx
    show Function.update s.phase s.i .start x = .absent
    rw [Function.update_of_ne (by omega)]
    exact h.range x hx
  · intro _
    refine ⟨hlt, hw, fun x => ?_⟩
    show Function.update s.phase s.i .start x = .absent ↔ s.i + 1 ≤ x
    by_cases hx : x = s.i
    · rw [hx, Function.update_self]
      exact ⟨nofun, fun hle => by omega⟩
    · rw [Function.update_of_ne hx, hab x]
      omega
  · intro hst'
    exact nomatch hst.symm.trans hst'
  · rintro (hst' | hst')
    · exact absurd hst' hne.1
    · exact absurd hst' hne.2
  · intro hst'
    exact absurd hst' hne.2
  · intro hst'
    exact nomatch hst.symm.trans hst'
  · have h2 := h.ready
    simp only [State.collected, hst] at h2
    simp only [State.after, State.collected, hst]
    rw [reported_congr (by rw [hi]; rfl)]
    exact h2

theorem Bookkeeping.report {id : ℕ} (h : Bookkeeping C s) (hc : s.Can C (.report id)) :
    Bookkeeping C (s.after C (.report id)) := by
  obtain ⟨-, hp, -⟩ := hc
  have hid : id < C.totalChildren := lt_of_not_absent h (by rw [hp]; nofun)
  have hab : ∀ x, Function.update s.phase id .waiting x = .absent ↔ s.phase x = .absent :=
    fun x => Eq.to_iff (update_congr (· = .absent) (by simp only [hp, reduceCtorEq]) x)
  have hre : ∀ x, Function.update s.phase id .waiting x = .reaped ↔ s.phase x = .reaped :=
    fun x => Eq.to_iff (update_congr (· = .reaped) (by simp only [hp, reduceCtorEq]) x)
  constructor
  · intro x hx
    exact (hab x).mpr (h.range x hx)
  · intro hst
    obtain ⟨h2, h3, h4⟩ := h.creating hst
    exact ⟨h2, h3, fun x => (hab x).trans (h4 x)⟩
  · intro hst
    obtain ⟨h2, h3, h4⟩ := h.collecting hst
    exact ⟨h2, h3, fun x hx he => h4 x hx ((hab x).mp he)⟩
  · intro hst
    obtain ⟨h2, h3, h4, h5⟩ := h.reaping hst
    refine ⟨h2, h3, ?_, fun hm x => (hre x).trans (h5 hm x)⟩
    show reapedCount C (Function.update s.phase id .waiting) = s.i
    rw [reapedCount_congr (p := Phase.waiting) (fun h => nomatch h) (hp ▸ fun h => nomatch h), h4]
  · exact h.done
  · intro hst hwk
    obtain ⟨h2, h3⟩ := h.failed hst hwk
    exact ⟨h2, fun x => (hab x).trans (h3 x)⟩
  · show s.readyPipe + 1 + s.collected C = reported C (Function.update s.phase id .waiting)
    have h1 := sum_update (fun _ p => if Phase.early p then 0 else 1) s.phase C.totalChildren id
      .waiting hid
    have h2 := h.ready
    simp only [hp, Phase.early, if_true, Bool.false_eq_true, if_false] at h1
    unfold reported at h2 ⊢
    simp only [Phase.early] at h2 ⊢
    omega

theorem Bookkeeping.reap {id : ℕ} (h : Bookkeeping C s) (hc : s.Can C (.reap id)) :
    Bookkeeping C (s.after C (.reap id)) := by
  obtain ⟨hst, hlt, hp, hj⟩ := hc
  obtain ⟨hw, hle, hcount, hjoin⟩ := h.reaping (Or.inl hst)
  have hid : id < C.totalChildren := lt_of_not_absent h (by rcases hp with hp | hp | hp <;> rw [hp] <;> nofun)
  by_cases hk : s.phase id = .killed
  · simp only [State.after, if_pos hk]
    refine ⟨h.range, nofun, nofun, fun hst' => ?_, nofun, fun _ hwk => ?_, ?_⟩
    · rcases hst' with hst' | hst' <;> exact nomatch hst'
    · exact nomatch hw.symm.trans hwk
    · have h2 := h.ready
      simp only [State.collected, hst] at h2
      simp only [State.collected, hw, if_true]
      exact h2
  · have hnr : s.phase id ≠ .reaped := by rcases hp with hp | hp | hp <;> rw [hp] <;> nofun
    have hearly : (s.phase id).early = false := by rcases hp with hp | hp | hp <;> rw [hp] <;> rfl
    simp only [State.after, if_neg hk]
    constructor
    · intro x hx
      show Function.update s.phase id .reaped x = .absent
      rw [Function.update_of_ne (by omega)]
      exact h.range x hx
    · exact fun hst' => nomatch hst.symm.trans hst'
    · exact fun hst' => nomatch hst.symm.trans hst'
    · intro _
      refine ⟨hw, hlt, ?_, fun hm x => ?_⟩
      · show reapedCount C (Function.update s.phase id .reaped) = s.i + 1
        have h1 := sum_update (fun _ p => if p = Phase.reaped then 1 else 0) s.phase
          C.totalChildren id .reaped hid
        simp only [hnr, if_false, if_true] at h1
        unfold reapedCount at hcount ⊢
        omega
      · show Function.update s.phase id .reaped x = .reaped ↔ x < s.i + 1
        by_cases hx : x = id
        · rw [hx, Function.update_self, hj hm]
          exact ⟨fun _ => Nat.lt_succ_self _, fun _ => rfl⟩
        · rw [Function.update_of_ne hx, hjoin hm x]
          have := hj hm
          omega
    · exact fun hst' => nomatch hst.symm.trans hst'
    · exact fun hst' => nomatch hst.symm.trans hst'
    · show s.readyPipe + State.collected C { s with i := s.i + 1, phase := _ } =
        reported C (Function.update s.phase id .reaped)
      have heq : Phase.reaped.early = (s.phase id).early := hearly.symm
      rw [reported_congr heq, ← h.ready]
      simp only [State.collected, hst]

theorem bookkeeping_step (hi : Inv C s) {a : Act} (hc : s.Can C a) :
    Bookkeeping C (s.after C a) := by
  have h := hi.main
  cases a with
  | create => exact h.create hc
  | createFails =>
    obtain ⟨hst, hlt⟩ := hc
    have hw := (h.creating hst).2.1
    refine ⟨h.range, nofun, nofun, fun h => ?_, nofun, fun _ _ => ?_, ?_⟩
    · rcases h with h | h <;> exact nomatch h
    · exact ⟨hlt, (h.creating hst).2.2⟩
    · have h2 := h.ready
      simp only [State.collected, hst] at h2
      simp only [State.after, State.collected, hw]
      exact h2
  | created =>
    obtain ⟨hst, hT⟩ := hc
    obtain ⟨-, hw, hab⟩ := h.creating hst
    refine ⟨h.range, nofun, fun _ => ⟨Nat.zero_le _, hw, fun x hx he => ?_⟩, fun h => ?_, nofun,
      nofun, ?_⟩
    · have := (hab x).mp he
      omega
    · rcases h with h | h <;> exact nomatch h
    · have h2 := h.ready
      simp only [State.collected, hst] at h2
      exact h2
  | collect =>
    obtain ⟨hst, hlt, hpos⟩ := hc
    obtain ⟨-, hw, hab⟩ := h.collecting hst
    refine ⟨h.range, fun h => ?_, fun _ => ⟨hlt, hw, hab⟩, fun h => ?_, fun h => ?_, fun h => ?_, ?_⟩
    · exact nomatch hst.symm.trans h
    · rcases h with h | h <;> exact nomatch hst.symm.trans h
    · exact nomatch hst.symm.trans h
    · exact nomatch hst.symm.trans h
    · have h2 := h.ready
      simp only [State.collected, hst] at h2
      simp only [State.after, State.collected, hst]
      omega
  | kick =>
    obtain ⟨hst, hT⟩ := hc
    obtain ⟨-, hw, -⟩ := h.collecting hst
    have hre : ∀ x, s.phase x ≠ .reaped := by
      intro x hx
      have h1 := hi.worker x
      rw [hx] at h1
      exact absurd (hw.symm.trans h1.1) nofun
    refine ⟨h.range, nofun, nofun, fun _ => ⟨rfl, Nat.zero_le _, ?_, fun _ x => ?_⟩, nofun,
      nofun, ?_⟩
    · show reapedCount C s.phase = 0
      unfold reapedCount
      exact Finset.sum_eq_zero fun x _ => if_neg (hre x)
    · exact ⟨fun hx => absurd hx (hre x), fun hx => absurd hx (Nat.not_lt_zero x)⟩
    · have h2 := h.ready
      simp only [State.collected, hst, hT] at h2
      exact h2
  | reap x => exact h.reap hc
  | finish =>
    obtain ⟨hst, hT⟩ := hc
    refine ⟨h.range, nofun, nofun, fun _ => h.reaping (Or.inl hst), fun _ => hT, nofun, ?_⟩
    have h2 := h.ready
    simp only [State.collected, hst] at h2
    exact h2
  | report x => exact h.report hc
  | wake x =>
    exact h.move rfl rfl rfl rfl rfl (by rw [hc.2.1]; exact ⟨rfl, nofun⟩) (proceed_cases x _)
  | write x k =>
    exact h.move rfl rfl rfl rfl rfl (by rw [hc.2.1]; exact ⟨rfl, nofun⟩) (proceed_cases x _)
  | broken x | refused x =>
    exact h.move rfl rfl rfl rfl rfl (by rw [hc.2.1]; exact ⟨rfl, nofun⟩) ⟨rfl, nofun⟩
  | read x k =>
    exact h.move rfl rfl rfl rfl rfl (by rw [hc.2.1]; exact ⟨rfl, nofun⟩) (proceed_cases x _)
  | eof x => exact h

theorem inv_step {a : Act} {s' : State} (hi : Inv C s) (h : step C s a = some s') : Inv C s' := by
  obtain ⟨hc, rfl⟩ := step_eq_some.mp h
  exact
    { worker := worker_step hi.worker hi.main hc
      conserved := conserved_step hi hc
      room := room_step hi.room hc
      main := bookkeeping_step hi hc }

/-- The invariant holds in every state of every run. -/
theorem inv_run (C : Config) {as : List Act} (h : run (step C) init as = some s) : Inv C s :=
  run_inv' (fun _ _ _ hi hs => inv_step hi hs) as init s (inv_init C) h

end Steps

/-! ### The barrier -/

/-- The actions behind the barrier: a worker leaves `poll` or is in its loop,
or `main` reaps. -/
def Act.behindBarrier : Act → Bool
  | .wake _ | .write _ _ | .broken _ | .refused _ | .read _ _ | .eof _ | .reap _ | .finish => true
  | _ => false

/-- The sum of the reports reaches the number of workers only when each has
written its byte. -/
theorem reported_all {C : Config} {phase : ℕ → Phase} (h : C.totalChildren ≤ reported C phase)
    {id : ℕ} (hid : id < C.totalChildren) : (phase id).early = false := by
  by_contra hne
  have hlt : reported C phase < ∑ _x ∈ Finset.range C.totalChildren, 1 := by
    apply Finset.sum_lt_sum
    · intro x _
      by_cases hx : (phase x).early = true
      · rw [if_pos hx]
        exact Nat.zero_le _
      · rw [if_neg hx]
    · refine ⟨id, Finset.mem_range.mpr hid, ?_⟩
      rw [if_pos (Bool.not_eq_false _ ▸ hne)]
      exact Nat.zero_lt_one
  rw [← Finset.card_eq_sum_ones, Finset.card_range] at hlt
  omega

/-- Once the wake byte is written every worker has reported. -/
theorem Inv.awake {C : Config} {s : State} (h : Inv C s) (hw : s.woken = true) {id : ℕ}
    (hid : id < C.totalChildren) : (s.phase id).early = false := by
  apply reported_all _ hid
  rw [← h.main.ready]
  have hcol : s.collected C = C.totalChildren := by
    unfold State.collected
    cases hst : s.stage with
    | creating => exact nomatch hw.symm.trans (h.main.creating hst).2.1
    | collecting => exact nomatch hw.symm.trans (h.main.collecting hst).2.1
    | reaping | done => rfl
    | failed => exact if_pos hw
  omega

theorem behindBarrier_woken {C : Config} {s : State} (h : Inv C s) {a : Act} (hc : s.Can C a)
    (ha : a.behindBarrier = true) : s.woken = true := by
  have hrun : ∀ id, s.phase id = .running → s.woken = true := by
    intro id hp
    have hx := h.worker id
    rw [hp] at hx
    exact hx.1
  cases a with
  | create | createFails | created | collect | kick | report _ => exact nomatch ha
  | wake x => exact hc.2.2
  | write x _ | broken x | refused x | read x _ | eof x => exact hrun x hc.2.1
  | reap _ | finish => exact (h.main.reaping (Or.inl hc.1)).1

theorem woken_step {C : Config} {s s' : State} {a : Act} (h : step C s a = some s') :
    s'.woken = true ↔ s.woken = true ∨ a = .kick := by
  obtain ⟨-, rfl⟩ := step_eq_some.mp h
  cases a with
  | reap x =>
    simp only [State.after]
    by_cases hk : s.phase x = .killed
    · simp [if_pos hk]
    · simp [if_neg hk]
  | kick => simp [State.after]
  | create | createFails | created | collect | finish | report _ | wake _ | write _ _ | broken _
  | refused _ | read _ _ | eof _ => simp [State.after, State.move]

theorem reported_step {C : Config} {s s' : State} {a : Act} (id : ℕ) (h : step C s a = some s')
    (hp : (s'.phase id).early = false) : (s.phase id).early = false ∨ a = .report id := by
  obtain ⟨hc, rfl⟩ := step_eq_some.mp h
  -- a worker that moves has left its early phases
  have key : ∀ x p, (s.phase x).early = false →
      (Function.update s.phase x p id).early = false → (s.phase id).early = false := by
    intro x p hx hid
    by_cases he : id = x
    · rwa [he]
    · rwa [Function.update_of_ne he] at hid
  cases a with
  | create =>
    by_cases he : id = s.i
    · simp only [State.after, he, Function.update_self, Phase.early, Bool.true_eq_false] at hp
    · simp only [State.after, Function.update_of_ne he] at hp
      exact Or.inl hp
  | createFails | created | collect | kick | finish | eof _ => exact Or.inl hp
  | reap x =>
    by_cases hk : s.phase x = .killed
    · simp only [State.after, if_pos hk] at hp
      exact Or.inl hp
    · simp only [State.after, if_neg hk] at hp
      have hearly : (s.phase x).early = false := by
        rcases hc.2.2.1 with hp | hp | hp <;> rw [hp] <;> rfl
      exact Or.inl (key x _ hearly hp)
  | report x =>
    by_cases he : id = x
    · exact Or.inr (he ▸ rfl)
    · simp only [State.after, Function.update_of_ne he] at hp
      exact Or.inl hp
  | wake x | write x _ | broken x | refused x | read x _ =>
    exact Or.inl (key x _ (by rw [hc.2.1]; rfl) hp)

/-- **Nobody goes ahead of the barrier.** Before the first worker leaves
`poll`, writes, reads or ends, `main` has written its one wake byte, and
before that every worker of every group has written its ready byte. -/
theorem barrier (C : Config) {as : List Act} {a : Act} {s s' : State}
    (h : run (step C) init as = some s) (hs : step C s a = some s')
    (ha : a.behindBarrier = true) :
    ∃ before after, as = before ++ .kick :: after ∧
      (∀ id < C.totalChildren, .report id ∈ before) ∧ ∀ b ∈ before, b.behindBarrier = false := by
  have hw := behindBarrier_woken (inv_run C h) (step_eq_some.mp hs).1 ha
  have hkick : Act.kick ∈ as := by
    rcases run_cause (P := fun s => s.woken = true) (A := (· = .kick))
      (fun _ _ _ h1 h2 => (woken_step h1).mp h2) as init s h hw with h1 | ⟨b, hb, rfl⟩
    · exact nomatch h1
    · exact hb
  obtain ⟨before, after, rfl⟩ := List.append_of_mem hkick
  rw [run_append] at h
  obtain ⟨s1, h1, h2⟩ := Option.bind_eq_some_iff.mp h
  rw [run_cons] at h2
  obtain ⟨s2, h3, -⟩ := Option.bind_eq_some_iff.mp h2
  have hi := inv_run C h1
  obtain ⟨hst, hT⟩ := (step_eq_some.mp h3).1
  have hnw : s1.woken = false := (hi.main.collecting hst).2.1
  refine ⟨before, after, rfl, fun id hid => ?_, fun b hb => ?_⟩
  · have hall : (s1.phase id).early = false := by
      apply reported_all _ hid
      rw [← hi.main.ready]
      simp only [State.collected, hst, hT]
      omega
    rcases run_cause (P := fun s => (s.phase id).early = false) (A := (· = .report id))
      (fun _ _ _ h4 h5 => reported_step id h4 h5) before init s1 h1 hall with h4 | ⟨b, hb, rfl⟩
    · exact nomatch h4
    · exact hb
  · by_contra hb'
    obtain ⟨l1, l2, rfl⟩ := List.append_of_mem hb
    rw [run_append] at h1
    obtain ⟨s3, h4, h5⟩ := Option.bind_eq_some_iff.mp h1
    rw [run_cons] at h5
    obtain ⟨s4, h6, h7⟩ := Option.bind_eq_some_iff.mp h5
    have hw3 := behindBarrier_woken (inv_run C h4) (step_eq_some.mp h6).1
      (Bool.not_eq_false _ ▸ hb')
    have hw1 : s1.woken = true :=
      run_inv' (fun _ _ _ hI h8 => (woken_step h8).mpr (Or.inl hI)) l2 s4 s1
        ((woken_step h6).mpr (Or.inl hw3)) h7
    exact nomatch hnw.symm.trans hw1

/-- One receiver and one sender, one message. -/
def pair : Config where
  processMode := true
  usePipes := true
  numGroups := 1
  numFds := 1
  fds_pos := Nat.zero_lt_one
  loops := 1
  capacity := 4096
  readyCapacity := 4096
  ready_pos := by decide
  whole := true

/-- The two report, the sender first, and are woken; the message is sent. -/
def pairRun : List Act :=
  [.create, .create, .created, .report 1, .report 0, .collect, .collect, .kick, .wake 1,
    .write 1 100, .wake 0]

def pairState : State := (run (step pair) init pairRun).getD init

theorem run_getD {C : Config} {as : List Act} (h : (run (step C) init as).isSome = true) :
    run (step C) init as = some ((run (step C) init as).getD init) := by
  obtain ⟨s, hs⟩ := Option.isSome_iff_exists.mp h
  rw [hs]
  rfl

theorem run_pair : run (step pair) init pairRun = some pairState :=
  run_getD (by decide +kernel)

theorem barrier_pair : ∃ before after, pairRun = before ++ .kick :: after ∧
    (∀ id < 2, .report id ∈ before) ∧ ∀ b ∈ before, b.behindBarrier = false :=
  barrier pair run_pair (step_eq_some.mpr ⟨by decide +kernel, rfl⟩ :
    step pair pairState (.read 0 100) = some (pairState.after pair (.read 0 100))) rfl

end Hackbench
end Longan
