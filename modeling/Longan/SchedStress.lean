/-
# The scheduler stress test and its clean-up

`stress_test.sh` starts loops in the background (`start_bt_test`,
`start_cfs_test`): `create_bt.sh` and `create_cfs.sh` start `add_test_bt.sh`
and `add_test_cfs.sh` and wait for them, over and over; each of these starts
`test_3` or `test_03` and waits for it; `rmdir_bt.sh` and `rmdir_cfs.sh` go
around forever. When the time is up `test_clean` issues eight `pkill`s, one
name each, sleeps, and then empties and removes the cgroup directories.

The state is the table of live helper processes and how far `test_clean` has
come. A `pkill` takes every process of its name at once, the children stay;
everything else interleaves freely, the sleeps order nothing.

`test_clean` kills the `add_test` scripts before the loops that start them.
A loop that starts one in between leaves a helper alive
(`late_start_survives`), and only that does: when every start of an
`add_test` script comes before the `pkill` of its name, nothing is left
(`no_late_start`).
-/
import Mathlib.Data.List.Nodup
import Longan.Lib.Runs

namespace Longan
namespace SchedStress

/-! ### The processes -/

/-- The programs of `stress_test.sh.data` that run in the background. -/
inductive Prog
  | createBt | createCfs | addTestBt | addTestCfs | test3 | test03 | rmdirBt | rmdirCfs
  deriving DecidableEq, Repr

/-- The program a script starts and waits for. -/
def Prog.starts : Prog → Option Prog
  | .createBt => some .addTestBt
  | .createCfs => some .addTestCfs
  | .addTestBt => some .test3
  | .addTestCfs => some .test03
  | _ => none

/-- The scripts that go on after the program they waited for: `while [ 1 ]`. -/
def Prog.loops : Prog → Bool
  | .createBt | .createCfs => true
  | _ => false

/-- A live process: its program, and the child it waits for. -/
structure Proc where
  pid : ℕ
  prog : Prog
  child : Option ℕ
  deriving DecidableEq, Repr

/-- The names `test_clean` kills, in its order. -/
def testClean : List Prog :=
  [.addTestBt, .addTestCfs, .createBt, .createCfs, .rmdirBt, .rmdirCfs, .test03, .test3]

/-- The live helpers, the next free pid, the `pkill`s issued, and whether
`test_clean` has come to the directories. -/
structure Sys where
  procs : List Proc
  next : ℕ
  pc : ℕ
  removing : Bool
  deriving DecidableEq, Repr

/-- What happens next: a process starts its program, its wait returns, a test
run ends, an `rmdir` loop goes around; `test_clean` issues its next `pkill`,
or comes to "test clean remove dir". -/
inductive Act
  | start (p : ℕ) | wake (p : ℕ) | done (p : ℕ) | turn (p : ℕ) | pkill | remove
  deriving DecidableEq, Repr

namespace Sys

variable (s : Sys)

def find (p : ℕ) : Option Proc := s.procs.find? (·.pid = p)

/-- Process `p` now waits for `c`. -/
def wait (p : ℕ) (c : Option ℕ) : List Proc :=
  s.procs.map fun x => if x.pid = p then { x with child := c } else x

/-- The processes without `p`. -/
def drop (p : ℕ) : List Proc := s.procs.filter (·.pid ≠ p)

end Sys

/-- One step; `none` when it cannot be taken. -/
def step (s : Sys) : Act → Option Sys
  | .start p =>
    match s.find p with
    | some ⟨_, g, none⟩ => g.starts.map fun c =>
        { s with procs := s.wait p (some s.next) ++ [⟨s.next, c, none⟩], next := s.next + 1 }
    | _ => none
  | .wake p =>
    match s.find p with
    | some ⟨_, g, some q⟩ =>
      if (s.find q).isSome then none
      else if g.loops then some { s with procs := s.wait p none }
      else some { s with procs := s.drop p }
    | _ => none
  | .done p =>
    match s.find p with
    | some ⟨_, g, _⟩ => if g = .test3 ∨ g = .test03 then some { s with procs := s.drop p } else none
    | none => none
  | .turn p =>
    match s.find p with
    | some ⟨_, g, _⟩ => if g = .rmdirBt ∨ g = .rmdirCfs then some s else none
    | none => none
  | .pkill => (testClean[s.pc]?).map fun g =>
      { s with procs := s.procs.filter (·.prog ≠ g), pc := s.pc + 1 }
  | .remove => if s.pc = testClean.length then some { s with removing := true } else none

/-- The loops a test has put in the background, none of them on its way yet. -/
def initial (gs : List Prog) : Sys :=
  { procs := gs.zipIdx.map fun g => ⟨g.2, g.1, none⟩, next := gs.length, pc := 0, removing := false }

def startCfsTest : List Prog :=
  [.createCfs, .rmdirCfs, .createCfs, .rmdirCfs, .createCfs, .rmdirCfs, .createCfs, .rmdirCfs,
    .createCfs, .rmdirCfs]

def startBtTest : List Prog :=
  [.createBt, .rmdirBt, .createBt, .rmdirBt, .createBt, .rmdirBt, .createBt, .rmdirBt,
    .createBt, .rmdirBt]

/-! ### What a step does to the table -/

theorem find_prog {s : Sys} {p : ℕ} {x : Proc} (h : s.find p = some x) : x ∈ s.procs :=
  List.mem_of_find?_eq_some h

theorem mem_wait {s : Sys} {p : ℕ} {c : Option ℕ} {x : Proc} (h : x ∈ s.wait p c) :
    ∃ y ∈ s.procs, y.prog = x.prog := by
  obtain ⟨y, hy, rfl⟩ := List.mem_map.mp h
  exact ⟨y, hy, by split <;> rfl⟩

theorem mem_drop {s : Sys} {p : ℕ} {x : Proc} (h : x ∈ s.drop p) : x ∈ s.procs :=
  (List.mem_filter.mp h).1

/-- A step starts the program of a script that waits for nothing, or is
another step of the processes, which adds no program, or is `test_clean`'s. -/
theorem step_cases {s s' : Sys} {a : Act} (h : step s a = some s') :
    (∃ p x c, a = .start p ∧ s.find p = some x ∧ x.prog.starts = some c ∧ s'.pc = s.pc ∧
      s'.removing = s.removing ∧
      ∀ y ∈ s'.procs, y.prog = c ∨ ∃ z ∈ s.procs, z.prog = y.prog) ∨
    (s'.pc = s.pc ∧ s'.removing = s.removing ∧ ∀ y ∈ s'.procs, ∃ z ∈ s.procs, z.prog = y.prog) ∨
    (∃ g, a = .pkill ∧ testClean[s.pc]? = some g ∧
      s' = { s with procs := s.procs.filter (·.prog ≠ g), pc := s.pc + 1 }) ∨
    (a = .remove ∧ s.pc = testClean.length ∧ s' = { s with removing := true }) := by
  cases a with
  | start p =>
    simp only [step] at h
    split at h
    · rename_i q g hf
      obtain ⟨c, hc, rfl⟩ := Option.map_eq_some_iff.mp h
      refine .inl ⟨p, ⟨q, g, none⟩, c, rfl, hf, hc, rfl, rfl, fun y hy => ?_⟩
      rcases List.mem_append.mp hy with hy | hy
      · exact .inr (mem_wait hy)
      · left
        simp only [List.mem_singleton] at hy
        rw [hy]
    · cases h
  | wake p =>
    simp only [step] at h
    split at h
    · split at h
      · cases h
      · split at h
        · cases h
          exact .inr (.inl ⟨rfl, rfl, fun y hy => mem_wait hy⟩)
        · cases h
          exact .inr (.inl ⟨rfl, rfl, fun y hy => ⟨y, mem_drop hy, rfl⟩⟩)
    · cases h
  | done p =>
    simp only [step] at h
    split at h
    · split at h
      · cases h
        exact .inr (.inl ⟨rfl, rfl, fun y hy => ⟨y, mem_drop hy, rfl⟩⟩)
      · cases h
    · cases h
  | turn p =>
    simp only [step] at h
    split at h
    · split at h
      · cases h
        exact .inr (.inl ⟨rfl, rfl, fun y hy => ⟨y, hy, rfl⟩⟩)
      · cases h
    · cases h
  | pkill =>
    obtain ⟨g, hg, rfl⟩ := Option.map_eq_some_iff.mp h
    exact .inr (.inr (.inl ⟨g, rfl, hg, rfl⟩))
  | remove =>
    simp only [step] at h
    split at h
    · rename_i hp
      cases h
      exact .inr (.inr (.inr ⟨rfl, hp, rfl⟩))
    · cases h

/-! ### What is left when the kills are over -/

/-- The names killed so far. -/
def Sys.killed (s : Sys) : List Prog := testClean.take s.pc

/-- A `create` loop does not start its `add_test` script once `test_clean`
has killed the scripts of that name. -/
def StartsInTime (s : Sys) (a : Act) : Prop :=
  ∀ p x c, a = .start p → s.find p = some x → x.prog.loops = true → x.prog.starts = some c →
    c ∉ s.killed

/-- No live process has a name already killed, and the directories come after
the last kill. -/
structure Quiet (s : Sys) : Prop where
  procs : ∀ x ∈ s.procs, x.prog ∉ s.killed
  pc : s.pc ≤ testClean.length
  removing : s.removing = true → s.pc = testClean.length

/-- What an `add_test` script starts is killed after the script. -/
theorem starts_killed_later {g c : Prog} (hl : g.loops = false) (hs : g.starts = some c) (k : ℕ)
    (h : g ∉ testClean.take k) : c ∉ testClean.take k := by
  cases g <;> simp only [Prog.loops, Prog.starts, Option.some.injEq, reduceCtorEq] at hl hs
  · subst hs
    rcases k with _ | k
    · simp
    · simp [testClean] at h
  · subst hs
    rcases k with _ | _ | k
    · simp
    · simp [testClean]
    · simp [testClean] at h

theorem killed_succ {s : Sys} {g : Prog} (h : testClean[s.pc]? = some g) :
    testClean.take (s.pc + 1) = s.killed ++ [g] := by
  rw [List.take_add_one, h]
  rfl

/-- A step in time keeps the table clear of the killed names. -/
theorem quiet_step {s s' : Sys} {a : Act} (hq : Quiet s) (ht : StartsInTime s a)
    (h : step s a = some s') : Quiet s' := by
  rcases step_cases h with ⟨p, x, c, ha, hf, hc, hpc, hrm, hp⟩ | ⟨hpc, hrm, hp⟩ |
    ⟨g, -, hg, rfl⟩ | ⟨-, hpc, rfl⟩
  · -- a new process: its name was not killed, by `ht` under a loop and by the order otherwise
    refine ⟨fun y hy => ?_, hpc ▸ hq.pc, fun hr => hpc ▸ hq.removing (hrm ▸ hr)⟩
    have hx : x.prog ∉ s.killed := hq.procs x (find_prog hf)
    have hkc : c ∉ s.killed := by
      cases hl : x.prog.loops with
      | true => exact ht p x c ha hf hl hc
      | false => exact starts_killed_later hl hc _ hx
    rw [Sys.killed, hpc]
    rcases hp y hy with he | ⟨z, hz, he⟩
    · exact he ▸ hkc
    · exact he ▸ hq.procs z hz
  · refine ⟨fun y hy => ?_, hpc ▸ hq.pc, fun hr => hpc ▸ hq.removing (hrm ▸ hr)⟩
    obtain ⟨z, hz, he⟩ := hp y hy
    rw [Sys.killed, hpc, ← he]
    exact hq.procs z hz
  · have hlt : s.pc < testClean.length := (List.getElem?_eq_some_iff.mp hg).1
    refine ⟨fun y hy => ?_, hlt, fun hr => absurd (hq.removing hr) (Nat.ne_of_lt hlt)⟩
    obtain ⟨hy, hne⟩ := List.mem_filter.mp hy
    simp only [ne_eq, decide_eq_true_eq] at hne
    simp only [Sys.killed, killed_succ hg, List.mem_append, List.mem_singleton, not_or]
    exact ⟨hq.procs y hy, hne⟩
  · exact ⟨hq.procs, hq.pc, fun _ => hpc⟩

theorem quiet_initial (gs : List Prog) : Quiet (initial gs) :=
  ⟨fun _ _ => by simp [Sys.killed, initial], Nat.zero_le _, fun h => by cases h⟩

/-- Every name is in the list, so after the last kill nothing is left. -/
theorem Quiet.nil {s : Sys} (hq : Quiet s) (h : s.removing = true) : s.procs = [] := by
  refine List.eq_nil_iff_forall_not_mem.mpr fun x hx => hq.procs x hx ?_
  rw [Sys.killed, hq.removing h, List.take_length]
  cases x.prog <;> decide

theorem along_of_no_start : ∀ (as : List Act) (s : Sys), (∀ a ∈ as, ∀ p, a ≠ .start p) →
    Along step StartsInTime s as
  | [], _, _ => trivial
  | a :: as, _, h => ⟨fun p _ _ ha => absurd ha (h a (by simp) p),
      fun s' _ => along_of_no_start as s' fun b hb => h b (List.mem_cons_of_mem _ hb)⟩

/-- With every `add_test` script started before the `pkill` of its name, no
helper is alive when `test_clean` comes to the directories. -/
theorem no_late_start (gs : List Prog) (as : List Act) (s : Sys)
    (ht : Along step StartsInTime (initial gs) as) (h : run step (initial gs) as = some s)
    (hr : s.removing = true) : s.procs = [] :=
  (run_inv (fun _ _ _ hq ht h => quiet_step hq ht h) as _ s (quiet_initial gs) ht h).nil hr

/-! ### A late start -/

theorem pc_le_step {s s' : Sys} {a : Act} (hp : s.pc ≤ testClean.length)
    (h : step s a = some s') : s'.pc ≤ testClean.length := by
  rcases step_cases h with ⟨_, _, _, _, _, _, hpc, _⟩ | ⟨hpc, _⟩ | ⟨g, -, hg, rfl⟩ | ⟨-, -, rfl⟩
  · exact hpc ▸ hp
  · exact hpc ▸ hp
  · exact (List.getElem?_eq_some_iff.mp hg).1
  · exact hp

/-- The rest of `test_clean`'s kills go by a process whose name is not among
them. -/
theorem rest_of_clean : ∀ (n : ℕ) (s : Sys) (x : Proc), s.pc + n = testClean.length →
    x ∈ s.procs → x.prog ∈ s.killed →
    ∃ t, run step s (List.replicate n .pkill ++ [.remove]) = some t ∧ t.removing = true ∧
      x ∈ t.procs
  | 0, s, x, hn, hx, _ => by
    refine ⟨{ s with removing := true }, ?_, rfl, hx⟩
    have hpc : s.pc = testClean.length := hn
    simp [run_cons, run_nil, step, hpc]
  | n + 1, s, x, hn, hx, hk => by
    have hlt : s.pc < testClean.length := by omega
    have hg : testClean[s.pc]? = some testClean[s.pc] := List.getElem?_eq_getElem hlt
    -- the list has each name once, so the one to come is not the killed one
    have hne : x.prog ≠ testClean[s.pc] := by
      intro he
      have hnd : (testClean.take (s.pc + 1)).Nodup := (by decide : testClean.Nodup).sublist
        (List.take_sublist _ _)
      rw [killed_succ hg, List.nodup_append] at hnd
      exact hnd.2.2 _ hk _ (by simp) he
    obtain ⟨t, ht, hr, hm⟩ := rest_of_clean n
      { s with procs := s.procs.filter (·.prog ≠ testClean[s.pc]), pc := s.pc + 1 } x
      (by simp only; omega) (List.mem_filter.mpr ⟨hx, by simpa using hne⟩)
      (by simp only [Sys.killed, killed_succ hg, List.mem_append]; exact .inl hk)
    refine ⟨t, ?_, hr, hm⟩
    rw [List.replicate_succ, List.cons_append, run_cons]
    simp only [step, hg, Option.map_some, Option.bind_some]
    exact ht

theorem start_adds {s s' : Sys} {p : ℕ} {x : Proc} {c : Prog} (hf : s.find p = some x)
    (hc : x.prog.starts = some c) (h : step s (.start p) = some s') :
    s'.pc = s.pc ∧ ⟨s.next, c, none⟩ ∈ s'.procs := by
  simp only [step] at h
  split at h
  · rename_i q g hf'
    rw [hf] at hf'
    cases hf'
    simp only [hc, Option.map_some, Option.some.injEq] at h
    subst h
    exact ⟨rfl, by simp⟩
  · cases h

/-- After a late start the kills can go on to the end with the started
script alive. -/
theorem late_start_survives {s s' : Sys} {a : Act} (hp : s.pc ≤ testClean.length)
    (hl : ¬ StartsInTime s a) (h : step s a = some s') :
    ∃ bs t, run step s' bs = some t ∧ t.removing = true ∧ t.procs ≠ [] := by
  simp only [StartsInTime, not_forall, not_not] at hl
  obtain ⟨p, x, c, rfl, hf, -, hc, hk⟩ := hl
  obtain ⟨hpc, hm⟩ := start_adds hf hc h
  have hk' : c ∈ s'.killed := by rw [Sys.killed, hpc]; exact hk
  obtain ⟨t, ht, hr, hx⟩ := rest_of_clean (testClean.length - s'.pc) s' _ (by omega) hm hk'
  exact ⟨_, t, ht, hr, List.ne_nil_of_mem hx⟩

/-- **What `test_clean` leaves.** Whatever loops were started and however
their steps fall between the kills: if every `add_test` script is started
before the `pkill` of its name, no helper is alive when the directories are
emptied and removed; and after any other start there is a way to go on that
leaves one alive. -/
theorem test_clean_quiesces (gs : List Prog) :
    (∀ as s, Along step StartsInTime (initial gs) as → run step (initial gs) as = some s →
      s.removing = true → s.procs = []) ∧
    ∀ as s a s', run step (initial gs) as = some s → ¬ StartsInTime s a → step s a = some s' →
      ∃ bs t, run step s' bs = some t ∧ t.removing = true ∧ t.procs ≠ [] := by
  refine ⟨fun as s => no_late_start gs as s, fun as s a s' h hl hs => ?_⟩
  have hp := run_inv' (I := fun s => s.pc ≤ testClean.length) (fun _ _ _ => pc_le_step) as _ s
    (Nat.zero_le _) h
  exact late_start_survives hp hl hs

/-- One `create_bt.sh` whose script starts `test_3` before the clean-up. -/
theorem test_clean_quiesces_one :
    ∃ s, run step (initial [.createBt])
        ([.start 0, .start 1] ++ List.replicate 8 .pkill ++ [.remove]) = some s ∧
      s.removing = true ∧ s.procs = [] := by
  have hrun : (run step (initial [.createBt])
      ([.start 0, .start 1] ++ List.replicate 8 .pkill ++ [.remove])).map (·.removing) =
        some true := by decide
  obtain ⟨s, hs, hr⟩ := Option.map_eq_some_iff.mp hrun
  refine ⟨s, hs, hr, (test_clean_quiesces [.createBt]).1 _ s ?_ hs hr⟩
  refine ⟨fun _ _ _ _ _ _ _ => by simp [Sys.killed, initial], fun s1 h1 => ⟨?_, fun s2 _ => ?_⟩⟩
  · cases h1
    exact fun _ _ _ _ _ _ _ => by simp [Sys.killed, initial]
  · refine along_of_no_start _ s2 fun a ha => ?_
    change a ∈ List.replicate 8 Act.pkill ++ [.remove] at ha
    simp only [List.mem_append, List.mem_replicate, List.mem_singleton] at ha
    rcases ha with ⟨-, rfl⟩ | rfl <;> simp

/-- Five loops of each kind, `add_test_bt.sh` killed before any is started,
and one started by the first `create_bt.sh`, pid 0, at once after that. -/
theorem late_start_example :
    ¬ ∀ as s, run step (initial (startBtTest ++ startCfsTest)) as = some s →
      s.removing = true → s.procs = [] := by
  intro h
  have hrun : (run step (initial (startBtTest ++ startCfsTest))
      ([.pkill, .start 0] ++ List.replicate 7 .pkill ++ [.remove])).map
        (fun s => (s.removing, s.procs)) = some (true, [⟨20, .addTestBt, none⟩]) := by decide
  obtain ⟨s, hs, he⟩ := Option.map_eq_some_iff.mp hrun
  simp only [Prod.mk.injEq] at he
  have := h _ s hs he.1
  rw [he.2] at this
  cases this

end SchedStress
end Longan
