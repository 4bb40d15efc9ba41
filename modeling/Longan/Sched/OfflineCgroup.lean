/-
# `offline_cgroup_test.sh`

What the offline class does in the root group and in a new one. Each of the six
tests starts a busy loop (`sched_t_thread`), puts it into a group, and looks at
what `set_offline` returns, at the policy of the process and at `cpu.offline`;
each return has to see to the process and to the new group itself, or to rely
on the caller's `rmdir`.

The kernel answers each command as it likes (`System`). `World` adds what the
script may leave behind: the processes it has started, with their groups, and
the directory of the new group, which `rmdir` removes if no process is in it.
With the class parameter nothing is left behind; without it two of the returns
forget the process, and `nothing_left_iff` says when one of them is reached.
-/
import Longan.Lib.Triple
import Longan.Sched.Inputs

namespace Longan
namespace Sched
namespace OfflineCgroup

open Text Outside

variable {σ : Type}

inductive Group where
  | root
  | nonroot
  deriving DecidableEq

/-- What the commands of the script do to the kernel and answer. -/
structure System (σ : Type) where
  make : σ → Text → σ
  spawn : σ → ℕ × σ
  mkdir : σ → Bool × σ
  /-- `echo $pid > tasks` -/
  attach : σ → Group → ℕ → Bool × σ
  /-- `set_offline $pid` -/
  setOffline : σ → ℕ → ℕ × σ
  /-- the lines of `/proc/$pid/sched` -/
  sched : σ → ℕ → List Text × σ
  /-- `[ -f cpu.offline ]` -/
  isFile : σ → Group → Bool × σ
  /-- `cat cpu.offline`, which may fail -/
  cat : σ → Group → Option Text × σ
  /-- `echo $text > cpu.offline` -/
  write : σ → Group → Text → Bool × σ

/-- The kernel, the processes started by the script and still alive, whether
`nonroot_dir_test` is there, and what was printed. -/
structure World (σ : Type) where
  kernel : σ
  procs : List (ℕ × Option Group)
  dir : Bool
  printed : List Text

variable (y : System σ) (o : Outside)

/-! ### Commands -/

def ask {α : Type} (f : σ → α × σ) : StateM (World σ) α := fun w =>
  ((f w.kernel).1, { w with kernel := (f w.kernel).2 })

/-- A command on a file of a group, with its answer where the directory is not
there. -/
def askIn {α : Type} (g : Group) (absent : α) (f : σ → α × σ) : StateM (World σ) α := fun w =>
  if g = .nonroot ∧ w.dir = false then (absent, w) else ask f w

def echoLine (t : Text) : StateM (World σ) Unit := fun w => ((), { w with printed := w.printed ++ [t] })

/-- `$data_dir/sched_t_thread &`, and `$!`. -/
def spawn : StateM (World σ) ℕ := fun w =>
  ((y.spawn w.kernel).1,
    { w with kernel := (y.spawn w.kernel).2, procs := ((y.spawn w.kernel).1, none) :: w.procs })

def kill (pid : ℕ) : StateM (World σ) Unit := fun w =>
  ((), { w with procs := w.procs.filter fun p => p.1 ≠ pid })

/-- `mkdir -p`. -/
def mkdir : StateM (World σ) Unit := fun w =>
  if w.dir then ((), w)
  else ((), { w with kernel := (y.mkdir w.kernel).2, dir := (y.mkdir w.kernel).1 })

/-- `rmdir`, which fails if a process is in the group. -/
def rmdir : StateM (World σ) Unit := fun w =>
  if ∃ p ∈ w.procs, p.2 = some .nonroot then ((), w) else ((), { w with dir := false })

/-- `echo $pid > tasks`. -/
def attach (g : Group) (pid : ℕ) : StateM (World σ) Unit := do
  let accepted ← askIn g false fun s => y.attach s g pid
  if accepted then
    modify fun w => { w with procs := w.procs.map fun p => if p.1 = pid then (pid, some g) else p }

def setOffline (pid : ℕ) : StateM (World σ) ℕ := ask fun s => y.setOffline s pid

def isFile (g : Group) : StateM (World σ) Bool := askIn g false fun s => y.isFile s g

def catOffline (g : Group) : StateM (World σ) (Option Text) := askIn g none fun s => y.cat s g

/-- `echo $text > cpu.offline`, with its status. -/
def echoOffline (g : Group) (t : Text) : StateM (World σ) ℕ := do
  let accepted ← askIn g false fun s => y.write s g t
  return echoStatus accepted

/-! ### The script -/

def autotestPrepare : StateM (World σ) Unit := fun w =>
  ((), { w with kernel := ["sched_t_thread".toList, "set_offline".toList].foldl y.make w.kernel })

def autotestPostclean : StateM (World σ) ℕ := do
  rmdir
  return 0

/-- `check_pid_offline` on the lines of `/proc/$pid/sched`. -/
def policyStatus (lines : List Text) : ℕ :=
  let policy := commandSubst ((grep "policy".toList lines).map (field 3))
  if o.holds (o.words policy ++ ["==".toList, "7".toList]) then 0 else 1

def checkPidOffline (pid : ℕ) : StateM (World σ) ℕ := do
  let lines ← ask fun s => y.sched s pid
  return policyStatus o lines

def checkOfflineFile : StateM (World σ) ℕ := do
  if ← isFile y .root then
    return 1
  return 0

def basicSetCheck : StateM (World σ) ℕ := do
  let pid ← spawn y
  attach y .root pid
  let st ← setOffline y pid
  if st ≠ 0 then
    kill pid
    return 1
  let st ← checkPidOffline y o pid
  if st ≠ 0 then
    kill pid
    return 1
  kill pid
  return 0

def noParaRootTest : StateM (World σ) ℕ := do
  let pid ← spawn y
  attach y .root pid
  let st ← setOffline y pid
  if st = 0 then
    kill pid
    return 1
  let st ← checkPidOffline y o pid
  if st ≠ 1 then
    kill pid
    return 1
  let st ← checkOfflineFile y
  if st = 1 then
    return 1
  kill pid
  return 0

def oneParaRootTest : StateM (World σ) ℕ := do
  let st ← basicSetCheck y o
  if st = 1 then
    return 1
  let st ← checkOfflineFile y
  if st = 1 then
    return 1
  return 0

def rootSetschedulerTest : StateM (World σ) ℕ := do
  let pid ← spawn y
  attach y .root pid
  let st ← setOffline y pid
  if st ≠ 0 then
    kill pid
    return 1
  let st ← echoOffline y .root "1".toList
  if st = 0 then
    kill pid
    return 1
  kill pid
  return 0

def noParaNorootTest : StateM (World σ) ℕ := do
  mkdir y
  let offline ← catOffline y .nonroot
  if offline.isSome then
    rmdir
    return 1
  let pid ← spawn y
  attach y .nonroot pid
  let st ← setOffline y pid
  if st = 1 then
    kill pid
    rmdir
    return 1
  if ← isFile y .nonroot then
    rmdir
    return 1
  kill pid
  rmdir
  return 0

def classParaNorootTest : StateM (World σ) ℕ := do
  mkdir y
  let offline ← catOffline y .nonroot
  if offline.isSome then
    rmdir
    return 1
  let pid ← spawn y
  attach y .nonroot pid
  let st ← setOffline y pid
  if st = 1 then
    kill pid
    rmdir
    return 1
  let st ← checkPidOffline y o pid
  if st ≠ 0 then
    kill pid
    rmdir
    return 1
  kill pid
  rmdir
  return 0

def nonrootSetschedulerTest : StateM (World σ) ℕ := do
  mkdir y
  let offline ← catOffline y .nonroot
  if o.holds (o.words (offline.elim [] cat) ++ ["!=".toList, "0".toList]) then
    return 1
  let pid ← spawn y
  attach y .nonroot pid
  let st ← setOffline y pid
  if st = 0 then
    kill pid
    return 1
  let st ← echoOffline y .nonroot "1".toList
  if st ≠ 0 then
    kill pid
    return 1
  let st ← checkPidOffline y o pid
  if st ≠ 0 then
    kill pid
    return 1
  let st ← echoOffline y .nonroot "0".toList
  if st ≠ 0 then
    kill pid
    return 1
  let st ← checkPidOffline y o pid
  if st ≠ 1 then
    kill pid
    return 1
  kill pid
  return 0

def autotestTypeTwoCmdPara : StateM (World σ) ℕ := do
  let st ← rootSetschedulerTest y
  if st ≠ 0 then
    echoLine "set root offline test failed".toList
    let _ ← autotestPostclean
    return 1
  let st ← nonrootSetschedulerTest y o
  if st ≠ 0 then
    echoLine "non root offline test failed".toList
    let _ ← autotestPostclean
    return 1
  let _ ← autotestPostclean
  return 0

def autotestTypeClassCmdPara : StateM (World σ) ℕ := do
  let st ← oneParaRootTest y o
  if st ≠ 0 then
    return 1
  let st ← classParaNorootTest y o
  if st ≠ 0 then
    return 1
  return 0

def autotestTypeNoCmdPara : StateM (World σ) ℕ := do
  let st ← noParaRootTest y o
  if st ≠ 0 then
    return 1
  let st ← noParaNorootTest y
  if st ≠ 0 then
    return 1
  return 0

def autotestTest (cmdline : Text) : StateM (World σ) ℕ :=
  match cmdlineCheck cmdline with
  | 2 => autotestTypeTwoCmdPara y o
  | 1 => autotestTypeClassCmdPara y o
  | _ => autotestTypeNoCmdPara y o

def main (cmdline : Text) : StateM (World σ) ℕ := do
  autotestPrepare y
  let st ← autotestTest y o cmdline
  if st = 0 then
    echoLine "succeed".toList
    return 0
  else
    echoLine "failed".toList
    return 1

/-! ### What the commands do to processes and directory -/

/-- A property of what may be left behind. -/
def Left (P : List (ℕ × Option Group) → Bool → Prop) (w : World σ) : Prop := P w.procs w.dir

/-- The same, with the state of the kernel. -/
def LeftAt (s : σ) (P : List (ℕ × Option Group) → Bool → Prop) (w : World σ) : Prop :=
  w.kernel = s ∧ Left P w

/-- No process is alive, and the directory is as `D` says. -/
def Gone (D : Bool → Prop) (ps : List (ℕ × Option Group)) (d : Bool) : Prop := ps = [] ∧ D d

/-- Only the one process is alive. -/
def Sole (pid : ℕ) (D : Bool → Prop) (ps : List (ℕ × Option Group)) (d : Bool) : Prop :=
  (∃ g, ps = [(pid, g)]) ∧ D d

section Commands

variable {y o} {s : σ} {P : List (ℕ × Option Group) → Bool → Prop} {D : Bool → Prop} {pid : ℕ}
  {g : Group}

theorem ask_keeps {α : Type} {f : σ → α × σ} : Keeps (Left P) (ask f) := fun _ hw => hw

theorem ask_spec {α : Type} {f : σ → α × σ} :
    Triple (LeftAt s P) (ask f) fun a w => a = (f s).1 ∧ LeftAt (f s).2 P w := by
  rintro w ⟨rfl, hw⟩
  exact ⟨rfl, rfl, hw⟩

theorem askIn_keeps {α : Type} {absent : α} {f : σ → α × σ} : Keeps (Left P) (askIn g absent f) := by
  intro w hw
  unfold askIn
  split_ifs
  · exact hw
  · exact ask_keeps w hw

/-- A file of a group whose directory is there. -/
theorem askIn_spec {α : Type} {absent : α} {f : σ → α × σ} (hP : ∀ ps d, P ps d → g = .root ∨ d = true) :
    Triple (LeftAt s P) (askIn g absent f) fun a w => a = (f s).1 ∧ LeftAt (f s).2 P w := by
  rintro w ⟨rfl, hw⟩
  have hthere : ¬ (g = .nonroot ∧ w.dir = false) := by
    rintro ⟨rfl, hd⟩
    rcases hP _ _ hw with h | h
    · cases h
    · exact Bool.noConfusion (hd.symm.trans h)
  rw [askIn, if_neg hthere]
  exact ⟨rfl, rfl, hw⟩

/-- A file of the new group, whose directory is not there. -/
theorem askIn_absent {α : Type} {absent : α} {f : σ → α × σ} (hP : ∀ ps d, P ps d → d = false) :
    Triple (Left P) (askIn .nonroot absent f) fun a w => a = absent ∧ Left P w := by
  intro w hw
  rw [askIn, if_pos ⟨rfl, hP _ _ hw⟩]
  exact ⟨rfl, hw⟩

theorem spawn_keeps : Triple (Left (Gone D)) (spawn y) fun pid => Left (Sole pid D) := by
  rintro w ⟨hw, hd⟩
  exact ⟨⟨none, by rw [spawn, hw]⟩, hd⟩

theorem spawn_spec : Triple (LeftAt s (Gone D)) (spawn y) fun pid w =>
    pid = (y.spawn s).1 ∧ LeftAt (y.spawn s).2 (Sole (y.spawn s).1 D) w := by
  rintro w ⟨rfl, hw⟩
  exact ⟨rfl, rfl, spawn_keeps w hw⟩

theorem moved_sole {ps : List (ℕ × Option Group)} {d : Bool} (h : Sole pid D ps d) :
    Sole pid D (ps.map fun p => if p.1 = pid then (pid, some g) else p) d := by
  obtain ⟨⟨g', rfl⟩, hd⟩ := h
  exact ⟨⟨some g, by simp⟩, hd⟩

theorem attach_keeps : Keeps (Left (Sole pid D)) (attach y g pid) := by
  unfold attach
  refine askIn_keeps.bind fun accepted => ?_
  refine Triple.ite (fun _ w hw => moved_sole hw) fun _ => Triple.pure fun _ hw => hw

theorem attach_spec (hD : ∀ d, D d → g = .root ∨ d = true) :
    Triple (LeftAt s (Sole pid D)) (attach y g pid) fun _ => LeftAt (y.attach s g pid).2 (Sole pid D) := by
  unfold attach
  refine (askIn_spec fun ps d h => hD d h.2).bind_eq ?_
  refine Triple.ite (fun _ w hw => ⟨hw.1, moved_sole hw.2⟩) fun _ => Triple.pure fun _ hw => hw

theorem kill_keeps : Triple (Left (Sole pid D) : World σ → Prop) (kill pid) fun _ => Left (Gone D) := by
  rintro w ⟨⟨g, hw⟩, hd⟩
  refine ⟨?_, hd⟩
  show w.procs.filter _ = []
  rw [hw]
  simp

theorem kill_spec : Triple (LeftAt s (Sole pid D)) (kill pid) fun _ => LeftAt s (Gone D) := fun w hw =>
  ⟨hw.1, kill_keeps w hw.2⟩

theorem mkdir_keeps : Triple (Left (Gone D)) (mkdir y) fun _ => Left (Gone fun _ => True) := by
  rintro w ⟨hw, -⟩
  unfold mkdir
  split_ifs
  · exact ⟨hw, trivial⟩
  · exact ⟨hw, trivial⟩

theorem mkdir_spec : Triple (LeftAt s (Gone (· = false))) (mkdir y) fun _ =>
    LeftAt (y.mkdir s).2 (Gone (· = (y.mkdir s).1)) := by
  rintro w ⟨rfl, hw, hd⟩
  rw [mkdir, hd]
  exact ⟨rfl, hw, rfl⟩

/-- With no process alive the directory goes. -/
theorem rmdir_keeps :
    Triple (Left (Gone D) : World σ → Prop) rmdir fun _ => Left (Gone (· = false)) := by
  rintro w ⟨hw, -⟩
  have hempty : ¬ ∃ p ∈ w.procs, p.2 = some Group.nonroot := by
    rw [hw]
    rintro ⟨p, hp, -⟩
    cases hp
  rw [rmdir, if_neg hempty]
  exact ⟨hw, rfl⟩

theorem rmdir_procs (w : World σ) : (rmdir w).2.procs = w.procs := by
  unfold rmdir
  split_ifs
  · rfl
  · rfl

theorem kill_return {n : ℕ} :
    Triple (Left (Sole pid D) : World σ → Prop) (do kill pid; return n) fun _ => Left (Gone D) :=
  kill_keeps.bind fun _ => Triple.pure fun _ hw => hw

theorem rmdir_return {n : ℕ} :
    Triple (Left (Gone D) : World σ → Prop) (do rmdir; return n) fun _ => Left (Gone (· = false)) :=
  rmdir_keeps.bind fun _ => Triple.pure fun _ hw => hw

theorem kill_rmdir_return {n : ℕ} :
    Triple (Left (Sole pid D) : World σ → Prop) (do kill pid; rmdir; return n)
      fun _ => Left (Gone (· = false)) :=
  kill_keeps.bind fun _ => rmdir_return

theorem checkPidOffline_keeps : Keeps (Left P) (checkPidOffline y o pid) :=
  ask_keeps.bind fun _ => Triple.pure fun _ hw => hw

theorem checkOfflineFile_keeps : Keeps (Left P) (checkOfflineFile y) := by
  refine askIn_keeps.bind fun _ => ?_
  exact Triple.ite (fun _ => Triple.pure fun _ hw => hw) fun _ => Triple.pure fun _ hw => hw

theorem echoOffline_keeps {t : Text} : Keeps (Left P) (echoOffline y g t) :=
  askIn_keeps.bind fun _ => Triple.pure fun _ hw => hw

/-! ### The tests that leave nothing behind -/

theorem basicSetCheck_keeps : Keeps (Left (Gone D)) (basicSetCheck y o) := by
  unfold basicSetCheck
  refine spawn_keeps.bind fun pid => ?_
  refine attach_keeps.bind fun _ => ?_
  refine ask_keeps.bind fun st => ?_
  refine Triple.ite (fun _ => kill_return) fun _ => ?_
  refine checkPidOffline_keeps.bind fun st => ?_
  exact Triple.ite (fun _ => kill_return) fun _ => kill_return

theorem oneParaRootTest_keeps : Keeps (Left (Gone D)) (oneParaRootTest y o) := by
  unfold oneParaRootTest
  refine basicSetCheck_keeps.bind fun st => ?_
  refine Triple.ite (fun _ => Triple.pure fun _ hw => hw) fun _ => ?_
  refine checkOfflineFile_keeps.bind fun st => ?_
  exact Triple.ite (fun _ => Triple.pure fun _ hw => hw) fun _ => Triple.pure fun _ hw => hw

theorem rootSetschedulerTest_keeps : Keeps (Left (Gone D)) (rootSetschedulerTest y) := by
  unfold rootSetschedulerTest
  refine spawn_keeps.bind fun pid => ?_
  refine attach_keeps.bind fun _ => ?_
  refine ask_keeps.bind fun st => ?_
  refine Triple.ite (fun _ => kill_return) fun _ => ?_
  refine echoOffline_keeps.bind fun st => ?_
  exact Triple.ite (fun _ => kill_return) fun _ => kill_return

/-- It takes its directory away at each return. -/
theorem classParaNorootTest_clean :
    Triple (Left (Gone D)) (classParaNorootTest y o) fun _ => Left (Gone (· = false)) := by
  unfold classParaNorootTest
  refine mkdir_keeps.bind fun _ => ?_
  refine askIn_keeps.bind fun offline => ?_
  refine Triple.ite (fun _ => rmdir_return) fun _ => ?_
  refine spawn_keeps.bind fun pid => ?_
  refine attach_keeps.bind fun _ => ?_
  refine ask_keeps.bind fun st => ?_
  refine Triple.ite (fun _ => kill_rmdir_return) fun _ => ?_
  refine checkPidOffline_keeps.bind fun st => ?_
  exact Triple.ite (fun _ => kill_rmdir_return) fun _ => kill_rmdir_return

/-- It leaves its directory to the caller. -/
theorem nonrootSetschedulerTest_gone :
    Triple (Left (Gone D)) (nonrootSetschedulerTest y o) fun _ => Left (Gone fun _ => True) := by
  unfold nonrootSetschedulerTest
  refine mkdir_keeps.bind fun _ => ?_
  refine askIn_keeps.bind fun offline => ?_
  refine Triple.ite (fun _ => Triple.pure fun _ hw => hw) fun _ => ?_
  refine spawn_keeps.bind fun pid => ?_
  refine attach_keeps.bind fun _ => ?_
  refine ask_keeps.bind fun st => ?_
  refine Triple.ite (fun _ => kill_return) fun _ => ?_
  refine echoOffline_keeps.bind fun st => ?_
  refine Triple.ite (fun _ => kill_return) fun _ => ?_
  refine checkPidOffline_keeps.bind fun st => ?_
  refine Triple.ite (fun _ => kill_return) fun _ => ?_
  refine echoOffline_keeps.bind fun st => ?_
  refine Triple.ite (fun _ => kill_return) fun _ => ?_
  refine checkPidOffline_keeps.bind fun st => ?_
  exact Triple.ite (fun _ => kill_return) fun _ => kill_return

theorem postclean_return {n : ℕ} : Triple (Left (Gone D) : World σ → Prop)
    (do let _ ← autotestPostclean; return n) fun _ => Left (Gone (· = false)) :=
  Triple.bind rmdir_return fun _ => Triple.pure fun _ hw => hw

theorem typeTwoCmdPara_clean :
    Triple (Left (Gone D)) (autotestTypeTwoCmdPara y o) fun _ => Left (Gone (· = false)) := by
  unfold autotestTypeTwoCmdPara
  refine rootSetschedulerTest_keeps.bind fun st => ?_
  refine Triple.ite (fun _ => Triple.bind (fun _ hw => hw) fun _ => postclean_return) fun _ => ?_
  refine nonrootSetschedulerTest_gone.bind fun st => ?_
  refine Triple.ite (fun _ => Triple.bind (fun _ hw => hw) fun _ => postclean_return) fun _ => ?_
  exact postclean_return

theorem typeClassCmdPara_clean :
    Triple (Left (Gone (· = false))) (autotestTypeClassCmdPara y o) fun _ => Left (Gone (· = false)) := by
  unfold autotestTypeClassCmdPara
  refine oneParaRootTest_keeps.bind fun st => ?_
  refine Triple.ite (fun _ => Triple.pure fun _ hw => hw) fun _ => ?_
  refine classParaNorootTest_clean.bind fun st => ?_
  exact Triple.ite (fun _ => Triple.pure fun _ hw => hw) fun _ => Triple.pure fun _ hw => hw

end Commands

/-! ### The returns that forget the process -/

/-- The kernel's answers to `no_para_root_test`. -/
structure RootAnswers where
  setOffline : ℕ
  policy : ℕ
  present : Bool

/-- The answers, and the state after them. -/
def rootAnswers (s : σ) : RootAnswers × σ :=
  let pid := y.spawn s
  let moved := y.attach pid.2 .root pid.1
  let st := y.setOffline moved.2 pid.1
  let lines := y.sched st.2 pid.1
  let file := y.isFile lines.2 .root
  (⟨st.1, policyStatus o lines.1, file.1⟩, file.2)

/-- `check_offline_file` fails. -/
def RootAnswers.Forgotten (a : RootAnswers) : Prop :=
  a.setOffline ≠ 0 ∧ a.policy = 1 ∧ a.present = true

def RootAnswers.Passed (a : RootAnswers) : Prop :=
  a.setOffline ≠ 0 ∧ a.policy = 1 ∧ a.present = false

/-- The kernel's answers to `no_para_noroot_test`. -/
structure NonrootAnswers where
  made : Bool
  readable : Bool
  setOffline : ℕ
  present : Bool

def nonrootAnswers (s : σ) : NonrootAnswers :=
  let dir := y.mkdir s
  let offline := y.cat dir.2 .nonroot
  let pid := y.spawn offline.2
  let moved := y.attach pid.2 .nonroot pid.1
  let st := y.setOffline moved.2 pid.1
  let file := y.isFile st.2 .nonroot
  ⟨dir.1, offline.1.isSome, st.1, file.1⟩

/-- `cpu.offline` is there, although it could not be read before. -/
def NonrootAnswers.Forgotten (a : NonrootAnswers) : Prop :=
  a.made = true ∧ a.readable = false ∧ a.setOffline ≠ 1 ∧ a.present = true

/-- One of the two tests without parameters forgets its process. -/
def Forgets (s : σ) : Prop :=
  (rootAnswers y o s).1.Forgotten ∨
    (rootAnswers y o s).1.Passed ∧ (nonrootAnswers y (rootAnswers y o s).2).Forgotten

variable {y o}

theorem rootAnswers_policy (s : σ) : (rootAnswers y o s).1.policy = policyStatus o
    (y.sched (y.setOffline (y.attach (y.spawn s).2 .root (y.spawn s).1).2 (y.spawn s).1).2
      (y.spawn s).1).1 := by
  simp only [rootAnswers]

theorem checkPidOffline_spec {P : List (ℕ × Option Group) → Bool → Prop} {s : σ} {pid : ℕ} :
    Triple (LeftAt s P) (checkPidOffline y o pid) fun r w =>
      r = policyStatus o (y.sched s pid).1 ∧ LeftAt (y.sched s pid).2 P w :=
  ask_spec.bind_eq (Triple.pure fun _ hw => ⟨rfl, hw⟩)

theorem checkOfflineFile_spec {P : List (ℕ × Option Group) → Bool → Prop} {s : σ} :
    Triple (LeftAt s P) (checkOfflineFile y) fun r w =>
      r = (if (y.isFile s .root).1 then 1 else 0) ∧ LeftAt (y.isFile s .root).2 P w := by
  unfold checkOfflineFile isFile
  refine (askIn_spec fun _ _ _ => .inl rfl).bind_eq ?_
  refine Triple.ite (fun h => Triple.pure fun w hw => ?_) fun h => Triple.pure fun w hw => ?_
  · exact ⟨(if_pos h).symm, hw⟩
  · exact ⟨(if_neg h).symm, hw⟩

/-- What `no_para_root_test` leaves behind, returns and makes of the kernel. -/
structure RootOutcome (D : Bool → Prop) (a : RootAnswers × σ) (r : ℕ) (w : World σ) : Prop where
  dir : D w.dir
  procs : w.procs = [] ↔ ¬ a.1.Forgotten
  ret : r = 0 ↔ a.1.Passed
  kernel : a.1.Passed → w.kernel = a.2

theorem noParaRootTest_spec {D : Bool → Prop} {s : σ} :
    Triple (LeftAt s (Gone D)) (noParaRootTest y o) (RootOutcome D (rootAnswers y o s)) := by
  -- a return that kills the process and is not the last
  have hkilled : ∀ {s' : σ} {pid : ℕ}, ¬ (rootAnswers y o s).1.Passed →
      ¬ (rootAnswers y o s).1.Forgotten →
      Triple (LeftAt s' (Sole pid D)) (do kill pid; return 1) (RootOutcome D (rootAnswers y o s)) := by
    intro s' pid hpassed hforgotten
    refine kill_spec.bind fun _ => Triple.pure fun w hw => ?_
    exact ⟨hw.2.2, iff_of_true hw.2.1 hforgotten, iff_of_false one_ne_zero hpassed,
      fun h => absurd h hpassed⟩
  unfold noParaRootTest
  refine spawn_spec.bind_eq ?_
  refine (attach_spec fun _ _ => .inl rfl).bind fun _ => ?_
  refine ask_spec.bind_eq ?_
  refine Triple.ite (fun hst => hkilled (fun h => h.1 hst) fun h => h.1 hst) fun hst => ?_
  refine checkPidOffline_spec.bind_eq ?_
  rw [← rootAnswers_policy]
  refine Triple.ite (fun hpol => hkilled (fun h => hpol h.2.1) fun h => hpol h.2.1) fun hpol => ?_
  refine checkOfflineFile_spec.bind_eq ?_
  have hbt : (rootAnswers y o s).1.policy = 1 := not_not.mp hpol
  refine Triple.ite (fun hfile => Triple.pure fun w hw => ?_) fun hfile => ?_
  · have hpresent : (rootAnswers y o s).1.present = true := by
      by_contra hne
      have h0 : (if (rootAnswers y o s).1.present then 1 else 0) = 1 := hfile
      rw [if_neg hne] at h0
      cases h0
    obtain ⟨-, ⟨g, hps⟩, hd⟩ := hw
    refine ⟨hd, iff_of_false (by rw [hps]; exact List.cons_ne_nil _ _) ?_, iff_of_false one_ne_zero ?_,
      fun h => ?_⟩
    · exact not_not.mpr ⟨hst, hbt, hpresent⟩
    · exact fun h => Bool.noConfusion (hpresent.symm.trans h.2.2)
    · exact Bool.noConfusion (hpresent.symm.trans h.2.2)
  · have habsent : (rootAnswers y o s).1.present = false := by
      refine Bool.eq_false_iff.mpr fun h => hfile ?_
      exact if_pos h
    refine kill_spec.bind fun _ => Triple.pure fun w hw => ?_
    refine ⟨hw.2.2, iff_of_true hw.2.1 ?_, iff_of_true rfl ⟨hst, hbt, habsent⟩, fun _ => hw.1⟩
    exact fun h => Bool.noConfusion (habsent.symm.trans h.2.2)

/-- Where the new group is made. -/
theorem noParaNorootTest_made {s : σ} (hmade : (y.mkdir s).1 = true) :
    Triple (LeftAt s (Gone (· = false))) (noParaNorootTest y) fun _ w =>
      Left (Gone (· = false)) w ↔ ¬ (nonrootAnswers y s).Forgotten := by
  have hthere : ∀ d, d = (y.mkdir s).1 → Group.nonroot = .root ∨ d = true := fun d hd =>
    .inr (hd.trans hmade)
  unfold noParaNorootTest
  refine mkdir_spec.bind fun _ => ?_
  refine (askIn_spec fun _ d h => hthere d h.2).bind_eq ?_
  refine Triple.ite (fun hcat => ?_) fun hcat => ?_
  · refine rmdir_return.weaken (fun w hw => hw.2) fun _ w hw => iff_of_true hw fun h => ?_
    exact Bool.noConfusion (h.2.1.symm.trans hcat)
  refine spawn_spec.bind_eq ?_
  refine (attach_spec hthere).bind fun _ => ?_
  refine ask_spec.bind_eq ?_
  refine Triple.ite (fun hst => ?_) fun hst => ?_
  · refine kill_rmdir_return.weaken (fun w hw => hw.2) fun _ w hw => iff_of_true hw fun h => ?_
    exact h.2.2.1 hst
  refine (askIn_spec fun _ d h => hthere d h.2).bind_eq ?_
  refine Triple.ite (fun hfile => ?_) fun hfile => ?_
  · refine Triple.bind (R := fun _ w => w.procs ≠ []) (fun w hw => ?_) fun _ => Triple.pure fun w hw => ?_
    · obtain ⟨-, ⟨g, hps⟩, -⟩ := hw
      rw [rmdir_procs, hps]
      exact List.cons_ne_nil _ _
    · refine iff_of_false (fun h => hw h.1) (not_not.mpr ⟨hmade, ?_, hst, hfile⟩)
      exact Bool.eq_false_iff.mpr hcat
  · refine kill_rmdir_return.weaken (fun w hw => hw.2) fun _ w hw => iff_of_true hw fun h => ?_
    exact hfile h.2.2.2

/-- Where it is not made, its files are not there either. -/
theorem noParaNorootTest_not_made {s : σ} (hmade : (y.mkdir s).1 = false) :
    Triple (LeftAt s (Gone (· = false))) (noParaNorootTest y) fun _ => Left (Gone (· = false)) := by
  unfold noParaNorootTest
  refine mkdir_spec.bind fun _ => ?_
  rw [hmade]
  refine Triple.weaken (P := Left (Gone (· = false))) ?_ (fun w hw => hw.2) fun _ _ hw => hw
  refine (askIn_absent fun _ _ h => h.2).bind_eq ?_
  rw [if_neg (by decide)]
  refine spawn_keeps.bind fun pid => ?_
  refine attach_keeps.bind fun _ => ?_
  refine ask_keeps.bind fun st => ?_
  refine Triple.ite (fun _ => kill_rmdir_return) fun _ => ?_
  refine (askIn_absent fun _ _ h => h.2).bind_eq ?_
  rw [if_neg (by decide)]
  exact kill_rmdir_return

theorem noParaNorootTest_spec {s : σ} : Triple (LeftAt s (Gone (· = false))) (noParaNorootTest y)
    fun _ w => Left (Gone (· = false)) w ↔ ¬ (nonrootAnswers y s).Forgotten := by
  cases hmade : (y.mkdir s).1 with
  | true => exact noParaNorootTest_made hmade
  | false =>
    refine (noParaNorootTest_not_made hmade).weaken (fun _ hw => hw) fun _ w hw => iff_of_true hw fun h => ?_
    exact Bool.noConfusion (hmade.symm.trans h.1)

/-- Without parameters. -/
theorem typeNoCmdPara_spec {s : σ} : Triple (LeftAt s (Gone (· = false))) (autotestTypeNoCmdPara y o)
    fun _ w => Left (Gone (· = false)) w ↔ ¬ Forgets y o s := by
  unfold autotestTypeNoCmdPara
  refine noParaRootTest_spec.bind fun st => ?_
  refine Triple.ite (fun hst => Triple.pure fun w hw => ?_) fun hst => ?_
  · have hpassed : ¬ (rootAnswers y o s).1.Passed := fun h => hst (hw.ret.mpr h)
    have hforgets : Forgets y o s ↔ (rootAnswers y o s).1.Forgotten :=
      or_iff_left fun h => hpassed h.1
    rw [hforgets, ← hw.procs]
    exact and_iff_left hw.dir
  · have h0 : st = 0 := not_not.mp hst
    by_cases hpassed : (rootAnswers y o s).1.Passed
    · have hkept : ¬ (rootAnswers y o s).1.Forgotten := fun h =>
        Bool.noConfusion (h.2.2.symm.trans hpassed.2.2)
      have hforgets : Forgets y o s ↔ (nonrootAnswers y (rootAnswers y o s).2).Forgotten :=
        (or_iff_right hkept).trans (and_iff_right hpassed)
      rw [hforgets]
      refine Triple.weaken (P := LeftAt (rootAnswers y o s).2 (Gone (· = false))) ?_
        (fun w hw => ⟨hw.kernel hpassed, hw.procs.mpr hkept, hw.dir⟩) fun _ _ hw => hw
      refine noParaNorootTest_spec.bind fun st => ?_
      exact Triple.ite (fun _ => Triple.pure fun _ hw => hw) fun _ => Triple.pure fun _ hw => hw
    · exact fun w hw => absurd (hw.ret.mp h0) hpassed

/-! ### The whole script -/

/-- Nothing started yet, no directory. -/
def initial (s : σ) : World σ := ⟨s, [], false, []⟩

/-- The kernel after `autotest_prepare`. -/
def prepared (y : System σ) (s : σ) : σ := ["sched_t_thread".toList, "set_offline".toList].foldl y.make s

theorem main_left (cmdline : Text) (s : σ) :
    Left (Gone (· = false)) (main y o cmdline (initial s)).2 ↔
      Left (Gone (· = false)) (autotestTest y o cmdline (initial (prepared y s))).2 := by
  have hmain : main y o cmdline (initial s) = (if (autotestTest y o cmdline (initial (prepared y s))).1 = 0
      then do echoLine "succeed".toList; return 0
      else do echoLine "failed".toList; return 1 : StateM (World σ) ℕ)
        (autotestTest y o cmdline (initial (prepared y s))).2 := rfl
  rw [hmain]
  split_ifs
  · rfl
  · rfl

/-- **Nothing is left behind**, whatever the kernel answers, if and only if
the class parameter is on the command line or neither of the tests without it
comes to a return that forgets the process: `cpu.offline` is there after
everything else was as it should be. -/
theorem nothing_left_iff (y : System σ) (o : Outside) (cmdline : Text) (s : σ) :
    ((main y o cmdline (initial s)).2.procs = [] ∧ (main y o cmdline (initial s)).2.dir = false) ↔
      "offline_class".toList <:+: cmdline ∨ ¬ Forgets y o (prepared y s) := by
  apply (main_left cmdline s).trans
  have hstart : LeftAt (prepared y s) (Gone (· = false)) (initial (prepared y s)) := ⟨rfl, rfl, rfl⟩
  unfold autotestTest cmdlineCheck
  by_cases hcls : "offline_class".toList <:+: cmdline
  · refine iff_of_true ?_ (.inl hcls)
    rw [if_pos hcls]
    by_cases hgroup : "offline_group".toList <:+: cmdline
    · rw [if_pos hgroup]
      exact typeTwoCmdPara_clean _ hstart.2
    · rw [if_neg hgroup]
      exact typeClassCmdPara_clean _ hstart.2
  · rw [if_neg hcls, or_iff_right hcls]
    exact typeNoCmdPara_spec _ hstart

/-! ### A root group with the file -/

/-- The class is off, and the root group has a `cpu.offline` all the same. -/
def exposed : System Unit where
  make _ _ := ()
  spawn _ := (4242, ())
  mkdir _ := (true, ())
  attach _ _ _ := (true, ())
  setOffline _ _ := (1, ())
  sched _ _ := (["policy                                       :                    0".toList], ())
  isFile _ _ := (true, ())
  cat _ _ := (some "0".toList, ())
  write _ _ _ := (false, ())

/-- **A busy loop is left running.** The test sees that `cpu.offline` should
not be there and ends without a `kill`. -/
theorem process_left : ¬ ∀ (σ : Type) (y : System σ) (o : Outside) (cmdline : Text) (s : σ),
    (main y o cmdline (initial s)).2.procs = [] ∧ (main y o cmdline (initial s)).2.dir = false := by
  intro h
  let o : Outside := Outside.inert
  have hleft : (main exposed o "ro quiet".toList (initial ())).2.procs = [(4242, some .root)] := by
    decide +kernel
  have hnone := (h Unit exposed o "ro quiet".toList ()).1
  rw [hleft] at hnone
  cases hnone

end OfflineCgroup
end Sched
end Longan
