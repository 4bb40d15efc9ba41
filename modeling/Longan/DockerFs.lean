/-
# The docker file-system stress runs

`test_docker_ext4.sh` and `test_docker_xfs.sh` are one script with another
file system: make and mount it on `/dev/vdb`, then go around the ten `docker
run` commands (start a container, copy the workload in and run it, stop and
remove the container, unmount, check and mount again) until a round ends past
the time. A command either succeeds or fails; the results are the input.

`docker stop`, `docker rm`, `umount` and the check are looked at, and a
failure of one leaves with status 1. Of the others no status is looked at, nor
could that of the workload be: `function-test.sh` ends with an `rm`. So the
script can leave with 0 after any of them failed (`lost_fsstress`), and does
exactly when nothing that is looked at failed before the time was up
(`no_false_success_iff`).
-/
import Mathlib.Data.List.Basic

namespace Longan
namespace DockerFs

/-- The file system the script is about. -/
inductive Fs
  | ext4 | xfs
  deriving DecidableEq, Repr

def Fs.name : Fs → String
  | .ext4 => "ext4"
  | .xfs => "xfs"

/-- The program that checks the unmounted file system. -/
def Fs.check : Fs → String
  | .ext4 => "fsck.ext4"
  | .xfs => "xfs_repair"

/-! ### The results of the commands -/

/-- The commands of `function-test.sh`. -/
structure FunctionTest where
  mkdir : Bool
  fsstress : Bool
  rm : Bool
  deriving Repr

/-- The commands of one iteration. `dockerExec` is `none` when `docker exec`
could not run the script. -/
structure Iteration where
  dockerRun : Bool
  cpLtp : Bool
  cpFunctionTest : Bool
  dockerExec : Option FunctionTest
  dockerStop : Bool
  dockerRm : Bool
  umount : Bool
  fsck : Bool
  mount : Bool
  deriving Repr

/-- One turn of the outer loop: an iteration for each `docker run` command,
and whether `date_now` is then past `date_end`. -/
structure Round where
  iteration : String → Iteration
  late : Bool

/-- The commands before the loop. -/
structure Setup where
  mountpoint : Bool
  umountOld : Bool
  mkfs : Bool
  rmDir : Bool
  mkDir : Bool
  mount : Bool
  restartDocker : Bool
  dockerLoad : Bool
  deriving Repr

/-! ### The script -/

/-- How the script left: `exit_code` and `exit_info`. -/
structure Exit where
  code : ℕ
  info : String
  deriving DecidableEq, Repr

/-- `exit_cmd`: it also unmounts and restarts docker, whatever comes of it. -/
def exitCmd (code : ℕ) (info : String) : Except Exit Unit := .error ⟨code, info⟩

/-- A command whose status nobody looks at. -/
def ignore (_status : Bool) : Except Exit Unit := .ok ()

/-- `function-test.sh`: its status is that of its last command. -/
def functionTest (r : FunctionTest) : Bool := r.rm

def imageId : String := "506a431b032d"

def dockerRunCmds : List String := [
  "docker run -d --net=none " ++ imageId ++ " /sbin/init",
  "docker run -d --net=none --memory=800m --memory-swap=1g " ++ imageId ++ " /sbin/init",
  "docker run -d --net=none --memory=300m --memory-swap=1g " ++ imageId ++ " /sbin/init",
  "docker run -d --net=none --memory=100m --memory-swap=500m " ++ imageId ++ " /sbin/init",
  "docker run -d --net=none --memory=1g --memory-swap=2g " ++ imageId ++ " /sbin/init",
  "docker run -d --net=none --memory-swappiness=0 " ++ imageId ++ " /sbin/init",
  "docker run -d --net=none --memory=800m --memory-swap=1g --memory-swappiness=0 " ++ imageId ++
    " /sbin/init",
  "docker run -d --net=none --memory=300m --memory-swap=1g --memory-swappiness=0 " ++ imageId ++
    " /sbin/init",
  "docker run -d --net=none --memory=100m --memory-swap=500m --memory-swappiness=0 " ++ imageId ++
    " /sbin/init",
  "docker run -d --net=none --memory=1g --memory-swap=2g --memory-swappiness=0 " ++ imageId ++
    " /sbin/init"]

variable (fs : Fs)

/-- The body of the inner loop. -/
def iteration (r : Iteration) : Except Exit Unit := do
  ignore r.dockerRun
  ignore r.cpLtp
  ignore r.cpFunctionTest
  ignore (r.dockerExec.elim false functionTest)
  if !r.dockerStop then exitCmd 1 "docker stop failed"
  if !r.dockerRm then exitCmd 1 "docker rm failed"
  if !r.umount then exitCmd 1 ("umount " ++ fs.name ++ " failed")
  if !r.fsck then exitCmd 1 (fs.check ++ " find error")
  ignore r.mount

/-- The inner loop. -/
def iterations : List Iteration → Except Exit Unit
  | [] => .ok ()
  | r :: rs => do
    iteration fs r
    iterations rs

/-- `while true`: over as many rounds as there are results. -/
def rounds : List Round → Except Exit Unit
  | [] => .ok ()
  | r :: rs => do
    iterations fs (dockerRunCmds.map r.iteration)
    if r.late then exitCmd 0 ("docker " ++ fs.name ++ " test done, exit now....")
    rounds rs

/-- The script; `.ok ()` when it is still going around. -/
def script (s : Setup) (rs : List Round) : Except Exit Unit := do
  if s.mountpoint && !s.umountOld then exitCmd 1 "unable to unmount"
  ignore s.mkfs
  ignore s.rmDir
  ignore s.mkDir
  ignore s.mount
  ignore s.restartDocker
  ignore s.dockerLoad
  rounds fs rs

def testDockerExt4 : Setup → List Round → Except Exit Unit := script .ext4

def testDockerXfs : Setup → List Round → Except Exit Unit := script .xfs

/-- The script has left with status 0. -/
def Succeeds (s : Setup) (rs : List Round) : Prop := ∃ info, script fs s rs = .error ⟨0, info⟩

/-! ### What a success has to mean -/

/-- The iterations up to the end of the first round past the time. -/
def scheduled : List Round → List Iteration
  | [] => []
  | r :: rs => dockerRunCmds.map r.iteration ++ if r.late then [] else scheduled rs

namespace Iteration

variable (r : Iteration)

/-- The commands whose status the script looks at. -/
def Checked : Prop := r.dockerStop ∧ r.dockerRm ∧ r.umount ∧ r.fsck

/-- The container was started, the workload copied in, and `fsstress` ran
through. -/
def Worked : Prop :=
  r.dockerRun ∧ r.cpLtp ∧ r.cpFunctionTest ∧ ∃ t, r.dockerExec = some t ∧ t.fsstress

end Iteration

/-- Nothing went wrong: the file system was made and mounted, every iteration
was clean, and every one but the last mounted it again for the next. -/
def AllWell (s : Setup) (rs : List Round) : Prop :=
  s.mkfs ∧ s.mount ∧ (∀ r ∈ scheduled rs, r.Worked ∧ r.Checked) ∧
    ∀ r ∈ (scheduled rs).dropLast, r.mount

/-- A status the script looks at is bad before the time is up, or the time is
never up. -/
def Caught (s : Setup) (rs : List Round) : Prop :=
  (s.mountpoint ∧ ¬ s.umountOld) ∨ (∀ r ∈ rs, ¬ r.late) ∨ ∃ r ∈ scheduled rs, ¬ r.Checked

/-- The statuses nobody looks at are good. -/
def UncheckedWell (s : Setup) (rs : List Round) : Prop :=
  s.mkfs ∧ s.mount ∧ (∀ r ∈ scheduled rs, r.Worked) ∧ ∀ r ∈ (scheduled rs).dropLast, r.mount

/-! ### When the script leaves with 0 -/

/-- An iteration goes on when what it looks at is good, and leaves with 1
otherwise. -/
theorem iteration_cases (r : Iteration) :
    (r.Checked ∧ iteration fs r = .ok ()) ∨
      (¬ r.Checked ∧ ∃ info, iteration fs r = .error ⟨1, info⟩) := by
  unfold iteration Iteration.Checked
  cases r.dockerStop
  · exact .inr ⟨by simp, _, rfl⟩
  cases r.dockerRm
  · exact .inr ⟨by simp, _, rfl⟩
  cases r.umount
  · exact .inr ⟨by simp, _, rfl⟩
  cases r.fsck
  · exact .inr ⟨by simp, _, rfl⟩
  · exact .inl ⟨by simp, rfl⟩

theorem iterations_cases : ∀ rs : List Iteration,
    ((∀ r ∈ rs, r.Checked) ∧ iterations fs rs = .ok ()) ∨
      ((∃ r ∈ rs, ¬ r.Checked) ∧ ∃ info, iterations fs rs = .error ⟨1, info⟩)
  | [] => .inl ⟨by simp, rfl⟩
  | r :: rs => by
    rcases iteration_cases fs r with ⟨hc, he⟩ | ⟨hc, info, he⟩
    · have hstep : iterations fs (r :: rs) = iterations fs rs := by rw [iterations, he]; rfl
      rcases iterations_cases rs with ⟨h, e⟩ | ⟨⟨x, hx, hn⟩, info, e⟩
      · exact .inl ⟨List.forall_mem_cons.mpr ⟨hc, h⟩, hstep.trans e⟩
      · exact .inr ⟨⟨x, List.mem_cons_of_mem _ hx, hn⟩, info, hstep.trans e⟩
    · exact .inr ⟨⟨r, List.mem_cons_self, hc⟩, info, by rw [iterations, he]; rfl⟩

/-- The loop leaves with 0 when a round ends past the time with everything
looked at good up to there. -/
theorem rounds_zero : ∀ rs : List Round, (∃ info, rounds fs rs = .error ⟨0, info⟩) ↔
    (∃ r ∈ rs, r.late) ∧ ∀ r ∈ scheduled rs, r.Checked
  | [] => by simp [rounds]
  | r :: rs => by
    rcases iterations_cases fs (dockerRunCmds.map r.iteration) with ⟨hc, he⟩ | ⟨⟨x, hx, hn⟩, info, he⟩
    · cases hl : r.late with
      | true =>
        have hstep : rounds fs (r :: rs) =
            .error ⟨0, "docker " ++ fs.name ++ " test done, exit now...."⟩ := by
          simp only [rounds, he, hl, ↓reduceIte, exitCmd]
          rfl
        simp only [hstep, scheduled, hl, ↓reduceIte, List.append_nil, List.mem_cons, exists_eq_or_imp]
        exact ⟨fun _ => ⟨.inl trivial, hc⟩, fun _ => ⟨_, rfl⟩⟩
      | false =>
        have hstep : rounds fs (r :: rs) = rounds fs rs := by
          simp only [rounds, he, hl, Bool.false_eq_true, ↓reduceIte]
          rfl
        rw [hstep, rounds_zero rs]
        simp only [scheduled, hl, Bool.false_eq_true, ↓reduceIte, List.mem_cons, exists_eq_or_imp,
          false_or, List.forall_mem_append]
        exact and_congr_right fun _ => ⟨fun h => ⟨hc, h⟩, fun h => h.2⟩
    · have hstep : rounds fs (r :: rs) = .error ⟨1, info⟩ := by
        simp only [rounds, he]
        rfl
      simp only [hstep, scheduled]
      refine ⟨fun ⟨_, h⟩ => by simp at h, fun ⟨_, h⟩ => absurd (h x ?_) hn⟩
      exact List.mem_append_left _ hx

theorem succeeds_iff (s : Setup) (rs : List Round) : Succeeds fs s rs ↔
    ¬ (s.mountpoint ∧ ¬ s.umountOld) ∧ (∃ r ∈ rs, r.late) ∧ ∀ r ∈ scheduled rs, r.Checked := by
  unfold Succeeds
  by_cases hm : s.mountpoint = true ∧ ¬ s.umountOld = true
  · have he : script fs s rs = .error ⟨1, "unable to unmount"⟩ := by
      simp only [script, hm.1, Bool.eq_false_iff.mpr hm.2, Bool.not_false, Bool.and_self, ↓reduceIte,
        exitCmd]
      rfl
    simp [he, hm]
  · have he : script fs s rs = rounds fs rs := by
      have hb : (s.mountpoint && !s.umountOld) = false := by
        cases h1 : s.mountpoint <;> cases h2 : s.umountOld <;> simp_all
      simp only [script, hb, Bool.false_eq_true, ↓reduceIte]
      rfl
    rw [he, rounds_zero]
    exact ⟨fun h => ⟨hm, h⟩, fun h => h.2⟩

theorem succeeds_iff_not_caught (s : Setup) (rs : List Round) :
    Succeeds fs s rs ↔ ¬ Caught s rs := by
  rw [succeeds_iff, Caught]
  push Not
  rfl

/-- **No false success.** A success means that all went well exactly when a
command that is looked at fails in time, or none of the others does. -/
theorem no_false_success_iff (s : Setup) (rs : List Round) :
    (Succeeds fs s rs → AllWell s rs) ↔ Caught s rs ∨ UncheckedWell s rs := by
  constructor
  · intro h
    by_cases hc : Caught s rs
    · exact .inl hc
    · obtain ⟨h1, h2, h3, h4⟩ := h ((succeeds_iff_not_caught fs s rs).mpr hc)
      exact .inr ⟨h1, h2, fun r hr => (h3 r hr).1, h4⟩
  · rintro (hc | ⟨h1, h2, h3, h4⟩) hs
    · exact absurd hc ((succeeds_iff_not_caught fs s rs).mp hs)
    · exact ⟨h1, h2, fun r hr => ⟨h3 r hr, ((succeeds_iff fs s rs).mp hs).2.2 r hr⟩, h4⟩

/-- `fsstress` fails in the first iteration of the first round, everything
else succeeds, and the time is up: status 0. -/
theorem lost_fsstress : ¬ ∀ (fs : Fs) (s : Setup) (rs : List Round),
    Succeeds fs s rs → AllWell s rs := by
  intro h
  have hr := h .ext4 ⟨true, true, true, true, true, true, true, true⟩
    [⟨fun _ => ⟨true, true, true, some ⟨true, false, true⟩, true, true, true, true, true⟩, true⟩]
    ⟨_, rfl⟩
  obtain ⟨t, ht, hf⟩ := (hr.2.2.1 _ (List.mem_cons_self)).1.2.2.2
  cases ht
  exact absurd hf (by decide)

/-! ### A mount that fails is noticed -/

/-- `umount` fails where nothing is mounted: with `m` the result of the mount
before, and the iterations to come. -/
def UmountsMounted : Bool → List Iteration → Prop
  | _, [] => True
  | m, r :: rs => (m = false → r.umount = false) ∧ UmountsMounted r.mount rs

theorem mounts_of_checked : ∀ (m : Bool) (rs : List Iteration), UmountsMounted m rs →
    (∀ r ∈ rs, r.Checked) → (rs ≠ [] → m = true) ∧ ∀ r ∈ rs.dropLast, r.mount = true
  | _, [], _, _ => by simp
  | m, r :: rs, h, hc => by
    have ⟨ih1, ih2⟩ := mounts_of_checked r.mount rs h.2 fun x hx => hc x (List.mem_cons_of_mem _ hx)
    refine ⟨fun _ => ?_, ?_⟩
    · cases m
      · have := (hc r List.mem_cons_self).2.2.1
        rw [h.1 rfl] at this
        exact absurd this (by decide)
      · rfl
    · cases rs with
      | nil => simp
      | cons r' rs => exact List.forall_mem_cons.mpr ⟨ih1 (by simp), ih2⟩

/-- Where `umount` fails on what is not mounted, no failed mount goes with a
success. -/
theorem mounted_of_succeeds (s : Setup) (rs : List Round)
    (hm : UmountsMounted s.mount (scheduled rs)) (h : Succeeds fs s rs) :
    s.mount ∧ ∀ r ∈ (scheduled rs).dropLast, r.mount := by
  obtain ⟨-, ⟨r, hr, -⟩, hc⟩ := (succeeds_iff fs s rs).mp h
  have hne : scheduled rs ≠ [] := by
    cases rs with
    | nil => cases hr
    | cons r' rs => simp [scheduled, dockerRunCmds]
  have ⟨h1, h2⟩ := mounts_of_checked s.mount _ hm hc
  exact ⟨h1 hne, h2⟩

end DockerFs
end Longan
