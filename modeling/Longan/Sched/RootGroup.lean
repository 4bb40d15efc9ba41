/-
# `root_task_group_test.sh`

The root group must not be taken offline: with both parameters on the command
line every integer from -10000 to 10000 written to its `cpu.offline` must be
rejected, and a read must still give 0. A failure is carried as a status
through `inter_input_test` and `autotest_test` to `main`, which prints
`succeed` or `failed`. The status of `printf` is that of the script.

`exit_status_sound_iff` says what is left of the verdict then: the status is
right exactly where nothing fails.
-/
import Longan.Sched.Inputs

namespace Longan
namespace Sched
namespace RootGroup

open Text Outside

variable {σ : Type*}

/-- The kernel with its one file, whether that is there, and what `make` and
`pkill` do. -/
structure System (σ : Type*) extends Kernel Unit σ where
  present : σ → Bool
  make : σ → Text → σ
  pkill : σ → σ

variable (y : System σ) (o : Outside)

/-! ### The script -/

def autotestPrepare (s : σ) : σ :=
  ["sched_t_thread".toList, "set_offline".toList, "set_fair".toList].foldl y.make s

def autotestClean (s : σ) : σ := y.pkill s

def cmdlineOfflineClassTest (cmdline : Text) : ℕ := if "offline_class".toList <:+: cmdline then 0 else 1

def cmdlineOfflineGroupTest (cmdline : Text) : ℕ := if "offline_group".toList <:+: cmdline then 0 else 1

def cpuOfflineFileTest (s : σ) : ℕ := if y.present s then 0 else 1

/-- `[ $num -ne $4 ]`. -/
def oddRead (readValue : ℤ) (num : Text) : Bool :=
  o.holds (o.words num ++ ["-ne".toList, intText readValue])

def interInputTest (first last : ℤ) (inputErr : ℕ) (readValue : ℤ) (s : σ) : Run Unit σ :=
  inputLoop y.toKernel () inputErr (fun _ => oddRead o readValue) (upTo first last) s

def stringInputPresstest (n : ℕ) (s : σ) : σ := (stringInput y.toKernel o () n)^[100] s

/-- `autotest_clean` before `return 1`. -/
def cleaned (r : Run Unit σ) : Run Unit σ :=
  if r.ret = 1 then ⟨r.ret, r.log, autotestClean y r.kernel⟩ else r

/-- The writes of `autotest_test`. -/
def autotestWrites (s : σ) : Run Unit σ :=
  (cleaned y (interInputTest y o (-10000) (-1) 1 0 s)).andThen fun s =>
  (cleaned y (interInputTest y o 0 0 1 0 s)).andThen fun s =>
  (cleaned y (interInputTest y o 1 10000 1 0 s)).andThen fun s =>
    ⟨0, [], autotestClean y (((List.range 30).map (· + 1)).foldl (fun s i => stringInputPresstest y o i s) s)⟩

/-- What is printed and the run. -/
structure Outcome (σ : Type*) where
  printed : List Text
  run : Run Unit σ

def autotestTest (cmdline : Text) (s : σ) : Outcome σ :=
  if cmdlineOfflineClassTest cmdline ≠ 0 then ⟨["offline_class is needed".toList], ⟨1, [], s⟩⟩
  else if cmdlineOfflineGroupTest cmdline ≠ 0 then ⟨["offline_group is needed".toList], ⟨1, [], s⟩⟩
  else if cpuOfflineFileTest y s ≠ 0 then ⟨["cpu.offline not found".toList], ⟨1, [], s⟩⟩
  else ⟨[], autotestWrites y o s⟩

/-- The status of `printf`. -/
def printf : ℕ := 0

/-- The whole script; what the run returns is the exit status. -/
def main (cmdline : Text) (s : σ) : Outcome σ :=
  let t := autotestTest y o cmdline (autotestClean y (autotestPrepare y s))
  if t.run.ret = 0 then ⟨t.printed ++ ["succeed".toList], ⟨printf, t.run.log, t.run.kernel⟩⟩
  else ⟨t.printed ++ ["failed".toList], ⟨printf, t.run.log, t.run.kernel⟩⟩

/-! ### What it is for -/

/-- The write was rejected and a read gave 0. -/
def Refused (x : Input Unit) : Prop :=
  x.accepted = false ∧ ∃ t, x.readBack = some t ∧ ReadsAs t 0

/-- The parameters and the file are there, and every integer was refused. -/
structure Passed (cmdline : Text) (s : σ) (log : List (Input Unit)) : Prop where
  cls : "offline_class".toList <:+: cmdline
  group : "offline_group".toList <:+: cmdline
  file : y.present s = true
  refused : ∀ z, -10000 ≤ z ∧ z ≤ 10000 → ∃ x ∈ log, x.value = z ∧ Refused x

/-! ### The kernel's answers to all the writes -/

def allAnswers (s : σ) : List (Input Unit) :=
  let a := answers y.toKernel () (upTo (-10000) (-1)) s
  let b := answers y.toKernel () (upTo 0 0) a.2
  let c := answers y.toKernel () (upTo 1 10000) b.2
  a.1 ++ (b.1 ++ (c.1 ++ []))

/-- The state in which `autotest_test` starts. -/
def start (s : σ) : σ := autotestClean y (autotestPrepare y s)

variable {y o}

theorem meets_cleaned {P : Input Unit → Prop} {r : Run Unit σ} {as : List (Input Unit)} {s : σ}
    (h : Meets r P as s) : Meets (cleaned y r) P as s := by
  unfold cleaned
  split_ifs with h1
  · exact h.leave fun h0 => absurd (h0.symm.trans h1) (by decide)
  · exact h

theorem meets_writes (s : σ) : ∃ s', Meets (autotestWrites y o s)
    (Input.Caught 1 fun _ => oddRead o 0) (allAnswers y s) s' := by
  have hrange : ∀ (first last : ℤ) (s : σ), Meets (cleaned y (interInputTest y o first last 1 0 s))
      (Input.Caught 1 fun _ => oddRead o 0) (answers y.toKernel () (upTo first last) s).1
      (answers y.toKernel () (upTo first last) s).2 :=
    fun first last s => meets_cleaned (meets_inputLoop (upTo first last) s)
  exact ⟨_, (hrange _ _ _).andThen ((hrange _ _ _).andThen ((hrange _ _ _).andThen (Meets.done _ _)))⟩

/-- There is one answer to each integer. -/
theorem allAnswers_keys (s : σ) : (allAnswers y s).map Input.key =
    (upTo (-10000) (-1) ++ (upTo 0 0 ++ upTo 1 10000)).map fun z => ((), z) := by
  simp only [allAnswers, List.map_append, answers_keys, List.append_nil]

theorem mem_range {z : ℤ} :
    z ∈ upTo (-10000) (-1) ++ (upTo 0 0 ++ upTo 1 10000) ↔ -10000 ≤ z ∧ z ≤ 10000 := by
  simp only [List.mem_append, mem_upTo]
  omega

theorem nodup_keys (s : σ) : ((allAnswers y s).map Input.key).Nodup := by
  rw [allAnswers_keys]
  refine List.Nodup.map (fun a b h => (Prod.mk.inj h).2) ?_
  simp only [List.nodup_append, nodup_upTo, true_and, List.mem_append, mem_upTo]
  constructor
  · intro a ha b hb
    omega
  · intro a ha b hb
    omega

theorem mem_keys {s : σ} {z : ℤ} :
    ((), z) ∈ (allAnswers y s).map Input.key ↔ -10000 ≤ z ∧ z ≤ 10000 := by
  rw [allAnswers_keys, List.mem_map, ← mem_range]
  constructor
  · rintro ⟨w, hw, he⟩
    exact (Prod.mk.inj he).2 ▸ hw
  · exact fun h => ⟨z, h, rfl⟩

/-- What is refused goes unnoticed. -/
theorem not_caught_of_refused {x : Input Unit} (h : Refused x) :
    ¬ Input.Caught 1 (fun _ => oddRead o 0) x := by
  obtain ⟨ha, t, ht, hz⟩ := h
  have hw : ∃ w, o.words t = [w] ∧ legalNumber w = some 0 := by
    obtain ⟨w, hw, hn⟩ := hz
    exact ⟨w, words_of_reads hw hn, hn⟩
  obtain ⟨w, hw, hn⟩ := hw
  have hodd : oddRead o 0 t = false := by
    rw [oddRead, hw]
    exact holds_ints (by decide) hn (by decide : legalNumber (intText 0) = some 0)
  rintro (h | ⟨u, hu, h⟩)
  · rw [ha] at h
    exact h rfl
  · rw [ht] at hu
    cases hu
    exact Bool.noConfusion (hodd.symm.trans h)

/-- Where a run meets one answer to each of some integers, its log holds an
answer to each that is refused if and only if all of them are. -/
theorem log_refused_iff {r : Run Unit σ} {as : List (Input Unit)} {s : σ}
    (h : Meets r (Input.Caught 1 fun _ => oddRead o 0) as s) (hnodup : (as.map Input.key).Nodup) :
    (∀ z, ((), z) ∈ as.map Input.key → ∃ x ∈ r.log, x.value = z ∧ Refused x) ↔
      ∀ x ∈ as, Refused x := by
  have hinj : ∀ {x x' : Input Unit} {l : List (Input Unit)}, (l.map Input.key).Nodup → x ∈ l → x' ∈ l →
      x'.value = x.value → x' = x := fun hl hx hx' hv =>
    List.inj_on_of_nodup_map hl hx' hx (Prod.ext rfl hv)
  constructor
  · intro hlog
    have h0 : r.ret = 0 := by
      refine h.ret_le.resolve_right fun h1 => ?_
      obtain ⟨x, hx, hc⟩ := h.stopped h1
      obtain ⟨x', hx', hv, hr⟩ := hlog x.value (h.keys.subset (List.mem_map_of_mem hx))
      rw [hinj (hnodup.sublist h.keys.sublist) hx hx' hv] at hr
      exact not_caught_of_refused hr hc
    intro x hx
    obtain ⟨x', hx', hv, hr⟩ := hlog x.value (List.mem_map_of_mem hx)
    rw [h.log h0] at hx'
    exact hinj hnodup hx hx' hv ▸ hr
  · intro hall z hz
    have h0 := h.ret_iff.mpr fun x hx => not_caught_of_refused (hall x hx)
    obtain ⟨x, hx, he⟩ := List.mem_map.mp hz
    rw [h.log h0]
    exact ⟨x, hx, (Prod.mk.inj he).2, hall x hx⟩

theorem writes_refused_iff (s : σ) :
    (∀ z, -10000 ≤ z ∧ z ≤ 10000 → ∃ x ∈ (autotestWrites y o s).log, x.value = z ∧ Refused x) ↔
      ∀ x ∈ allAnswers y s, Refused x := by
  obtain ⟨s', h⟩ := meets_writes (y := y) (o := o) s
  rw [← log_refused_iff h (nodup_keys s)]
  exact forall_congr' fun z => imp_congr_left mem_keys.symm

/-! ### What the exit status is worth -/

theorem main_ret (cmdline : Text) (s : σ) : (main y o cmdline s).run.ret = 0 := by
  unfold main
  dsimp only
  split_ifs
  · rfl
  · rfl

theorem main_log (cmdline : Text) (s : σ) :
    (main y o cmdline s).run.log = (autotestTest y o cmdline (start y s)).run.log := by
  unfold main start
  dsimp only
  split_ifs
  · rfl
  · rfl

/-- **Success.** The exit status 0 means that the root group was refused every
integer if and only if the parameters and the file are there and the kernel
does refuse every integer: the status is 0 anyhow. -/
theorem exit_status_sound_iff (y : System σ) (o : Outside) (cmdline : Text) (s : σ) :
    ((main y o cmdline s).run.ret = 0 → Passed y cmdline (start y s) (main y o cmdline s).run.log) ↔
      "offline_class".toList <:+: cmdline ∧ "offline_group".toList <:+: cmdline ∧
        y.present (start y s) = true ∧ ∀ x ∈ allAnswers y (start y s), Refused x := by
  have hlog : "offline_class".toList <:+: cmdline → "offline_group".toList <:+: cmdline →
      y.present (start y s) = true →
      (main y o cmdline s).run.log = (autotestWrites y o (start y s)).log := by
    intro hc hg hp
    have hcls : cmdlineOfflineClassTest cmdline = 0 := if_pos hc
    have hgroup : cmdlineOfflineGroupTest cmdline = 0 := if_pos hg
    have hfile : cpuOfflineFileTest y (start y s) = 0 := if_pos hp
    rw [main_log, autotestTest, if_neg (not_not.mpr hcls), if_neg (not_not.mpr hgroup),
      if_neg (not_not.mpr hfile)]
  constructor
  · intro h
    obtain ⟨hc, hg, hp, hr⟩ := h (main_ret cmdline s)
    rw [hlog hc hg hp] at hr
    exact ⟨hc, hg, hp, (writes_refused_iff _).mp hr⟩
  · rintro ⟨hc, hg, hp, hall⟩ -
    refine ⟨hc, hg, hp, ?_⟩
    rw [hlog hc hg hp]
    exact (writes_refused_iff _).mpr hall

/-- **No parameter, no failure.** Without the parameters the script prints
`failed` and its exit status is 0. -/
theorem failed_exits_zero : ¬ ∀ (σ : Type) (y : System σ) (o : Outside) (cmdline : Text) (s : σ),
    (main y o cmdline s).run.ret = 0 → Passed y cmdline (start y s) (main y o cmdline s).run.log := by
  intro h
  let y : System Unit := ⟨⟨fun _ _ _ => (true, ()), fun _ _ => ("0".toList, ()), fun _ => ([], ()),
    fun _ _ => none⟩,
    fun _ => true, fun _ _ => (), id⟩
  let o : Outside := Outside.inert
  have hc := (h Unit y o "ro quiet".toList () (main_ret _ _)).cls
  exact absurd hc (by decide +kernel)

end RootGroup
end Sched
end Longan
