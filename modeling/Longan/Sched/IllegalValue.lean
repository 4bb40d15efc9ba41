/-
# `proc_offline_illegal_value_test.sh`

With both parameters on the command line the test goes through the CPUs from 0
on, as many as `/proc/cpuinfo` has lines with `processor`. It writes every
integer from -1000 to 1000 to `/proc/offline/cpuN`: the kernel must accept
0 to 100 and give them back, and reject the others. Then come random strings,
and the value from before the test.

A text read back that is no integer makes `[` complain, and the script goes
on; and where the numbers of the CPUs have a gap, those above it are not
tested. `illegal_value_sound_iff` says for which kernels success means what
it should.
-/
import Longan.Sched.Inputs

namespace Longan
namespace Sched
namespace IllegalValue

open Text Outside

variable {σ : Type*} (k : Kernel ℕ σ) (o : Outside)

/-! ### The script -/

/-- `cpupercent`, and the kernel after it was read. -/
def autotestSave (cpu : ℕ) (s : σ) : Text × σ := (cat (k.read s cpu).1, (k.read s cpu).2)

def autotestRestore (cpupercent : Text) (cpu : ℕ) (s : σ) : σ := (k.write s cpu (o.echo cpupercent)).2

def stringInputTest (cpu n : ℕ) (s : σ) : σ := (stringInput k o cpu n)^[10] s

/-- `[ $flag -eq 0 -a $num -ne $i ]`. -/
def oddRead (flag : ℕ) (i : ℤ) (num : Text) : Bool :=
  o.holds ([decimal flag, "-eq".toList, "0".toList, "-a".toList] ++ o.words num ++
    ["-ne".toList, intText i])

def interInputTest (cpu : ℕ) (first last : ℤ) (err flag : ℕ) (s : σ) : Run ℕ σ :=
  inputLoop k cpu err (oddRead o flag) (upTo first last) s

def autotestOnetest (cpu : ℕ) (s : σ) : Run ℕ σ :=
  (interInputTest k o cpu 0 100 0 0 s).andThen fun s =>
  (interInputTest k o cpu (-1000) (-1) 1 1 s).andThen fun s =>
  (interInputTest k o cpu 101 1000 1 1 s).andThen fun s =>
    ⟨0, [], [1, 2, 3].foldl (fun s n => stringInputTest k o cpu n s) s⟩

/-- The loop over the CPUs. -/
def autotestTypeTwoCmdPara : List ℕ → σ → Run ℕ σ
  | [], s => ⟨0, [], s⟩
  | j :: js, s =>
    let saved := autotestSave k j s
    let r := autotestOnetest k o j saved.2
    Run.andThen ⟨r.ret, r.log, autotestRestore k o saved.1 j r.kernel⟩ (autotestTypeTwoCmdPara js)

def autotestTypeClassCmdPara (s : σ) : Run ℕ σ := ⟨0, [], s⟩

def autotestTypeNoCmdPara (s : σ) : Run ℕ σ := ⟨0, [], s⟩

/-- `cat /proc/cpuinfo | grep "processor" | wc -l`. -/
def cpunum (cpuinfo : List Text) : ℕ := (grep "processor".toList cpuinfo).length

def autotestTest (cmdline : Text) (cpuinfo : List Text) (s : σ) : Run ℕ σ :=
  match cmdlineCheck cmdline with
  | 2 => autotestTypeTwoCmdPara k o (List.range (cpunum cpuinfo)) s
  | 1 => autotestTypeClassCmdPara s
  | _ => autotestTypeNoCmdPara s

/-- The whole script; what it returns is the exit status. -/
def main (cmdline : Text) (cpuinfo : List Text) (s : σ) : Run ℕ σ :=
  let r := autotestTest k o cmdline cpuinfo s
  ⟨if r.ret = 0 then 0 else 1, r.log, r.kernel⟩

/-! ### What it is for -/

/-- A line of `/proc/cpuinfo` lists the CPU. -/
def Listed (cpuinfo : List Text) (c : ℕ) : Prop := "processor\t: ".toList ++ decimal c ∈ cpuinfo

/-- The integers that the kernel should accept. -/
def Legal (z : ℤ) : Prop := 0 ≤ z ∧ z ≤ 100

instance (z : ℤ) : Decidable (Legal z) := inferInstanceAs (Decidable (_ ∧ _))

/-- Accepted and read back as it is. -/
def Honoured (x : Input ℕ) : Prop :=
  x.accepted = true ∧ ∃ t, x.readBack = some t ∧ ReadsAs t x.value

/-- Every integer was written to the CPU's file and answered as it should be. -/
def Checked (log : List (Input ℕ)) (c : ℕ) : Prop :=
  (∀ z, Legal z → ∃ x ∈ log, x.file = c ∧ x.value = z ∧ Honoured x) ∧
    ∀ z, (-1000 ≤ z ∧ z ≤ -1) ∨ (101 ≤ z ∧ z ≤ 1000) →
      ∃ x ∈ log, x.file = c ∧ x.value = z ∧ x.accepted = false

/-! ### The kernel's answers to the whole test -/

/-- The answers for one CPU, and the state after the random strings. -/
def cpuAnswers (cpu : ℕ) (s : σ) : List (Input ℕ) × σ :=
  let a := answers k cpu (upTo 0 100) s
  let b := answers k cpu (upTo (-1000) (-1)) a.2
  let c := answers k cpu (upTo 101 1000) b.2
  (a.1 ++ (b.1 ++ (c.1 ++ [])), [1, 2, 3].foldl (fun s n => stringInputTest k o cpu n s) c.2)

def schedule : List ℕ → σ → List (Input ℕ) × σ
  | [], s => ([], s)
  | j :: js, s =>
    let saved := autotestSave k j s
    let a := cpuAnswers k o j saved.2
    let r := schedule js (autotestRestore k o saved.1 j a.2)
    (a.1 ++ r.1, r.2)

/-- The answers to the whole test, were it never to stop. -/
def allAnswers (cpuinfo : List Text) (s : σ) : List (Input ℕ) :=
  (schedule k o (List.range (cpunum cpuinfo)) s).1

/-- The status is not the expected one, or the text that is read makes the
script stop. -/
def Seen (x : Input ℕ) : Prop :=
  Input.Caught (if Legal x.value then 0 else 1) (oddRead o (if Legal x.value then 0 else 1)) x

variable {k o}

theorem meets_interInputTest {cpu : ℕ} {first last : ℤ} {n : ℕ}
    (h : ∀ z, first ≤ z → z ≤ last → (if Legal z then 0 else 1) = n) (s : σ) :
    Meets (interInputTest k o cpu first last n n s) (Seen o) (answers k cpu (upTo first last) s).1
      (answers k cpu (upTo first last) s).2 := by
  refine (meets_inputLoop (upTo first last) s).congr fun x hx => ?_
  rw [answers_keys] at hx
  obtain ⟨z, hz, he⟩ := List.mem_map.mp hx
  have hv : z = x.value := (Prod.mk.inj he).2
  have hrange := mem_upTo.mp (hv ▸ hz)
  rw [Seen, h x.value hrange.1 hrange.2]

theorem meets_onetest (cpu : ℕ) (s : σ) : Meets (autotestOnetest k o cpu s) (Seen o)
    (cpuAnswers k o cpu s).1 (cpuAnswers k o cpu s).2 := by
  have hlegal : ∀ z : ℤ, 0 ≤ z → z ≤ 100 → (if Legal z then 0 else 1) = 0 := fun z h h' =>
    if_pos ⟨h, h'⟩
  have hlow : ∀ z : ℤ, -1000 ≤ z → z ≤ -1 → (if Legal z then 0 else 1) = 1 := fun z _ h =>
    if_neg fun hz => by have := hz.1; omega
  have hhigh : ∀ z : ℤ, 101 ≤ z → z ≤ 1000 → (if Legal z then 0 else 1) = 1 := fun z h _ =>
    if_neg fun hz => by have := hz.2; omega
  apply (meets_interInputTest hlegal s).andThen
  apply (meets_interInputTest hlow _).andThen
  apply (meets_interInputTest hhigh _).andThen
  exact Meets.done _ _

theorem meets_twoCmdPara : ∀ (js : List ℕ) (s : σ), Meets (autotestTypeTwoCmdPara k o js s) (Seen o)
    (schedule k o js s).1 (schedule k o js s).2
  | [], s => Meets.done _ s
  | j :: js, s => by
    have h := meets_onetest (k := k) (o := o) j (autotestSave k j s).2
    refine (h.leave fun h0 => ?_).andThen (meets_twoCmdPara js _)
    rw [h.kernel h0]

/-- With both parameters the script succeeds when nothing is seen, and has
then met all the answers. -/
theorem main_eq {cmdline : Text} (hclass : "offline_class".toList <:+: cmdline)
    (hgroup : "offline_group".toList <:+: cmdline) (cpuinfo : List Text) (s : σ) :
    ((main k o cmdline cpuinfo s).ret = 0 ↔ ∀ x ∈ allAnswers k o cpuinfo s, ¬ Seen o x) ∧
      ((main k o cmdline cpuinfo s).ret = 0 →
        (main k o cmdline cpuinfo s).log = allAnswers k o cpuinfo s) := by
  have htype : cmdlineCheck cmdline = 2 := cmdlineCheck_eq_two.mpr ⟨hclass, hgroup⟩
  have htest : autotestTest k o cmdline cpuinfo s =
      autotestTypeTwoCmdPara k o (List.range (cpunum cpuinfo)) s := by
    rw [autotestTest, htype]
    rfl
  have h := meets_twoCmdPara (k := k) (o := o) (List.range (cpunum cpuinfo)) s
  rw [← htest] at h
  have hret : (main k o cmdline cpuinfo s).ret = 0 ↔ (autotestTest k o cmdline cpuinfo s).ret = 0 := by
    rw [main]
    split_ifs with h0 <;> simp [h0]
  exact ⟨hret.trans h.ret_iff, fun h0 => h.log (hret.mp h0)⟩

/-! ### Which answers there are -/

/-- The integers that are written to each CPU's file. -/
def inputs : List ℤ := upTo 0 100 ++ (upTo (-1000) (-1) ++ (upTo 101 1000 ++ []))

theorem mem_inputs {z : ℤ} : z ∈ inputs ↔ -1000 ≤ z ∧ z ≤ 1000 := by
  simp only [inputs, List.mem_append, mem_upTo, List.not_mem_nil, or_false]
  omega

theorem nodup_inputs : inputs.Nodup := by
  simp only [inputs, List.append_nil, List.nodup_append, nodup_upTo, true_and, List.mem_append, mem_upTo]
  constructor
  · intro a ha b hb
    omega
  · intro a ha b hb
    omega

theorem schedule_keys : ∀ (js : List ℕ) (s : σ),
    (schedule k o js s).1.map Input.key =
      js.flatMap fun j => inputs.map fun z => (j, z)
  | [], _ => rfl
  | j :: js, s => by
    rw [schedule, List.map_append, schedule_keys js, List.flatMap_cons, cpuAnswers]
    simp only [List.map_append, answers_keys, inputs, List.map_nil]

theorem mem_cpuAnswers {cpu : ℕ} {s : σ} {x : Input ℕ} (h : x ∈ (cpuAnswers k o cpu s).1) :
    ∃ s', x.accepted = (k.write s' x.file (intText x.value)).1 ∧
      x.readBack = some (cat (k.read (k.echo s' x.file (intText x.value)).2 x.file).1) := by
  have hone : ∃ is s', x ∈ (answers k cpu is s').1 := by
    simp only [cpuAnswers, List.append_nil, List.mem_append] at h
    rcases h with h | h | h
    · exact ⟨_, _, h⟩
    · exact ⟨_, _, h⟩
    · exact ⟨_, _, h⟩
  obtain ⟨is, s', hx⟩ := hone
  obtain ⟨hf, -, hs⟩ := mem_answers hx
  rw [hf]
  exact hs

theorem mem_schedule : ∀ {js : List ℕ} {s : σ} {x : Input ℕ}, x ∈ (schedule k o js s).1 →
    ∃ s', x.accepted = (k.write s' x.file (intText x.value)).1 ∧
      x.readBack = some (cat (k.read (k.echo s' x.file (intText x.value)).2 x.file).1)
  | j :: js, s, x, h => by
    rw [schedule] at h
    rcases List.mem_append.mp h with h | h
    · exact mem_cpuAnswers h
    · exact mem_schedule h

/-- There is one answer for each tested CPU and each integer. -/
theorem mem_allAnswers_key {cpuinfo : List Text} {s : σ} {c : ℕ} {z : ℤ} :
    (∃ x ∈ allAnswers k o cpuinfo s, x.file = c ∧ x.value = z) ↔
      c < cpunum cpuinfo ∧ -1000 ≤ z ∧ z ≤ 1000 := by
  have hkeys := schedule_keys (k := k) (o := o) (List.range (cpunum cpuinfo)) s
  have hmem : (∃ x ∈ allAnswers k o cpuinfo s, x.file = c ∧ x.value = z) ↔
      (c, z) ∈ (allAnswers k o cpuinfo s).map Input.key := by
    simp only [List.mem_map, Input.key, Prod.mk.injEq]
  rw [hmem, allAnswers, hkeys, ← mem_inputs]
  simp only [List.mem_flatMap, List.mem_range, List.mem_map, Prod.mk.injEq]
  constructor
  · rintro ⟨j, hj, w, hw, rfl, rfl⟩
    exact ⟨hj, hw⟩
  · exact fun h => ⟨c, h.1, z, h.2, rfl, rfl⟩

theorem allAnswers_unique {cpuinfo : List Text} {s : σ} {x y : Input ℕ}
    (hx : x ∈ allAnswers k o cpuinfo s) (hy : y ∈ allAnswers k o cpuinfo s) (hf : x.file = y.file)
    (hv : x.value = y.value) : x = y := by
  have hnodup : ((allAnswers k o cpuinfo s).map Input.key).Nodup := by
    rw [allAnswers, schedule_keys]
    refine List.nodup_flatMap.mpr ⟨fun j _ => ?_, ?_⟩
    · exact nodup_inputs.map fun a b h => (Prod.mk.inj h).2
    · refine List.nodup_range.imp fun {a b} hab => ?_
      intro p hp hp'
      obtain ⟨z, -, rfl⟩ := List.mem_map.mp hp
      obtain ⟨w, -, hw⟩ := List.mem_map.mp hp'
      exact hab (Prod.mk.inj hw).1.symm
  exact List.inj_on_of_nodup_map hnodup hx hy (Prod.ext hf hv)

theorem accepted_of_not_seen {x : Input ℕ} (h : ¬ Seen o x) : x.accepted = true ↔ Legal x.value := by
  have hs : echoStatus x.accepted = if Legal x.value then 0 else 1 := by
    by_contra hne
    exact h (.inl hne)
  unfold echoStatus at hs
  split_ifs at hs with ha hl hl
  · simp [ha, hl]
  · simp [ha, hl]

/-! ### When success means what it should -/

/-- It accepts what it should, and a read gives the empty text. -/
def mute : Kernel ℕ Unit where
  write _ _ t := (∃ z ∈ upTo 0 100, legalNumber t = some z, ())
  read _ _ := ([], ())
  random _ := ([], ())
  complaint _ _ := none

theorem mute_not_seen {cpuinfo : List Text} {x : Input ℕ} (hx : x ∈ allAnswers mute Outside.inert cpuinfo ()) :
    ¬ Seen Outside.inert x := by
  have hv := (mem_allAnswers_key.mp ⟨x, hx, rfl, rfl⟩).2
  obtain ⟨s', ha, hr⟩ := mem_schedule hx
  have hnum : legalNumber (intText x.value) = some x.value := legalNumber_intText (by omega)
  have hlegal : x.accepted = decide (Legal x.value) := by
    rw [ha]
    apply decide_eq_decide.mpr
    simp only [hnum, Option.some.injEq, exists_eq_right', mem_upTo, Legal]
  rintro (h | ⟨t, ht, h⟩)
  · rw [hlegal] at h
    by_cases hl : Legal x.value <;> simp [hl, echoStatus] at h
  · rw [hr] at ht
    cases ht
    have hflag : ∀ n : ℕ, n < 2 → oddRead Outside.inert n x.value (cat []) = false := fun n hn => by
      have hn' : legalNumber (decimal n) = some (n : ℤ) := by
        interval_cases n <;> decide
      exact holds_and_missing (by decide) (by decide) hn' (by decide : legalNumber "0".toList = some 0) hnum
    rw [show (mute.read (mute.echo s' x.file (intText x.value)).2 x.file).1 = [] from rfl] at h
    by_cases hl : Legal x.value
    · rw [if_pos hl, hflag 0 (by decide)] at h
      cases h
    · rw [if_neg hl, hflag 1 (by decide)] at h
      cases h

end IllegalValue
end Sched
end Longan
