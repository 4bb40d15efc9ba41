/-
# A counted loop of writes against any kernel

The tests of the offline class write every integer of a range to a file of the
kernel and look at the status of `echo`, and then at what a read gives. A
kernel is any function of a state: it answers each write and each read as it
likes (`Kernel`). With `> file 2>&1` bash's message on a rejected write goes to
the same file, as one more write whose status nobody sees (`Kernel.echo`). The
loop ends at the first answer it does not expect (`inputLoop`).

What a kernel would answer to the whole range (`answers`) does not depend on
the script. The loop ends well exactly when none of these answers is caught,
and has then met all of them (`meets_inputLoop`); so do loops one after the
other (`Meets.andThen`).
-/
import Mathlib.Data.List.Nodup
import Longan.Lib.Bracket

namespace Longan
namespace Sched

open Text Outside

variable {φ σ : Type*}

/-- Files with whether the kernel accepts a write, what a read gives, what
`md5sum` makes of `/dev/urandom`, and bash's message on the write that was
rejected last; none where the file could not be opened. -/
structure Kernel (φ σ : Type*) where
  write : σ → φ → Text → Bool × σ
  read : σ → φ → Text × σ
  random : σ → Text × σ
  complaint : σ → φ → Option Text

/-- `echo $t > file 2>&1`. -/
def Kernel.echo (k : Kernel φ σ) (s : σ) (f : φ) (t : Text) : Bool × σ :=
  let w := k.write s f t
  if w.1 then w
  else match k.complaint w.2 f with
    | some m => (false, (k.write w.2 f m).2)
    | none => (false, w.2)

/-- An integer that was written and, if the script came to that, what was read
after it. -/
structure Input (φ : Type*) where
  file : φ
  value : ℤ
  accepted : Bool
  readBack : Option Text

/-- What a function of a script returns and the integers it has written. -/
structure Run (φ σ : Type*) where
  ret : ℕ
  log : List (Input φ)
  kernel : σ

/-- The file and the integer written to it. -/
def Input.key (x : Input φ) : φ × ℤ := (x.file, x.value)

/-- `if [ $? == 1 ]; then return 1; fi`, and what comes after it. -/
def Run.andThen (r : Run φ σ) (next : σ → Run φ σ) : Run φ σ :=
  if r.ret = 1 then r
  else ⟨(next r.kernel).ret, r.log ++ (next r.kernel).log, (next r.kernel).kernel⟩

/-- The status of `echo`. -/
def echoStatus (accepted : Bool) : ℕ := if accepted then 0 else 1

/-- Which of the two parameters are on the command line: 2 for both, 1 for
the class alone. -/
def cmdlineCheck (cmdline : Text) : ℕ :=
  let cls := if "offline_class".toList <:+: cmdline then 0 else 1
  let group := if "offline_group".toList <:+: cmdline then 0 else 1
  if cls = 0 ∧ group = 0 then 2 else if cls = 0 ∧ group = 1 then 1 else 0

theorem cmdlineCheck_eq_two {cmdline : Text} : cmdlineCheck cmdline = 2 ↔
    "offline_class".toList <:+: cmdline ∧ "offline_group".toList <:+: cmdline := by
  unfold cmdlineCheck
  generalize "offline_class".toList = cls, "offline_group".toList = group
  by_cases hc : cls <:+: cmdline <;> by_cases hg : group <:+: cmdline <;> simp [hc, hg]

/-- `$(cat file)`. -/
def cat (t : Text) : Text := commandSubst [t]

/-- One pass of a loop that writes random strings of `n` characters. -/
def stringInput (k : Kernel φ σ) (o : Outside) (f : φ) (n : ℕ) (s : σ) : σ :=
  (k.echo (k.random s).2 f (o.echo (cat ((k.random s).1.take n)))).2

/-- `for((i=a;i<=b;i++))`. -/
def upTo (a b : ℤ) : List ℤ := (List.range (b + 1 - a).toNat).map fun i : ℕ => a + i

theorem mem_upTo {a b z : ℤ} : z ∈ upTo a b ↔ a ≤ z ∧ z ≤ b := by
  simp only [upTo, List.mem_map, List.mem_range]
  constructor
  · rintro ⟨i, hi, rfl⟩
    omega
  · intro h
    exact ⟨(z - a).toNat, by omega, by omega⟩

theorem nodup_upTo (a b : ℤ) : (upTo a b).Nodup := by
  refine List.nodup_range.map fun i j h => ?_
  have hij : a + (i : ℤ) = a + j := h
  omega

/-! ### The loop -/

variable (k : Kernel φ σ) (f : φ)

/-- The status is that of the first write. -/
theorem Kernel.echo_fst (s : σ) (t : Text) : (k.echo s f t).1 = (k.write s f t).1 := by
  unfold Kernel.echo
  dsimp only
  split_ifs with h
  · rfl
  · split <;> exact (Bool.eq_false_iff.mpr h).symm

/-- What every write keeps, an `echo` keeps. -/
theorem Kernel.echo_keeps {k : Kernel φ σ} {f : φ} {P : σ → Prop}
    (hw : ∀ s t, P s → P (k.write s f t).2) {s : σ} (t : Text) (h : P s) : P (k.echo s f t).2 := by
  have h1 := hw s t h
  unfold Kernel.echo
  dsimp only
  split_ifs
  · exact h1
  · split
    · exact hw _ _ h1
    · exact h1

/-- `echo $i > file 2>&1`, with the status `err` expected, and a read whose
text must not be odd. -/
def inputLoop (err : ℕ) (odd : ℤ → Text → Bool) : List ℤ → σ → Run φ σ
  | [], s => ⟨0, [], s⟩
  | i :: is, s =>
    let w := k.echo s f (intText i)
    if echoStatus w.1 ≠ err then ⟨1, [⟨f, i, w.1, none⟩], w.2⟩
    else
      let num := k.read w.2 f
      let x : Input φ := ⟨f, i, w.1, some (cat num.1)⟩
      if odd i (cat num.1) then ⟨1, [x], num.2⟩
      else
        let r := inputLoop err odd is num.2
        ⟨r.ret, x :: r.log, r.kernel⟩

/-- The kernel's answers to all the integers, and the state after them. -/
def answers : List ℤ → σ → List (Input φ) × σ
  | [], s => ([], s)
  | i :: is, s =>
    let w := k.echo s f (intText i)
    let num := k.read w.2 f
    let r := answers is num.2
    (⟨f, i, w.1, some (cat num.1)⟩ :: r.1, r.2)

/-- The script sees that the answer is wrong. -/
def Input.Caught (err : ℕ) (odd : ℤ → Text → Bool) (x : Input φ) : Prop :=
  echoStatus x.accepted ≠ err ∨ ∃ t, x.readBack = some t ∧ odd x.value t = true

variable {k f}

/-- The run ends well when none of the answers is caught, and then it has met
all of them and left the kernel in the state after them. Otherwise what it has
met last is caught. -/
structure Meets (r : Run φ σ) (P : Input φ → Prop) (as : List (Input φ)) (s : σ) : Prop where
  ret_le : r.ret = 0 ∨ r.ret = 1
  ret_iff : r.ret = 0 ↔ ∀ x ∈ as, ¬ P x
  log : r.ret = 0 → r.log = as
  kernel : r.ret = 0 → r.kernel = s
  keys : r.log.map Input.key <+: as.map Input.key
  stopped : r.ret = 1 → ∃ x ∈ r.log, P x

/-- Nothing is left to do. -/
theorem Meets.done (P : Input φ → Prop) (s : σ) : Meets ⟨0, [], s⟩ P [] s where
  ret_le := .inl rfl
  ret_iff := ⟨fun _ _ hx => (nomatch hx), fun _ => rfl⟩
  log _ := rfl
  kernel _ := rfl
  keys := List.prefix_rfl
  stopped h := (nomatch h)

theorem Meets.congr {r : Run φ σ} {P Q : Input φ → Prop} {as : List (Input φ)} {s : σ}
    (h : Meets r P as s) (hPQ : ∀ x : Input φ, x.key ∈ as.map Input.key → (P x ↔ Q x)) :
    Meets r Q as s := by
  refine ⟨h.ret_le, ?_, h.log, h.kernel, h.keys, fun h1 => ?_⟩
  · refine h.ret_iff.trans (forall₂_congr fun x hx => ?_)
    exact not_congr (hPQ x (List.mem_map_of_mem hx))
  · obtain ⟨x, hx, hP⟩ := h.stopped h1
    exact ⟨x, hx, (hPQ x (h.keys.subset (List.mem_map_of_mem hx))).mp hP⟩

/-- The kernel is brought to another state at the end; where the run was
stopped that may be any. -/
theorem Meets.leave {r : Run φ σ} {P : Input φ → Prop} {as : List (Input φ)} {s s' t : σ}
    (h : Meets r P as s) (hs : r.ret = 0 → t = s') : Meets ⟨r.ret, r.log, t⟩ P as s' :=
  ⟨h.ret_le, h.ret_iff, h.log, hs, h.keys, h.stopped⟩

/-- One part of a script after the other. -/
theorem Meets.andThen {r : Run φ σ} {P : Input φ → Prop} {as bs : List (Input φ)} {s t : σ}
    {next : σ → Run φ σ} (h : Meets r P as s) (hn : Meets (next s) P bs t) :
    Meets (r.andThen next) P (as ++ bs) t := by
  rcases h.ret_le with h0 | h1
  · have hs := h.kernel h0
    have hr : r.andThen next = ⟨(next s).ret, r.log ++ (next s).log, (next s).kernel⟩ := by
      rw [Run.andThen, if_neg (by rw [h0]; decide), hs]
    have has := h.ret_iff.mp h0
    rw [hr, h.log h0]
    refine ⟨hn.ret_le, ?_, fun hb => ?_, hn.kernel, ?_, fun hb => ?_⟩
    · rw [List.forall_mem_append]
      exact hn.ret_iff.trans ⟨fun hb => ⟨has, hb⟩, fun hb => hb.2⟩
    · show as ++ (next s).log = _
      rw [hn.log hb]
    · show (as ++ (next s).log).map _ <+: _
      rw [List.map_append, List.map_append]
      exact (List.prefix_append_right_inj _).mpr hn.keys
    · obtain ⟨x, hx, hP⟩ := hn.stopped hb
      exact ⟨x, List.mem_append_right as hx, hP⟩
  · have hr : r.andThen next = r := if_pos h1
    have h0 : r.ret ≠ 0 := by rw [h1]; decide
    rw [hr]
    refine ⟨h.ret_le, ⟨fun hr => absurd hr h0, fun hall => ?_⟩, fun hr => absurd hr h0,
      fun hr => absurd hr h0, ?_, h.stopped⟩
    · exact absurd (h.ret_iff.mpr fun x hx => hall x (List.mem_append_left _ hx)) h0
    · rw [List.map_append]
      exact h.keys.trans (List.prefix_append _ _)

/-- The loop meets the answers to its integers. -/
theorem meets_inputLoop {err : ℕ} {odd : ℤ → Text → Bool} : ∀ (is : List ℤ) (s : σ),
    Meets (inputLoop k f err odd is s) (Input.Caught err odd) (answers k f is s).1 (answers k f is s).2
  | [], s => Meets.done _ s
  | i :: is, s => by
    have ih : Meets _ (Input.Caught err odd) _ _ :=
      meets_inputLoop is (k.read (k.echo s f (intText i)).2 f).2
    unfold inputLoop answers
    dsimp only
    split_ifs with hw hr
    · refine ⟨.inr rfl, ⟨fun h => (nomatch h), fun h => ?_⟩, fun h => (nomatch h), fun h => (nomatch h),
        List.prefix_append [(f, i)] _, fun _ => ⟨_, List.mem_cons_self, .inl hw⟩⟩
      exact absurd (.inl hw) (h _ List.mem_cons_self)
    · refine ⟨.inr rfl, ⟨fun h => (nomatch h), fun h => ?_⟩, fun h => (nomatch h), fun h => (nomatch h),
        List.prefix_append [(f, i)] _, fun _ => ⟨_, List.mem_cons_self, .inr ⟨_, rfl, hr⟩⟩⟩
      exact absurd (.inr ⟨_, rfl, hr⟩) (h _ List.mem_cons_self)
    · have hx : ¬ Input.Caught err odd (⟨f, i, (k.echo s f (intText i)).1,
          some (cat (k.read (k.echo s f (intText i)).2 f).1)⟩ : Input φ) := by
        rintro (h | ⟨t, ht, h⟩)
        · exact hw h
        · cases ht
          exact hr h
      refine ⟨ih.ret_le, ?_, fun h => ?_, ih.kernel, ?_, fun h => ?_⟩
      · rw [List.forall_mem_cons]
        exact ih.ret_iff.trans ⟨fun h => ⟨hx, h⟩, fun h => h.2⟩
      · rw [ih.log h]
      · rw [List.map_cons, List.map_cons]
        exact List.cons_prefix_cons.mpr ⟨rfl, ih.keys⟩
      · obtain ⟨x, hm, hP⟩ := ih.stopped h
        exact ⟨x, List.mem_cons_of_mem _ hm, hP⟩

/-! ### What the loop keeps -/

theorem Run.andThen_keeps {P : σ → Prop} {r : Run φ σ} {next : σ → Run φ σ} (hr : P r.kernel)
    (hn : ∀ s, P s → P (next s).kernel) : P (r.andThen next).kernel := by
  unfold Run.andThen
  split_ifs
  · exact hr
  · exact hn _ hr

/-- What every write and every read of the file keeps, the loop keeps,
wherever it ends. -/
theorem inputLoop_keeps {P : σ → Prop} (hw : ∀ s t, P s → P (k.write s f t).2)
    (hr : ∀ s, P s → P (k.read s f).2) {err : ℕ} {odd : ℤ → Text → Bool} : ∀ (is : List ℤ) (s : σ),
    P s → P (inputLoop k f err odd is s).kernel
  | [], _, h => h
  | i :: is, s, h => by
    have hwrite := Kernel.echo_keeps hw (intText i) h
    have hread := hr _ hwrite
    unfold inputLoop
    dsimp only
    split_ifs
    · exact hwrite
    · exact hread
    · exact inputLoop_keeps hw hr is _ hread

/-! ### The answers -/

theorem answers_keys : ∀ (is : List ℤ) (s : σ),
    (answers k f is s).1.map Input.key = is.map fun i => (f, i)
  | [], _ => rfl
  | i :: is, s => by
    rw [answers, List.map_cons, answers_keys is, List.map_cons]
    rfl

/-- An answer is the one to a write and a read in some state. -/
theorem mem_answers : ∀ {is : List ℤ} {s : σ} {x : Input φ}, x ∈ (answers k f is s).1 →
    x.file = f ∧ x.value ∈ is ∧ ∃ s', x.accepted = (k.write s' f (intText x.value)).1 ∧
      x.readBack = some (cat (k.read (k.echo s' f (intText x.value)).2 f).1)
  | i :: is, s, x, h => by
    rw [answers] at h
    rcases List.mem_cons.mp h with rfl | h
    · exact ⟨rfl, List.mem_cons_self, s, k.echo_fst f s _, rfl⟩
    · obtain ⟨hf, hv, hs⟩ := mem_answers h
      exact ⟨hf, List.mem_cons_of_mem i hv, hs⟩

end Sched
end Longan
