/-
# `proc_offline_illegal_value_test.sh` puts the values back

Each CPU's file holds a value that reads give back; a write that the kernel
rejects changes nothing, an accepted one at most the file it goes to, and a
write of the first value is accepted and sets it again (`Holds`). What is
accepted besides is up to the kernel, so a random string or bash's own message
may well become a value.

The test saves a value with `$(cat ...)` and restores it with an unquoted
`echo`. While one CPU is tested the others keep theirs (`onetest_others`), and
wherever its test ends something is written to its file before the script goes
on or ends: its first value, where `echo` prints that as it is (`Printed`).
Else a kernel that is as strict as the test wants it (`strict`) is left with
another value (`strict_lost`), unless the script has stopped before: at a CPU
whose value is one of the integers that should be rejected (`Outlawed`).
-/
import Longan.Sched.IllegalValue

namespace Longan
namespace Sched
namespace IllegalValue

open Text Outside

variable {σ : Type*}

/-! ### Values -/

/-- `echo $t` prints the text as it is. -/
def Printed (o : Outside) (t : Text) : Prop := o.echo t = t

instance (o : Outside) (t : Text) : Decidable (Printed o t) := inferInstanceAs (Decidable (_ = _))

/-- One of the integers that should be rejected. -/
def Outlawed (t : Text) : Prop := ∃ z : ℤ, -1000 ≤ z ∧ z ≤ 1000 ∧ ¬ Legal z ∧ t = intText z

/-- What is saved of a text is echoed like the text. -/
theorem echo_cat (o : Outside) (t : Text) : o.echo (cat t) = o.echo t := by
  rw [Outside.echo, Outside.words, cat, fields_commandSubst, List.flatMap_singleton]
  rfl

/-- Words with one blank between them, without pattern characters, the first
of them no option of `echo`. -/
theorem printed_of_words {t : Text} (o : Outside) (hwords : unwords (fields t) = t)
    (hplain : ∀ w ∈ fields t, ∀ c ∈ w, c ∉ ['*', '?', '[', '\\'])
    (hoption : ∀ w ∈ (fields t).head?, echoOption w = false) : Printed o t := by
  have hglob : (fields t).flatMap o.glob = fields t := by
    rw [List.flatMap_congr fun w hw => o.glob_plain w (hplain w hw), List.flatMap_singleton']
  have hdrop : (fields t).dropWhile echoOption = fields t := by
    cases hf : fields t with
    | nil => rfl
    | cons w ws =>
      have hw : echoOption w = false := hoption w (by rw [hf]; rfl)
      rw [List.dropWhile_cons, hw]
      rfl
  rw [Printed, Outside.echo, Outside.words, hglob, hdrop, hwords]

theorem mem_intText {z : ℤ} {c : Char} (h : c ∈ intText z) : c.isDigit = true ∨ c = '-' := by
  unfold intText at h
  split_ifs at h
  · rcases List.mem_cons.mp h with h | h
    · exact .inr h
    · exact .inl (isDigit_of_mem_decimal h)
  · exact .inl (isDigit_of_mem_decimal h)

theorem isWord_intText (z : ℤ) : IsWord (intText z) := by
  refine ⟨fun h => ?_, fun c hc => ?_⟩
  · unfold intText at h
    split_ifs at h
    exact decimal_ne_nil _ h
  · refine Bool.eq_false_iff.mpr fun hb => ?_
    have hcases : c = ' ' ∨ c = '\t' ∨ c = '\n' := of_decide_eq_true hb
    rcases hcases with rfl | rfl | rfl <;> rcases mem_intText hc with h | h <;> exact absurd h (by decide)

/-- An integer is printed as it is. -/
theorem printed_intText (o : Outside) (z : ℤ) : Printed o (intText z) := by
  have hfields := fields_word (isWord_intText z)
  apply printed_of_words
  · rw [hfields, unwords]
  · intro w hw c hc hp
    rw [hfields, List.mem_singleton] at hw
    subst hw
    simp only [List.mem_cons, List.not_mem_nil, or_false] at hp
    rcases hp with rfl | rfl | rfl | rfl <;> rcases mem_intText hc with h | h <;> exact absurd h (by decide)
  · intro w hw
    rw [hfields, List.head?_cons, Option.mem_some_iff] at hw
    subst hw
    unfold echoOption
    split
    · rename_i c r ht
      have hdigit : c.isDigit = true := by
        unfold intText at ht
        split_ifs at ht
        · have hd : decimal z.natAbs = c :: r := (List.cons.inj ht).2
          exact isDigit_of_mem_decimal (hd ▸ List.mem_cons_self)
        · have hm : '-' ∈ decimal z.natAbs := ht ▸ List.mem_cons_self
          exact absurd hm (not_mem_decimal (by decide) _)
      have hc : c ∉ ['n', 'e', 'E'] := by
        intro hc
        simp only [List.mem_cons, List.not_mem_nil, or_false] at hc
        rcases hc with rfl | rfl | rfl <;> exact absurd hdigit (by decide)
      rw [List.all_cons, decide_eq_false hc, Bool.false_and]
    · rfl

theorem Outlawed.printed {t : Text} (h : Outlawed t) (o : Outside) : Printed o t := by
  obtain ⟨z, -, -, -, rfl⟩ := h
  exact printed_intText o z

/-! ### The kernel -/

/-- The files hold values, which only an accepted write to the file itself
changes, and a write of the first value is accepted and gives it back. -/
structure Holds (k : Kernel ℕ σ) (value : σ → ℕ → Text) (init : ℕ → Text) : Prop where
  read : ∀ s n, (k.read s n).1 = value s n
  read_keeps : ∀ s n, value (k.read s n).2 = value s
  random_keeps : ∀ s, value (k.random s).2 = value s
  write_keeps : ∀ s n t m, (k.write s n t).1 = false ∨ m ≠ n → value (k.write s n t).2 m = value s m
  init_accepted : ∀ s n, (k.write s n (init n)).1 = true
  init_set : ∀ s n, value (k.write s n (init n)).2 n = init n

/-- All files but one hold what is given. -/
def Others (value : σ → ℕ → Text) (v : ℕ → Text) (n : ℕ) (s : σ) : Prop :=
  ∀ m, m ≠ n → value s m = v m

variable {k : Kernel ℕ σ} {o : Outside} {value : σ → ℕ → Text} {init v : ℕ → Text}

theorem Holds.write_other (h : Holds k value init) {n : ℕ} {s : σ} (hs : Others value v n s) (t : Text) :
    Others value v n (k.write s n t).2 := fun m hm =>
  (h.write_keeps s n t m (.inr hm)).trans (hs m hm)

theorem Holds.echo_other (h : Holds k value init) {n : ℕ} {s : σ} (hs : Others value v n s) (t : Text) :
    Others value v n (k.echo s n t).2 :=
  Kernel.echo_keeps (P := Others value v n) (fun _ t hs => h.write_other hs t) t hs

theorem Holds.read_other (h : Holds k value init) {n : ℕ} {s : σ} (hs : Others value v n s) :
    Others value v n (k.read s n).2 := fun m hm => by rw [h.read_keeps, hs m hm]

theorem Holds.random_other (h : Holds k value init) {n : ℕ} {s : σ} (hs : Others value v n s) :
    Others value v n (k.random s).2 := fun m hm => by rw [h.random_keeps, hs m hm]

/-! ### One CPU -/

theorem stringInputTest_others (h : Holds k value init) {n : ℕ} (len : ℕ) {s : σ}
    (hs : Others value v n s) : Others value v n (stringInputTest k o n len s) := by
  have hiter : ∀ m, Others value v n ((stringInput k o n len)^[m] s) := by
    intro m
    induction m with
    | zero => exact hs
    | succ m ih =>
      rw [Function.iterate_succ_apply']
      exact h.echo_other (h.random_other ih) _
  exact hiter 10

theorem interInputTest_others (h : Holds k value init) {n : ℕ} {first last : ℤ} {err flag : ℕ} {s : σ}
    (hs : Others value v n s) : Others value v n (interInputTest k o n first last err flag s).kernel :=
  inputLoop_keeps (P := Others value v n) (fun _ t hs => h.write_other hs t)
    (fun _ hs => h.read_other hs) _ s hs

/-- Wherever the test of a CPU ends, the files of the others are as they were. -/
theorem onetest_others (h : Holds k value init) {n : ℕ} {s : σ} (hs : Others value v n s) :
    Others value v n (autotestOnetest k o n s).kernel := by
  unfold autotestOnetest
  refine Run.andThen_keeps (interInputTest_others h hs) fun s hs => ?_
  refine Run.andThen_keeps (interInputTest_others h hs) fun s hs => ?_
  refine Run.andThen_keeps (interInputTest_others h hs) fun s hs => ?_
  exact stringInputTest_others h 3 (stringInputTest_others h 2 (stringInputTest_others h 1 hs))

/-- Where the first value is an integer that should be rejected, its write is
accepted, and the test of the CPU fails. -/
theorem onetest_outlawed (h : Holds k value init) {n : ℕ} (hn : Outlawed (init n)) (s : σ) :
    (autotestOnetest k o n s).ret = 1 := by
  have hmeets := meets_onetest (k := k) (o := o) n s
  refine hmeets.ret_le.resolve_left fun h0 => ?_
  obtain ⟨z, h1, h2, hl, ht⟩ := hn
  have hkey : (n, z) ∈ (cpuAnswers k o n s).1.map Input.key := by
    have hmem := mem_inputs.mpr ⟨h1, h2⟩
    simp only [cpuAnswers, List.map_append, answers_keys, List.map_nil]
    simpa [inputs] using hmem
  obtain ⟨x, hx, hxk⟩ := List.mem_map.mp hkey
  obtain ⟨rfl, rfl⟩ := Prod.mk.inj hxk
  have hacc : x.accepted = true := by
    obtain ⟨s', hs', -⟩ := mem_cpuAnswers hx
    rw [hs', ← ht]
    exact h.init_accepted s' x.file
  exact hl ((accepted_of_not_seen (hmeets.ret_iff.mp h0 x hx)).mp hacc)

/-! ### The script -/

/-- A file is not touched by what happens to other CPUs. -/
theorem twoCmdPara_frame (h : Holds k value init) {n : ℕ} {t : Text} : ∀ (js : List ℕ) (s : σ), n ∉ js →
    value s n = t → value (autotestTypeTwoCmdPara k o js s).kernel n = t
  | [], _, _, hs => hs
  | j :: js, s, hn, hs => by
    have hne : n ≠ j := List.ne_of_not_mem_cons hn
    refine Run.andThen_keeps (P := fun s => value s n = t) ?_ fun s hs =>
      twoCmdPara_frame h js s (List.not_mem_of_not_mem_cons hn) hs
    have hsave : Others value (value s) j (autotestSave k j s).2 := h.read_other fun _ _ => rfl
    exact (h.write_other (onetest_others h hsave) _ n hne).trans hs

/-- At the head of the loop over the CPUs, and at its end, every file holds its
first value. -/
theorem twoCmdPara_restored (h : Holds k value init) : ∀ (js : List ℕ) (s : σ), js.Pairwise (· < ·) →
    (∀ n ∈ js, (∀ m ∈ js, m < n → ¬ Outlawed (init m)) → Printed o (init n)) →
    (∀ n, value s n = init n) → ∀ n, value (autotestTypeTwoCmdPara k o js s).kernel n = init n
  | [], _, _, _, hs => hs
  | j :: js, s, hjs, hp, hs => by
    obtain ⟨hlt, hjs⟩ := List.pairwise_cons.mp hjs
    have hsave : Others value init j (autotestSave k j s).2 := h.read_other fun m _ => hs m
    have hothers := onetest_others (o := o) h hsave
    have hprinted : Printed o (init j) := by
      refine hp j List.mem_cons_self fun m hm hmj => ?_
      rcases List.mem_cons.mp hm with rfl | hm
      · exact absurd hmj (lt_irrefl m)
      · exact absurd (hlt m hm) (by omega)
    have hsaved : o.echo (autotestSave k j s).1 = init j := by
      show o.echo (cat (k.read s j).1) = _
      rw [echo_cat, h.read, hs j, hprinted]
    have hback : ∀ n, value (autotestRestore k o (autotestSave k j s).1 j
        (autotestOnetest k o j (autotestSave k j s).2).kernel) n = init n := by
      intro n
      rw [autotestRestore, hsaved]
      by_cases hn : n = j
      · rw [hn, h.init_set]
      · exact h.write_other hothers _ n hn
    by_cases hout : Outlawed (init j)
    · have hret : (autotestOnetest k o j (autotestSave k j s).2).ret = 1 := onetest_outlawed h hout _
      rw [autotestTypeTwoCmdPara, Run.andThen, if_pos hret]
      exact hback
    · refine Run.andThen_keeps (P := fun s => ∀ n, value s n = init n) hback fun s hs =>
        twoCmdPara_restored h js s hjs (fun n hn hm => hp n (List.mem_cons_of_mem j hn) ?_) hs
      intro m hmem hmn
      rcases List.mem_cons.mp hmem with rfl | hmem
      · exact hout
      · exact hm m hmem hmn

/-! ### A kernel as the test wants it -/

/-- It accepts the integers from 0 to 100 and each file's first value, and
keeps them. -/
def strict (init : ℕ → Text) : Kernel ℕ (ℕ → Text) where
  write s n t :=
    if t = init n ∨ ∃ z ∈ upTo 0 100, t = intText z then (true, Function.update s n t) else (false, s)
  read s n := (s n, s)
  random s := ("7".toList, s)
  complaint _ _ := none

theorem strict_holds (init : ℕ → Text) : Holds (strict init) (fun s => s) init where
  read _ _ := rfl
  read_keeps _ _ := rfl
  random_keeps _ := rfl
  write_keeps s n t m h := by
    unfold strict at h ⊢
    dsimp only at h ⊢
    split_ifs at h ⊢
    · rcases h with h | h
      · cases h
      · exact Function.update_of_ne h t s
    · rfl
  init_accepted s n := by simp [strict]
  init_set s n := by simp [strict]

theorem strict_write_legal {z : ℤ} (h : Legal z) (s : ℕ → Text) (n : ℕ) :
    (strict init).write s n (intText z) = (true, Function.update s n (intText z)) :=
  if_pos (.inr ⟨z, mem_upTo.mpr h, rfl⟩)

/-- A write of another text than the first value does not bring that back. -/
theorem strict_write_ne {s : ℕ → Text} {n : ℕ} {t : Text} (ht : t ≠ init n) (hs : s n ≠ init n) :
    ((strict init).write s n t).2 n ≠ init n := by
  unfold strict
  dsimp only
  split_ifs
  · show Function.update s n t n ≠ init n
    rw [Function.update_self]
    exact ht
  · exact hs

theorem intText_inj {z w : ℤ} (hz : -1000 ≤ z ∧ z ≤ 1000) (hw : -1000 ≤ w ∧ w ≤ 1000)
    (h : intText z = intText w) : z = w := by
  have h1 : legalNumber (intText z) = some z := legalNumber_intText (by omega)
  rw [h, legalNumber_intText (by omega)] at h1
  exact (Option.some.inj h1).symm

/-- A file that holds an integer from 0 to 100. -/
def HoldsLegal (s : ℕ → Text) (n : ℕ) : Prop := ∃ z, Legal z ∧ s n = intText z

theorem oddRead_ints {flag : ℕ} (hflag : flag ≤ 1) {i z : ℤ} (hi : -1000 ≤ i ∧ i ≤ 1000)
    (hz : Legal z) : oddRead o flag i (cat (intText z)) = decide (flag = 0 ∧ z ≠ i) := by
  have h1 := hz.1
  have h2 := hz.2
  have hnum : legalNumber (intText z) = some z := legalNumber_intText (by omega)
  have hwords : o.words (cat (intText z)) = [intText z] := by
    rw [cat, commandSubst_single (isWord_intText z)]
    exact words_of_reads (fields_word (isWord_intText z)) hnum
  have hflag' : legalNumber (decimal flag) = some (flag : ℤ) := by
    interval_cases flag <;> decide
  rw [oddRead, hwords]
  show o.holds [decimal flag, "-eq".toList, "0".toList, "-a".toList, intText z, "-ne".toList, intText i] = _
  rw [holds_and_ints (by decide) (by decide) hflag' (by decide : legalNumber "0".toList = some 0) hnum
    (legalNumber_intText (by omega))]
  interval_cases flag
  · show (decide ((0 : ℤ) = 0) && decide (z ≠ i)) = _
    simp
  · show (decide ((1 : ℤ) = 0) && decide (z ≠ i)) = _
    simp

/-- The legal integers are accepted and read back. -/
theorem strict_legal (n : ℕ) : ∀ (is : List ℤ) (s : ℕ → Text), (∀ i ∈ is, Legal i) →
    (inputLoop (strict init) n 0 (oddRead o 0) is s).ret = 0 ∧
      (is ≠ [] ∨ HoldsLegal s n →
        HoldsLegal (inputLoop (strict init) n 0 (oddRead o 0) is s).kernel n)
  | [], _, _ => ⟨rfl, fun h => h.resolve_left fun hne => hne rfl⟩
  | i :: is, s, his => by
    have hi : Legal i := his i List.mem_cons_self
    have hecho : (strict init).echo s n (intText i) = (true, Function.update s n (intText i)) := by
      rw [Kernel.echo, strict_write_legal hi]
      rfl
    have hback : ((strict init).read (Function.update s n (intText i)) n) =
        (intText i, Function.update s n (intText i)) := by
      show (Function.update s n (intText i) n, _) = _
      rw [Function.update_self]
    have hodd : oddRead o 0 i (cat (intText i)) = false := by
      rw [oddRead_ints (by decide) (by have h1 := hi.1; have h2 := hi.2; omega) hi]
      simp
    obtain ⟨hret, hlegal⟩ := strict_legal n is (Function.update s n (intText i)) fun x hx =>
      his x (List.mem_cons_of_mem i hx)
    unfold inputLoop
    simp only [hecho, hback, hodd, echoStatus, if_true, ne_eq, not_true_eq_false, if_false,
      Bool.false_eq_true]
    exact ⟨hret, fun _ => hlegal (.inr ⟨i, hi, Function.update_self n _ s⟩)⟩

/-- The others are rejected, and the file keeps its value. -/
theorem strict_illegal {n : ℕ} (hn : ¬ Outlawed (init n)) : ∀ (is : List ℤ) (s : ℕ → Text),
    (∀ i ∈ is, -1000 ≤ i ∧ i ≤ 1000 ∧ ¬ Legal i) → HoldsLegal s n →
    (inputLoop (strict init) n 1 (oddRead o 1) is s).ret = 0 ∧
      HoldsLegal (inputLoop (strict init) n 1 (oddRead o 1) is s).kernel n
  | [], _, _, h => ⟨rfl, h⟩
  | i :: is, s, his, h => by
    obtain ⟨h1, h2, hi⟩ := his i List.mem_cons_self
    have hecho : (strict init).echo s n (intText i) = (false, s) := by
      have hwrite : (strict init).write s n (intText i) = (false, s) := by
        refine if_neg ?_
        rintro (he | ⟨z, hz, he⟩)
        · exact hn ⟨i, h1, h2, hi, he.symm⟩
        · have hzl := mem_upTo.mp hz
          exact hi (intText_inj ⟨h1, h2⟩ (by omega) he ▸ hzl)
      rw [Kernel.echo, hwrite]
      rfl
    have hodd : oddRead o 1 i (cat (s n)) = false := by
      obtain ⟨z, hz, hs⟩ := h
      rw [hs, oddRead_ints le_rfl ⟨h1, h2⟩ hz]
      simp
    have hread : (strict init).read s n = (s n, s) := rfl
    unfold inputLoop
    simp only [hecho, hread, hodd, echoStatus, if_false, ne_eq, not_true_eq_false, Bool.false_eq_true]
    exact strict_illegal hn is s (fun x hx => his x (List.mem_cons_of_mem i hx)) h

/-- The random strings leave the integer 7. -/
theorem strict_strings (n : ℕ) {len : ℕ} (hlen : 0 < len) {s : ℕ → Text} (hs : HoldsLegal s n) :
    HoldsLegal (stringInputTest (strict init) o n len s) n := by
  have hseven : ∀ s, stringInput (strict init) o n len s = Function.update s n (intText 7) := by
    intro s
    have htake : ("7".toList).take len = intText 7 := List.take_of_length_le hlen
    show ((strict init).echo s n (o.echo (cat (("7".toList).take len)))).2 = _
    rw [htake, echo_cat, (printed_intText o 7 : o.echo _ = _), Kernel.echo,
      strict_write_legal ⟨by decide, by decide⟩]
    rfl
  have hiter : ∀ m, HoldsLegal ((stringInput (strict init) o n len)^[m] s) n := by
    intro m
    induction m with
    | zero => exact hs
    | succ m ih =>
      rw [Function.iterate_succ_apply', hseven]
      exact ⟨7, ⟨by decide, by decide⟩, Function.update_self n _ _⟩
  exact hiter 10

/-- The test of a CPU succeeds, and leaves its file with an integer from 0 to
100. -/
theorem strict_onetest {n : ℕ} (hn : ¬ Outlawed (init n)) (s : ℕ → Text) :
    (autotestOnetest (strict init) o n s).ret = 0 ∧
      HoldsLegal (autotestOnetest (strict init) o n s).kernel n := by
  have hand : ∀ {r : Run ℕ (ℕ → Text)} {next : (ℕ → Text) → Run ℕ (ℕ → Text)},
      r.ret = 0 ∧ HoldsLegal r.kernel n →
      (∀ s, HoldsLegal s n → (next s).ret = 0 ∧ HoldsLegal (next s).kernel n) →
      (r.andThen next).ret = 0 ∧ HoldsLegal (r.andThen next).kernel n := by
    intro r next hr hnext
    rw [Run.andThen, if_neg (by rw [hr.1]; decide)]
    exact hnext _ hr.2
  have hfirst : (inputLoop (strict init) n 0 (oddRead o 0) (upTo 0 100) s).ret = 0 ∧ _ :=
    strict_legal n (upTo 0 100) s fun i hi => mem_upTo.mp hi
  have hne : upTo 0 100 ≠ [] := List.ne_nil_of_mem (mem_upTo.mpr ⟨le_rfl, by decide⟩)
  refine hand ⟨hfirst.1, hfirst.2 (.inl hne)⟩ fun s hs => ?_
  refine hand (strict_illegal hn (upTo (-1000) (-1)) s (fun i hi => ?_) hs) fun s hs => ?_
  · have := mem_upTo.mp hi
    exact ⟨this.1, by omega, fun h => by have := h.1; omega⟩
  refine hand (strict_illegal hn (upTo 101 1000) s (fun i hi => ?_) hs) fun s hs => ⟨rfl, ?_⟩
  · have := mem_upTo.mp hi
    exact ⟨by omega, this.2, fun h => by have := h.2; omega⟩
  · exact strict_strings n (by decide) (strict_strings n (by decide) (strict_strings n (by decide) hs))

/-- The value of a tested CPU that `echo` does not print is lost. -/
theorem strict_lost {n : ℕ} (hprint : ¬ Printed o (init n)) : ∀ (js : List ℕ) (s : ℕ → Text),
    js.Pairwise (· < ·) → n ∈ js → (∀ m ∈ js, m < n → ¬ Outlawed (init m)) → s n = init n →
    (autotestTypeTwoCmdPara (strict init) o js s).kernel n ≠ init n
  | j :: js, s, hjs, hn, hout, hs => by
    obtain ⟨hlt, hjs⟩ := List.pairwise_cons.mp hjs
    have hkeep := strict_holds init
    rcases List.mem_cons.mp hn with rfl | hmem
    · have hout' : ¬ Outlawed (init n) := fun h => hprint (h.printed o)
      obtain ⟨hret, z, -, hz⟩ := strict_onetest (o := o) hout' (autotestSave (strict init) n s).2
      have hne : ∀ {t : Text}, Printed o t → t ≠ init n := fun ht he => hprint (he ▸ ht)
      rw [autotestTypeTwoCmdPara, Run.andThen, if_neg (by show ¬ _ = 1; rw [hret]; decide)]
      have hnot : n ∉ js := fun hm => absurd (hlt n hm) (lt_irrefl n)
      rw [twoCmdPara_frame hkeep js _ hnot rfl]
      show (autotestRestore (strict init) o (cat (s n)) n _) n ≠ init n
      rw [autotestRestore, echo_cat, hs]
      refine strict_write_ne hprint ?_
      rw [hz]
      exact hne (printed_intText o z)
    · have hj : ¬ Outlawed (init j) := hout j List.mem_cons_self (hlt n hmem)
      have hret := (strict_onetest (o := o) hj (autotestSave (strict init) j s).2).1
      rw [autotestTypeTwoCmdPara, Run.andThen, if_neg (by show ¬ _ = 1; rw [hret]; decide)]
      refine strict_lost hprint js _ hjs hmem (fun m hm => hout m (List.mem_cons_of_mem j hm)) ?_
      have hne : n ≠ j := (hlt n hmem).ne'
      have hsave : Others (fun s => s) s j (autotestSave (strict init) j s).2 := hkeep.read_other fun _ _ => rfl
      exact (hkeep.write_other (onetest_others hkeep hsave) _ n hne).trans hs

/-! ### When the values are put back -/

theorem main_kernel (k : Kernel ℕ σ) (o : Outside) (cmdline : Text) (cpuinfo : List Text) (s : σ) :
    (main k o cmdline cpuinfo s).kernel =
      if "offline_class".toList <:+: cmdline ∧ "offline_group".toList <:+: cmdline then
        (autotestTypeTwoCmdPara k o (List.range (cpunum cpuinfo)) s).kernel
      else s := by
  show (autotestTest k o cmdline cpuinfo s).kernel = _
  rw [autotestTest]
  split
  · rename_i h2
    rw [if_pos (cmdlineCheck_eq_two.mp h2)]
  · rename_i h1
    rw [if_neg fun h => absurd (h1.symm.trans (cmdlineCheck_eq_two.mpr h)) (by decide)]
    rfl
  · rename_i h2 _
    rw [if_neg fun h => h2 (cmdlineCheck_eq_two.mpr h)]
    rfl

/-- **The values.** With any kernel, and wherever the test ends, every file is
left with the value it had at the start if and only if `echo` prints the value
of each CPU that is tested, up to one that should be rejected. -/
theorem restored_iff (o : Outside) (cmdline : Text) (cpuinfo : List Text) (init : ℕ → Text) :
    (∀ (σ : Type) (k : Kernel ℕ σ) (value : σ → ℕ → Text) (s : σ), Holds k value init →
      (∀ n, value s n = init n) → ∀ n, value (main k o cmdline cpuinfo s).kernel n = init n) ↔
      ("offline_class".toList <:+: cmdline → "offline_group".toList <:+: cmdline →
        ∀ n < cpunum cpuinfo, (∀ m < n, ¬ Outlawed (init m)) → Printed o (init n)) := by
  constructor
  · intro hall hc hg n hn hout
    by_contra hprint
    have hlost := strict_lost hprint (List.range (cpunum cpuinfo)) init List.pairwise_lt_range
      (List.mem_range.mpr hn) (fun m _ hm => hout m hm) rfl
    have hkept := hall (ℕ → Text) (strict init) (fun s => s) init (strict_holds init) (fun _ => rfl) n
    rw [main_kernel, if_pos ⟨hc, hg⟩] at hkept
    exact hlost hkept
  · intro hprint σ k value s h hs n
    rw [main_kernel]
    split_ifs with hcg
    · refine twoCmdPara_restored h _ s List.pairwise_lt_range (fun n hn hout => ?_) hs n
      have hlt := List.mem_range.mp hn
      exact hprint hcg.1 hcg.2 n hlt fun m hm => hout m (List.mem_range.mpr (hm.trans hlt)) hm
    · exact hs n

/-- **Two blanks become one.** A CPU's file that holds `5  6` is left with
another value. -/
theorem two_blanks_lost : ¬ ∀ (σ : Type) (k : Kernel ℕ σ) (o : Outside) (value : σ → ℕ → Text)
    (init : ℕ → Text) (cmdline : Text) (cpuinfo : List Text) (s : σ), Holds k value init →
    (∀ n, value s n = init n) → ∀ n, value (main k o cmdline cpuinfo s).kernel n = init n := by
  intro h
  let init : ℕ → Text := fun _ => "5  6".toList
  have hprint : ¬ Printed Outside.inert (init 0) := by decide +kernel
  have hlost := strict_lost hprint (List.range 1) init List.pairwise_lt_range (by decide)
    (fun m _ hm => absurd hm (Nat.not_lt_zero m)) rfl
  have hkept := h (ℕ → Text) (strict init) Outside.inert (fun s => s) init "offline_class offline_group".toList
    ["processor\t: 0".toList] init (strict_holds init) (fun _ => rfl) 0
  have hcpus : cpunum ["processor\t: 0".toList] = 1 := by decide +kernel
  rw [main_kernel, if_pos (by decide +kernel), hcpus] at hkept
  exact hlost hkept

end IllegalValue
end Sched
end Longan
