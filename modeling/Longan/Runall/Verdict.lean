/-
# The verdict on an avocado item

`runall.sh` reads what `avocado run` printed: the job log from the line with
`JOB LOG`, and the counts of errors and failures from the line with `RESULTS`,
by the positions awk gives them. One of the three empty makes the verdict
`SKIP`; else a count above 0 makes it `ERROR` or `FAIL`; else it is `PASS`.

The line also counts what passed, what was interrupted and what was
cancelled, and nothing looks at these. A job whose tests were all cancelled is
a `PASS`. Nor need that line be the only one with `RESULTS` in it: the others,
of a test with `RESULTS` in its path say, put their words beside its counts.
`judge_sound_iff` says on which logs the verdict is right.
-/
import Longan.Lib.Numeral

namespace Longan
namespace Runall

open Text

/-! ### What avocado prints -/

/-- The counts of the `RESULTS` line. -/
structure Counts where
  pass : ℕ
  error : ℕ
  fail : ℕ
  skip : ℕ
  warn : ℕ
  interrupt : ℕ
  cancel : ℕ
  deriving DecidableEq, Repr

/-- The words of the line after the first. -/
def Counts.columns (c : Counts) : List Text :=
  [[':'], "PASS".toList, decimal c.pass, ['|'], "ERROR".toList, decimal c.error, ['|'],
    "FAIL".toList, decimal c.fail, ['|'], "SKIP".toList, decimal c.skip, ['|'],
    "WARN".toList, decimal c.warn, ['|'], "INTERRUPT".toList, decimal c.interrupt, ['|'],
    "CANCEL".toList, decimal c.cancel]

/-- `RESULTS    : PASS 1 | ERROR 0 | FAIL 0 | ...`. -/
def Counts.line (c : Counts) : Text :=
  "RESULTS".toList ++ ' ' :: ' ' :: ' ' :: ' ' :: unwords c.columns

/-- The line is avocado's own. -/
def isResults (l : Text) : Bool := "RESULTS    : ".toList.isPrefixOf l

/-- What `avocado run` printed. Its own results line, if there is one, has the
counts. -/
structure RunLog where
  lines : List Text
  results : Option Counts
  shape : lines.filter isResults = (results.map Counts.line).toList

/-! ### The verdict -/

inductive Verdict
  | pass | fail | error | skip
  deriving DecidableEq, Repr

def Verdict.text : Verdict → Text
  | .pass => "PASS".toList
  | .fail => "FAIL".toList
  | .error => "ERROR".toList
  | .skip => "SKIP".toList

/-- `` `cat log | grep "JOB LOG" | awk '{print $4}'` ``. -/
def jobLog (ls : List Text) : Text := commandSubst ((grep "JOB LOG".toList ls).map (field 4))

/-- `` `cat log | grep RESULTS | awk '{print $n}'` ``. -/
def resultsField (n : ℕ) (ls : List Text) : Text :=
  commandSubst ((grep "RESULTS".toList ls).map (field n))

/-- `[[ $t -gt 0 ]]`. A text that is no number is an expression, whose value
depends on the variables of the shell. -/
structure Arithmetic where
  gtZero : Text → Bool
  gtZero_number : ∀ t w v, fields t = [w] → arith w = some v → gtZero t = decide (0 < v)

variable (a : Arithmetic)

/-- The verdict on the lines of an item's log. -/
def judge (ls : List Text) : Verdict :=
  let error := resultsField 7 ls
  let fail := resultsField 10 ls
  if jobLog ls = [] ∨ error = [] ∨ fail = [] then .skip
  else if a.gtZero error then .error
  else if a.gtZero fail then .fail
  else .pass

/-! ### What it reads -/

theorem counts_isWord (c : Counts) : ∀ w ∈ c.columns, IsWord w := by
  unfold Counts.columns
  simp only [List.forall_mem_cons, List.not_mem_nil, false_imp_iff, implies_true, and_true]
  exact ⟨by decide, by decide, isWord_decimal _, by decide, by decide, isWord_decimal _, by decide,
    by decide, isWord_decimal _, by decide, by decide, isWord_decimal _, by decide, by decide,
    isWord_decimal _, by decide, by decide, isWord_decimal _, by decide, by decide,
    isWord_decimal _⟩

theorem fields_line (c : Counts) : fields c.line = "RESULTS".toList :: c.columns := by
  show fields ("RESULTS".toList ++ ' ' :: ' ' :: ' ' :: ' ' :: unwords c.columns) = _
  rw [fields_append (by decide) rfl, fields_blank rfl, fields_blank rfl,
    fields_blank rfl, fields_unwords _ (counts_isWord c)]

theorem field_error (c : Counts) : field 7 c.line = decimal c.error := by
  rw [field, fields_line]
  rfl

theorem field_fail (c : Counts) : field 10 c.line = decimal c.fail := by
  rw [field, fields_line]
  rfl

theorem gtZero_decimal (n : ℕ) : a.gtZero (decimal n) = true ↔ 0 < int64 n := by
  rw [a.gtZero_number _ _ _ (fields_word (isWord_decimal n)) (arith_decimal n), decide_eq_true_eq]

/-- Without a log the verdict is `SKIP`. -/
theorem judge_nil : judge a [] = .skip := by
  rw [judge, if_pos (.inl rfl)]

/-! ### When it is right -/

/-- Something passed, and nothing failed, ended in an error or was
interrupted. -/
def Counts.Passed (c : Counts) : Prop := 1 ≤ c.pass ∧ c.error = 0 ∧ c.fail = 0 ∧ c.interrupt = 0

/-- There were tests, and every one was cancelled or skipped. -/
def Counts.AllSkipped (c : Counts) : Prop :=
  c.pass = 0 ∧ c.error = 0 ∧ c.fail = 0 ∧ c.warn = 0 ∧ c.interrupt = 0 ∧ 0 < c.skip + c.cancel

theorem Counts.AllSkipped.not_passed {c : Counts} (h : c.AllSkipped) : ¬ c.Passed := fun hp =>
  absurd (h.1 ▸ hp.1) (by decide)

/-- `PASS` is for an item that passed, and one that was skipped gets `SKIP`. -/
def SoundOn (l : RunLog) (v : Verdict) : Prop :=
  (v = .pass → ∃ c, l.results = some c ∧ c.Passed) ∧
    ∀ c, l.results = some c → c.AllSkipped → v = .skip

/-- One of the three texts is missing: no line says where the job log is, or
the lines that mention `RESULTS` have no seventh or no tenth word. -/
def Missing (ls : List Text) : Prop := jobLog ls = [] ∨ resultsField 7 ls = [] ∨ resultsField 10 ls = []

instance (ls : List Text) : Decidable (Missing ls) := inferInstanceAs (Decidable (_ ∨ _))

/-- One of the three texts is missing; or not everything was skipped, and the
seventh or the tenth words of the lines that mention `RESULTS` are above 0, or
the item passed. -/
def Clear (l : RunLog) : Prop :=
  Missing l.lines ∨
    (∀ c, l.results = some c → ¬ c.AllSkipped) ∧
      (a.gtZero (resultsField 7 l.lines) = true ∨ a.gtZero (resultsField 10 l.lines) = true ∨
        ∃ c, l.results = some c ∧ c.Passed)

theorem judge_sound_iff (l : RunLog) : SoundOn l (judge a l.lines) ↔ Clear a l := by
  unfold judge Clear
  by_cases hm : Missing l.lines
  · have hif : jobLog l.lines = [] ∨ resultsField 7 l.lines = [] ∨ resultsField 10 l.lines = [] := hm
    simp only [if_pos hif]
    exact ⟨fun _ => .inl hm, fun _ => ⟨fun h => (nomatch h), fun _ _ _ => rfl⟩⟩
  have hif : ¬ (jobLog l.lines = [] ∨ resultsField 7 l.lines = [] ∨ resultsField 10 l.lines = []) := hm
  simp only [if_neg hif, hm, false_or]
  by_cases he : a.gtZero (resultsField 7 l.lines) = true
  · rw [if_pos he]
    refine ⟨fun h => ⟨fun c hc hs => (nomatch h.2 c hc hs), .inl he⟩, fun h => ⟨fun hv => (nomatch hv), ?_⟩⟩
    exact fun c hc hs => absurd hs (h.1 c hc)
  by_cases hf : a.gtZero (resultsField 10 l.lines) = true
  · rw [if_neg he, if_pos hf]
    refine ⟨fun h => ⟨fun c hc hs => (nomatch h.2 c hc hs), .inr (.inl hf)⟩,
      fun h => ⟨fun hv => (nomatch hv), ?_⟩⟩
    exact fun c hc hs => absurd hs (h.1 c hc)
  · rw [if_neg he, if_neg hf]
    constructor
    · exact fun h => ⟨fun c hc hs => (nomatch h.2 c hc hs), .inr (.inr (h.1 rfl))⟩
    · rintro ⟨hs, h | h | h⟩
      · exact absurd h he
      · exact absurd h hf
      · exact ⟨fun _ => h, fun c hc hall => absurd hall (hs c hc)⟩

/-- Where only its own line mentions `RESULTS`, what counts is that line: an
error or failure count above 0 as a 64-bit number, or the item passed. -/
theorem clear_alone {l : RunLog} {c : Counts} (hr : l.results = some c)
    (hl : grep "RESULTS".toList l.lines = [c.line]) :
    Clear a l ↔ jobLog l.lines = [] ∨ 0 < int64 c.error ∨ 0 < int64 c.fail ∨ c.Passed := by
  have hfield : ∀ {n m : ℕ}, field n c.line = decimal m → resultsField n l.lines = decimal m := by
    intro n m hf
    rw [resultsField, hl]
    show commandSubst [field n c.line] = _
    rw [hf, commandSubst_single (isWord_decimal m)]
  have hmissing : Missing l.lines ↔ jobLog l.lines = [] := by
    rw [Missing, hfield (field_error c), hfield (field_fail c)]
    simp [decimal_ne_nil]
  have hzero : ¬ 0 < int64 0 := by decide
  rw [Clear, hmissing, hfield (field_error c), hfield (field_fail c), gtZero_decimal, gtZero_decimal, hr]
  simp only [Option.some.injEq, forall_eq', exists_eq_left']
  refine or_congr_right ⟨fun h => h.2, fun h => ⟨fun hs => ?_, h⟩⟩
  rcases h with h | h | h
  · exact hzero (by rwa [hs.2.1] at h)
  · exact hzero (by rwa [hs.2.2.1] at h)
  · exact hs.not_passed h

/-- Numbers only. -/
def numbers : Arithmetic where
  gtZero t := (fields t).length = 1 ∧ ((fields t).head?.bind arith).any fun v => decide (0 < v)
  gtZero_number t w v hw hv := by simp [hw, hv]

/-- `RESULTS    : PASS 0 | ... | CANCEL 1` is a `PASS`. -/
example : judge numbers ["JOB LOG    : /j/job.log".toList, (Counts.mk 0 0 0 0 0 0 1).line] = .pass := by
  decide +kernel

/-- A failed test with `RESULTS` in its path and a reason of several words. -/
example : judge numbers ["JOB LOG    : /j/job.log".toList,
    " (1/1) /t/RESULTS.sh: FAIL: Exited with status: '1', stdout: b'' stderr: (0.02 s)".toList,
    (Counts.mk 0 0 1 0 0 0 0).line] = .pass := by
  decide +kernel

end Runall
end Longan
