/-
# The vhost netperf verdicts

`kvm_vhost_netperf_test.sh` goes through a list of cases. For each it resets a
log on the server, appends to it what `sar` says five times, pulls the log to
its own `/tmp/netperf.log.txt` (`sampleData`), and appends to the CSV file a
row that ends in `pass` or `fail` (`formatData`). The commands on the server
and the pull may each fail; what they came to is the input.

Nothing looks at a failure. The log on the server and its copy stay from case
to case, so a row may be judged on samples of earlier cases; and with no
sample at all awk prints nothing, `bc` prints nothing, and the row ends in
`pass`, as everything does that is not `0` (`passes_iff`). awk computes in
floating point, whose rounding is a parameter. `verdicts_supported_iff` says
along which runs every `pass` rests on the case's own samples and on nothing
else.
-/
import Longan.Lib.Awk
import Longan.Lib.Runs

namespace Longan
namespace Netperf

open Text

/-! ### The logs -/

/-- A line of a log, with the number of the case that wrote it; `none` for a
line that was there before the run. -/
structure Line where
  text : Text
  owner : Option ℕ

/-- An entry of `cases`. `echo -e` would read a backslash in the type. -/
structure Case where
  type : Text
  threads : ℕ
  packetLen : ℕ
  stand : ℕ
  plain : '\\' ∉ type

def cases : List Case := [
  ⟨"TCP_RR".toList, 40, 1, 279696, by decide⟩,
  ⟨"TCP_RR".toList, 40, 1024, 258447, by decide⟩,
  ⟨"UDP_RR".toList, 40, 1, 293778, by decide⟩,
  ⟨"UDP_RR".toList, 40, 1024, 259490, by decide⟩,
  ⟨"TCP_STREAM".toList, 40, 1, 190076, by decide⟩,
  ⟨"TCP_STREAM".toList, 40, 512, 815892, by decide⟩,
  ⟨"TCP_STREAM".toList, 40, 1024, 1084713, by decide⟩,
  ⟨"TCP_STREAM".toList, 40, 60000, 135391, by decide⟩,
  ⟨"UDP_STREAM".toList, 40, 1, 1456001, by decide⟩,
  ⟨"UDP_STREAM".toList, 40, 512, 1391080, by decide⟩,
  ⟨"UDP_STREAM".toList, 40, 1472, 1391080, by decide⟩,
  ⟨"UDP_STREAM".toList, 40, 60000, 2071217, by decide⟩,
  ⟨"TCP_CRR".toList, 40, 1, 379211, by decide⟩,
  ⟨"TCP_CRR".toList, 40, 1024, 369855, by decide⟩]

/-- What became of the remote commands of a case: whether the log was reset,
what `sar` printed on the server in each sampling, `none` when the command
did not run, and whether the log was pulled. -/
structure Outcome where
  reset : Bool
  samples : Fin 5 → Option (List Text)
  pull : Bool

/-- A row of the CSV file, with the case it is for and the log it was made
from. -/
structure Judged where
  k : ℕ
  stand : ℕ
  log : List Line
  row : Text

/-- The log on the server and its copy, where they exist, and the rows so far. -/
structure State where
  remote : Option (List Line)
  copy : Option (List Line)
  judged : List Judged

/-! ### `sample_data` -/

/-- `grep eth0|grep Average|awk '{print $3,$5}'`. -/
def sar (ls : List Text) : List Text :=
  (grep "Average".toList (grep "eth0".toList ls)).map fun l => field 3 l ++ ' ' :: field 5 l

/-- `echo > /tmp/netperf.log.txt`. -/
def reset (k : ℕ) (ok : Bool) (remote : Option (List Line)) : Option (List Line) :=
  if ok then some [⟨[], some k⟩] else remote

/-- One sampling: `sar ... >>/tmp/netperf.log.txt`. -/
def sampling (k : ℕ) (remote : Option (List Line)) : Option (List Text) → Option (List Line)
  | some ls => some (remote.getD [] ++ (sar ls).map fun t => ⟨t, some k⟩)
  | none => remote

/-- The pull, which needs a log to pull. -/
def pull (ok : Bool) (remote copy : Option (List Line)) : Option (List Line) :=
  if ok && remote.isSome then remote else copy

/-- `sample_data` on the log and its copy. -/
def sampleData (k : ℕ) (o : Outcome) (remote copy : Option (List Line)) :
    Option (List Line) × Option (List Line) :=
  let remote := (List.ofFn o.samples).foldl (sampling k) (reset k o.reset remote)
  (remote, pull o.pull remote copy)

/-! ### `format_data` -/

/-- `grep -Ev "^$|[#;]"` keeps the line. -/
def counts (t : Text) : Bool := t ≠ [] ∧ '#' ∉ t ∧ ';' ∉ t

variable (round : ℚ → ℚ)

/-- `awk '{...}END{print int(a/b)}'`: nothing without a line. -/
def intMean (n : ℕ) (ls : List Text) : Text :=
  if ls = [] then [] else intText (awkInt (roundedMean round n ls))

/-- `echo " $result * 10 > $STAND * 9 " |bc -l`: nothing when the expression
is malformed. -/
def bc (result : Text) (stand : ℕ) : Text :=
  match readInt result with
  | some z => if z * 10 > stand * 9 then ['1'] else ['0']
  | none => []

/-- The row `format_data` appends, from the lines of the log. -/
def formatData (c : Case) (log : List Text) : Text :=
  let ls := log.filter counts
  let result := intMean round 1 ls
  let r := bc result c.stand
  ["vhost-4U8G4Q".toList, c.type, decimal c.packetLen, decimal c.threads ++ "*2".toList, intMean round 2 ls,
    result, decimal c.stand].flatMap (fun x => x ++ [',']) ++
    if r = ['0'] then "fail".toList else "pass".toList

/-- One turn of the loop over `cases`. -/
def step (s : State) (a : Case × Outcome) : Option State :=
  let k := s.judged.length
  let (remote, copy) := sampleData k a.2 s.remote s.copy
  let log := copy.getD []
  some ⟨remote, copy, s.judged ++ [⟨k, a.1.stand, log, formatData round a.1 (log.map (·.text))⟩]⟩

/-- Before the first case, with what earlier runs left. -/
def initial (remote copy : Option (List Text)) : State :=
  ⟨remote.map (·.map fun t => ⟨t, none⟩), copy.map (·.map fun t => ⟨t, none⟩), []⟩

/-! ### What a verdict rests on -/

/-- The sample lines of a log. -/
def samples (log : List Line) : List Line := log.filter fun l => counts l.text

/-- The floor of the mean of column 1 is above 90% of `STAND`. -/
def HighMean (stand : ℕ) (ls : List Text) : Prop := (stand * 9 : ℤ) < ⌊awkMean 1 ls⌋ * 10

/-- The floor of the rounded mean is. -/
def HighRounded (stand : ℕ) (ls : List Text) : Prop :=
  (stand * 9 : ℤ) < ⌊roundedMean round 1 ls⌋ * 10

/-- A mean that is not high is rounded up over the bound. -/
def RoundedUp (stand : ℕ) (ls : List Text) : Prop := HighRounded round stand ls ∧ ¬ HighMean stand ls

/-- A high mean is rounded down to the bound. -/
def RoundedDown (stand : ℕ) (ls : List Text) : Prop := HighMean stand ls ∧ ¬ HighRounded round stand ls

namespace Judged

variable (j : Judged)

def Passes : Prop := "pass".toList <:+ j.row

/-- There is a sample of the case itself in the log, there is no other, and
their mean is high. -/
def Supported : Prop :=
  (∃ l ∈ samples j.log, l.owner = some j.k) ∧ (∀ l ∈ samples j.log, l.owner = some j.k) ∧
    HighMean j.stand ((samples j.log).map (·.text))

end Judged

/-- The sample lines a case's samplings took. -/
def Outcome.taken (o : Outcome) : List Text :=
  ((List.ofFn o.samples).flatMap fun r => sar (r.getD [])).filter counts

/-- The log was pulled, the case took samples, and no older ones were in it. -/
def Fresh (s : State) (o : Outcome) : Prop :=
  o.pull = true ∧ o.taken ≠ [] ∧ (o.reset = true ∨ samples (s.remote.getD []) = [])

/-- There is a log on the server to pull. -/
def Logged (s : State) (o : Outcome) : Prop :=
  o.reset = true ∨ s.remote.isSome = true ∨ ∃ i, (o.samples i).isSome = true

instance (s : State) (o : Outcome) : Decidable (Logged s o) := inferInstanceAs (Decidable (_ ∨ _))

/-- The sample lines, old and own, in the log that the case is judged on. -/
def seen (s : State) (o : Outcome) : List Text :=
  if o.pull = true ∧ Logged s o then
    (if o.reset then [] else (samples (s.remote.getD [])).map (·.text)) ++ o.taken
  else (samples (s.copy.getD [])).map (·.text)

/-- The samples are fresh; or there are some, and their mean is low or rounded
down to the bound. And a low mean is not rounded up. -/
def Judgeable (s : State) (a : Case × Outcome) : Prop :=
  (Fresh s a.2 ∨ (seen s a.2 ≠ [] ∧
    (¬ HighMean a.1.stand (seen s a.2) ∨ RoundedDown round a.1.stand (seen s a.2)))) ∧
  ¬ (seen s a.2 ≠ [] ∧ RoundedUp round a.1.stand (seen s a.2))

/-! ### The verdict of a row -/

theorem pass_suffix (p : Text) (fails : Prop) [Decidable fails] :
    "pass".toList <:+ p ++ (if fails then "fail".toList else "pass".toList) ↔ ¬ fails := by
  by_cases hf : fails
  · rw [if_pos hf]
    refine ⟨fun h => ?_, fun h => absurd hf h⟩
    have := List.suffix_of_suffix_length_le h (List.suffix_append p "fail".toList) (by decide)
    exact absurd this (by decide)
  · rw [if_neg hf]
    exact ⟨fun _ => hf, fun _ => List.suffix_append p "pass".toList⟩

variable {round}

theorem bc_intMean (stand : ℕ) (ls : List Text) :
    bc (intMean round 1 ls) stand ≠ ['0'] ↔ ls = [] ∨ HighRounded round stand ls := by
  unfold bc intMean
  by_cases hl : ls = []
  · rw [if_pos hl]
    exact ⟨fun _ => .inl hl, fun _ h => nomatch h⟩
  · rw [if_neg hl, readInt_intText]
    have hi : (awkInt (roundedMean round 1 ls) * 10 > stand * 9) ↔ HighRounded round stand ls :=
      lt_awkInt_mul (by norm_num) (by omega)
    by_cases hh : HighRounded round stand ls
    · simp only [hi.mpr hh, ↓reduceIte]
      exact ⟨fun _ => .inr hh, fun _ => by decide⟩
    · simp only [mt hi.mp hh, ↓reduceIte]
      exact ⟨fun h => absurd rfl h, fun h => absurd h (not_or.mpr ⟨hl, hh⟩)⟩

/-- A row ends in `pass` when the rounded mean is high, and when there is no
sample. -/
theorem passes_iff (c : Case) (log : List Text) : "pass".toList <:+ formatData round c log ↔
    log.filter counts = [] ∨ HighRounded round c.stand (log.filter counts) := by
  rw [← bc_intMean]
  exact pass_suffix _ _

/-! ### The logs after a case -/

theorem samplings_getD (k : ℕ) : ∀ (rs : List (Option (List Text))) (remote : Option (List Line)),
    (rs.foldl (sampling k) remote).getD [] =
      remote.getD [] ++ (rs.flatMap fun r => sar (r.getD [])).map fun t => ⟨t, some k⟩
  | [], _ => by simp
  | none :: rs, remote => by
    rw [List.foldl_cons, samplings_getD k rs]
    simp [sampling, sar, grep]
  | some ls :: rs, remote => by
    rw [List.foldl_cons, samplings_getD k rs]
    simp [sampling]

theorem samplings_isSome (k : ℕ) : ∀ (rs : List (Option (List Text))) (remote : Option (List Line)),
    (rs.foldl (sampling k) remote).isSome = (remote.isSome || rs.any Option.isSome)
  | [], _ => by simp
  | none :: rs, remote => by
    rw [List.foldl_cons, samplings_isSome k rs]
    simp [sampling]
  | some ls :: rs, remote => by
    rw [List.foldl_cons, samplings_isSome k rs]
    simp [sampling]

theorem samples_append (a b : List Line) : samples (a ++ b) = samples a ++ samples b :=
  List.filter_append a b

theorem samples_texts (log : List Line) :
    (samples log).map (·.text) = (log.map (·.text)).filter counts := by
  rw [samples, List.filter_map]
  rfl

theorem samples_own (k : ℕ) (ts : List Text) :
    samples (ts.map fun t => ⟨t, some k⟩) = (ts.filter counts).map fun t => ⟨t, some k⟩ := by
  rw [samples, List.filter_map]
  rfl

variable (k : ℕ) (s : State) (o : Outcome)

/-- The log a case is judged on. -/
def State.log : List Line := (sampleData k o s.remote s.copy).2.getD []

/-- The older samples in the log on the server when it is pulled. -/
def older : List Line := if o.reset then [] else samples (s.remote.getD [])

theorem log_of_pull (hp : o.pull = true) (hl : Logged s o) :
    samples (s.log k o) = older s o ++ o.taken.map fun t => ⟨t, some k⟩ := by
  have hr : samples ((reset k o.reset s.remote).getD []) = older s o := by
    unfold reset older
    split <;> rfl
  have hs : ((List.ofFn o.samples).foldl (sampling k) (reset k o.reset s.remote)).isSome = true := by
    rw [samplings_isSome, Bool.or_eq_true]
    rcases hl with hl | hl | ⟨i, hi⟩
    · exact .inl (by simp [reset, hl])
    · left
      unfold reset
      split
      · rfl
      · exact hl
    · exact .inr (List.any_eq_true.mpr ⟨_, (List.mem_ofFn' _ _).mpr ⟨i, rfl⟩, hi⟩)
  simp only [State.log, sampleData, pull, hp, hs, Bool.and_self, ↓reduceIte]
  rw [samplings_getD, samples_append, hr, samples_own]
  rfl

theorem log_of_not_pull (h : ¬ (o.pull = true ∧ Logged s o)) : s.log k o = s.copy.getD [] := by
  have hs : (o.pull && ((List.ofFn o.samples).foldl (sampling k)
      (reset k o.reset s.remote)).isSome) = false := by
    rw [samplings_isSome]
    by_contra hne
    simp only [Bool.not_eq_false, Bool.and_eq_true, Bool.or_eq_true] at hne
    refine h ⟨hne.1, ?_⟩
    rcases hne.2 with hr | hr
    · unfold reset at hr
      split at hr
      · rename_i ho
        exact .inl ho
      · exact .inr (.inl hr)
    · obtain ⟨r, hr, hi⟩ := List.any_eq_true.mp hr
      obtain ⟨i, rfl⟩ := (List.mem_ofFn' _ _).mp hr
      exact .inr (.inr ⟨i, hi⟩)
  simp only [State.log, sampleData, pull, hs, Bool.false_eq_true, ↓reduceIte]

theorem samples_log : (samples (s.log k o)).map (·.text) = seen s o := by
  unfold seen
  by_cases h : o.pull = true ∧ Logged s o
  · rw [if_pos h, log_of_pull k s o h.1 h.2, List.map_append, List.map_map, older]
    congr 1
    · split <;> rfl
    · exact List.map_id _
  · rw [if_neg h, log_of_not_pull k s o h]

theorem logged_of_taken (h : o.taken ≠ []) : Logged s o := by
  obtain ⟨t, ht⟩ := List.exists_mem_of_ne_nil _ h
  obtain ⟨r, hr, ht⟩ := List.mem_flatMap.mp (List.mem_filter.mp ht).1
  obtain ⟨i, rfl⟩ := (List.mem_ofFn' _ _).mp hr
  refine .inr (.inr ⟨i, ?_⟩)
  cases hi : o.samples i with
  | none =>
    rw [hi] at ht
    simp [sar, grep] at ht
  | some ls => rfl

variable {s o} in
theorem seen_of_fresh (h : Fresh s o) : seen s o ≠ [] := by
  rw [seen, if_pos ⟨h.1, logged_of_taken s o h.2.1⟩]
  exact List.append_ne_nil_of_right_ne_nil _ h.2.1

/-! ### The invariant -/

/-- No line is of a case from `k` on. -/
def Older (k : ℕ) (ls : List Line) : Prop := ∀ l ∈ ls, ∀ i, l.owner = some i → i < k

/-- What is in the logs was there before or is of the cases so far. -/
structure Inv (s : State) : Prop where
  remote : Older s.judged.length (s.remote.getD [])
  copy : Older s.judged.length (s.copy.getD [])

theorem Older.succ {k : ℕ} {ls : List Line} (h : Older k ls) : Older (k + 1) ls :=
  fun l hl i hi => Nat.lt_succ_of_lt (h l hl i hi)

theorem Older.own (k : ℕ) (ts : List Text) : Older (k + 1) (ts.map fun t => ⟨t, some k⟩) := by
  intro l hl i hi
  obtain ⟨t, -, rfl⟩ := List.mem_map.mp hl
  cases hi
  exact Nat.lt_succ_self k

theorem Older.append {k : ℕ} {a b : List Line} (ha : Older k a) (hb : Older k b) :
    Older k (a ++ b) := fun l hl => (List.mem_append.mp hl).elim (ha l) (hb l)

theorem inv_step {s s' : State} {a : Case × Outcome} (hs : Inv s) (h : step round s a = some s') :
    Inv s' := by
  cases h
  have hr : Older (s.judged.length + 1)
      ((sampleData s.judged.length a.2 s.remote s.copy).1.getD []) := by
    simp only [sampleData, samplings_getD]
    refine Older.append ?_ (Older.own _ _)
    unfold reset
    split
    · exact Older.own _ [[]]
    · exact hs.remote.succ
  refine ⟨?_, ?_⟩ <;> simp only [List.length_append, List.length_singleton]
  · exact hr
  · unfold sampleData pull at *
    split
    · exact hr
    · exact hs.copy.succ

theorem inv_initial (remote copy : Option (List Text)) : Inv (initial remote copy) := by
  have hn : ∀ f : Option (List Text), Older 0 ((f.map (·.map fun t => (⟨t, none⟩ : Line))).getD []) := by
    intro f l hl i hi
    cases f with
    | none => cases hl
    | some ts =>
      obtain ⟨t, -, rfl⟩ := List.mem_map.mp hl
      cases hi
  exact ⟨hn remote, hn copy⟩

/-! ### When a pass is supported -/

/-- All samples in the log are the case's own, and there is one, when they
are fresh. -/
theorem own_iff_fresh {s : State} (hs : Inv s) (o : Outcome) :
    (samples (s.log s.judged.length o) ≠ [] ∧
      ∀ l ∈ samples (s.log s.judged.length o), l.owner = some s.judged.length) ↔ Fresh s o := by
  have hold : ∀ {ls : List Line}, Older s.judged.length ls →
      (∀ l ∈ samples ls, l.owner = some s.judged.length) → samples ls = [] := by
    intro ls h hall
    refine List.eq_nil_iff_forall_not_mem.mpr fun l hl => ?_
    exact absurd (h l (List.mem_filter.mp hl).1 _ (hall l hl)) (lt_irrefl _)
  constructor
  · rintro ⟨hne, hall⟩
    by_cases h : o.pull = true ∧ Logged s o
    · rw [log_of_pull _ s o h.1 h.2] at hne hall
      have hnil : older s o = [] := by
        unfold older at hall ⊢
        split at hall
        · rename_i hr
          rw [if_pos hr]
        · rename_i hr
          rw [if_neg hr]
          exact hold hs.remote fun l hl => hall l (List.mem_append_left _ hl)
      rw [hnil, List.nil_append] at hne
      refine ⟨h.1, fun h0 => hne (by rw [h0]; rfl), ?_⟩
      unfold older at hnil
      split at hnil
      · rename_i hr
        exact .inl hr
      · exact .inr hnil
    · rw [log_of_not_pull _ s o h] at hne hall
      exact absurd (hold hs.copy hall) hne
  · rintro ⟨hp, ht, hr⟩
    have hnil : older s o = [] := by
      unfold older
      rcases hr with hr | hr
      · rw [if_pos hr]
      · rw [hr, ite_self]
    rw [log_of_pull _ s o hp (logged_of_taken s o ht), hnil, List.nil_append]
    refine ⟨by simpa using ht, fun l hl => ?_⟩
    obtain ⟨t, -, rfl⟩ := List.mem_map.mp hl
    rfl

/-- The row a case adds is supported if it passes, just when the case is
judgeable. -/
theorem row_supported_iff {s : State} (hs : Inv s) (a : Case × Outcome) (j : Judged)
    (hj : j = ⟨s.judged.length, a.1.stand, s.log s.judged.length a.2,
      formatData round a.1 ((s.log s.judged.length a.2).map (·.text))⟩) :
    (j.Passes → j.Supported) ↔ Judgeable round s a := by
  have hown := own_iff_fresh hs a.2
  have hseen := samples_log s.judged.length s a.2
  have hpass : j.Passes ↔ seen s a.2 = [] ∨ HighRounded round a.1.stand (seen s a.2) := by
    rw [hj, Judged.Passes]
    simp only
    rw [passes_iff, ← samples_texts, hseen]
  have hsup : j.Supported ↔ Fresh s a.2 ∧ HighMean a.1.stand (seen s a.2) := by
    rw [← hown, ← hseen, hj, Judged.Supported]
    constructor
    · rintro ⟨⟨l, hl, -⟩, hall, hm⟩
      exact ⟨⟨List.ne_nil_of_mem hl, hall⟩, hm⟩
    · rintro ⟨⟨hne, hall⟩, hm⟩
      obtain ⟨l, hl⟩ := List.exists_mem_of_ne_nil _ hne
      exact ⟨⟨l, hl, hall l hl⟩, hall, hm⟩
  have hne : Fresh s a.2 → seen s a.2 ≠ [] := seen_of_fresh
  rw [hpass, hsup, Judgeable, RoundedUp, RoundedDown]
  by_cases hnil : seen s a.2 = []
  · have hf : ¬ Fresh s a.2 := fun hf => hne hf hnil
    simp [hnil, hf]
  by_cases hr : HighRounded round a.1.stand (seen s a.2)
  · by_cases hm : HighMean a.1.stand (seen s a.2) <;> simp [hnil, hr, hm]
  · by_cases hm : HighMean a.1.stand (seen s a.2) <;> simp [hnil, hr, hm]

/-- Every row so far that passes is supported. -/
def State.Sound (s : State) : Prop := ∀ j ∈ s.judged, j.Passes → j.Supported

theorem sound_step {s s' : State} {a : Case × Outcome} (hs : Inv s) (h : step round s a = some s') :
    s'.Sound ↔ s.Sound ∧ Judgeable round s a := by
  cases h
  rw [← row_supported_iff hs a _ rfl]
  unfold State.Sound
  rw [List.forall_mem_append]
  simp only [List.mem_singleton, forall_eq]
  rfl

/-- Without rounding, a case is judgeable where its samples are fresh or where
there are some with a low mean. -/
theorem judgeable_id (s : State) (a : Case × Outcome) :
    Judgeable id s a ↔ Fresh s a.2 ∨ (seen s a.2 ≠ [] ∧ ¬ HighMean a.1.stand (seen s a.2)) := by
  have hsame : HighRounded id a.1.stand (seen s a.2) = HighMean a.1.stand (seen s a.2) := by
    rw [HighRounded, roundedMean_id]
    rfl
  rw [Judgeable, RoundedUp, RoundedDown, hsame, and_not_self_iff, and_false, not_false_iff, and_true, or_false]

/-- **What the verdicts rest on.** Whatever the logs held before, whatever
becomes of the remote commands and however awk rounds: every row that ends in
`pass` rests on its own case's samples and on no others, if and only if every
case of the run is judgeable. -/
theorem verdicts_supported_iff (round : ℚ → ℚ) (remote copy : Option (List Text))
    (as : List (Case × Outcome)) :
    ∃ s, run (step round) (initial remote copy) as = some s ∧
      (s.Sound ↔ Along (step round) (Judgeable round) (initial remote copy) as) := by
  have htotal : ∀ s a, (step round s a).isSome := fun _ _ => rfl
  obtain ⟨s, hs⟩ := run_total htotal as (initial remote copy)
  refine ⟨s, hs, ?_⟩
  rw [run_inv_iff (J := Inv) (fun _ _ _ => inv_step) (fun _ _ _ hs h => sound_step hs h) as _ s
    (inv_initial remote copy) hs]
  exact and_iff_right fun j hj => nomatch hj

/-- Every remote command of every case fails, and no log is there: the first
row ends in `pass`. -/
theorem nothing_sampled_passes : ¬ ∀ (round : ℚ → ℚ) (remote copy : Option (List Text))
    (as : List (Case × Outcome)) (s : State), run (step round) (initial remote copy) as = some s →
    s.Sound := by
  intro h
  have hs := h id none none (cases.map fun c => (c, ⟨false, fun _ => none, false⟩)) _ rfl
  have hp := hs _ List.mem_cons_self ((passes_iff _ _).mpr (.inl rfl))
  obtain ⟨l, hl, -⟩ := hp.1
  cases hl

end Netperf
end Longan
