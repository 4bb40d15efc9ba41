/-
# The two loops of `runall.sh`

`runall.sh` lists `testcases/stress_test` and then `testcases/general_test`:
the types, and in each the items, of which it runs those whose name ends in
`sh` or `py` after its first point. It unmounts the data disks, runs the item
with its output in a log below `log_<start>`, appends a verdict to
`summary.log`, and clears away what avocado left: the job's directory after a
`PASS`, parts of it and everything below `/tmp` and `/var/tmp` otherwise
(`reserveAndDel`).

The machine takes one step for each item, type and loop. What a run of an item
does, returns and prints is the input of its step, and so is what the
unmounting did to the tree. The shell works on its file tree: all texts are
expanded unquoted where the script does not quote them, and what was deleted
is gone.

The verdicts themselves are right when the avocado logs are `Clear`
(`verdicts_sound_iff`).
-/
import Longan.Lib.Runs
import Longan.Lib.Shell
import Longan.Runall.Verdict

namespace Longan
namespace Runall

open Text Shell

/-! ### The machine -/

inductive Kind
  | stress | general
  deriving DecidableEq, Repr

def Kind.name : Kind → Text
  | .stress => "stress_test".toList
  | .general => "general_test".toList

/-- Where the repository is, when the run started, how the shell expands a
word, and how `ls` sorts names. -/
structure Env where
  topDir : Path
  dayStart : ℕ
  glob : Shell → Text → List Text
  order : List Text → List Text
  order_perm : ∀ l, (order l).Perm l
  order_filter : ∀ (p : Text → Bool) (l), order (l.filter p) = (order l).filter p

/-- What a step meets: what `umount_vdb_vdc` does to the tree, what the item
does to it, what it prints and returns, what `avocado run` prints for its
arguments, and what `[[ -gt ]]` makes of a text. -/
structure Input where
  umount : Disk → Disk
  effect : Disk → Disk
  output : List Text
  exitStatus : ℤ
  avocado : List Text → List Text
  arithmetic : Arithmetic

/-- What became of an item; without its log file it is not run, and the shell
has status 1. -/
inductive Outcome
  | status (exitStatus : ℤ)
  | log (lines : Option (List Text)) (a : Arithmetic)

/-- A verdict, and the file that `>> $summary_log` opened for its line. -/
structure Entry where
  kind : Kind
  type : Text
  item : Text
  outcome : Outcome
  verdict : Verdict
  file : Option Path

/-- `PASS: stress_test/$type/$item`. -/
def Entry.line (e : Entry) : Text :=
  e.verdict.text ++ ':' :: ' ' :: (e.kind.name ++ '/' :: (e.type ++ '/' :: e.item))

/-- The line as it is written, if it is. -/
def Entry.write (e : Entry) : Option (Path × Text) := e.file.map fun p => (p, e.line)

def Entry.key (e : Entry) : Kind × Text × Text := (e.kind, e.type, e.item)

inductive Phase
  | setup | list (k : Kind) | loop (k : Kind) | done
  deriving DecidableEq, Repr

/-- The shell; where the script is, with the types and the items still to
come; the verdicts so far and the log directories made. -/
structure State where
  sh : Shell
  phase : Phase
  types : List Text
  type : Text
  items : List Text
  trace : List Entry
  made : List Path

namespace Env

variable (env : Env)

def logName : Text := "log_".toList ++ decimal env.dayStart

def logDir : Path := env.topDir ++ [env.logName]

def summaryLog : Path := env.topDir ++ [env.logName, "summary.log".toList]

def testcases : Path := env.topDir ++ ["testcases".toList]

def testDir (k : Kind) : Path := env.topDir ++ ["testcases".toList, k.name]

/-- `$stress_test_dir` or `$function_test_dir`, and below. -/
def testText (k : Kind) (ns : List Text) : Text := text env.topDir ("testcases".toList :: k.name :: ns)

/-- `$log_dir` and below. -/
def logText (ns : List Text) : Text := text env.topDir (env.logName :: ns)

end Env

/-- `[[ ${item#*.} != "py" && ${item#*.} != "sh" ]]` is false. -/
def runs (item : Text) : Bool :=
  afterFirst '.' item = "py".toList ∨ afterFirst '.' item = "sh".toList

variable (env : Env)

/-! ### The clean-up -/

def jobNames : List Text := ["avocado.core.DEBUG".toList, "id".toList, "jobdata".toList,
  "sysinfo".toList, "results.xml".toList]

def resultNames : List Text := ["data".toList, "output".toList, "remote.log".toList, "stderr".toList,
  "stdout".toList, "sysinfo".toList, "whiteboard".toList]

def tmp : Path := ["tmp".toList]

def varTmp : Path := ["var".toList, "tmp".toList]

/-- `$(cd "$(dirname "$1")"; pwd)`. -/
def avocadoLogDir (sh : Shell) (w : Text) : Path :=
  if sh.disk.isDir (resolve sh.cwd (dirname w)) then resolve sh.cwd (dirname w) else sh.cwd

/-- `reserve_and_del $job_log`. -/
def reserveAndDel (sh : Shell) (jobLog : Text) : Shell :=
  match sh.words env.glob jobLog with
  | [] => sh
  | w :: _ =>
    let d := avocadoLogDir sh w
    let sh := sh.rmIn env.glob (text d []) jobNames
    let testResults := sh.lsWords env.glob env.order (text d ["test-results".toList])
    let sh := testResults.foldl
      (fun sh r => sh.rmIn env.glob (text d ["test-results".toList, r]) resultNames) sh
    let sh := sh.cp env.glob (text d []) (env.logText [])
    let sh := sh.cdBack
    { sh with disk := (sh.disk.rmBelow varTmp).rmBelow tmp }

/-- The words of `` `dirname $job_log` ``. -/
def avocadoLogDirs (sh : Shell) (jobLog : Text) : List Text :=
  sh.words env.glob (commandSubst ((sh.words env.glob jobLog).map dirname))

/-- `rm -rf $avocado_log_dir`. -/
def removeJob (sh : Shell) (jobLog : Text) : Shell :=
  { sh with disk := (sh.removed (avocadoLogDirs env sh jobLog)).foldl Disk.rm sh.disk }

/-! ### An item -/

/-- The arguments of `avocado`. -/
def avocadoArgs (sh : Shell) (type item : Text) : List Text :=
  let yaml := env.testText .general [type, item ++ ".data".toList, beforeFirst '.' item ++ ".yaml".toList]
  let multiplex := match sh.operands env.glob yaml with
    | [p] => sh.disk.isFile p
    | _ => false
  ["run".toList] ++ (if multiplex then "-m".toList :: sh.words env.glob yaml else []) ++
    ["--test-runner=runner".toList, "--".toList] ++ sh.words env.glob (env.testText .general [type, item])

/-- The file of `>> $summary_log`. -/
def summaryFile (sh : Shell) : Option Path := sh.redirect env.glob (env.logText ["summary.log".toList])

/-- `echo "$verdict: ..." >> $summary_log`. -/
def echoVerdict (sh : Shell) (e : Entry) : Shell :=
  sh.echo env.glob e.line (env.logText ["summary.log".toList])

/-- The item's run with its output in the log file; `none` when that cannot be
opened. -/
def runItem (sh : Shell) (k : Kind) (type item : Text) (output : List Text) (effect : Disk → Disk) :
    Option Shell :=
  (sh.redirect env.glob (env.logText [k.name, type, item ++ ".log".toList])).map fun p =>
    { sh with disk := effect (sh.disk.set p (.file output)) }

/-- The body of the stress test loop, for an item that is not skipped. -/
def stressItem (sh : Shell) (type item : Text) (i : Input) : Shell × Entry :=
  let sh := { sh with disk := i.umount sh.disk }
  let ran := runItem env sh .stress type item i.output i.effect
  let status := if ran.isSome then i.exitStatus else 1
  let e : Entry := ⟨.stress, type, item, .status status, if status ≠ 0 then .fail else .pass,
    summaryFile env (ran.getD sh)⟩
  (echoVerdict env (ran.getD sh) e, e)

/-- `avocado run` on the item, and its log if there is one. -/
def avocadoRun (sh : Shell) (type item : Text) (i : Input) : Shell × Option (List Text) :=
  let sh := { sh with disk := i.umount sh.disk }
  let log := i.avocado (avocadoArgs env sh type item)
  match runItem env sh .general type item log i.effect with
  | some sh => (sh, some log)
  | none => (sh, none)

/-- The verdict is written and the job cleared away, in the order that the
verdict asks for. -/
def conclude (sh : Shell) (e : Entry) (jobLog : Text) : Shell :=
  match e.verdict with
  | .skip => echoVerdict env (reserveAndDel env sh jobLog) e
  | .error | .fail => reserveAndDel env (echoVerdict env sh e) jobLog
  | .pass => removeJob env (echoVerdict env sh e) jobLog

/-- The shell when the verdict is written. -/
def beforeEcho (sh : Shell) (v : Verdict) (jobLog : Text) : Shell :=
  match v with
  | .skip => reserveAndDel env sh jobLog
  | _ => sh

/-- The lines of a log, none without one. -/
def logLines (log : Option (List Text)) : List Text := log.getD []

/-- The body of the avocado test loop, for an item that is not skipped. -/
def avocadoItem (sh : Shell) (type item : Text) (i : Input) : Shell × Entry :=
  let r := avocadoRun env sh type item i
  let v := judge i.arithmetic (logLines r.2)
  let e : Entry := ⟨.general, type, item, .log r.2 i.arithmetic, v,
    summaryFile env (beforeEcho env r.1 v (jobLog (logLines r.2)))⟩
  (conclude env r.1 e (jobLog (logLines r.2)), e)

def item (k : Kind) (sh : Shell) (type item : Text) (i : Input) : Shell × Entry :=
  match k with
  | .stress => stressItem env sh type item i
  | .general => avocadoItem env sh type item i

/-! ### The step -/

/-- `mkdir -p $log_dir/$kind/$type`. -/
def makeLogDir (sh : Shell) (k : Kind) (type : Text) : Shell :=
  sh.mkdirP env.glob (env.logText [k.name, type])

/-- `continue` for the type `net` of the stress tests. -/
def ignored (k : Kind) (type : Text) : Bool := k = .stress ∧ type = "net".toList

/-- The state after an item that is not skipped. -/
def State.afterItem (s : State) (k : Kind) (x : Text) (xs : List Text) (i : Input) : State :=
  { s with
    sh := (item env k s.sh s.type x i).1, items := xs, trace := s.trace ++ [(item env k s.sh s.type x i).2] }

/-- The state after a type that is not ignored has been entered. -/
def State.afterType (s : State) (k : Kind) (t : Text) (ts : List Text) : State :=
  let sh := makeLogDir env s.sh k t
  let p := env.logDir ++ [k.name, t]
  { s with
    sh := sh, type := t, types := ts,
    items := sh.lsWords env.glob env.order (env.testText k [t]),
    made := if sh.disk.isDir p then s.made ++ [p] else s.made }

/-- One step. -/
def step (s : State) (i : Input) : Option State :=
  match s.phase with
  | .setup => some { s with sh := s.sh.mkdirP env.glob (env.logText []), phase := .list .stress }
  | .list k => some { s with
      phase := .loop k, types := s.sh.lsWords env.glob env.order (env.testText k []), items := [] }
  | .loop k =>
    match s.items with
    | x :: items =>
      if runs x then some (s.afterItem env k x items i) else some { s with items := items }
    | [] =>
      match s.types with
      | t :: types =>
        if ignored k t then some { s with types := types } else some (s.afterType env k t types)
      | [] => some { s with phase := match k with | .stress => .list .general | .general => .done }
  | .done => some s

/-- Before the loops. -/
def initial (sh : Shell) : State := ⟨sh, .setup, [], [], [], [], []⟩

theorem step_total (s : State) (i : Input) : (step env s i).isSome := by
  unfold step
  split
  · rfl
  · rfl
  · split
    · split_ifs <;> rfl
    · split
      · split_ifs <;> rfl
      · rfl
  · rfl

/-- A loop's end. -/
def Kind.next : Kind → Phase
  | .stress => .list .general
  | .general => .done

/-- What a step can be: the set-up, the list of the types, an item that is
run or skipped, a type that is ignored or entered, the end of a loop, and
nothing. -/
theorem step_cases {s s' : State} {i : Input} (h : step env s i = some s') :
    (s.phase = .setup ∧
      s' = { s with sh := s.sh.mkdirP env.glob (env.logText []), phase := .list .stress }) ∨
    (∃ k, s.phase = .list k ∧ s' = { s with
      phase := .loop k, types := s.sh.lsWords env.glob env.order (env.testText k []), items := [] }) ∨
    (∃ k x xs, s.phase = .loop k ∧ s.items = x :: xs ∧ runs x = true ∧ s' = s.afterItem env k x xs i) ∨
    (∃ k x xs, s.phase = .loop k ∧ s.items = x :: xs ∧ runs x = false ∧ s' = { s with items := xs }) ∨
    (∃ k t ts, s.phase = .loop k ∧ s.items = [] ∧ s.types = t :: ts ∧ ignored k t = true ∧
      s' = { s with types := ts }) ∨
    (∃ k t ts, s.phase = .loop k ∧ s.items = [] ∧ s.types = t :: ts ∧ ignored k t = false ∧
      s' = s.afterType env k t ts) ∨
    (∃ k, s.phase = .loop k ∧ s.items = [] ∧ s.types = [] ∧ s' = { s with phase := k.next }) ∨
    (s.phase = .done ∧ s' = s) := by
  unfold step at h
  split at h
  · rename_i hp
    exact .inl ⟨hp, (Option.some.inj h).symm⟩
  · rename_i k hp
    exact .inr (.inl ⟨k, hp, (Option.some.inj h).symm⟩)
  · rename_i k hp
    split at h
    · rename_i x xs hx
      split_ifs at h with hr
      · exact .inr (.inr (.inl ⟨k, x, xs, hp, hx, hr, (Option.some.inj h).symm⟩))
      · exact .inr (.inr (.inr (.inl ⟨k, x, xs, hp, hx, by simpa using hr, (Option.some.inj h).symm⟩)))
    · rename_i hx
      split at h
      · rename_i t ts ht
        split_ifs at h with hg
        · exact .inr (.inr (.inr (.inr (.inl ⟨k, t, ts, hp, hx, ht, hg, (Option.some.inj h).symm⟩))))
        · exact .inr (.inr (.inr (.inr (.inr (.inl
            ⟨k, t, ts, hp, hx, ht, by simpa using hg, (Option.some.inj h).symm⟩)))))
      · rename_i ht
        refine .inr (.inr (.inr (.inr (.inr (.inr (.inl ⟨k, hp, hx, ht, ?_⟩))))))
        rw [← Option.some.inj h]
        cases k <;> rfl
  · rename_i hp
    exact .inr (.inr (.inr (.inr (.inr (.inr (.inr ⟨hp, (Option.some.inj h).symm⟩))))))

/-! ### The verdicts -/

/-- The verdict says what the item's own outcome was. -/
def Entry.Sound (e : Entry) : Prop :=
  match e.outcome with
  | .status z => e.verdict = .pass → z = 0
  | .log (some ls) _ => ∀ l : RunLog, l.lines = ls → SoundOn l e.verdict
  | .log none _ => e.verdict ≠ .pass

/-- The verdict is the one the script makes of the outcome. -/
def Entry.Judged (e : Entry) : Prop :=
  match e.outcome with
  | .status z => e.verdict = if z ≠ 0 then .fail else .pass
  | .log ls a => e.verdict = judge a (logLines ls)

/-- The item's log, if there is one, is clear. -/
def Entry.Clear (e : Entry) : Prop :=
  match e.outcome with
  | .log (some ls) a => ∀ l : RunLog, l.lines = ls → Runall.Clear a l
  | _ => True

theorem sound_iff_clear {e : Entry} (h : e.Judged) : e.Sound ↔ e.Clear := by
  unfold Entry.Judged at h
  unfold Entry.Sound Entry.Clear
  split at h
  · rename_i z hz
    rw [hz, h]
    simp
  · rename_i ls a hl
    rw [hl, h]
    cases ls with
    | none =>
      rw [logLines, Option.getD_none, judge_nil]
      exact ⟨fun _ => trivial, fun _ h => (nomatch h)⟩
    | some ls =>
      refine forall₂_congr fun l hll => ?_
      rw [← hll]
      exact judge_sound_iff a l

theorem judged_item (k : Kind) (sh : Shell) (type x : Text) (i : Input) :
    (item env k sh type x i).2.Judged := by
  cases k with
  | stress => rfl
  | general =>
    unfold item avocadoItem Entry.Judged
    dsimp only

/-! ### The lines that are written -/

theorem echoVerdict_appended {sh : Shell} {e : Entry} (h : e.file = summaryFile env sh) :
    (echoVerdict env sh e).appended = sh.appended ++ e.write.toList := by
  rw [Entry.write, h]
  exact Shell.echo_appended _ _

theorem reserveAndDel_appended (sh : Shell) (jobLog : Text) :
    (reserveAndDel env sh jobLog).appended = sh.appended := by
  have hfold : ∀ (tx : Text → Text) (rs ns : List Text) (sh : Shell),
      (rs.foldl (fun sh r => sh.rmIn env.glob (tx r) ns) sh).appended = sh.appended := by
    intro tx rs ns
    induction rs with
    | nil => exact fun sh => rfl
    | cons r rs ih => exact fun sh => (ih _).trans (rmIn_appended _ _)
  unfold reserveAndDel
  split
  · rfl
  · simp only [cdBack_appended, cp_appended, hfold, rmIn_appended]

theorem runItem_appended {k : Kind} {sh sh' : Shell} {type x : Text} {out : List Text}
    {f : Disk → Disk} (h : runItem env sh k type x out f = some sh') : sh'.appended = sh.appended := by
  obtain ⟨p, -, rfl⟩ := Option.map_eq_some_iff.mp h
  rfl

theorem conclude_appended {sh : Shell} {e : Entry} {jobLog : Text}
    (h : e.file = summaryFile env (beforeEcho env sh e.verdict jobLog)) :
    (conclude env sh e jobLog).appended = sh.appended ++ e.write.toList := by
  unfold conclude
  cases hv : e.verdict with
  | pass =>
    rw [hv] at h
    show (echoVerdict env sh e).appended = _
    exact echoVerdict_appended env h
  | skip =>
    rw [hv] at h
    exact (echoVerdict_appended env h).trans (congrArg (· ++ _) (reserveAndDel_appended env sh jobLog))
  | error | fail =>
    rw [hv] at h
    exact (reserveAndDel_appended env _ _).trans (echoVerdict_appended env h)

/-- An item has its own line written, if any. -/
theorem item_appended (k : Kind) (sh : Shell) (type x : Text) (i : Input) :
    (item env k sh type x i).1.appended =
      sh.appended ++ (item env k sh type x i).2.write.toList := by
  cases k with
  | stress =>
    have hran : ((runItem env { sh with disk := i.umount sh.disk } .stress type x i.output i.effect).getD
        { sh with disk := i.umount sh.disk }).appended = sh.appended := by
      cases hr : runItem env { sh with disk := i.umount sh.disk } .stress type x i.output i.effect with
      | none => rfl
      | some sh' =>
        have happ := runItem_appended env hr
        exact happ
    exact (echoVerdict_appended env rfl).trans (congrArg (· ++ _) hran)
  | general =>
    have hran : (avocadoRun env sh type x i).1.appended = sh.appended := by
      unfold avocadoRun
      dsimp only
      split
      · rename_i sh' hr
        have happ := runItem_appended env hr
        exact happ
      · rfl
    exact (conclude_appended env rfl).trans (congrArg (· ++ _) hran)

/-- A step adds the verdicts that its lines are written for: one, or none. -/
theorem step_verdicts {s s' : State} {i : Input} (h : step env s i = some s') :
    ∃ es : List Entry, s'.trace = s.trace ++ es ∧ (∀ e ∈ es, e.Judged) ∧
      s'.sh.appended = s.sh.appended ++ es.filterMap Entry.write := by
  have hnone : s'.trace = s.trace → s'.sh.appended = s.sh.appended → _ := fun ht ha =>
    (⟨[], ht.trans (List.append_nil _).symm, fun _ he => (nomatch he),
      ha.trans (List.append_nil _).symm⟩ : ∃ es : List Entry, s'.trace = s.trace ++ es ∧
        (∀ e ∈ es, e.Judged) ∧ s'.sh.appended = s.sh.appended ++ es.filterMap Entry.write)
  rcases step_cases env h with ⟨-, rfl⟩ | ⟨k, -, rfl⟩ | ⟨k, x, xs, -, -, -, rfl⟩ | ⟨k, x, xs, -, -, -, rfl⟩ |
    ⟨k, t, ts, -, -, -, -, rfl⟩ | ⟨k, t, ts, -, -, -, -, rfl⟩ | ⟨k, -, -, -, rfl⟩ | ⟨-, rfl⟩
  · exact hnone rfl rfl
  · exact hnone rfl rfl
  · refine ⟨[(item env k s.sh s.type x i).2], rfl, fun e he => ?_, ?_⟩
    · rw [List.mem_singleton.mp he]
      exact judged_item env k s.sh s.type x i
    · refine (item_appended env k s.sh s.type x i).trans (congrArg (_ ++ ·) ?_)
      rw [List.filterMap_cons]
      cases (item env k s.sh s.type x i).2.write <;> rfl
  · exact hnone rfl rfl
  · exact hnone rfl rfl
  · exact hnone rfl rfl
  · exact hnone rfl rfl
  · exact hnone rfl rfl

/-- A repository at `top` with the items given. -/
def repository (top : Path) (items : List (Kind × Text × Text)) : Disk :=
  items.foldl (fun d (k, type, x) =>
    let dir := top ++ ["testcases".toList, k.name, type]
    (d.mkdirP dir).set (dir ++ [x]) (.file [])) []

/-- Every word is read as it is, and the names stand in their order. -/
def plainEnv (top : Path) : Env :=
  ⟨top, 0, fun _ w => [w], id, fun l => .refl l, fun _ _ => rfl⟩

/-- Nothing on the disk changes. -/
def quiet (l : RunLog) : Input := ⟨id, id, [], 0, fun _ => l.lines, numbers⟩

/-- The job's one test was cancelled. -/
def cancelledLog : RunLog where
  lines := ["JOB LOG    : /root/avocado/job-results/job-1/job.log".toList,
    (Counts.mk 0 0 0 0 0 0 1).line]
  results := some ⟨0, 0, 0, 0, 0, 0, 1⟩
  shape := by decide +kernel

/-- The lines of the item's log. -/
def Entry.logged (e : Entry) : Option (List Text) :=
  match e.outcome with
  | .log ls _ => ls
  | .status _ => none

theorem passed_of_sound {e : Entry} {l : RunLog} (h : e.Sound) (hv : e.verdict = .pass)
    (hl : e.logged = some l.lines) : ∃ c, l.results = some c ∧ c.Passed := by
  unfold Entry.Sound at h
  unfold Entry.logged at hl
  split at hl
  · rename_i ls a ho
    rw [ho, hl] at h
    exact (h l rfl).1 hv
  · cases hl

end Runall
end Longan
