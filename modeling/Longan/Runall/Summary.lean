/-
# Whether `summary.log` is complete

When the loops are over, `summary.log` should hold one verdict for each entry
of a type directory whose name ends in `.sh` or `.py`, in the order of the
loops (`due`), and the items and log directories should still be there.

They are when the tree is tidy and every item's run clean
(`summary_complete`). In a tidy tree (`Tidy`) the directory of the run is new,
paths are read as they are, and for each entry of a type directory the loop
runs just that entry if it is an item, and nothing otherwise. A clean run
(`CleanItem`) leaves the tree alone, and so do the unmounting before it and
the clean-up after it: what that deletes lies apart from the test cases and
the logs. Where the repository is breaks that: below `/tmp` the first `FAIL`
deletes it (`repository_below_tmp`).
-/
import Longan.Runall.Cleanup

namespace Longan
namespace Runall

open Text Shell Disk

variable (env : Env)

/-! ### What is due -/

/-- The name ends in `.sh` or `.py`. -/
def isItem (name : Text) : Bool := ".sh".toList <:+ name ∨ ".py".toList <:+ name

/-- The items that are due in a type directory. -/
def dueIn (k : Kind) (d : Disk) (type : Text) : List (Kind × Text × Text) :=
  if ignored k type then []
  else ((env.order (d.children (env.testDir k ++ [type]))).filter isItem).map fun x => (k, type, x)

def dueOf (k : Kind) (d : Disk) : List (Kind × Text × Text) :=
  (env.order (d.children (env.testDir k))).flatMap (dueIn env k d)

/-- All items that are due, in the order of the loops. -/
def due (d : Disk) : List (Kind × Text × Text) := dueOf env .stress d ++ dueOf env .general d

/-- The summary is complete, and the test cases and the log directories are
still there. -/
structure Complete (d : Disk) (s : State) : Prop where
  lines : s.sh.disk.lines env.summaryLog = s.trace.map Entry.line
  keys : s.trace.map Entry.key = due env d
  cases : Same (cases env) d s.sh.disk
  made : ∀ m ∈ s.made, s.sh.disk.isDir m = true

/-! ### Tidy trees -/

/-- The loop runs the entry itself if it is an item, and nothing for it
otherwise; `ls` does not list a hidden one. -/
def TidyName (n : Text) : Prop :=
  if n.head? = some '.' then isItem n = false
  else ∀ sh : Shell, (sh.words env.glob n).filter runs = if isItem n then [n] else []

/-- A type that the loop enters: a directory of tidy names, or a file for
which the loop runs nothing. -/
structure TidyType (k : Kind) (d : Disk) (t : Text) : Prop where
  log : Reads env.glob env.topDir [env.logName, k.name, t]
  reads : Reads env.glob env.topDir ["testcases".toList, k.name, t]
  entries :
    (d.isDir (env.testDir k ++ [t]) = true ∧
      ∀ n ∈ d.children (env.testDir k ++ [t]), TidyName env n) ∨
    (d.isFile (env.testDir k ++ [t]) = true ∧ dueIn env k d t = [] ∧ ∀ sh : Shell,
      ((sh.words env.glob (env.testText k [t])).flatMap (sh.words env.glob)).filter runs = [])

/-- The tree at the start of a run. -/
structure Tidy (d : Disk) : Prop extends Settled env where
  noFile : ∀ q, q <+: env.logDir → d.isFile q = false
  fresh : d.lookup env.summaryLog = none
  reads : ∀ k : Kind, Reads env.glob env.topDir ["testcases".toList, k.name]
  isDir : ∀ k, d.isDir (env.testDir k) = true
  hidden : ∀ k, ∀ t ∈ d.children (env.testDir k), t.head? = some '.' → dueIn env k d t = []
  listed : ∀ k, ∀ t ∈ d.children (env.testDir k), t.head? ≠ some '.' →
    ∀ sh : Shell, sh.words env.glob t = [t]
  types : ∀ k, ∀ t ∈ d.children (env.testDir k), t.head? ≠ some '.' → ignored k t = false →
    TidyType env k d t
  logs : ∀ e ∈ due env d,
    Reads env.glob env.topDir [env.logName, e.1.name, e.2.1, e.2.2 ++ ".log".toList]

/-- The step is no item's run, or a clean one. -/
def Clean (s : State) (i : Input) : Prop :=
  ∀ k x xs, s.phase = .loop k → s.items = x :: xs → runs x = true → CleanItem env k s.sh s.type x i

/-! ### The items to come -/

/-- The loop after this one. -/
def laterDue (k : Kind) (d : Disk) : List (Kind × Text × Text) :=
  match k with
  | .stress => dueOf env .general d
  | .general => []

/-- The items that are due and have no verdict yet. -/
def pending (d : Disk) (s : State) : List (Kind × Text × Text) :=
  match s.phase with
  | .setup => due env d
  | .list k => dueOf env k d ++ laterDue env k d
  | .loop k => (s.items.filter runs).map (fun x => (k, s.type, x)) ++
      (s.types.flatMap (dueIn env k d) ++ laterDue env k d)
  | .done => []

theorem cases_testDir (k : Kind) (ns : List Text) : cases env (env.testDir k ++ ns) = true := by
  rw [cases, decide_eq_true_eq, Env.testDir, List.append_assoc]
  exact (List.prefix_append_right_inj _).mpr (List.cons_prefix_cons.mpr ⟨rfl, List.nil_prefix⟩)

variable {env} {d d' : Disk}

theorem flatMap_filter {α β : Type*} (p : α → Bool) (f : α → List β) : ∀ l : List α,
    (l.filter p).flatMap f = l.flatMap fun a => if p a then f a else []
  | [] => rfl
  | a :: l => by
    have ih := flatMap_filter p f l
    by_cases h : p a = true
    · rw [List.filter_cons_of_pos h, List.flatMap_cons, List.flatMap_cons, if_pos h, ih]
    · rw [List.filter_cons_of_neg h, List.flatMap_cons, if_neg h, ih]
      rfl

/-- What `ls` lists of a directory of the test cases. -/
theorem names_eq {sh : Shell} (h : Same (cases env) d sh.disk) (k : Kind) (ns : List Text) :
    sh.names env.order (env.testDir k ++ ns) =
      (env.order (d.children (env.testDir k ++ ns))).filter fun n => n.head? ≠ some '.' := by
  have hc : sh.disk.children (env.testDir k ++ ns) = d.children (env.testDir k ++ ns) :=
    h.children fun c => by
      rw [List.append_assoc]
      exact cases_testDir env k _
  rw [Shell.names, hc, env.order_filter]

theorem lsWords_types (ht : Tidy env d) {sh : Shell} (h : Same (cases env) d sh.disk) (k : Kind) :
    sh.lsWords env.glob env.order (env.testText k []) =
      (env.order (d.children (env.testDir k))).filter fun n => n.head? ≠ some '.' := by
  have hdir : sh.disk.isDir (env.testDir k) = true := by
    have hc := cases_testDir env k []
    rw [List.append_nil] at hc
    rw [h.isDir hc, ht.isDir k]
  have hnames := names_eq h k []
  rw [List.append_nil] at hnames
  apply (lsWords_dir (ht.reads k) hdir env.order).trans
  show (sh.names env.order (env.testDir k)).flatMap _ = _
  rw [hnames]
  refine (List.flatMap_congr fun t hm => ?_).trans (List.flatMap_singleton' _)
  obtain ⟨hm, hv⟩ := List.mem_filter.mp hm
  exact ht.listed k t ((env.order_perm _).mem_iff.mp hm) (of_decide_eq_true hv) sh

/-- The types that the loop goes through hold all the due items. -/
theorem types_due (ht : Tidy env d) {sh : Shell} (h : Same (cases env) d sh.disk) (k : Kind) :
    (sh.lsWords env.glob env.order (env.testText k [])).flatMap (dueIn env k d) = dueOf env k d := by
  rw [lsWords_types ht h, flatMap_filter, dueOf]
  refine List.flatMap_congr fun t hm => ?_
  by_cases hv : t.head? = some '.'
  · rw [if_neg (by simp [hv]), ht.hidden k t ((env.order_perm _).mem_iff.mp hm) hv]
  · rw [if_pos (by simp [hv])]

theorem types_tidy (ht : Tidy env d) {sh : Shell} (h : Same (cases env) d sh.disk) {k : Kind} {t : Text}
    (hm : t ∈ sh.lsWords env.glob env.order (env.testText k [])) (hg : ignored k t = false) :
    TidyType env k d t := by
  rw [lsWords_types ht h] at hm
  obtain ⟨hm, hv⟩ := List.mem_filter.mp hm
  exact ht.types k t ((env.order_perm _).mem_iff.mp hm) (of_decide_eq_true hv) hg

/-- The items that the loop runs in a type are the due ones. -/
theorem items_due {k : Kind} {t : Text} (ht : TidyType env k d t) (hg : ignored k t = false)
    {sh : Shell} (h : Same (cases env) d sh.disk) :
    ((sh.lsWords env.glob env.order (env.testText k [t])).filter runs).map (fun x => (k, t, x)) =
      dueIn env k d t := by
  have hcases := cases_testDir env k [t]
  have hpath : env.topDir ++ ["testcases".toList, k.name, t] = env.testDir k ++ [t] := by
    rw [Env.testDir, List.append_assoc]
    rfl
  rcases ht.entries with ⟨hdir, hnames⟩ | ⟨hfile, hdue, hnone⟩
  · have hls : sh.lsWords env.glob env.order (env.testText k [t]) =
        (sh.names env.order (env.testDir k ++ [t])).flatMap (sh.words env.glob) := by
      rw [← hpath]
      exact lsWords_dir ht.reads (by rw [hpath, h.isDir hcases, hdir]) env.order
    have hitems : (sh.lsWords env.glob env.order (env.testText k [t])).filter runs =
        (env.order (d.children (env.testDir k ++ [t]))).filter isItem := by
      rw [hls, names_eq h k [t], List.filter_flatMap, flatMap_filter,
        ← List.flatMap_singleton' (List.filter isItem _), flatMap_filter]
      refine List.flatMap_congr fun n hm => ?_
      have hn := hnames n ((env.order_perm _).mem_iff.mp hm)
      unfold TidyName at hn
      by_cases hv : n.head? = some '.'
      · rw [if_pos hv] at hn
        simp [hv, hn]
      · rw [if_neg hv] at hn
        rw [if_pos (by simp [hv]), hn sh]
    rw [hitems, dueIn, hg]
    rfl
  · have hf : sh.disk.isFile (env.topDir ++ ["testcases".toList, k.name, t]) = true := by
      rw [hpath, Disk.isFile, h.lookup hcases]
      exact hfile
    have hitems : (sh.lsWords env.glob env.order (env.testText k [t])).filter runs = [] :=
      (congrArg (List.filter runs) (lsWords_file ht.reads hf env.order)).trans (hnone sh)
    rw [hitems, hdue]
    rfl

/-! ### The invariant -/

/-- The state of a run whose test cases were those of `d`. -/
structure Inv (env : Env) (d : Disk) (s : State) : Prop where
  kept : Kept env d (s.trace.map Entry.line) s.made s.sh.disk
  keys : s.trace.map Entry.key ++ pending env d s = due env d
  types : ∀ k, s.phase = .loop k → ∀ t ∈ s.types, ignored k t = false → TidyType env k d t

theorem inv_setup {sh : Shell} (ht : Tidy env sh.disk) : Inv env sh.disk
    { initial sh with sh := sh.mkdirP env.glob (env.logText []), phase := .list .stress } := by
  have hmk : sh.mkdirP env.glob (env.logText []) = { sh with disk := sh.disk.mkdirP env.logDir } :=
    mkdirP_of_reads ht.logDir
  have hadds : Adds (cases env) env.summaryLog sh.disk (sh.disk.mkdirP env.logDir) := by
    refine adds_mkdirP (fun q hq => not_cases_log env [] hq) ?_
    rw [summaryLog_eq]
    intro hp
    have := hp.length_le
    simp at this
  have hlookup : (sh.disk.mkdirP env.logDir).lookup env.summaryLog = none :=
    hadds.file.trans ht.fresh
  refine ⟨?_, rfl, fun k hk => (nomatch hk)⟩
  show Kept env sh.disk [] [] (sh.mkdirP env.glob (env.logText [])).disk
  rw [hmk]
  refine ⟨hadds.same, isDir_mkdirP ht.noFile, ?_, ?_, fun m hm => nomatch hm⟩
  · rw [Disk.isDir, hlookup]
    rfl
  · rw [Disk.lines, hlookup]

/-- The list of the types has those with due items in it, in order. -/
theorem inv_list (ht : Tidy env d) {s : State} {k : Kind} (hp : s.phase = .list k) (hi : Inv env d s) :
    Inv env d { s with
      phase := .loop k, types := s.sh.lsWords env.glob env.order (env.testText k []), items := [] } := by
  refine ⟨hi.kept, ?_, fun k' hk t hm hg => ?_⟩
  · have hkeys := hi.keys
    simp only [pending, hp] at hkeys
    rw [← hkeys, ← types_due ht hi.kept.cases k]
    simp only [pending, List.filter_nil, List.map_nil, List.nil_append]
  · cases hk
    dsimp only at hm
    exact types_tidy ht hi.kept.cases hm hg

theorem item_key (k : Kind) (sh : Shell) (type x : Text) (i : Input) :
    (item env k sh type x i).2.key = (k, type, x) := by
  cases k <;> rfl

/-- The invariant after an item, for what its run has made of the shell and
its verdict. -/
theorem inv_ran {s : State} {k : Kind} {x : Text} {xs : List Text} {r : Shell × Entry}
    (hp : s.phase = .loop k) (hx : s.items = x :: xs) (hi : Inv env d s) (hr : runs x = true)
    (hkey : r.2.key = (k, s.type, x))
    (hk : Kept env d (s.trace.map Entry.line ++ [r.2.line]) s.made r.1.disk) :
    Inv env d { s with sh := r.1, items := xs, trace := s.trace ++ [r.2] } := by
  have hkeys := hi.keys
  simp only [pending, hp, hx, List.filter_cons_of_pos hr, List.map_cons, List.cons_append] at hkeys
  refine ⟨?_, ?_, hi.types⟩
  · show Kept env d ((s.trace ++ [r.2]).map Entry.line) s.made r.1.disk
    rw [List.map_append]
    exact hk
  · show (s.trace ++ [r.2]).map Entry.key ++ _ = due env d
    rw [← hkeys, List.map_append, List.append_assoc]
    simp only [pending, hp, List.map_cons, List.map_nil, hkey, List.cons_append, List.nil_append]

/-- The item that comes next is due. -/
theorem mem_due {s : State} {k : Kind} {x : Text} {xs : List Text} (hp : s.phase = .loop k)
    (hx : s.items = x :: xs) (hr : runs x = true) (hi : Inv env d s) : (k, s.type, x) ∈ due env d := by
  rw [← hi.keys]
  apply List.mem_append_right _
  simp only [pending, hp, hx, List.filter_cons_of_pos hr, List.map_cons, List.cons_append]
  exact List.mem_cons_self

theorem inv_item (ht : Tidy env d) {s : State} {i : Input} {k : Kind} {x : Text} {xs : List Text}
    (hp : s.phase = .loop k) (hx : s.items = x :: xs) (hr : runs x = true) (hi : Inv env d s)
    (hc : CleanItem env k s.sh s.type x i) : Inv env d (s.afterItem env k x xs i) := by
  have hlog := ht.logs _ (mem_due hp hx hr hi)
  have hkept := kept_item ht.toSettled hi.kept hlog hc
  exact inv_ran hp hx hi hr (item_key k s.sh s.type x i) hkept

theorem inv_skip {s : State} {x : Text} {xs : List Text} {k : Kind} (hp : s.phase = .loop k)
    (hx : s.items = x :: xs) (hr : runs x = false) (hi : Inv env d s) :
    Inv env d { s with items := xs } := by
  refine ⟨hi.kept, ?_, hi.types⟩
  have hkeys := hi.keys
  simp only [pending, hp, hx, List.filter_cons_of_neg (Bool.eq_false_iff.mp hr)] at hkeys
  simp only [pending, hp]
  exact hkeys

theorem types_tail {s : State} {k : Kind} {t : Text} {ts : List Text} (ht : s.types = t :: ts)
    (hi : Inv env d s) (hp : s.phase = .loop k) :
    ∀ u ∈ ts, ignored k u = false → TidyType env k d u := fun u hu =>
  hi.types k hp u (ht ▸ List.mem_cons_of_mem t hu)

theorem inv_ignored {s : State} {k : Kind} {t : Text} {ts : List Text} (hp : s.phase = .loop k)
    (ht : s.types = t :: ts) (hg : ignored k t = true) (hi : Inv env d s) :
    Inv env d { s with types := ts } := by
  refine ⟨hi.kept, ?_, fun k' hk => types_tail ht hi hk⟩
  have hdue : dueIn env k d t = [] := by rw [dueIn, if_pos hg]
  have hkeys := hi.keys
  simp only [pending, hp, ht, List.flatMap_cons, hdue, List.nil_append] at hkeys
  simp only [pending, hp]
  exact hkeys

/-- A type is entered: its log directory is made, and the items to come are
the due ones. -/
theorem inv_type {s : State} {k : Kind} {t : Text} {ts : List Text} (hp : s.phase = .loop k)
    (hx : s.items = []) (ht : s.types = t :: ts) (hg : ignored k t = false) (hi : Inv env d s) :
    Inv env d (s.afterType env k t ts) := by
  have htidy : TidyType env k d t := hi.types k hp t (ht ▸ List.mem_cons_self) hg
  have hmk : makeLogDir env s.sh k t =
      { s.sh with disk := s.sh.disk.mkdirP (env.logDir ++ [k.name, t]) } := by
    rw [makeLogDir, Env.logText, mkdirP_of_reads htidy.log, Env.logDir, List.append_assoc]
    rfl
  have hadds : Adds (cases env) env.summaryLog s.sh.disk
      (s.sh.disk.mkdirP (env.logDir ++ [k.name, t])) := by
    rw [Env.logDir, List.append_assoc]
    exact adds_mkdirP (fun q hq => not_cases_log env _ hq) (summary_not_above env k [t])
  have hkept := hi.kept.keeps (keeps_of_adds hadds)
  refine ⟨?_, ?_, fun k' hk => types_tail ht hi hk⟩
  · simp only [State.afterType]
    rw [hmk]
    refine ⟨hkept.cases, hkept.logDir, hkept.summary, hkept.lines, fun m hm => ?_⟩
    split_ifs at hm with hdir
    · rcases List.mem_append.mp hm with hm | hm
      · exact hkept.made m hm
      · rw [List.mem_singleton.mp hm]
        exact ⟨List.prefix_append _ _, hdir⟩
    · exact hkept.made m hm
  · have hsame : Same (cases env) d (makeLogDir env s.sh k t).disk := by
      rw [hmk]
      exact hkept.cases
    have hkeys := hi.keys
    simp only [pending, hp, hx, ht, List.filter_nil, List.map_nil, List.nil_append,
      List.flatMap_cons, List.append_assoc] at hkeys
    rw [← hkeys, ← items_due htidy hg hsame]
    simp only [State.afterType, pending, hp]

theorem inv_end {s : State} {k : Kind} (hp : s.phase = .loop k) (hx : s.items = [])
    (ht : s.types = []) (hi : Inv env d s) : Inv env d { s with phase := k.next } := by
  refine ⟨hi.kept, ?_, fun k' hk => ?_⟩
  · have hkeys := hi.keys
    simp only [pending, hp, hx, ht] at hkeys
    rw [← hkeys]
    cases k <;> simp [pending, laterDue, Kind.next]
  · cases k <;> cases hk

/-- A clean step keeps the invariant. -/
theorem inv_step (ht : Tidy env d) {s s' : State} {i : Input} (hi : Inv env d s)
    (hp : s.phase ≠ .setup) (hc : Clean env s i) (h : step env s i = some s') : Inv env d s' := by
  rcases step_cases env h with ⟨hs, -⟩ | ⟨k, hk, rfl⟩ | ⟨k, x, xs, hk, hx, hr, rfl⟩ |
    ⟨k, x, xs, hk, hx, hr, rfl⟩ | ⟨k, t, ts, hk, hx, hty, hg, rfl⟩ |
    ⟨k, t, ts, hk, hx, hty, hg, rfl⟩ | ⟨k, hk, hx, hty, rfl⟩ | ⟨-, rfl⟩
  · exact absurd hs hp
  · exact inv_list ht hk hi
  · exact inv_item ht hk hx hr hi (hc k x xs hk hx hr)
  · exact inv_skip hk hx hr hi
  · exact inv_ignored hk hty hg hi
  · exact inv_type hk hx hty hg hi
  · exact inv_end hk hx hty hi
  · exact hi

theorem phase_ne_setup {s s' : State} {i : Input} (h : step env s i = some s') : s'.phase ≠ .setup := by
  rcases step_cases env h with ⟨-, rfl⟩ | ⟨k, -, rfl⟩ | ⟨k, x, xs, hk, -, -, rfl⟩ |
    ⟨k, x, xs, hk, -, -, rfl⟩ |
    ⟨k, t, ts, hk, -, -, -, rfl⟩ | ⟨k, t, ts, hk, -, -, -, rfl⟩ | ⟨k, -, -, -, rfl⟩ | ⟨hd, rfl⟩
  · exact fun h => nomatch h
  · exact fun h => nomatch h
  · simp [State.afterItem, hk]
  · simp [hk]
  · simp [hk]
  · simp [State.afterType, hk]
  · cases k <;> exact fun h => nomatch h
  · simp [hd]

/-- **No verdict is lost.** When the loops are over, in a tidy tree and after
clean steps, the summary has one verdict for each item that is due, in order,
and the test cases and the log directories are still there. -/
theorem summary_complete (env : Env) (sh : Shell) (is : List Input) (s : State)
    (ht : Tidy env sh.disk) (hc : Along (step env) (Clean env) (initial sh) is)
    (hr : run (step env) (initial sh) is = some s) (hd : s.phase = .done) :
    Complete env sh.disk s := by
  have hinv : s = initial sh ∨ (s.phase ≠ .setup ∧ Inv env sh.disk s) := by
    refine run_inv (I := fun s => s = initial sh ∨ (s.phase ≠ .setup ∧ Inv env sh.disk s)) ?_ is
      (initial sh) s (.inl rfl) hc hr
    intro s i s' hI hc h
    rcases hI with rfl | ⟨hp, hi⟩
    · cases h
      exact .inr ⟨fun h => (nomatch h), inv_setup ht⟩
    · exact .inr ⟨phase_ne_setup h, inv_step ht hi hp hc h⟩
  rcases hinv with rfl | ⟨-, hi⟩
  · cases hd
  · have hkeys := hi.keys
    simp only [pending, hd, List.append_nil] at hkeys
    exact ⟨hi.kept.lines, hkeys, hi.kept.cases, fun m hm => (hi.kept.made m hm).2⟩

/-! ### A job that fails -/

def job : Path := ["root".toList, "avocado".toList, "job-results".toList, "job-1".toList]

def jobResult : Path := job ++ ["test-results".toList, "1-press.sh".toList]

def jobLogText : Text := "/root/avocado/job-results/job-1/job.log".toList

/-- The job's one test failed. -/
def failedLog : RunLog where
  lines := ["JOB LOG    : ".toList ++ jobLogText,
    (Counts.mk 0 0 1 0 0 0 0).line]
  results := some ⟨0, 0, 1, 0, 0, 0, 0⟩
  shape := by decide +kernel

/-- The item leaves the directory of the job. -/
def failing : Input where
  umount := id
  effect d := (d.mkdirP jobResult).set (job ++ ["job.log".toList]) (.file [])
  output := []
  exitStatus := 0
  avocado := fun _ => failedLog.lines
  arithmetic := numbers

/-- One stress item and one avocado item. -/
def twoItems (top : Path) : Disk :=
  repository top [(.stress, "sched".toList, "press.sh".toList),
    (.general, "sched".toList, "press.sh".toList)]

theorem same_failing {top : Path} (hr : ¬ top <+: jobResult) (hl : ¬ top <+: job ++ ["job.log".toList])
    (d : Disk) : Same (fun p => top <+: p) d (failing.effect d) := by
  have hmk := adds_mkdirP (R := fun p => top <+: p) (f := top) (d := d)
    (fun q hq => decide_eq_false fun h => hr (h.trans hq)) hr
  exact hmk.same.trans (same_set (decide_eq_false hl) _ _)

/-- **The repository deleted.** The items leave the repository alone, and
still the summary is lost and the test cases with it, where the repository is
below `/tmp`. -/
theorem repository_below_tmp : ¬ ∀ (env : Env) (sh : Shell) (is : List Input) (s : State),
    (∀ k, sh.disk.isDir (env.testDir k) = true) → sh.disk.lookup env.logDir = none →
    (∀ i ∈ is, (∀ d, Same (fun p => env.topDir <+: p) d (i.effect d)) ∧ ∀ d, i.umount d = d) →
    run (step env) (initial sh) is = some s → s.phase = .done → Complete env sh.disk s := by
  intro h
  let top : Path := ["tmp".toList, "longan".toList]
  have hrun : (run (step (plainEnv top)) (initial ⟨twoItems top, [], [], []⟩) (List.replicate 9 failing)).map
      (fun s => (s.phase, s.sh.disk.lines (plainEnv top).summaryLog, s.trace.length)) =
        some (.done, [], 2) := by decide +kernel
  obtain ⟨s, hs, ht⟩ := Option.map_eq_some_iff.mp hrun
  simp only [Prod.mk.injEq] at ht
  obtain ⟨hd, hnone, htrace⟩ := ht
  have hc := h (plainEnv top) _ _ s (fun k => by cases k <;> decide +kernel) (by decide +kernel)
    (fun i hi => ?_) hs hd
  · have hlines := congrArg List.length hc.lines
    rw [hnone, List.length_map, htrace] at hlines
    cases hlines
  · rw [List.eq_of_mem_replicate hi]
    exact ⟨same_failing (by decide +kernel) (by decide +kernel), fun d => rfl⟩

/-! ### A tidy tree and a clean run -/

theorem reads_plain {top p : Path} {ns : List Text} (hp : p ≠ []) (h : ∀ n ∈ p ++ ns, IsName n)
    (hw : IsWord (text p ns)) : Reads (plainEnv top).glob p ns :=
  reads_of_glob hp h hw fun _ => rfl

theorem words_plain (top : Path) (sh : Shell) (t : Text) : sh.words (plainEnv top).glob t = fields t :=
  List.flatMap_singleton' _

def opt : Env := plainEnv ["opt".toList, "longan".toList]

theorem tidy_twoItems : Tidy opt (twoItems opt.topDir) := by
  have hchildren : ∀ k, (twoItems opt.topDir).children (opt.testDir k) = ["sched".toList] := by
    intro k
    cases k <;> decide +kernel
  have hreads : ∀ {p : Path} {ns : List Text}, p ≠ [] → (∀ n ∈ p ++ ns, IsName n) →
      IsWord (text p ns) → Reads opt.glob p ns := reads_plain
  refine ⟨⟨hreads (by decide) (by decide +kernel) (by decide +kernel),
    hreads (by decide) (by decide +kernel) (by decide +kernel)⟩, fun q hq => ?_, by decide +kernel,
    fun k => ?_, fun k => ?_, fun k t ht => ?_, fun k t ht _ sh => ?_, fun k t ht _ _ => ?_, ?_⟩
  · have hall : ∀ q ∈ opt.logDir.inits, (twoItems opt.topDir).isFile q = false := by decide +kernel
    exact hall q ((List.mem_inits q _).mpr hq)
  · cases k <;> exact hreads (by decide) (by decide +kernel) (by decide +kernel)
  · cases k <;> decide +kernel
  · rw [hchildren, List.mem_singleton] at ht
    subst ht
    intro h
    exact absurd h (by decide)
  · rw [hchildren, List.mem_singleton] at ht
    rw [opt, words_plain, ht]
    decide +kernel
  · rw [hchildren, List.mem_singleton] at ht
    subst ht
    refine ⟨?_, ?_, .inl ⟨?_, fun n hn => ?_⟩⟩
    · cases k <;> exact hreads (by decide) (by decide +kernel) (by decide +kernel)
    · cases k <;> exact hreads (by decide) (by decide +kernel) (by decide +kernel)
    · cases k <;> decide +kernel
    · have hitems : (twoItems opt.topDir).children (opt.testDir k ++ ["sched".toList]) =
          ["press.sh".toList] := by cases k <;> decide +kernel
      rw [hitems, List.mem_singleton] at hn
      subst hn
      unfold TidyName
      rw [if_neg (by decide)]
      intro sh
      rw [opt, words_plain]
      decide +kernel
  · have hdue : due opt (twoItems opt.topDir) = [(.stress, "sched".toList, "press.sh".toList),
        (.general, "sched".toList, "press.sh".toList)] := by decide +kernel
    rw [hdue]
    intro e he
    simp only [List.mem_cons, List.not_mem_nil, or_false] at he
    rcases he with rfl | rfl <;> exact hreads (by decide) (by decide +kernel) (by decide +kernel)

theorem safeDir_job {sh : Shell} (h : (sh.rmIn opt.glob (text job []) jobNames).lsWords opt.glob opt.order
    (text job ["test-results".toList]) = ["1-press.sh".toList]) : SafeDir opt sh job := by
  have haway : ∀ p : Path, Apart p opt.testcases ∧ Apart p opt.logDir → Away opt p := fun p h =>
    ⟨h.1, h.2⟩
  refine ⟨haway _ (by decide +kernel), reads_plain (by decide) (by decide +kernel) (by decide +kernel),
    fun r hr sh' p hp => ?_, by decide +kernel, haway _ (by decide +kernel), haway _ (by decide +kernel)⟩
  rw [h, List.mem_singleton] at hr
  subst hr
  have hread : Reads opt.glob job ["test-results".toList, "1-press.sh".toList] :=
    reads_plain (by decide) (by decide +kernel) (by decide +kernel)
  rw [hread sh'] at hp
  cases hp
  exact List.prefix_append _ _

/-- The failure is written and the job directory, with one result in it, is
what is cleared away. -/
def Fails (sh : Shell) (e : Entry) (jobLog : Text) : Prop :=
  e.verdict = .fail ∧ (echoVerdict opt sh e).words opt.glob jobLog = [jobLogText] ∧
    avocadoLogDir (echoVerdict opt sh e) jobLogText = job ∧
    ((echoVerdict opt sh e).rmIn opt.glob (text job []) jobNames).lsWords opt.glob opt.order
      (text job ["test-results".toList]) = ["1-press.sh".toList]

instance (sh : Shell) (e : Entry) (jobLog : Text) : Decidable (Fails sh e jobLog) :=
  inferInstanceAs (Decidable (_ ∧ _))

theorem safe_of_fails {sh : Shell} {e : Entry} {jobLog : Text} (h : Fails sh e jobLog) :
    SafeConclude opt sh e jobLog := by
  obtain ⟨hv, hwords, hdir, hls⟩ := h
  refine ⟨fun h => ?_, fun _ w ws hw => ?_, fun h => ?_⟩
  · rw [hv] at h
    cases h
  · rw [hwords] at hw
    cases hw
    rw [hdir]
    exact safeDir_job hls
  · rw [hv] at h
    cases h

theorem fails_failing : ∀ n < 9, (run (step opt) (initial ⟨twoItems opt.topDir, [], [], []⟩)
    ((List.replicate 9 failing).take n)).all (fun s => s.phase = .loop .general → ∀ x ∈ s.items,
      Fails (avocadoRun opt s.sh s.type x failing).1 (avocadoItem opt s.sh s.type x failing).2
        (jobLog (logLines (avocadoRun opt s.sh s.type x failing).2))) = true := by
  decide +kernel

theorem along_clean : Along (step opt) (Clean opt) (initial ⟨twoItems opt.topDir, [], [], []⟩)
    (List.replicate 9 failing) := by
  refine along_of_take _ _ fun n i s hi hs k x xs hk hx hr => ?_
  rw [List.getElem?_replicate] at hi
  split_ifs at hi with hn
  cases hi
  have hfails := fails_failing n hn
  rw [hs, Option.all_some, decide_eq_true_eq] at hfails
  refine ⟨same_failing (by decide +kernel) (by decide +kernel), Same.refl _ _, fun hg => ?_⟩
  have hgeneral : s.phase = .loop .general := by rw [hk, hg]
  have hmem : x ∈ s.items := by
    rw [hx]
    exact List.mem_cons_self
  exact safe_of_fails (hfails hgeneral x hmem)

/-- A stress item that passes and an avocado item that fails. -/
theorem summary_complete_opt : ∃ s, Complete opt (twoItems opt.topDir) s ∧
    s.sh.disk.lines opt.summaryLog =
      ["PASS: stress_test/sched/press.sh".toList, "FAIL: general_test/sched/press.sh".toList] := by
  have hrun : (run (step opt) (initial ⟨twoItems opt.topDir, [], [], []⟩) (List.replicate 9 failing)).map
      (fun s => (s.phase, s.sh.disk.lines opt.summaryLog)) = some (.done,
        ["PASS: stress_test/sched/press.sh".toList, "FAIL: general_test/sched/press.sh".toList]) := by
    decide +kernel
  obtain ⟨s, hs, ht⟩ := Option.map_eq_some_iff.mp hrun
  have hd := congrArg Prod.fst ht
  exact ⟨s, summary_complete opt ⟨twoItems opt.topDir, [], [], []⟩ _ s tidy_twoItems along_clean hs hd,
    congrArg Prod.snd ht⟩

end Runall
end Longan
