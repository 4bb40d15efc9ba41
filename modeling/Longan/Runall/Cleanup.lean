/-
# What a clean run of an item keeps

An item's run changes the tree in five ways: the unmounting before it, its log
file, what the item does itself, the line of the summary, and the clean-up.
When the run is clean (`CleanItem`) the test cases stay as they are, the log
directories stay, and the summary gets its line and nothing else
(`kept_item`).

What decides is the clean-up: all that `reserve_and_del` and the removal of a
job delete must lie apart from the test cases and the logs (`Away`).
-/
import Longan.Runall.Loops

namespace Longan
namespace Runall

open Text Shell Disk

variable (env : Env)

/-! ### Clean runs -/

/-- The test cases. -/
def cases (p : Path) : Bool := env.testcases <+: p

/-- The test cases and the logs of this run. -/
def ours (p : Path) : Bool := env.testcases <+: p ∨ env.logDir <+: p

/-- The paths of the logs are read as they are. -/
structure Settled : Prop where
  logDir : Reads env.glob env.topDir [env.logName]
  summary : Reads env.glob env.topDir [env.logName, "summary.log".toList]

/-- Apart from the test cases and from the logs. -/
structure Away (p : Path) : Prop where
  testcases : Apart p env.testcases
  logDir : Apart p env.logDir

/-- `reserve_and_del` can be let loose on the job directory: it is away from
the test cases and logs and is read as it is, what `ls` lists in its
`test-results` stands for something in it, and it is not named `summary.log`;
and `/tmp` and `/var/tmp` are away from the test cases and logs too. -/
structure SafeDir (sh : Shell) (d : Path) : Prop where
  away : Away env d
  reads : Reads env.glob d []
  results : ∀ r ∈ (sh.rmIn env.glob (text d []) jobNames).lsWords env.glob env.order
      (text d ["test-results".toList]),
    ∀ (sh' : Shell) (p : Path),
      sh'.operands env.glob (text d ["test-results".toList, r]) = [p] → d <+: p
  name : d.getLast? ≠ some "summary.log".toList
  tmp : Away env tmp
  varTmp : Away env varTmp

def SafeReserve (sh : Shell) (jobLog : Text) : Prop :=
  ∀ w ws, sh.words env.glob jobLog = w :: ws → SafeDir env sh (avocadoLogDir sh w)

/-- The clean-up that the verdict asks for is safe. -/
structure SafeConclude (sh : Shell) (e : Entry) (jobLog : Text) : Prop where
  skip : e.verdict = .skip → SafeReserve env sh jobLog
  fail : e.verdict = .error ∨ e.verdict = .fail → SafeReserve env (echoVerdict env sh e) jobLog
  pass : e.verdict = .pass →
    ∀ p ∈ (echoVerdict env sh e).removed (avocadoLogDirs env (echoVerdict env sh e) jobLog), Away env p

/-- A clean run of an item: the item writes nothing below the repository,
unmounting changes nothing there that is ours, and the clean-up is safe. -/
structure CleanItem (k : Kind) (sh : Shell) (type x : Text) (i : Input) : Prop where
  effect : ∀ d, Same (fun p => env.topDir <+: p) d (i.effect d)
  umount : Same (ours env) sh.disk (i.umount sh.disk)
  conclude : k = .general → SafeConclude env (avocadoRun env sh type x i).1
    (avocadoItem env sh type x i).2 (jobLog (logLines (avocadoRun env sh type x i).2))

/-! ### Where the paths lie -/

theorem logName_ne : env.logName ≠ "testcases".toList := by
  intro h
  have hhead : some 'l' = some 't' := congrArg List.head? h
  exact absurd hhead (by decide)

theorem not_cases_log {q : Path} (ns : List Text) (h : q <+: env.topDir ++ env.logName :: ns) :
    cases env q = false := by
  rw [cases, decide_eq_false_iff_not]
  intro hc
  have hp := (List.prefix_append_right_inj _).mp (hc.trans h)
  exact logName_ne env (List.cons_prefix_cons.mp hp).1.symm

theorem not_cases_below_log {q : Path} (h : env.logDir <+: q) : cases env q = false := by
  obtain ⟨ns, rfl⟩ := h
  rw [Env.logDir, List.append_assoc]
  exact not_cases_log env ns List.prefix_rfl

theorem summaryLog_eq : env.summaryLog = env.logDir ++ ["summary.log".toList] := by
  rw [Env.summaryLog, Env.logDir, List.append_assoc]
  rfl

theorem kind_name_ne (k : Kind) : "summary.log".toList ≠ k.name := by
  cases k <;> decide

theorem summary_not_above (k : Kind) (ns : List Text) :
    ¬ env.summaryLog <+: env.topDir ++ env.logName :: k.name :: ns := by
  intro h
  have hp := (List.prefix_append_right_inj _).mp h
  exact kind_name_ne k (List.cons_prefix_cons.mp (List.cons_prefix_cons.mp hp).2).1

/-! ### What keeps the test cases and the logs -/

/-- The test cases are the same, the log directories are still there, and so
is the summary. -/
structure Keeps (d d' : Disk) : Prop where
  cases : Same (cases env) d d'
  dirs : ∀ q, env.logDir <+: q → d.isDir q = true → d'.isDir q = true
  summary : d'.lookup env.summaryLog = d.lookup env.summaryLog

variable {env} {d d' : Disk}

theorem Keeps.refl (d : Disk) : Keeps env d d := ⟨Same.refl _ d, fun _ _ h => h, rfl⟩

theorem Keeps.trans {d'' : Disk} (h : Keeps env d d') (h' : Keeps env d' d'') : Keeps env d d'' :=
  ⟨h.cases.trans h'.cases, fun q hq hd => h'.dirs q hq (h.dirs q hq hd), h'.summary.trans h.summary⟩

theorem Keeps.foldl {α : Type*} {g : Disk → α → Disk} : ∀ (as : List α),
    (∀ a ∈ as, ∀ d, Keeps env d (g d a)) → ∀ d, Keeps env d (as.foldl g d)
  | [], _, d => Keeps.refl d
  | a :: as, h, d => (h a List.mem_cons_self d).trans
      (Keeps.foldl as (fun b hb => h b (List.mem_cons_of_mem _ hb)) (g d a))

theorem keeps_of_same (h : Same (ours env) d d') : Keeps env d d' := by
  have hlog : ∀ q, env.logDir <+: q → ours env q = true := fun q hq => by
    rw [ours, decide_eq_true_eq]
    exact .inr hq
  refine ⟨h.mono fun q hq => ?_, fun q hq hd => ?_, ?_⟩
  · rw [cases, decide_eq_true_eq] at hq
    rw [ours, decide_eq_true_eq]
    exact .inl hq
  · rw [h.isDir (hlog q hq), hd]
  · refine h.lookup (hlog _ ?_)
    rw [summaryLog_eq]
    exact List.prefix_append _ _

theorem keeps_of_adds (h : Adds (cases env) env.summaryLog d d') : Keeps env d d' :=
  ⟨h.same, fun q _ => h.dirs q, h.file⟩

/-- What is away may be deleted. -/
theorem Away.not_prefix {p : Path} (h : Away env p) : ∀ q, ours env q = true → ¬ p <+: q := by
  intro q hq
  rw [ours, decide_eq_true_eq] at hq
  rcases hq with hq | hq
  · exact h.testcases.not_prefix hq
  · exact h.logDir.not_prefix hq

theorem Away.below {p q : Path} (h : Away env p) (hq : p <+: q) : Away env q :=
  ⟨h.testcases.below hq, h.logDir.below hq⟩

theorem keeps_rm {p : Path} (h : Away env p) (d : Disk) : Keeps env d (d.rm p) :=
  keeps_of_same (same_rm h.not_prefix d)

theorem keeps_rmBelow {p : Path} (h : Away env p) (d : Disk) : Keeps env d (d.rmBelow p) :=
  keeps_of_same (same_rmBelow h.not_prefix d)

/-! ### The clean-up -/

theorem keeps_rmIn {dir : Path} (ha : Away env dir) {sh : Shell} {t : Text}
    (ht : ∀ p, sh.operands env.glob t = [p] → dir <+: p) (ns : List Text) :
    Keeps env sh.disk (sh.rmIn env.glob t ns).disk := by
  unfold Shell.rmIn Shell.cd
  split
  · rename_i sh' hcd
    split at hcd
    · rename_i p hp
      split_ifs at hcd
      cases hcd
      refine Keeps.foldl ns (fun n _ d => keeps_rm (ha.below ?_) d) sh.disk
      exact (ht p hp).trans (List.prefix_append _ _)
    · cases hcd
  · exact Keeps.refl _

theorem keeps_rmIns {dir : Path} (ha : Away env dir) {tx : Text → Text} (ns : List Text) :
    ∀ (rs : List Text), (∀ r ∈ rs, ∀ (sh : Shell) (p : Path),
      sh.operands env.glob (tx r) = [p] → dir <+: p) →
    ∀ sh : Shell, Keeps env sh.disk (rs.foldl (fun sh r => sh.rmIn env.glob (tx r) ns) sh).disk
  | [], _, sh => Keeps.refl sh.disk
  | r :: rs, ht, sh => (keeps_rmIn ha (ht r List.mem_cons_self sh) ns).trans
      (keeps_rmIns ha ns rs (fun r hr => ht r (List.mem_cons_of_mem _ hr)) _)

theorem keeps_cp {dir : Path} (hs : Settled env) {sh₀ sh : Shell} (h : SafeDir env sh₀ dir)
    (hl : sh.disk.isDir env.logDir = true) :
    Keeps env sh.disk (sh.cp env.glob (text dir []) (env.logText [])).disk := by
  have hops : sh.operands env.glob (text dir []) ++ sh.operands env.glob (env.logText []) =
      [dir, env.logDir] := by
    rw [h.reads sh, Env.logText, hs.logDir sh, List.append_nil]
    rfl
  unfold Shell.cp
  rw [hops]
  refine keeps_of_adds (adds_cp hl ?_ (fun q hq => not_cases_below_log env hq) ?_)
  · simp [Env.logDir]
  · -- the copy is named like the job directory
    rw [summaryLog_eq]
    intro hp
    have hp := (List.prefix_append_right_inj _).mp hp
    cases hb : dir.getLast? with
    | none =>
      rw [List.getLast?_eq_none_iff] at hb
      exact h.away.logDir.1 (hb ▸ List.nil_prefix)
    | some b =>
      rw [hb] at hp
      refine h.name (hb.trans (congrArg some ?_))
      exact (List.cons_prefix_cons.mp hp).1

theorem keeps_reserveAndDel (hs : Settled env) {sh : Shell} {jobLog : Text}
    (h : SafeReserve env sh jobLog) (hl : sh.disk.isDir env.logDir = true) :
    Keeps env sh.disk (reserveAndDel env sh jobLog).disk := by
  unfold reserveAndDel
  split
  · exact Keeps.refl _
  · rename_i w ws hw
    have hd := h w ws hw
    dsimp only
    -- the job directory, the directories of its results, the copy, `/tmp`
    have h1 : Keeps env sh.disk
        (sh.rmIn env.glob (text (avocadoLogDir sh w) []) jobNames).disk := by
      refine keeps_rmIn hd.away (fun p hp => ?_) jobNames
      rw [hd.reads sh, List.append_nil] at hp
      cases hp
      exact List.prefix_rfl
    have h2 := keeps_rmIns hd.away resultNames
      ((sh.rmIn env.glob (text (avocadoLogDir sh w) []) jobNames).lsWords env.glob env.order
        (text (avocadoLogDir sh w) ["test-results".toList])) hd.results
      (sh.rmIn env.glob (text (avocadoLogDir sh w) []) jobNames)
    have h3 := keeps_cp hs hd ((h1.trans h2).dirs _ List.prefix_rfl hl)
    refine (h1.trans h2).trans (h3.trans ?_)
    have hback : ∀ sh : Shell, sh.cdBack.disk = sh.disk := fun sh => by
      unfold Shell.cdBack
      split <;> rfl
    rw [hback]
    exact (keeps_rmBelow hd.varTmp _).trans (keeps_rmBelow hd.tmp _)

theorem keeps_removeJob {sh : Shell} {jobLog : Text}
    (h : ∀ p ∈ sh.removed (avocadoLogDirs env sh jobLog), Away env p) :
    Keeps env sh.disk (removeJob env sh jobLog).disk := by
  unfold removeJob
  dsimp only
  exact Keeps.foldl _ (fun p hp d => keeps_rm (h p hp) d) sh.disk

/-! ### The invariant of the disk -/

/-- The test cases are those of `d`, the summary has the lines, and the log
directories are there. -/
structure Kept (env : Env) (d : Disk) (ls : List Text) (made : List Path) (d' : Disk) : Prop where
  cases : Same (cases env) d d'
  logDir : d'.isDir env.logDir = true
  summary : d'.isDir env.summaryLog = false
  lines : d'.lines env.summaryLog = ls
  made : ∀ m ∈ made, env.logDir <+: m ∧ d'.isDir m = true

theorem Kept.keeps {ls : List Text} {made : List Path} {d d' d'' : Disk}
    (h : Kept env d ls made d') (hk : Keeps env d' d'') : Kept env d ls made d'' := by
  refine ⟨h.cases.trans hk.cases, hk.dirs _ List.prefix_rfl h.logDir, ?_, ?_, fun m hm => ?_⟩
  · rw [Disk.isDir, hk.summary]
    exact h.summary
  · rw [Disk.lines, hk.summary]
    exact h.lines
  · exact ⟨(h.made m hm).1, hk.dirs m (h.made m hm).1 (h.made m hm).2⟩

theorem echoVerdict_eq (hs : Settled env) {sh : Shell} (hl : sh.disk.isDir env.logDir = true)
    (hd : sh.disk.isDir env.summaryLog = false) (e : Entry) :
    (echoVerdict env sh e).disk =
      sh.disk.set env.summaryLog (.file (sh.disk.lines env.summaryLog ++ [e.line])) := by
  have hdrop : (env.topDir ++ [env.logName, "summary.log".toList]).dropLast = env.logDir := by
    show env.summaryLog.dropLast = _
    rw [summaryLog_eq, List.dropLast_concat]
  unfold echoVerdict Env.logText
  rw [echo_of_reads hs.summary (by rw [hdrop]; exact hl) hd]
  rfl

/-- An `echo` adds its line. -/
theorem Kept.echo {ls : List Text} {made : List Path} {sh : Shell} (hs : Settled env)
    (h : Kept env d ls made sh.disk) (e : Entry) :
    Kept env d (ls ++ [e.line]) made (echoVerdict env sh e).disk := by
  have hne : env.summaryLog ≠ [] := by simp [Env.summaryLog]
  rw [echoVerdict_eq hs h.logDir h.summary, h.lines]
  have hdir : ∀ q, sh.disk.isDir q = true →
      (sh.disk.set env.summaryLog (.file (ls ++ [e.line]))).isDir q = true := by
    intro q hq
    have hqs : q ≠ env.summaryLog := by
      rintro rfl
      rw [h.summary] at hq
      cases hq
    rw [Disk.isDir, lookup_set hne, if_neg hqs]
    exact hq
  refine ⟨h.cases.trans (same_set (not_cases_log env _ List.prefix_rfl) _ _), hdir _ h.logDir, ?_, ?_,
    fun m hm => ⟨(h.made m hm).1, hdir m (h.made m hm).2⟩⟩
  · rw [Disk.isDir, lookup_set hne, if_pos rfl]
    simp
  · rw [Disk.lines, lookup_set hne, if_pos rfl]

/-! ### An item -/

theorem ours_below_top {q : Path} (h : ours env q = true) : env.topDir <+: q := by
  rw [ours, decide_eq_true_eq] at h
  rcases h with h | h
  · exact (List.prefix_append _ _).trans h
  · exact (List.prefix_append _ _).trans h

theorem keeps_effect {f : Disk → Disk} (h : ∀ d, Same (fun p => env.topDir <+: p) d (f d)) (d : Disk) :
    Keeps env d (f d) :=
  keeps_of_same ((h d).mono fun q hq => by simpa using ours_below_top hq)

/-- Running an item keeps what is ours, whether its log can be opened or not. -/
theorem keeps_runItem {k : Kind} {sh sh' : Shell} {type x : Text} {out : List Text} {f : Disk → Disk}
    (hr : Reads env.glob env.topDir [env.logName, k.name, type, x ++ ".log".toList])
    (hf : ∀ d, Same (fun p => env.topDir <+: p) d (f d))
    (h : runItem env sh k type x out f = some sh') : Keeps env sh.disk sh'.disk := by
  unfold runItem Env.logText at h
  obtain ⟨p, hp, rfl⟩ := Option.map_eq_some_iff.mp h
  rw [redirect_of_reads hr] at hp
  split_ifs at hp with hc
  cases hp
  rw [Bool.and_eq_true, Bool.not_eq_true'] at hc
  refine Keeps.trans (keeps_of_adds (adds_set ?_ ?_ ?_ (.inl hc.2))) (keeps_effect hf _)
  · simp
  · exact not_cases_log env _ List.prefix_rfl
  · intro he
    apply summary_not_above env k [type, x ++ ".log".toList]
    rw [he]

theorem kept_stressItem {ls : List Text} {made : List Path} {sh : Shell} (hs : Settled env)
    (h : Kept env d ls made sh.disk) {type x : Text} {i : Input}
    (hl : Reads env.glob env.topDir [env.logName, Kind.stress.name, type, x ++ ".log".toList])
    (hc : CleanItem env .stress sh type x i) :
    Kept env d (ls ++ [(stressItem env sh type x i).2.line]) made (stressItem env sh type x i).1.disk := by
  have hu := h.keeps (keeps_of_same hc.umount)
  have hran : Kept env d ls made ((runItem env { sh with disk := i.umount sh.disk } .stress type x
      i.output i.effect).getD { sh with disk := i.umount sh.disk }).disk := by
    cases hr : runItem env { sh with disk := i.umount sh.disk } .stress type x i.output i.effect with
    | none => exact hu
    | some sh' => exact hu.keeps (keeps_runItem hl hc.effect hr)
  exact hran.echo hs _

theorem kept_conclude {ls : List Text} {made : List Path} {sh : Shell} (hs : Settled env)
    (h : Kept env d ls made sh.disk) (e : Entry) (jobLog : Text) (hc : SafeConclude env sh e jobLog) :
    Kept env d (ls ++ [e.line]) made (conclude env sh e jobLog).disk := by
  have he := h.echo hs e
  unfold conclude
  cases hv : e.verdict with
  | pass => exact he.keeps (keeps_removeJob (hc.pass hv))
  | fail => exact he.keeps (keeps_reserveAndDel hs (hc.fail (.inr hv)) he.logDir)
  | error => exact he.keeps (keeps_reserveAndDel hs (hc.fail (.inl hv)) he.logDir)
  | skip => exact (h.keeps (keeps_reserveAndDel hs (hc.skip hv) h.logDir)).echo hs e

theorem kept_avocadoItem {ls : List Text} {made : List Path} {sh : Shell} (hs : Settled env)
    (h : Kept env d ls made sh.disk) {type x : Text} {i : Input}
    (hl : Reads env.glob env.topDir [env.logName, Kind.general.name, type, x ++ ".log".toList])
    (hc : CleanItem env .general sh type x i) :
    Kept env d (ls ++ [(avocadoItem env sh type x i).2.line]) made
      (avocadoItem env sh type x i).1.disk := by
  have hu := h.keeps (keeps_of_same hc.umount)
  have hran : Kept env d ls made (avocadoRun env sh type x i).1.disk := by
    unfold avocadoRun
    dsimp only
    split
    · rename_i sh' hr
      exact hu.keeps (keeps_runItem hl hc.effect hr)
    · exact hu
  have hsafe := hc.conclude rfl
  unfold avocadoItem at hsafe ⊢
  dsimp only at hsafe ⊢
  exact kept_conclude hs hran _ _ hsafe

/-- **An item.** A clean run of an item adds its verdict and keeps the rest. -/
theorem kept_item {ls : List Text} {made : List Path} {sh : Shell} (hs : Settled env)
    (h : Kept env d ls made sh.disk) {k : Kind} {type x : Text} {i : Input}
    (hl : Reads env.glob env.topDir [env.logName, k.name, type, x ++ ".log".toList])
    (hc : CleanItem env k sh type x i) :
    Kept env d (ls ++ [(item env k sh type x i).2.line]) made (item env k sh type x i).1.disk := by
  cases k
  · exact kept_stressItem hs h hl hc
  · exact kept_avocadoItem hs h hl hc

end Runall
end Longan
