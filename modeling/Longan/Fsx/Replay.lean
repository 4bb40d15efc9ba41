/-
# fsx: replaying a run

With `--replay-ops` the operations come from a file of operations instead of
the random numbers: those that were skipped are logged again, and the others
are done again from `have_op` on. On a file of the same size an operation that
was done comes to the same as it did (`outcome_again`), so that replaying the
record of a run does its operations over again, whatever is in the file
(`replay_verdict`).

An operation that was skipped is logged with `log4`, whatever it is. A clone, a
dedupe or a copy is then short of an argument, and the record of the replay
cannot be replayed itself (`replay_twice`).

The limit on the number of operations (`-N`) is left out here.
-/
import Mathlib.Data.List.Forall2
import Longan.Fsx.Record

namespace Longan
namespace Fsx

/-- An `int` where it becomes an `unsigned long`. -/
def signed (a : ℕ) : ℕ := if a < 2 ^ 31 then a else 2 ^ 64 - 2 ^ 32 + a

def LogEntry.arg (e : LogEntry) (i : ℕ) : ℕ := signed (e.args.getD i 0)

/-- The operation that `test` takes from an entry. -/
def LogEntry.choice (e : LogEntry) : Choice :=
  ⟨e.operation, e.arg 0, e.arg 1, e.arg 2, e.flags.keepSize⟩

section

variable {φ : Type} (F : FileSystem φ) (C : Config)

/-- The calls of `test` on the entries of a file: each skips on to an operation
that is to be done, and the last finds none. The first argument says whether
the call is begun. -/
def replay (patience : ℕ) : Bool → List LogEntry → Run φ Unit
  | begun, [] => onlyIf (begun = false) (begin F C)
  | begun, e :: es => do
    onlyIf (begun = false) (begin F C)
    if e.flags.skipped then do
      log4 e.operation (e.args.getD 0 0) (e.args.getD 1 0) e.flags
      replay patience true es
    else do
      modify fun w => { w with closeopen := e.flags.closeOpen }
      perform F C patience e.choice
      replay patience false es

/-- A parse error ends the run with status 100. -/
def replayFile (patience : ℕ) (ops : List LogEntry × Bool) : Run φ Unit := do
  replay F C patience false ops.1
  if ops.2 then pure () else stop (.exit 100)

end

/-! ### What was done comes to the same -/

theorem trimOff_of_lt {off size : ℕ} (h : off < size) : trimOff off size = off := by
  unfold trimOff
  rw [if_neg (by omega), Nat.mod_eq_of_lt h]

theorem trimLen_of_le {off len size : ℕ} (h : off + len ≤ size) : trimLen off len size = len :=
  if_neg (by omega)

theorem alignDown_again (b x : ℕ) : alignDown b (alignDown b x) = alignDown b x :=
  alignDown_of_mod (alignDown_mod b x)

/-- A range inside the limit is cut no further. -/
theorem cut_inside {off n limit : ℕ} {m : ℕ → ℕ → Outcome} (h0 : n ≠ 0) (h : off + n ≤ limit) :
    cut off n limit m = m off n := by
  rw [cut, trimOff_of_lt (by omega), trimLen_of_le h]

theorem readRange_again (C : Config) (s off n : ℕ) (direct : Bool) (op : Op) :
    C.readRange s (alignDown C.readbdy off) (if direct then alignDown C.readbdy n else n) direct op =
      C.readRange s off n direct op := by
  unfold Config.readRange
  cases direct with
  | true => simp only [if_true, alignDown_again]
  | false => simp [alignDown_again]

theorem writeRange_again (C : Config) (s off n : ℕ) (direct : Bool) (op : Op) :
    C.writeRange s (alignDown C.writebdy off) (if direct then alignDown C.writebdy n else n) direct
      op = C.writeRange s off n direct op := by
  unfold Config.writeRange
  cases direct with
  | true => simp only [if_true, alignDown_again]
  | false => simp [alignDown_again]

theorem signed_word {a : ℕ} (h : a < 2 ^ 31) : signed (word a) = a := by
  unfold signed word
  rw [Nat.mod_eq_of_lt (by omega), if_pos h]

/-- The outcome is that of these arguments, which are 31-bit numbers. -/
structure Again (C : Config) (s : ℕ) (o : Outcome) : Prop where
  again : ∀ x, outcome C true s ⟨o.op, o.args.getD 0 0, o.args.getD 1 0, o.args.getD 2 x,
    o.flags.keepSize⟩ = o
  small : ∀ a ∈ o.args, a < 2 ^ 31
  two : 2 ≤ o.args.length
  ok : ∀ x, Choice.Ok C s ⟨o.op, o.args.getD 0 0, o.args.getD 1 0, o.args.getD 2 x, o.flags.keepSize⟩
  third : o.op = .cloneRange ∨ o.op = .dedupeRange ∨ o.op = .copyRange → o.args.length = 3
  quiet : o.silent = false
  closed : o.flags.closeOpen = false

theorem marked_skipped {c : Prop} [Decidable c] : (marked c).skipped = false ↔ ¬ c := by
  unfold marked
  by_cases h : c
  · rw [if_pos h]
    exact iff_of_false (by decide) (not_not.mpr h)
  · rw [if_neg h]
    exact iff_of_true rfl h

theorem marked_flags {c : Prop} [Decidable c] :
    (marked c).closeOpen = false ∧ (marked c).keepSize = false := by
  unfold marked
  by_cases h : c
  · rw [if_pos h]
    exact ⟨rfl, rfl⟩
  · rw [if_neg h]
    exact ⟨rfl, rfl⟩

section

variable {C : Config} {s : ℕ} {ch : Choice}

/-- An operation with two arguments. -/
theorem Again.pair {op : Op} {a b size : ℕ} {flags : Flags}
    (hagain : ∀ x, outcome C true s ⟨op, a, b, x, flags.keepSize⟩ = ⟨op, [a, b], flags, size, false⟩)
    (ha : a < 2 ^ 31) (hb : b < 2 ^ 31)
    (hl : C.lite = true → op = .read ∨ op = .write ∨ op = .mapread ∨ op = .mapwrite)
    (hn : op ≠ .truncate → b ≤ C.maxoplen) (hcut : op = .truncate → b < C.maxfilelen)
    (hop : op ≠ .cloneRange ∧ op ≠ .dedupeRange ∧ op ≠ .copyRange)
    (hclosed : flags.closeOpen = false) : Again C s ⟨op, [a, b], flags, size, false⟩ where
  again := hagain
  small x hx := by
    rcases List.mem_pair.mp hx with rfl | rfl
    · exact ha
    · exact hb
  two := Nat.le_refl 2
  ok x := ⟨hl, hn, hcut, fun h => h.elim (fun h => absurd h hop.1) fun h => absurd h hop.2.2,
    fun h => absurd h hop.2.2⟩
  third h := h.elim (fun h => absurd h hop.1) fun h => h.elim (fun h => absurd h hop.2.1)
    fun h => absurd h hop.2.2
  quiet := rfl
  closed := hclosed

/-- A clone, a dedupe or a copy is as it was chosen. -/
theorem Again.triple (hch : ch.Ok C s) {flags : Flags} {size : ℕ}
    (hagain : ∀ k, outcome C true s { ch with keepSize := k } =
      ⟨ch.op, [ch.offset, ch.size, ch.offset2], flags, size, false⟩)
    (hsmall : ch.offset < 2 ^ 31 ∧ ch.size < 2 ^ 31 ∧ ch.offset2 < 2 ^ 31)
    (hclosed : flags.closeOpen = false) :
    Again C s ⟨ch.op, [ch.offset, ch.size, ch.offset2], flags, size, false⟩ where
  again _ := hagain flags.keepSize
  small x hx := by
    simp only [List.mem_cons, List.not_mem_nil, or_false] at hx
    rcases hx with rfl | rfl | rfl
    · exact hsmall.1
    · exact hsmall.2.1
    · exact hsmall.2.2
  two := by simp
  ok _ := ⟨hch.lite, hch.size, hch.cut, hch.source, hch.apart⟩
  third _ := rfl
  quiet := rfl
  closed := hclosed

theorem direct_le {b n : ℕ} {o : Bool} : (if o then alignDown b n else n) ≤ n := le_of_direct

theorem readRange_redone {off n : ℕ} {direct : Bool} {op : Op} (hs : s < 2 ^ 31)
    (hn : n ≤ C.maxoplen)
    (hop : op = .read ∧ direct = C.oDirect ∨ op = .mapread ∧ direct = false ∧ C.mappedReads = true)
    (hskip : (C.readRange s off n direct op).flags.skipped = false) :
    Again C s (C.readRange s off n direct op) := by
  have hdone := not_or.mp (marked_skipped.mp hskip)
  have hle := direct_le (b := C.readbdy) (n := n) (o := direct)
  have h4 : op = .read ∨ op = .mapread := hop.imp And.left And.left
  refine Again.pair (fun x => ?_) (by omega) (by omega) (fun _ => ?_) (fun _ => by omega) (fun h => ?_)
    ?_ marked_flags.1
  · have hcut : ∀ m, cut (alignDown C.readbdy off) (if direct then alignDown C.readbdy n else n) s m =
        m (alignDown C.readbdy off) (if direct then alignDown C.readbdy n else n) :=
      fun m => cut_inside hdone.1 (by omega)
    rcases hop with ⟨rfl, rfl⟩ | ⟨rfl, rfl, hm⟩
    · exact (hcut fun off n => C.readRange s off n C.oDirect .read).trans
        (readRange_again C s off n C.oDirect .read)
    · refine (hcut fun off n => if C.mappedReads then C.readRange s off n false .mapread
        else C.readRange s off n C.oDirect .read).trans ?_
      rw [if_pos hm]
      exact readRange_again C s off n false .mapread
  · rcases h4 with rfl | rfl <;> simp
  · rcases h4 with rfl | rfl <;> simp at h
  · rcases h4 with rfl | rfl <;> simp

theorem writeRange_redone {off n : ℕ} {direct : Bool} {op : Op} (hmax : C.maxfilelen < 2 ^ 31)
    (hn : n ≤ C.maxoplen) (hin : off + n ≤ C.maxfilelen)
    (hop : op = .write ∧ direct = C.oDirect ∨
      op = .mapwrite ∧ direct = false ∧ C.mappedWrites = true)
    (hskip : (C.writeRange s off n direct op).flags.skipped = false) :
    Again C s (C.writeRange s off n direct op) := by
  have hdone := marked_skipped.mp hskip
  have hle := direct_le (b := C.writebdy) (n := n) (o := direct)
  have hoff := alignDown_le C.writebdy off
  have h4 : op = .write ∨ op = .mapwrite := hop.imp And.left And.left
  refine Again.pair (fun x => ?_) (by omega) (by omega) (fun _ => ?_) (fun _ => by omega) (fun h => ?_)
    ?_ marked_flags.1
  · have hcut : ∀ m, cut (alignDown C.writebdy off) (if direct then alignDown C.writebdy n else n)
        C.maxfilelen m = m (alignDown C.writebdy off) (if direct then alignDown C.writebdy n else n) :=
      fun m => cut_inside hdone (by omega)
    rcases hop with ⟨rfl, rfl⟩ | ⟨rfl, rfl, hm⟩
    · exact (hcut fun off n => C.writeRange s off n C.oDirect .write).trans
        (writeRange_again C s off n C.oDirect .write)
    · refine (hcut fun off n => if C.mappedWrites then C.writeRange s off n false .mapwrite
        else C.writeRange s off n C.oDirect .write).trans ?_
      rw [if_pos hm]
      exact writeRange_again C s off n false .mapwrite
  · rcases h4 with rfl | rfl <;> simp
  · rcases h4 with rfl | rfl <;> simp at h
  · rcases h4 with rfl | rfl <;> simp

/-- A range operation that is not skipped, on a range that is cut no further. -/
theorem rangeOutcome_redone {live : Bool} {op : Op} {a b size : ℕ} {skip : Prop} [Decidable skip]
    {keep : Flags → Flags} {k : Bool} (hkeep : keep flNone = keepFlags flNone k)
    (hagain : ∀ x, outcome C true s ⟨op, a, b, x, k⟩ =
      rangeOutcome live s op [a, b] skip keep size)
    (hskip : ¬ skip) (ha : a < 2 ^ 31) (hb : b < 2 ^ 31) (hl : C.lite = false)
    (hn : b ≤ C.maxoplen)
    (hop : op ≠ .truncate ∧ op ≠ .cloneRange ∧ op ≠ .dedupeRange ∧ op ≠ .copyRange) :
    Again C s (rangeOutcome live s op [a, b] skip keep size) := by
  have hflags : keep (marked skip) = keepFlags flNone k := by
    rw [marked_neg hskip, hkeep]
  refine Again.pair (fun x => ?_) ha hb (fun h => Bool.noConfusion (hl.symm.trans h)) (fun _ => hn)
    (fun h => absurd h hop.1) hop.2 ?_
  · rw [hflags]
    refine (hagain x).trans ?_
    rw [rangeOutcome, hflags]
  · rw [hflags]
    rfl

theorem rangedOutcome_redone {on : Bool} {size : ℕ} (hch : ch.Ok C s) (hs : s ≤ C.maxfilelen)
    (hmax : C.maxfilelen < 2 ^ 31)
    (hagain : ∀ k, outcome C true s { ch with keepSize := k } = rangedOutcome C true s on ch size)
    (hskip : (rangedOutcome C true s on ch size).flags.skipped = false) :
    Again C s (rangedOutcome C true s on ch size) := by
  unfold rangedOutcome at hskip hagain ⊢
  by_cases hc : on = false ∨ ch.size = 0 ∨ C.maxfilelen < ch.offset2 + ch.size
  · rw [if_pos hc] at hskip
    exact absurd hskip (by simp [skipped, flSkipped])
  · rw [if_neg hc] at hskip hagain ⊢
    have hoff : ¬ s ≤ ch.offset := marked_skipped.mp hskip
    exact Again.triple hch hagain (by omega) marked_flags.1

theorem le_lessOne {x s : ℕ} (h : x < s) : x ≤ lessOne s := by
  rw [lessOne, if_neg (by omega)]
  omega

theorem outcome_clone {live : Bool} (h : ch.op = .cloneRange) : outcome C live s ch =
    rangedOutcome C live s C.cloneRangeCalls ch (max s (ch.offset2 + ch.size)) := by
  unfold outcome
  rw [h]

theorem outcome_dedupe {live : Bool} (h : ch.op = .dedupeRange) : outcome C live s ch =
    rangedOutcome C live s C.dedupeRangeCalls ch s := by
  unfold outcome
  rw [h]

theorem outcome_copy {live : Bool} (h : ch.op = .copyRange) : outcome C live s ch =
    rangedOutcome C live s C.copyRangeCalls ch (max s (ch.offset2 + ch.size)) := by
  unfold outcome
  rw [h]

/-- Where an operation is done over again on a file of the same size. -/
theorem outcome_again (hch : ch.Ok C s) (hs : s ≤ C.maxfilelen) (hmax : C.maxfilelen < 2 ^ 31)
    (hskip : (outcome C true s ch).flags.skipped = false) : Again C s (outcome C true s ch) := by
  have hin := fun limit => trim_le ch.offset ch.size limit
  have hlen := fun limit => trimLen_le (trimOff ch.offset limit) ch.size limit
  have full : ¬ (ch.op = .read ∨ ch.op = .write ∨ ch.op = .mapread ∨ ch.op = .mapwrite) →
      C.lite = false := fun h => Bool.eq_false_iff.mpr fun hl => h (hch.lite hl)
  have hsize := hch.size
  unfold outcome at hskip ⊢
  cases hop : ch.op with
  | read =>
    rw [hop] at hskip
    have hn := hsize (by rw [hop]; simp)
    exact readRange_redone (by omega) (Nat.le_trans (hlen _) hn) (Or.inl ⟨rfl, rfl⟩) hskip
  | write =>
    rw [hop] at hskip
    have hn := hsize (by rw [hop]; simp)
    exact writeRange_redone hmax (Nat.le_trans (hlen _) hn) (hin _) (Or.inl ⟨rfl, rfl⟩) hskip
  | mapread =>
    rw [hop] at hskip
    have hn := hsize (by rw [hop]; simp)
    simp only [cut] at hskip ⊢
    by_cases hm : C.mappedReads = true
    · rw [if_pos hm] at hskip ⊢
      exact readRange_redone (by omega) (Nat.le_trans (hlen _) hn) (Or.inr ⟨rfl, rfl, hm⟩) hskip
    · rw [if_neg hm] at hskip ⊢
      exact readRange_redone (by omega) (Nat.le_trans (hlen _) hn) (Or.inl ⟨rfl, rfl⟩) hskip
  | mapwrite =>
    rw [hop] at hskip
    have hn := hsize (by rw [hop]; simp)
    simp only [cut] at hskip ⊢
    by_cases hm : C.mappedWrites = true
    · rw [if_pos hm] at hskip ⊢
      exact writeRange_redone hmax (Nat.le_trans (hlen _) hn) (hin _) (Or.inr ⟨rfl, rfl, hm⟩) hskip
    · rw [if_neg hm] at hskip ⊢
      exact writeRange_redone hmax (Nat.le_trans (hlen _) hn) (hin _) (Or.inl ⟨rfl, rfl⟩) hskip
  | truncate =>
    have hcut := hch.cut hop
    have hle := alignDown_le C.truncbdy ch.size
    refine Again.pair (fun x => ?_) (by omega) (by omega) (fun h => ?_) (fun h => absurd rfl h)
      (fun _ => by omega) (by simp) rfl
    · simp only [outcome, alignDown_again]
    · exact Bool.noConfusion ((full (by rw [hop]; simp)).symm.trans h)
  | fallocate =>
    rw [hop] at hskip
    have hn := hsize (by rw [hop]; simp)
    by_cases hon : C.fallocateCalls = true
    · simp only [if_pos hon, cut] at hskip ⊢
      have hdone := marked_skipped.mp hskip
      have hi := hin C.maxfilelen
      have hl := hlen C.maxfilelen
      refine rangeOutcome_redone (k := ch.keepSize) rfl (fun x => ?_) hdone (by omega) (by omega)
        (full (by rw [hop]; simp)) (by omega) (by simp)
      simp only [outcome, if_pos hon]
      exact cut_inside hdone hi
    · simp only [if_neg hon] at hskip
      exact absurd hskip (by simp [skipped, flSkipped])
  | punchHole =>
    rw [hop] at hskip
    have hn := hsize (by rw [hop]; simp)
    by_cases hon : C.punchHoleCalls = true
    · simp only [if_pos hon, cut] at hskip ⊢
      have hdone := marked_skipped.mp hskip
      have hi := hin s
      have hl := hlen s
      refine rangeOutcome_redone (k := false) rfl (fun x => ?_) hdone (by omega) (by omega)
        (full (by rw [hop]; simp)) (by omega) (by simp)
      simp only [outcome, if_pos hon]
      exact cut_inside (not_or.mp hdone).1 hi
    · simp only [if_neg hon] at hskip
      exact absurd hskip (by simp [skipped, flSkipped])
  | zeroRange =>
    rw [hop] at hskip
    have hn := hsize (by rw [hop]; simp)
    by_cases hon : C.zeroRangeCalls = true
    · simp only [if_pos hon, cut] at hskip ⊢
      have hdone := marked_skipped.mp hskip
      have hi := hin s
      have hl := hlen s
      refine rangeOutcome_redone (k := ch.keepSize) rfl (fun x => ?_) hdone (by omega) (by omega)
        (full (by rw [hop]; simp)) (by omega) (by simp)
      simp only [outcome, if_pos hon]
      exact cut_inside hdone hi
    · simp only [if_neg hon] at hskip
      exact absurd hskip (by simp [skipped, flSkipped])
  | collapseRange =>
    rw [hop] at hskip
    have hn := hsize (by rw [hop]; simp)
    by_cases hon : C.collapseRangeCalls = true
    · simp only [if_pos hon, cut] at hskip ⊢
      have hdone := not_or.mp (marked_skipped.mp hskip)
      have hl := hlen (lessOne s)
      have ha := alignDown_le C.blockSize
        (trimLen (trimOff ch.offset (lessOne s)) ch.size (lessOne s))
      refine rangeOutcome_redone (k := false) rfl (fun x => ?_) (marked_skipped.mp hskip) (by omega)
        (by omega) (full (by rw [hop]; simp)) (by omega) (by simp)
      simp only [outcome, if_pos hon]
      rw [cut_inside hdone.1 (le_lessOne (Nat.lt_of_not_le hdone.2))]
      simp only [alignDown_again]
    · simp only [if_neg hon] at hskip
      exact absurd hskip (by simp [skipped, flSkipped])
  | insertRange =>
    rw [hop] at hskip
    have hn := hsize (by rw [hop]; simp)
    by_cases hon : C.insertRangeCalls = true
    · simp only [if_pos hon] at hskip ⊢
      have hdone := not_or.mp (marked_skipped.mp hskip)
      have hdone2 := not_or.mp hdone.2
      have hl := trimLen_le s ch.size C.maxfilelen
      have ha := alignDown_le C.blockSize (trimLen s ch.size C.maxfilelen)
      refine rangeOutcome_redone (k := false) rfl (fun x => ?_) (marked_skipped.mp hskip) (by omega)
        (by omega) (full (by rw [hop]; simp)) (by omega) (by simp)
      simp only [outcome, if_pos hon]
      rw [trimOff_of_lt (by omega), trimLen_of_le (by omega)]
      simp only [alignDown_again]
    · simp only [if_neg hon] at hskip
      exact absurd hskip (by simp [skipped, flSkipped])
  | cloneRange =>
    rw [hop] at hskip
    exact rangedOutcome_redone hch hs hmax
      (fun _ => outcome_clone hop) hskip
  | dedupeRange =>
    rw [hop] at hskip
    exact rangedOutcome_redone hch hs hmax
      (fun _ => outcome_dedupe hop) hskip
  | copyRange =>
    rw [hop] at hskip
    exact rangedOutcome_redone hch hs hmax
      (fun _ => outcome_copy hop) hskip
  | fsync =>
    exact Again.pair (fun _ => rfl) (by decide) (by decide)
      (fun h => Bool.noConfusion ((full (by rw [hop]; simp)).symm.trans h)) (fun _ => Nat.zero_le _)
      (fun h => absurd h (by simp)) (by simp) rfl

/-- An operation that is skipped leaves the size alone. -/
theorem outcome_skipped (hskip : (outcome C true s ch).flags.skipped = true) :
    (outcome C true s ch).size = s := by
  have hmark : ∀ {c : Prop} [Decidable c], (marked c).skipped = true → c := fun {c} _ h => by
    by_contra hc
    rw [marked_skipped.mpr hc] at h
    exact Bool.noConfusion h
  have hrange : ∀ {live op args size} {skip : Prop} [Decidable skip] {keep : Flags → Flags},
      ((keep (marked skip)).skipped = true → skip) →
      (rangeOutcome live s op args skip keep size).flags.skipped = true →
        (rangeOutcome live s op args skip keep size).size = s := by
    intro live op args size skip _ keep hk h
    exact if_pos (Or.inl (hk h))
  have hranged : ∀ {on size}, (rangedOutcome C true s on ch size).flags.skipped = true →
      (rangedOutcome C true s on ch size).size = s := by
    intro on size h
    unfold rangedOutcome at h ⊢
    by_cases hc : on = false ∨ ch.size = 0 ∨ C.maxfilelen < ch.offset2 + ch.size
    · rw [if_pos hc]
      rfl
    · rw [if_neg hc] at h ⊢
      exact hrange hmark h
  have hwrite : ∀ {off n direct op}, (C.writeRange s off n direct op).flags.skipped = true →
      (C.writeRange s off n direct op).size = s := fun h => if_pos (hmark h)
  unfold outcome at hskip ⊢
  cases hop : ch.op with
  | read => rfl
  | write =>
    rw [hop] at hskip
    exact hwrite hskip
  | mapread =>
    simp only [cut]
    by_cases hm : C.mappedReads = true
    · rw [if_pos hm]
      rfl
    · rw [if_neg hm]
      rfl
  | mapwrite =>
    rw [hop] at hskip
    simp only [cut] at hskip ⊢
    by_cases hm : C.mappedWrites = true
    · rw [if_pos hm] at hskip ⊢
      exact hwrite hskip
    · rw [if_neg hm] at hskip ⊢
      exact hwrite hskip
  | truncate =>
    rw [hop] at hskip
    exact absurd hskip (by simp [flNone])
  | fallocate =>
    rw [hop] at hskip
    by_cases hon : C.fallocateCalls = true
    · simp only [if_pos hon, cut] at hskip ⊢
      exact hrange hmark hskip
    · simp only [if_neg hon]
      rfl
  | punchHole =>
    rw [hop] at hskip
    by_cases hon : C.punchHoleCalls = true
    · simp only [if_pos hon, cut] at hskip ⊢
      exact hrange hmark hskip
    · simp only [if_neg hon]
      rfl
  | zeroRange =>
    rw [hop] at hskip
    by_cases hon : C.zeroRangeCalls = true
    · simp only [if_pos hon, cut] at hskip ⊢
      exact hrange hmark hskip
    · simp only [if_neg hon]
      rfl
  | collapseRange =>
    rw [hop] at hskip
    by_cases hon : C.collapseRangeCalls = true
    · simp only [if_pos hon, cut] at hskip ⊢
      exact hrange hmark hskip
    · simp only [if_neg hon]
      rfl
  | insertRange =>
    rw [hop] at hskip
    by_cases hon : C.insertRangeCalls = true
    · simp only [if_pos hon] at hskip ⊢
      exact hrange hmark hskip
    · simp only [if_neg hon]
      rfl
  | cloneRange =>
    rw [hop] at hskip
    exact hranged hskip
  | dedupeRange =>
    rw [hop] at hskip
    exact hranged hskip
  | copyRange =>
    rw [hop] at hskip
    exact hranged hskip
  | fsync => rfl

/-- A live operation is logged. -/
theorem outcome_loud : (outcome C true s ch).silent = false := by
  have hranged : ∀ {on size}, (rangedOutcome C true s on ch size).silent = false := by
    intro on size
    unfold rangedOutcome
    by_cases hc : on = false ∨ ch.size = 0 ∨ C.maxfilelen < ch.offset2 + ch.size
    · rw [if_pos hc]
      rfl
    · rw [if_neg hc]
      rfl
  unfold outcome
  cases ch.op with
  | mapread => cases h : C.mappedReads <;> simp only [cut] <;> rfl
  | mapwrite => cases h : C.mappedWrites <;> simp only [cut] <;> rfl
  | fallocate => cases h : C.fallocateCalls <;> rfl
  | punchHole => cases h : C.punchHoleCalls <;> rfl
  | zeroRange => cases h : C.zeroRangeCalls <;> rfl
  | collapseRange => cases h : C.collapseRangeCalls <;> rfl
  | insertRange => cases h : C.insertRangeCalls <;> rfl
  | cloneRange => exact hranged
  | dedupeRange => exact hranged
  | copyRange => exact hranged
  | _ => rfl

/-- From the entry of an operation that was done comes that operation. -/
theorem Again.choice {o : Outcome} (h : Again C s o) (b : Bool) :
    (o.entry s b).choice = ⟨o.op, o.args.getD 0 0, o.args.getD 1 0,
      o.args.getD 2 (signed (word s)), o.flags.keepSize⟩ := by
  have harg : ∀ i (hi : i < o.args.length), (o.entry s b).arg i = o.args[i] := by
    intro i hi
    have hget : ((o.args ++ [s]).map word).getD i 0 = word o.args[i] := by
      rw [List.getD_eq_getElem?_getD, List.getElem?_map, List.getElem?_append_left hi]
      simp [hi]
    exact (congrArg signed hget).trans (signed_word (h.small _ (List.getElem_mem hi)))
  have hgetD : ∀ i x (hi : i < o.args.length), o.args.getD i x = o.args[i] := by
    intro i x hi
    simp [List.getD_eq_getElem?_getD, hi]
  have h2 := h.two
  have hthird : (o.entry s b).arg 2 = o.args.getD 2 (signed (word s)) := by
    by_cases hi : 2 < o.args.length
    · rw [harg 2 hi, hgetD 2 _ hi]
    · have hlen : o.args.length = 2 := by omega
      have hget : ((o.args ++ [s]).map word).getD 2 0 = word s := by
        simp [List.getD_eq_getElem?_getD, hlen]
      rw [LogEntry.arg, show (o.entry s b).args = (o.args ++ [s]).map word from rfl, hget]
      simp [List.getD_eq_getElem?_getD, hlen]
  unfold LogEntry.choice
  rw [harg 0 (by omega), harg 1 (by omega), hthird, hgetD 0 0 (by omega), hgetD 1 0 (by omega)]
  rfl

end

/-! ### Replaying a book -/

/-- An entry and what becomes of it in a replay: the same entry, if the operation
was done; else an entry that is skipped, with three arguments. -/
structure Redone (e e' : LogEntry) : Prop where
  operation : e'.operation = e.operation
  skipped : e'.flags.skipped = e.flags.skipped
  range : e'.args.take 2 = e.args.take 2
  fits : e'.Fits
  done : e.flags.skipped = false → e' = e
  short : e.flags.skipped = true → e'.args.length = 3

section

variable {φ : Type} {F : FileSystem φ} {C : Config} {s : ℕ}

/-- The log of a call that takes a skipped operation. -/
theorem redone_skipped (w : World φ) {e : LogEntry} (hf : e.Fits) (h2 : 2 ≤ e.args.length)
    (hskip : e.flags.skipped = true) :
    Redone e (logged w e.operation [e.args.getD 0 0, e.args.getD 1 0] e.flags) where
  operation := rfl
  skipped := rfl
  range := by
    match hargs : e.args, h2 with
    | a :: b :: rest, _ =>
      have ha : word a = a := Nat.mod_eq_of_lt (hf.words a (by simp [hargs]))
      have hb : word b = b := Nat.mod_eq_of_lt (hf.words b (by simp [hargs]))
      simp [logged, ha, hb]
  fits := by
    refine ⟨by simp [logged], fun a ha => ?_⟩
    obtain ⟨x, -, rfl⟩ := List.mem_map.mp ha
    exact Nat.mod_lt _ (by decide)
  done h := Bool.noConfusion (h.symm.trans hskip)
  short _ := by simp [logged]

/-- Before an entry of a replay. -/
structure Ready (C : Config) (s : ℕ) (es : List LogEntry) (begun : Bool) (w : World (Watched φ)) :
    Prop where
  size : w.fileSize = s
  logged : Logged es w
  rested : begun = false → ∃ t, Rested C t w
  synced : begun = true → ∃ t, Synced C (t + 1) w

/-- The call is begun. -/
theorem begin_ready {es : List LogEntry} {begun : Bool} :
    Ends (Ready C s es begun) (onlyIf (begun = false) (begin (watch F) C))
      (fun _ => Ready C s es true) Blamed := by
  refine Ends.onlyIf (fun hb => Ends.of_eq fun w hw => ?_) fun hb w hw => ?_
  · obtain ⟨t, ht⟩ := hw.rested hb
    have htakes : Ends (Since w s) _ _ _ := begin_takes (F := watch F) (C := C)
    refine ((begin_synced (t := t)).and htakes).weaken ?_ ?_ fun _ _ h => h.1
    · rintro v rfl
      exact ⟨ht, rfl, rfl, rfl, rfl, rfl, hw.size⟩
    · rintro _ v ⟨h1, h2⟩
      have hlogged : Logged es { w with testcalls := w.testcalls + 1 } :=
        ⟨hw.logged.holds, hw.logged.logcount⟩
      exact ⟨h2.size, hlogged.since h2, fun h => Bool.noConfusion h, fun _ => ⟨t, h1⟩⟩
  · have hb : begun = true := by simpa using hb
    exact hb ▸ hw

theorem skipped_ready {es : List LogEntry} {e : LogEntry} (hf : e.Fits) (h2 : 2 ≤ e.args.length)
    (hskip : e.flags.skipped = true) :
    Ends (Ready C s es true) (log4 e.operation (e.args.getD 0 0) (e.args.getD 1 0) e.flags)
      (fun _ w => ∃ e', Redone e e' ∧ Ready C s (es ++ [e']) true w)
      (Blamed : Stop → World (Watched φ) → Prop) := by
  refine Ends.modify fun w hw => ⟨_, redone_skipped w hf h2 hskip, ?_⟩
  refine ⟨hw.size, hw.logged.noted [_], fun h => Bool.noConfusion h, fun h => ?_⟩
  obtain ⟨t, f, c, hat, hlev⟩ := hw.synced h
  exact ⟨t, f, c, ⟨hat.testcalls, hat.fair, hat.file, hat.content, hat.room⟩, hlev⟩

/-- An operation that was done is done again. -/
theorem done_ready (patience : ℕ) {es : List LogEntry} {ch : Choice} {b : Bool} (hC : C.Ok)
    (hsim : C.simulatedopcount = 0) (hmax : C.maxfilelen < 2 ^ 31) (hch : ch.Ok C s)
    (hskip : (outcome C true s ch).flags.skipped = false) :
    Ends (Ready C s es true)
      (do
        modify fun w => { w with closeopen := ((outcome C true s ch).entry s b).flags.closeOpen }
        perform (watch F) C patience ((outcome C true s ch).entry s b).choice)
      (fun _ => Ready C (outcome C true s ch).size
        (es ++ [(outcome C true s ch).entry s b]) false) Blamed := by
  refine Ends.of_eq fun w hw => ?_
  obtain ⟨t, f, c, hat, hlev⟩ := hw.synced rfl
  have hsize : c.size = s := hat.size.symm.trans hw.size
  have hagain := outcome_again hch (hsize ▸ hat.le) hmax hskip
  have hout : outcome C true s ((outcome C true s ch).entry s b).choice = outcome C true s ch := by
    rw [hagain.choice b]
    exact hagain.again _
  have hclose : ((outcome C true s ch).entry s b).flags.closeOpen = b := by
    show ((outcome C true s ch).flags.closeOpen || b) = b
    rw [hagain.closed, Bool.false_or]
  rw [hclose]
  refine Ends.bind (R := fun _ v => v = { w with closeopen := b }) (Ends.modify fun v hv => by rw [hv])
    fun _ => ?_
  have hok : ((outcome C true s ch).entry s b).choice.Ok C c.size := by
    rw [hsize, hagain.choice b]
    exact hagain.ok _
  have hlive : C.live { w with closeopen := b } = true := by
    unfold Config.live
    rw [hsim]
    exact decide_eq_true (hat.testcalls ▸ Nat.succ_pos t)
  have hbooks : Books { w with closeopen := b } s _
      (perform (watch F) C patience ((outcome C true s ch).entry s b).choice) := perform_books _
  refine ((perform_synced hC hlev hok).and hbooks).weaken ?_ ?_ fun _ _ h => h.1
  · rintro v rfl
    exact ⟨⟨hat.testcalls, hat.fair, hat.file, hat.content, hat.room⟩,
      rfl, rfl, rfl, rfl, rfl, hw.size⟩
  · rintro _ v ⟨h1, h2⟩
    rw [hlive, hout] at h2
    refine ⟨h2.size, ?_, fun _ => ⟨t + 1, h1.rested⟩, fun h => Bool.noConfusion h⟩
    have hentries : (outcome C true s ch).entries s b = [(outcome C true s ch).entry s b] := by
      unfold Outcome.entries
      rw [outcome_loud]
      rfl
    have hlog : Logged es { w with closeopen := b } := ⟨hw.logged.holds, hw.logged.logcount⟩
    have := (hlog.noted ((outcome C true s ch).entries s b)).since h2
    rwa [hentries] at this

/-- A replay does the operations of a book. -/
theorem replay_ready {patience : ℕ} (hC : C.Ok) (hsim : C.simulatedopcount = 0)
    (hmax : C.maxfilelen < 2 ^ 31) : ∀ (chs : List (Choice × Bool)) (t s : ℕ) (es : List LogEntry)
      (begun : Bool), Bookable C t s chs →
    Ends (Ready C s es begun) (replay (watch F) C patience begun (book C t s chs).1)
      (fun _ w => ∃ es', List.Forall₂ Redone (book C t s chs).1 es' ∧
        Ready C (book C t s chs).2 (es ++ es') true w) Blamed
  | [], t, s, es, begun, _ => by
    refine begin_ready.weaken (fun _ h => h) (fun _ w hw => ⟨[], .nil, ?_⟩) fun _ _ h => h
    rw [List.append_nil]
    exact hw
  | (ch, b) :: chs, t, s, es, begun, hok => by
    have hlive : decide (C.simulatedopcount < t + 1) = true :=
      decide_eq_true (hsim ▸ Nat.succ_pos t)
    have hbook : book C t s ((ch, b) :: chs) = ((outcome C true s ch).entry s b ::
        (book C (t + 1) (outcome C true s ch).size chs).1,
        (book C (t + 1) (outcome C true s ch).size chs).2) := by
      simp only [book, hlive, Outcome.entries, outcome_loud]
      rfl
    rw [Bookable, hlive] at hok
    rw [hbook]
    simp only
    refine Ends.bind begin_ready fun _ => Ends.ite (fun hskip => ?_) fun hskip => ?_
    · have hskip' : (outcome C true s ch).flags.skipped = true := hskip
      have hargs := outcome_args C true s ch
      have htwo : 2 ≤ ((outcome C true s ch).entry s b).args.length := by
        have h3 : ∀ op, 3 ≤ opArgsCount op := fun op => by cases op <;> decide
        have := h3 (outcome C true s ch).op
        simp only [Outcome.entry, List.length_map, List.length_append]
        omega
      refine Ends.bind (skipped_ready (entry_fits C true s ch b) htwo hskip) fun _ => ?_
      rintro w ⟨e', he', hw⟩
      rw [outcome_skipped hskip'] at hok ⊢
      refine (replay_ready hC hsim hmax chs (t + 1) s (es ++ [e']) true hok.2 w hw).mono ?_
        fun _ _ h => h
      rintro _ v ⟨es', hes', hv⟩
      exact ⟨e' :: es', .cons he' hes', by simpa using hv⟩
    · have hskip' : (outcome C true s ch).flags.skipped = false := Bool.eq_false_iff.mpr hskip
      intro w hw
      have hrest := Ends.bind (f := fun _ => replay (watch F) C patience false
        (book C (t + 1) (outcome C true s ch).size chs).1)
        (done_ready (F := F) patience hC hsim hmax hok.1 hskip') fun _ =>
        replay_ready hC hsim hmax chs (t + 1) _ (es ++ [(outcome C true s ch).entry s b]) false hok.2
      refine AtEnd.mono (hrest w hw) ?_ fun _ _ h => h
      rintro _ v ⟨es', hes', hv⟩
      refine ⟨(outcome C true s ch).entry s b :: es', .cons ?_ hes', by simpa using hv⟩
      exact ⟨rfl, rfl, rfl, entry_fits C true s ch b, fun _ => rfl,
        fun h => Bool.noConfusion (hskip'.symm.trans h)⟩

/-! ### Replaying a record -/

theorem replay_under {patience : ℕ} : ∀ (es : List LogEntry) (begun : Bool),
    Same (replay (watch F) C patience begun es) (replay F C patience begun es)
  | [], _ => Maps.onlyIf begin_under
  | e :: es, _ => by
    refine Maps.bind (Maps.onlyIf begin_under) fun _ => Maps.ite (fun _ => ?_) fun _ => ?_
    · exact Maps.bind log4_under fun _ => replay_under es true
    · exact Maps.bind (Maps.modify fun _ => rfl) fun _ => Maps.bind (perform_under _) fun _ =>
        replay_under es false

theorem replayFile_under {patience : ℕ} (ops : List LogEntry × Bool) :
    Same (replayFile (watch F) C patience ops) (replayFile F C patience ops) :=
  Maps.bind (replay_under ops.1 false) fun _ => Maps.ite (fun _ => Maps.pure) fun _ => Maps.stop

theorem book_length (hsim : C.simulatedopcount = 0) : ∀ (chs : List (Choice × Bool)) (t s : ℕ),
    (book C t s chs).1.length = chs.length
  | [], _, _ => rfl
  | (ch, b) :: chs, t, s => by
    have hlive : decide (C.simulatedopcount < t + 1) = true :=
      decide_eq_true (hsim ▸ Nat.succ_pos t)
    simp only [book, hlive, Outcome.entries, outcome_loud, List.length_append, List.length_cons,
      book_length hsim chs (t + 1)]
    simp [Nat.add_comm]

theorem kept_of_le {es : List LogEntry} (h : es.length ≤ logSize) : kept es = es := by
  rw [kept, Nat.sub_eq_zero_of_le h, List.drop_zero]

theorem lt_logcount {n : ℕ} (h : n ≤ logSize) : n < 2 ^ 31 := by
  have : logSize < 2 ^ 31 := by decide
  omega

/-- What a recorded run leaves for its replay. -/
theorem record_ops (hmax : 0 < C.maxfilelen) (hsim : C.simulatedopcount = 0) {w w1 : World φ}
    (hw : Before 0 s [] w) {patience numops : ℕ} (hn : numops ≤ logSize)
    (hrun : runTests F C patience numops w = .ok ((), w1)) (star : LogEntry → Bool) :
    ∃ chs, Bookable C 0 s chs ∧ w1.entries = (book C 0 s chs).1 ∧ w1.fileSize = (book C 0 s chs).2 ∧
      chs.length ≤ logSize ∧
      readOps (logSize + 1) (opsFile star w1.entries) = ((book C 0 s chs).1, true) := by
  have hbooks : Ends _ (runTests F C patience numops) _ _ := runTests_books hmax numops 0 s []
  have h := hbooks w hw
  rw [hrun] at h
  obtain ⟨chs, hlen, hok, hv⟩ := h
  have hle : (book C 0 s chs).1.length ≤ logSize := by
    rw [book_length hsim, hlen]
    exact hn
  have hdump : Dumped (book C 0 s chs).1 w1 :=
    hv.logged.dumped (lt_logcount hle) fun e he => book_entries C chs 0 s e he
  have hkept := kept_of_le hle
  refine ⟨chs, hok, hdump.entries.trans hkept, hv.size, hlen ▸ hn, ?_⟩
  rw [hdump.readable star _ (Nat.lt_succ_self _), hkept]

end

section

variable {φ ψ : Type} {C : Config} {s : ℕ}

/-- What a watched replay of a recorded run comes to. -/
theorem replay_ends (F : FileSystem φ) (G : FileSystem ψ) (hC : C.Ok)
    (hsim : C.simulatedopcount = 0) (hmax : C.maxfilelen < 2 ^ 31) {w w1 : World φ}
    (hw : Before 0 s [] w) {patience numops : ℕ} (hn : numops ≤ logSize)
    (hrun : runTests F C patience numops w = .ok ((), w1)) {v : World ψ} {f : File}
    (hstart : Start C v f) (hv : Before 0 s [] v) (star : LogEntry → Bool) (patience' : ℕ) :
    AtEnd (fun _ v' => v'.fs.fair ∧ v'.content = v'.fs.file ∧ v'.fileSize = w1.fileSize ∧
        List.Forall₂ Redone w1.entries v'.entries) Blamed
      (replayFile (watch G) C patience'
        (readOps (logSize + 1) (opsFile star w1.entries)) (v.watched f)) := by
  obtain ⟨chs, hok, hentries, hsize, hlen, hread⟩ := record_ops hC.maxfilelen hsim hw hn hrun star
  rw [hread, hentries, hsize]
  have hready : Ready C s [] false (v.watched f) :=
    ⟨hv.size, ⟨hv.logged.holds, hv.logged.logcount⟩, fun _ => ⟨0, hstart.rested⟩,
      fun h => Bool.noConfusion h⟩
  have hreplay : Ends (Ready C s [] false)
      (replayFile (watch G) C patience' ((book C 0 s chs).1, true))
      (fun _ w => ∃ es', List.Forall₂ Redone (book C 0 s chs).1 es' ∧
        Ready C (book C 0 s chs).2 ([] ++ es') true w) Blamed :=
    Ends.bind (replay_ready hC hsim hmax chs 0 s [] false hok) fun _ => Ends.pure fun _ h => h
  refine AtEnd.mono (hreplay _ hready) ?_ fun _ _ h => h
  rintro _ v' ⟨es', hes', hv'⟩
  obtain ⟨t, g, c, hat, hlev⟩ := hv'.synced rfl
  have hlen' : es'.length ≤ logSize := by
    rw [← hes'.length_eq, book_length hsim]
    exact hlen
  have hlogged : Logged es' v' := hv'.logged
  refine ⟨hat.fair.mpr trivial, ?_, hv'.size, ?_⟩
  · rw [hat.content, hat.file, hlev.same (hsim ▸ Nat.succ_pos t)]
  · rw [hlogged.entries (lt_logcount hlen'), kept_of_le hlen']
    exact hes'

/-- A clone of an empty file, which is skipped, and a write. -/
def skippingWorld : World File := emptyWorld [10, 0, 3, 0, 1, 3, 4]

theorem skippingWorld_ran :
    ∃ w1, runTests inMemory smallConfig 5 2 skippingWorld = .ok ((), w1) := by
  have h : (runTests inMemory smallConfig 5 2 skippingWorld).isOk = true := by decide +kernel
  cases hr : runTests inMemory smallConfig 5 2 skippingWorld with
  | ok r => exact ⟨r.2, rfl⟩
  | error e =>
    rw [hr] at h
    exact Bool.noConfusion h

/-- An entry of a replay has the arguments its operation needs, unless a clone,
a dedupe or a copy was skipped. -/
theorem Redone.sized_iff {e e' : LogEntry} (h : Redone e e') (hs : e.sized = true) :
    e'.sized = true ↔ ¬ (e.flags.skipped = true ∧ opArgsCount e.operation = 4) := by
  cases hskip : e.flags.skipped with
  | false =>
    rw [h.done hskip]
    simp [hs]
  | true =>
    have h34 : opArgsCount e.operation = 3 ∨ opArgsCount e.operation = 4 := by
      cases e.operation <;> simp [opArgsCount]
    simp only [LogEntry.sized, h.short hskip, h.operation, beq_iff_eq, true_and]
    omega

theorem all_sized_iff : ∀ {es es' : List LogEntry}, List.Forall₂ Redone es es' →
    (∀ e ∈ es, e.sized = true) → (es'.all LogEntry.sized = true ↔
      ∀ e ∈ es, ¬ (e.flags.skipped = true ∧ opArgsCount e.operation = 4))
  | [], [], .nil, _ => by simp
  | e :: es, e' :: es', .cons h hs, hsized => by
    rw [List.all_cons, Bool.and_eq_true, h.sized_iff (hsized e List.mem_cons_self),
      all_sized_iff hs fun x hx => hsized x (List.mem_cons_of_mem _ hx)]
    simp

theorem redone_fits : ∀ {es es' : List LogEntry}, List.Forall₂ Redone es es' →
    ∀ e ∈ es', e.Fits
  | [], [], .nil, _, he => absurd he List.not_mem_nil
  | _ :: _, _ :: _, .cons h hs, x, hx => by
    rcases List.mem_cons.mp hx with rfl | hx
    · exact h.fits
    · exact redone_fits hs x hx

/-- **A replay is not always recorded.** Where the replay of a recorded run ends
well, the file of operations it leaves can be read just when the run skipped
no clone, dedupe or copy. -/
theorem replay_twice (F : FileSystem φ) (G : FileSystem ψ) (hC : C.Ok)
    (hsim : C.simulatedopcount = 0) (hmax : C.maxfilelen < 2 ^ 31) {w w1 : World φ}
    (hw : Before 0 s [] w) {patience numops : ℕ} (hn : numops ≤ logSize)
    (hrun : runTests F C patience numops w = .ok ((), w1)) {v v1 : World ψ} {f : File}
    (hstart : Start C v f) (hv : Before 0 s [] v) {star : LogEntry → Bool} {patience' : ℕ}
    (hreplay : replayFile G C patience' (readOps (logSize + 1) (opsFile star w1.entries)) v =
      .ok ((), v1)) (star' : LogEntry → Bool) :
    (readOps (logSize + 1) (opsFile star' v1.entries)).2 = true ↔
      ∀ e ∈ w1.entries, ¬ (e.flags.skipped = true ∧
        (e.operation = .cloneRange ∨ e.operation = .dedupeRange ∨ e.operation = .copyRange)) := by
  have hsame : replayFile G C patience' (readOps (logSize + 1) (opsFile star w1.entries)) v =
      endMap World.under (replayFile (watch G) C patience'
        (readOps (logSize + 1) (opsFile star w1.entries)) (v.watched f)) :=
    replayFile_under _ (v.watched f)
  have hend := replay_ends F G hC hsim hmax hw hn hrun hstart hv star patience'
  obtain ⟨chs, hok, hentries, hsize, hlen, hread⟩ := record_ops hC.maxfilelen hsim hw hn hrun star
  rw [hreplay] at hsame
  cases hres : replayFile (watch G) C patience'
      (readOps (logSize + 1) (opsFile star w1.entries)) (v.watched f) with
  | error e =>
    rw [hres] at hsame
    exact absurd hsame (by simp [endMap])
  | ok r =>
    rw [hres] at hsame hend
    obtain ⟨-, -, -, hredone⟩ := hend
    have hv1 : v1 = r.2.under := by
      have := Except.ok.inj hsame
      exact congrArg Prod.snd this
    have hent : v1.entries = r.2.entries := by rw [hv1]; rfl
    have hlen' : r.2.entries.length < logSize + 1 := by
      rw [← hredone.length_eq, hentries, book_length hsim]
      exact Nat.lt_succ_of_le hlen
    rw [hent, readOps_opsFile star' _ _ (redone_fits hredone) hlen',
      all_sized_iff hredone fun e he => by
        rw [hentries] at he
        exact (book_entries C chs 0 s e he).1]
    have h4 : ∀ op, opArgsCount op = 4 ↔ op = .cloneRange ∨ op = .dedupeRange ∨ op = .copyRange :=
      fun op => by cases op <;> simp [opArgsCount]
    simp only [h4]

end

/-- The record of a run with a skipped clone, replayed, and its record. -/
def replayedTwice : Bool :=
  match runTests inMemory smallConfig 5 2 skippingWorld with
  | .error _ => false
  | .ok (_, w1) =>
    (replayFile inMemory smallConfig 5
      (readOps (logSize + 1) (opsFile (fun _ => true) w1.entries)) skippingWorld).isOk

/-- The record of this replay cannot be read. -/
theorem replay_twice_inMemory : ∃ w1 v1,
    runTests inMemory smallConfig 5 2 skippingWorld = .ok ((), w1) ∧
    replayFile inMemory smallConfig 5
      (readOps (logSize + 1) (opsFile (fun _ => true) w1.entries)) skippingWorld = .ok ((), v1) ∧
    ((readOps (logSize + 1) (opsFile (fun _ => false) v1.entries)).2 = true ↔
      ∀ e ∈ w1.entries, ¬ (e.flags.skipped = true ∧
        (e.operation = .cloneRange ∨ e.operation = .dedupeRange ∨ e.operation = .copyRange))) := by
  obtain ⟨w1, h⟩ := skippingWorld_ran
  have hok : replayedTwice = true := by decide +kernel
  unfold replayedTwice at hok
  rw [h] at hok
  cases hr : replayFile inMemory smallConfig 5
      (readOps (logSize + 1) (opsFile (fun _ => true) w1.entries)) skippingWorld with
  | error e =>
    simp only [hr] at hok
    exact Bool.noConfusion hok
  | ok r =>
    exact ⟨w1, r.2, h, hr, replay_twice inMemory inMemory smallConfig_ok rfl (by decide)
      (emptyWorld_before _) (by decide) h (emptyWorld_start _) (emptyWorld_before _) hr _⟩

end Fsx
end Longan
