/-
# fsx: what a run comes to in the log

Whatever a file system answers, an operation that is begun has its place in
the log and its effect on `file_size`: `outcome` says both from the size of
the file and what was chosen, without a run, and `dispatch_books` that a run
does just that. `book` puts the outcomes of a run one after the other. After
the simulated operations an operation is live; before, some of them leave the
size alone and `fsync` is not logged.
-/
import Longan.Lib.Ring
import Longan.Fsx.Choose

namespace Longan
namespace Fsx

/-- What an operation logs, and the size of the file after it. -/
structure Outcome where
  op : Op
  args : List ℕ
  flags : Flags
  size : ℕ
  silent : Bool
deriving DecidableEq, Repr

def marked (skip : Prop) [Decidable skip] : Flags := if skip then flSkipped else flNone

section Outcomes

variable (C : Config) (live : Bool) (s off n : ℕ)

/-- A read or a mapped read of an aligned range. -/
def readOutcome (op : Op) : Outcome :=
  ⟨op, [off, n], marked (n = 0 ∨ s < n + off), s, false⟩

def writeOutcome (op : Op) : Outcome :=
  ⟨op, [off, n], marked (n = 0), if n = 0 then s else max s (off + n), false⟩

/-- The size changes only where the operation is live and not skipped. -/
def rangeOutcome (op : Op) (args : List ℕ) (skip : Prop) [Decidable skip] (flags : Flags → Flags)
    (size : ℕ) : Outcome :=
  ⟨op, args, flags (marked skip), if skip ∨ live = false then s else size, false⟩

/-- A range as `trimmed` cuts it. -/
def cut (limit : ℕ) (m : ℕ → ℕ → Outcome) : Outcome :=
  m (trimOff off limit) (trimLen (trimOff off limit) n limit)

def skipped (op : Op) (args : List ℕ) : Outcome := ⟨op, args, flSkipped, s, false⟩

def Config.readRange (direct : Bool) (op : Op) : Outcome :=
  readOutcome s (alignDown C.readbdy off) (if direct then alignDown C.readbdy n else n) op

def Config.writeRange (direct : Bool) (op : Op) : Outcome :=
  writeOutcome s (alignDown C.writebdy off) (if direct then alignDown C.writebdy n else n) op

end Outcomes

/-- A clone, a dedupe or a copy. -/
def rangedOutcome (C : Config) (live : Bool) (s : ℕ) (on : Bool) (ch : Choice) (size : ℕ) : Outcome :=
  if on = false ∨ ch.size = 0 ∨ C.maxfilelen < ch.offset2 + ch.size then
    skipped s ch.op [ch.offset, ch.size, ch.offset2]
  else
    rangeOutcome live s ch.op [ch.offset, ch.size, ch.offset2] (s ≤ ch.offset) id size

/-- What `dispatch` comes to. -/
def outcome (C : Config) (live : Bool) (s : ℕ) (ch : Choice) : Outcome :=
  match ch.op with
  | .read => cut ch.offset ch.size s fun off n => C.readRange s off n C.oDirect .read
  | .write => cut ch.offset ch.size C.maxfilelen fun off n => C.writeRange s off n C.oDirect .write
  | .mapread => cut ch.offset ch.size s fun off n =>
    if C.mappedReads then C.readRange s off n false .mapread else C.readRange s off n C.oDirect .read
  | .mapwrite => cut ch.offset ch.size C.maxfilelen fun off n =>
    if C.mappedWrites then C.writeRange s off n false .mapwrite
    else C.writeRange s off n C.oDirect .write
  | .truncate => ⟨.truncate, [0, alignDown C.truncbdy ch.size], flNone,
    alignDown C.truncbdy ch.size, false⟩
  | .fallocate =>
    if C.fallocateCalls then cut ch.offset ch.size C.maxfilelen fun off n =>
      rangeOutcome true s .fallocate [off, n] (n = 0) (keepFlags · ch.keepSize)
        (max s (if ch.keepSize then 0 else off + n))
    else skipped s .fallocate [ch.offset, ch.size]
  | .punchHole =>
    if C.punchHoleCalls then cut ch.offset ch.size s fun off n =>
      rangeOutcome live s .punchHole [off, n] (n = 0 ∨ s ≤ off) id s
    else skipped s .punchHole [ch.offset, ch.size]
  | .zeroRange =>
    if C.zeroRangeCalls then cut ch.offset ch.size s fun off n =>
      rangeOutcome live s .zeroRange [off, n] (n = 0) (keepFlags · ch.keepSize) s
    else skipped s .zeroRange [ch.offset, ch.size]
  | .collapseRange =>
    if C.collapseRangeCalls then cut ch.offset ch.size (lessOne s) fun off n =>
      rangeOutcome live s .collapseRange [alignDown C.blockSize off, alignDown C.blockSize n]
        (alignDown C.blockSize n = 0 ∨ s ≤ alignDown C.blockSize off + alignDown C.blockSize n) id
        (s - alignDown C.blockSize n)
    else skipped s .collapseRange [ch.offset, ch.size]
  | .insertRange =>
    if C.insertRangeCalls then
      let off := alignDown C.blockSize (trimOff ch.offset s)
      let n := alignDown C.blockSize (trimLen s ch.size C.maxfilelen)
      rangeOutcome live s .insertRange [off, n] (n = 0 ∨ C.maxfilelen < s + n ∨ s ≤ off) id (s + n)
    else skipped s .insertRange [ch.offset, ch.size]
  | .cloneRange => rangedOutcome C live s C.cloneRangeCalls ch (max s (ch.offset2 + ch.size))
  | .dedupeRange => rangedOutcome C live s C.dedupeRangeCalls ch s
  | .copyRange => rangedOutcome C live s C.copyRangeCalls ch (max s (ch.offset2 + ch.size))
  | .fsync => ⟨.fsync, [0, 0], flNone, s, !live⟩

/-- The entry, from a file of size `s`. -/
def Outcome.entry (o : Outcome) (s : ℕ) (closeopen : Bool) : LogEntry :=
  ⟨o.op, (o.args ++ [s]).map word, { o.flags with closeOpen := o.flags.closeOpen || closeopen }⟩

def Outcome.entries (o : Outcome) (s : ℕ) (closeopen : Bool) : List LogEntry :=
  if o.silent then [] else [o.entry s closeopen]

section

variable {φ : Type} {F : FileSystem φ} {C : Config}

/-- Since `w0` nothing was logged, and the size of the file is `s`. -/
structure Since (w0 : World φ) (s : ℕ) (w : World φ) : Prop where
  oplog : w.oplog = w0.oplog
  logptr : w.logptr = w0.logptr
  logcount : w.logcount = w0.logcount
  closeopen : w.closeopen = w0.closeopen
  testcalls : w.testcalls = w0.testcalls
  size : w.fileSize = s

/-- Stopped with the log of `w0`. -/
def StoppedAt (w0 : World φ) (_ : Stop) (w : World φ) : Prop := ∃ s, Since w0 s w

/-- Logs nothing, and the size goes from `s` to `s'`. -/
abbrev Takes {α : Type} (w0 : World φ) (s s' : ℕ) (m : Run φ α) : Prop :=
  Ends (Since w0 s) m (fun _ => Since w0 s') (StoppedAt w0)

section Small

variable {w0 : World φ} {s s' : ℕ} {α : Type}

theorem Takes.pure {a : α} : Takes w0 s s (Pure.pure a : Run φ α) := Ends.pure fun _ h => h

theorem Takes.stop {e : Stop} : Takes w0 s s' (stop e : Run φ α) := Ends.stop fun _ h => ⟨s, h⟩

theorem Takes.get_bind {m : World φ → Run φ α}
    (h : ∀ w, Since w0 s w → Takes w0 s s' (m w)) : Takes w0 s s' (get >>= m) :=
  Ends.get_bind fun w hw => (h w hw).weaken (fun _ he => he ▸ hw) (fun _ _ hq => hq) fun _ _ he => he

theorem ask_takes {ρ : Type} (c : Call ρ) : Takes w0 s s (ask F c) := fun _ hw =>
  ⟨hw.oplog, hw.logptr, hw.logcount, hw.closeopen, hw.testcalls, hw.size⟩

theorem askOr_takes {c : Call Bool} {e : Stop} : Takes w0 s s (askOr F c e) :=
  Ends.bind (ask_takes c) fun _ => Ends.ite (fun _ => Takes.pure) fun _ => Takes.stop

theorem askOrReport_takes {c : Call Bool} {status : ℕ} : Takes w0 s s (askOrReport F c status) :=
  askOr_takes

theorem writeOrReport_takes {off status : ℕ} {data : List UInt8} :
    Takes w0 s s (writeOrReport F off data status) := by
  refine Ends.bind (ask_takes _) fun r => ?_
  cases r with
  | none => exact Takes.stop
  | some n => exact Ends.ite (fun _ => Takes.pure) fun _ => Takes.stop

/-- A change of what is not in the log. -/
theorem modify_takes {g : World φ → World φ} (h : ∀ w, Since w0 s w → Since w0 s' (g w)) :
    Takes w0 s s' (modify g : Run φ Unit) := Ends.modify h

theorem within_takes {cap off n : ℕ} : Takes w0 s s (within cap off n : Run φ Unit) :=
  Ends.ite (fun _ => Takes.pure) fun _ => Takes.stop

theorem memset_takes {off n : ℕ} : Takes w0 s s (memset C off n : Run φ Unit) :=
  Ends.bind within_takes fun _ => modify_takes fun _ h =>
    ⟨h.oplog, h.logptr, h.logcount, h.closeopen, h.testcalls, h.size⟩

theorem memmove_takes {dest src n : ℕ} : Takes w0 s s (memmove C dest src n : Run φ Unit) :=
  Ends.bind within_takes fun _ => Ends.bind within_takes fun _ => modify_takes fun _ h =>
    ⟨h.oplog, h.logptr, h.logcount, h.closeopen, h.testcalls, h.size⟩

theorem setSize_takes : Takes w0 s s' (modify fun w => { w with fileSize := s' } : Run φ Unit) :=
  modify_takes fun _ h => ⟨h.oplog, h.logptr, h.logcount, h.closeopen, h.testcalls, rfl⟩

theorem onlyIf_takes {c : Prop} [Decidable c] {m : Run φ Unit} (h : Takes w0 s s m) :
    Takes w0 s s (onlyIf c m) := Ends.onlyIf (fun _ => h) fun _ _ h => h

theorem genAndExtend_takes {off n : ℕ} :
    Takes w0 s (max s (off + n)) (genAndExtend C off n : Run φ Unit) := by
  refine Ends.bind within_takes fun _ => Ends.bind (modify_takes fun _ h =>
    ⟨h.oplog, h.logptr, h.logcount, h.closeopen, h.testcalls, h.size⟩) fun _ =>
    Takes.get_bind fun w hw => ?_
  rw [hw.size]
  refine Ends.onlyIf (fun h => Ends.bind (onlyIf_takes memset_takes) fun _ => ?_) fun h w hw => ?_
  · rw [Nat.max_eq_right (Nat.le_of_lt h)]
    exact setSize_takes
  · rwa [Nat.max_eq_left (Nat.le_of_not_lt h)]

theorem truncateGood_takes {n : ℕ} : Takes w0 s n (truncateGood C n : Run φ Unit) :=
  Takes.get_bind fun _ _ => Ends.bind (onlyIf_takes memset_takes) fun _ => setSize_takes

theorem collapseGood_takes {off n : ℕ} : Takes w0 s (s - n) (collapseGood C off n : Run φ Unit) :=
  Takes.get_bind fun _ _ => Ends.bind memmove_takes fun _ => modify_takes fun _ h =>
    ⟨h.oplog, h.logptr, h.logcount, h.closeopen, h.testcalls, congrArg (· - n) h.size⟩

theorem insertGood_takes {off n : ℕ} : Takes w0 s (s + n) (insertGood C off n : Run φ Unit) :=
  Takes.get_bind fun _ _ => Ends.bind memmove_takes fun _ => Ends.bind memset_takes fun _ =>
    modify_takes fun _ h =>
      ⟨h.oplog, h.logptr, h.logcount, h.closeopen, h.testcalls, congrArg (· + n) h.size⟩

theorem copyGood_takes {off n dest : ℕ} :
    Takes w0 s (max s (dest + n)) (copyGood C off n dest : Run φ Unit) := by
  refine Ends.bind memmove_takes fun _ => Takes.get_bind fun w hw => ?_
  rw [hw.size]
  refine Ends.bind (onlyIf_takes memset_takes) fun _ => Ends.onlyIf (fun h => ?_) fun h w hw => ?_
  · rw [Nat.max_eq_right (Nat.le_of_lt h)]
    exact setSize_takes
  · rwa [Nat.max_eq_left (Nat.le_of_not_lt h)]

theorem preallocateGood_takes {n : ℕ} :
    Takes w0 s (max s n) (preallocateGood C n : Run φ Unit) := by
  refine Takes.get_bind fun w hw => ?_
  rw [hw.size]
  refine Ends.onlyIf (fun h => Ends.bind memset_takes fun _ => ?_) fun h w hw => ?_
  · rw [Nat.max_eq_right (Nat.le_of_lt h)]
    exact setSize_takes
  · rwa [Nat.max_eq_left (Nat.le_of_not_lt h)]

theorem checkBuffers_takes {bytes : List UInt8} {off n : ℕ} :
    Takes w0 s s (checkBuffers C bytes off n : Run φ Unit) := by
  refine Ends.bind within_takes fun _ => Takes.get_bind fun w _ => ?_
  cases (w.differing bytes off n).getLast? with
  | none => exact Takes.pure
  | some i =>
    exact Ends.bind (modify_takes fun _ h =>
      ⟨h.oplog, h.logptr, h.logcount, h.closeopen, h.testcalls, h.size⟩) fun _ => Takes.stop

theorem checkSize_takes : Takes w0 s s (checkSize F) :=
  Ends.bind (ask_takes _) fun _ => Ends.bind (ask_takes _) fun _ => Takes.get_bind fun _ _ =>
    Ends.ite (fun _ => Takes.pure) fun _ => Takes.stop

theorem checkEofpage_takes {off n : ℕ} : Takes w0 s s (checkEofpage F C off n) :=
  Takes.get_bind fun _ _ => Ends.ite (fun _ => Takes.pure) fun _ =>
    Ends.bind (ask_takes _) fun _ => Ends.ite (fun _ => Takes.pure) fun _ => Takes.stop

theorem readAndCheck_takes {off n : ℕ} : Takes w0 s s (readAndCheck F C off n) := by
  refine Ends.bind askOrReport_takes fun _ => Ends.bind (ask_takes _) fun r => ?_
  cases r with
  | none => exact Takes.stop
  | some bytes => exact Ends.ite (fun _ => checkBuffers_takes) fun _ => Takes.stop

theorem checkContents_takes : Takes w0 s s (checkContents F C) :=
  Takes.get_bind fun _ _ => Ends.ite (fun _ => Takes.pure) fun _ =>
    Ends.bind readAndCheck_takes fun _ => Ends.bind askOrReport_takes fun _ =>
      Ends.bind checkEofpage_takes fun _ => askOrReport_takes

theorem doflush_takes {off n : ℕ} : Takes w0 s s (doflush F C off n) :=
  Ends.ite (fun _ => Takes.pure) fun _ => Ends.bind askOrReport_takes fun _ =>
    Ends.bind askOrReport_takes fun _ => askOrReport_takes

theorem copyLoop_takes : ∀ patience o1 o2 olen tries : ℕ,
    Takes w0 s s (copyLoop F patience o1 o2 olen tries)
  | 0, _, _, _, _ => Takes.stop
  | patience + 1, o1, o2, olen, tries => by
    refine Ends.ite (fun _ => Takes.pure) fun _ => Ends.bind (ask_takes _) fun r => ?_
    cases r with
    | failed => exact Takes.stop
    | again => exact Ends.ite (fun _ => Takes.stop) fun _ => copyLoop_takes patience o1 o2 olen _
    | bytes nr => exact Ends.ite (fun _ => Takes.stop) fun _ => copyLoop_takes patience _ _ _ tries

theorem docloseopen_takes : Takes w0 s s (docloseopen F C) :=
  Takes.get_bind fun _ _ => Ends.ite (fun _ => Takes.pure) fun _ =>
    Ends.bind askOrReport_takes fun _ => askOrReport_takes

/-- Whether the operations of `w` are past the simulated ones. -/
def Config.live (C : Config) (w : World φ) : Bool := decide (C.simulatedopcount < w.testcalls)

/-- What is only done by a live operation. -/
theorem unlessSimulated_takes {m : Run φ Unit} (h : Takes w0 s s' m) :
    Takes w0 s (if C.live w0 = false then s else s') (unlessSimulated C m) := by
  refine Takes.get_bind fun w hw => ?_
  rw [hw.testcalls]
  unfold Config.live
  by_cases ht : w0.testcalls ≤ C.simulatedopcount
  · rw [if_pos ht, if_pos (by simpa using ht)]
    exact Takes.pure
  · rw [if_neg ht, if_neg (by simpa using ht)]
    exact h

theorem unlessSimulated_same {m : Run φ Unit} (h : Takes w0 s s m) :
    Takes w0 s s (unlessSimulated C m) :=
  Takes.get_bind fun _ _ => Ends.ite (fun _ => Takes.pure) fun _ => h

end Small

/-! ### The operations -/

def World.noted (w : World φ) (es : List LogEntry) : World φ := es.foldl World.log w

/-- Logs the entries of an outcome and leaves the file with its size; where it
stops it has logged them or nothing yet. -/
abbrev Books {α : Type} (w0 : World φ) (s : ℕ) (o : Outcome) (m : Run φ α) : Prop :=
  Ends (Since w0 s) m (fun _ => Since (w0.noted (o.entries s w0.closeopen)) o.size)
    fun e w => StoppedAt w0 e w ∨ StoppedAt (w0.noted (o.entries s w0.closeopen)) e w

section Books

variable {w0 : World φ} {s s' off n dest : ℕ} {op : Op} {fl : Flags} {keepSize : Bool} {o : Outcome}
  {α β : Type}

theorem Books.get_bind {m : World φ → Run φ α} (h : ∀ w, Since w0 s w → Books w0 s o (m w)) :
    Books w0 s o (get >>= m) :=
  Ends.get_bind fun w hw => (h w hw).weaken (fun _ he => he ▸ hw) (fun _ _ hq => hq) fun _ _ he => he

/-- What follows the entry. -/
theorem Books.log4 {a b : ℕ} {m : Run φ α}
    (h : ∀ w1 : World φ, w1.testcalls = w0.testcalls → Takes w1 s s' m) :
    Books w0 s ⟨op, [a, b], fl, s', false⟩ (Fsx.log4 op a b fl >>= fun _ => m) := by
  refine Ends.bind (R := fun _ => Since (w0.noted [Outcome.entry ⟨op, [a, b], fl, s', false⟩ s
    w0.closeopen]) s) (Ends.modify fun w hw => ?_) fun _ => ?_
  · have he : logged w op [a, b] fl = Outcome.entry ⟨op, [a, b], fl, s', false⟩ s w0.closeopen := by
      unfold logged Outcome.entry
      rw [hw.size, hw.closeopen]
    rw [he]
    unfold World.noted World.log
    refine ⟨?_, ?_, congrArg (fun n => int32 (n + 1)) hw.logcount, hw.closeopen, hw.testcalls, hw.size⟩
    · simp [hw.logptr, hw.oplog]
    · simp [hw.logptr]
  · exact (h (w0.noted [Outcome.entry ⟨op, [a, b], fl, s', false⟩ s w0.closeopen]) rfl).weaken
      (fun _ h => h) (fun _ _ h => h) fun _ _ h => Or.inr h

theorem Books.log5 {a b d : ℕ} {m : Run φ α}
    (h : ∀ w1 : World φ, w1.testcalls = w0.testcalls → Takes w1 s s' m) :
    Books w0 s ⟨op, [a, b, d], fl, s', false⟩ (Fsx.log5 op a b d fl >>= fun _ => m) := by
  refine Ends.bind (R := fun _ => Since (w0.noted [Outcome.entry ⟨op, [a, b, d], fl, s', false⟩ s
    w0.closeopen]) s) (Ends.modify fun w hw => ?_) fun _ => ?_
  · have he : logged w op [a, b, d] fl =
        Outcome.entry ⟨op, [a, b, d], fl, s', false⟩ s w0.closeopen := by
      unfold logged Outcome.entry
      rw [hw.size, hw.closeopen]
    rw [he]
    unfold World.noted World.log
    refine ⟨?_, ?_, congrArg (fun n => int32 (n + 1)) hw.logcount, hw.closeopen, hw.testcalls, hw.size⟩
    · simp [hw.logptr, hw.oplog]
    · simp [hw.logptr]
  · exact (h (w0.noted [Outcome.entry ⟨op, [a, b, d], fl, s', false⟩ s w0.closeopen]) rfl).weaken
      (fun _ h => h) (fun _ _ h => h) fun _ _ h => Or.inr h

theorem Books.log4_only {a b : ℕ} :
    Books w0 s ⟨op, [a, b], fl, s, false⟩ (Fsx.log4 op a b fl : Run φ Unit) :=
  Books.log4 fun _ _ => Takes.pure

theorem Books.log5_only {a b d : ℕ} :
    Books w0 s ⟨op, [a, b, d], fl, s, false⟩ (Fsx.log5 op a b d fl : Run φ Unit) :=
  Books.log5 fun _ _ => Takes.pure

/-- A value is returned after it. -/
theorem Books.then_pure {m : Run φ α} {b : β} (h : Books w0 s o m) :
    Books w0 s o (m >>= fun _ => Pure.pure b) := Ends.bind h fun _ => Ends.pure fun _ h => h

theorem marked_pos {c : Prop} [Decidable c] (h : c) : marked c = flSkipped := if_pos h

theorem marked_neg {c : Prop} [Decidable c] (h : ¬ c) : marked c = flNone := if_neg h

theorem doread_books :
    Books w0 s (C.readRange s off n C.oDirect .read) (doread F C off n) := by
  unfold doread Config.readRange readOutcome alignDown
  dsimp only
  refine Books.get_bind fun w hw => ?_
  rw [hw.size]
  refine Ends.ite (fun h => ?_) fun h => Ends.ite (fun h' => ?_) fun h' => ?_
  · rw [marked_pos (Or.inl h)]
    exact Books.log4_only
  · rw [marked_pos (Or.inr h')]
    exact Books.log4_only
  · rw [marked_neg (not_or.mpr ⟨h, h'⟩)]
    exact Books.log4 fun _ _ => unlessSimulated_same <|
      Ends.bind within_takes fun _ => readAndCheck_takes

theorem domapread_books :
    Books w0 s (C.readRange s off n false .mapread) (domapread F C off n) := by
  unfold domapread Config.readRange readOutcome alignDown
  simp only [Bool.false_eq_true, if_false]
  refine Books.get_bind fun w hw => ?_
  rw [hw.size]
  refine Ends.ite (fun h => ?_) fun h => Ends.ite (fun h' => ?_) fun h' => ?_
  · rw [marked_pos (Or.inl h)]
    exact Books.log4_only
  · rw [marked_pos (Or.inr h')]
    exact Books.log4_only
  · rw [marked_neg (not_or.mpr ⟨h, h'⟩)]
    refine Books.log4 fun _ _ => unlessSimulated_same <| Ends.bind askOrReport_takes fun _ => ?_
    exact Ends.bind within_takes fun _ => Ends.bind (ask_takes _) fun _ =>
      Ends.bind checkEofpage_takes fun _ => Ends.bind askOrReport_takes fun _ => checkBuffers_takes

theorem dowrite_books :
    Books w0 s (C.writeRange s off n C.oDirect .write) (dowrite F C off n) := by
  unfold dowrite Config.writeRange writeOutcome alignDown
  dsimp only
  refine Ends.ite (fun h => ?_) fun h => ?_
  · rw [marked_pos h, if_pos h]
    exact Books.log4_only
  · rw [marked_neg h, if_neg h]
    refine Books.log4 fun _ _ => Takes.get_bind fun _ _ => Ends.bind genAndExtend_takes fun _ => ?_
    refine Ends.ite (fun _ => Takes.stop) fun _ => unlessSimulated_same ?_
    refine Ends.bind askOrReport_takes fun _ => Takes.get_bind fun _ _ => ?_
    exact Ends.bind writeOrReport_takes fun _ => Ends.bind (onlyIf_takes askOrReport_takes) fun _ =>
      onlyIf_takes doflush_takes

theorem domapwrite_books :
    Books w0 s (C.writeRange s off n false .mapwrite) (domapwrite F C off n) := by
  unfold domapwrite Config.writeRange writeOutcome alignDown
  simp only [Bool.false_eq_true, if_false]
  refine Ends.ite (fun h => ?_) fun h => ?_
  · rw [marked_pos h, if_pos h]
    exact Books.log4_only
  · rw [marked_neg h, if_neg h]
    refine Books.log4 fun _ _ => Takes.get_bind fun _ _ => Ends.bind genAndExtend_takes fun _ => ?_
    refine Ends.ite (fun _ => Takes.stop) fun _ => unlessSimulated_same ?_
    refine Takes.get_bind fun _ _ => Ends.bind (onlyIf_takes askOr_takes) fun _ => ?_
    exact Ends.bind askOrReport_takes fun _ => Ends.bind (ask_takes _) fun _ =>
      Ends.bind askOrReport_takes fun _ => Ends.bind checkEofpage_takes fun _ => askOrReport_takes

theorem dotruncate_books :
    Books w0 s ⟨.truncate, [0, alignDown C.truncbdy n], flNone, alignDown C.truncbdy n, false⟩
      (dotruncate F C n) :=
  Books.log4 fun _ _ => Ends.bind truncateGood_takes fun _ => unlessSimulated_same askOrReport_takes

/-- A range operation: skipped, or logged and then done if it is live. -/
theorem range_books {skip : Prop} [Decidable skip] {a b : ℕ} (keep : Flags → Flags)
    {m : Run φ Unit} (h : ∀ w1 : World φ, Takes w1 s s' m) (hskip : ¬ skip) :
    Books w0 s (rangeOutcome (C.live w0) s op [a, b] skip keep s')
      (log4 op a b (keep flNone) >>= fun _ => unlessSimulated C m) := by
  unfold rangeOutcome
  rw [marked_neg hskip]
  simp only [hskip, false_or]
  refine Books.log4 fun w1 hw1 => ?_
  have hlive : C.live w1 = C.live w0 := by
    unfold Config.live
    rw [hw1]
  rw [← hlive]
  exact unlessSimulated_takes (h w1)

theorem range5_books {skip : Prop} [Decidable skip] {a b d : ℕ}
    {m : Run φ Unit} (h : ∀ w1 : World φ, Takes w1 s s' m) (hskip : ¬ skip) :
    Books w0 s (rangeOutcome (C.live w0) s op [a, b, d] skip id s')
      (log5 op a b d flNone >>= fun _ => unlessSimulated C m) := by
  unfold rangeOutcome
  rw [marked_neg hskip]
  simp only [hskip, false_or]
  refine Books.log5 fun w1 hw1 => ?_
  have hlive : C.live w1 = C.live w0 := by
    unfold Config.live
    rw [hw1]
  rw [← hlive]
  exact unlessSimulated_takes (h w1)

theorem range_skipped {skip : Prop} [Decidable skip] {live : Bool} {args : List ℕ}
    {keep : Flags → Flags} (hskip : skip) :
    rangeOutcome live s op args skip keep s' = ⟨op, args, keep flSkipped, s, false⟩ := by
  unfold rangeOutcome
  rw [marked_pos hskip, if_pos (Or.inl hskip)]

theorem doPunchHole_books :
    Books w0 s (rangeOutcome (C.live w0) s .punchHole [off, n] (n = 0 ∨ s ≤ off) id s)
      (doPunchHole F C off n) := by
  unfold doPunchHole
  refine Books.get_bind fun w hw => ?_
  rw [hw.size]
  refine Ends.ite (fun h => ?_) fun h => Ends.ite (fun h' => ?_) fun h' => ?_
  · rw [range_skipped (Or.inl h)]
    exact Books.log4_only
  · rw [range_skipped (Or.inr h')]
    exact Books.log4_only
  · exact range_books id (fun _ => Ends.bind askOrReport_takes fun _ => memset_takes)
      (not_or.mpr ⟨h, h'⟩)

theorem doZeroRange_books :
    Books w0 s (rangeOutcome (C.live w0) s .zeroRange [off, n] (n = 0) (keepFlags · keepSize) s)
      (doZeroRange F C off n keepSize) := by
  unfold doZeroRange
  refine Ends.ite (fun h => ?_) fun h => ?_
  · rw [range_skipped h]
    exact Books.log4_only
  · exact range_books (keepFlags · keepSize)
      (fun _ => Ends.bind askOrReport_takes fun _ => memset_takes) h

theorem doCollapseRange_books :
    Books w0 s (rangeOutcome (C.live w0) s .collapseRange [off, n] (n = 0 ∨ s ≤ off + n) id (s - n))
      (doCollapseRange F C off n) := by
  unfold doCollapseRange
  refine Books.get_bind fun w hw => ?_
  rw [hw.size]
  refine Ends.ite (fun h => ?_) fun h => Ends.ite (fun h' => ?_) fun h' => ?_
  · rw [range_skipped (Or.inl h)]
    exact Books.log4_only
  · rw [range_skipped (Or.inr h')]
    exact Books.log4_only
  · exact range_books id (fun _ => Ends.bind askOrReport_takes fun _ => collapseGood_takes)
      (not_or.mpr ⟨h, h'⟩)

theorem doInsertRange_books :
    Books w0 s (rangeOutcome (C.live w0) s .insertRange [off, n] (n = 0 ∨ s ≤ off) id (s + n))
      (doInsertRange F C off n) := by
  unfold doInsertRange
  refine Books.get_bind fun w hw => ?_
  rw [hw.size]
  refine Ends.ite (fun h => ?_) fun h => Ends.ite (fun h' => ?_) fun h' => ?_
  · rw [range_skipped (Or.inl h)]
    exact Books.log4_only
  · rw [range_skipped (Or.inr h')]
    exact Books.log4_only
  · exact range_books id (fun _ => Ends.bind askOrReport_takes fun _ => insertGood_takes)
      (not_or.mpr ⟨h, h'⟩)

theorem doCloneRange_books (h0 : n ≠ 0) :
    Books w0 s (rangeOutcome (C.live w0) s .cloneRange [off, n, dest] (s ≤ off) id
      (max s (dest + n))) (doCloneRange F C off n dest) := by
  unfold doCloneRange
  refine Books.get_bind fun w hw => ?_
  rw [hw.size]
  refine Ends.ite (fun h => absurd h h0) fun _ => Ends.ite (fun h => ?_) fun h => ?_
  · rw [range_skipped h]
    exact Books.log5_only
  · exact range5_books (fun _ => Ends.bind askOrReport_takes fun _ => copyGood_takes) h

theorem doDedupeRange_books (h0 : n ≠ 0) :
    Books w0 s (rangeOutcome (C.live w0) s .dedupeRange [off, n, dest] (s ≤ off) id s)
      (doDedupeRange F C off n dest) := by
  unfold doDedupeRange
  refine Books.get_bind fun w hw => ?_
  rw [hw.size]
  refine Ends.ite (fun h => absurd h h0) fun _ => Ends.ite (fun h => ?_) fun h => ?_
  · rw [range_skipped h]
    exact Books.log5_only
  · exact range5_books (fun _ => askOrReport_takes) h

theorem doCopyRange_books {patience : ℕ} (h0 : n ≠ 0) :
    Books w0 s (rangeOutcome (C.live w0) s .copyRange [off, n, dest] (s ≤ off) id
      (max s (dest + n))) (doCopyRange F C patience off n dest) := by
  unfold doCopyRange
  refine Books.get_bind fun w hw => ?_
  rw [hw.size]
  refine Ends.ite (fun h => absurd h h0) fun _ => Ends.ite (fun h => ?_) fun h => ?_
  · rw [range_skipped h]
    exact Books.log5_only
  · exact range5_books (fun _ => Ends.bind (copyLoop_takes patience off dest n 0) fun _ =>
      copyGood_takes) h

theorem doPreallocate_books :
    Books w0 s (rangeOutcome true s .fallocate [off, n] (n = 0) (keepFlags · keepSize)
      (max s (if keepSize then 0 else off + n))) (doPreallocate F C off n keepSize) := by
  unfold doPreallocate
  refine Ends.ite (fun h => ?_) fun h => ?_
  · rw [range_skipped h]
    exact Books.log4_only
  · unfold rangeOutcome
    have hlive : ¬ (n = 0 ∨ true = false) := by simp [h]
    rw [marked_neg h, if_neg hlive]
    exact Books.log4 fun _ _ => Ends.bind preallocateGood_takes fun _ =>
      unlessSimulated_same askOrReport_takes

theorem dofsync_books :
    Books w0 s ⟨.fsync, [0, 0], flNone, s, !C.live w0⟩ (dofsync F C) := by
  unfold dofsync unlessSimulated
  refine Books.get_bind fun w hw => ?_
  rw [hw.testcalls]
  unfold Config.live
  by_cases ht : w0.testcalls ≤ C.simulatedopcount
  · rw [if_pos ht]
    have hlive : (!decide (C.simulatedopcount < w0.testcalls)) = true := by simpa using ht
    rw [hlive]
    exact Ends.pure fun _ h => h
  · rw [if_neg ht]
    have hlive : (!decide (C.simulatedopcount < w0.testcalls)) = false := by simpa using ht
    rw [hlive]
    exact Books.log4 fun _ _ => Ends.bind askOrReport_takes fun _ => Ends.bind askOr_takes fun _ =>
      askOr_takes

theorem ranged_books (on : Bool) {ch : Choice} {m : Run φ Unit}
    (h : ch.size ≠ 0 → Books w0 s
      (rangeOutcome (C.live w0) s ch.op [ch.offset, ch.size, ch.offset2] (s ≤ ch.offset) id s') m) :
    Books w0 s (rangedOutcome C (C.live w0) s on ch s')
      (ifEnabled on (skip5 ch.op ch.offset ch.size ch.offset2) (ranged C ch.op ch m)) := by
  unfold rangedOutcome
  refine Ends.ite (fun hon => ?_) fun hon => ?_
  · unfold ranged
    refine Ends.ite (fun h0 => ?_) fun h0 => Ends.ite (fun hmax => ?_) fun hmax => ?_
    · rw [if_pos (Or.inr (Or.inl h0))]
      exact Books.then_pure Books.log5_only
    · rw [if_pos (Or.inr (Or.inr hmax))]
      exact Books.then_pure Books.log5_only
    · rw [if_neg (by simp [hon, h0, hmax])]
      exact Books.then_pure (h h0)
  · rw [if_pos (Or.inl (by simpa using hon))]
    exact Books.then_pure Books.log5_only

/-- What `test` does from `have_op` on is what it comes to. -/
theorem dispatch_books {patience : ℕ} (ch : Choice) :
    Books w0 s (outcome C (C.live w0) s ch) (dispatch F C patience ch) := by
  unfold dispatch outcome
  refine Books.get_bind fun w hw => ?_
  rw [hw.size]
  cases hop : ch.op with
  | read => exact Books.then_pure doread_books
  | write => exact Books.then_pure dowrite_books
  | mapread =>
    dsimp only [cut]
    cases C.mappedReads with
    | true => exact Books.then_pure domapread_books
    | false => exact Books.then_pure doread_books
  | mapwrite =>
    dsimp only [cut]
    cases C.mappedWrites with
    | true => exact Books.then_pure domapwrite_books
    | false => exact Books.then_pure dowrite_books
  | truncate => exact Books.then_pure dotruncate_books
  | fallocate =>
    refine Ends.ite (fun h => ?_) fun h => ?_
    · simp only [if_pos h]
      exact Books.then_pure doPreallocate_books
    · simp only [if_neg h]
      exact Books.then_pure Books.log4_only
  | punchHole =>
    refine Ends.ite (fun h => ?_) fun h => ?_
    · simp only [if_pos h]
      exact Books.then_pure doPunchHole_books
    · simp only [if_neg h]
      exact Books.then_pure Books.log4_only
  | zeroRange =>
    refine Ends.ite (fun h => ?_) fun h => ?_
    · simp only [if_pos h]
      exact Books.then_pure doZeroRange_books
    · simp only [if_neg h]
      exact Books.then_pure Books.log4_only
  | collapseRange =>
    refine Ends.ite (fun h => ?_) fun h => ?_
    · simp only [if_pos h]
      refine Ends.ite (fun h0 => ?_) fun h0 => Books.then_pure doCollapseRange_books
      simp only [cut]
      rw [range_skipped (Or.inl h0)]
      exact Books.then_pure Books.log4_only
    · simp only [if_neg h]
      exact Books.then_pure Books.log4_only
  | insertRange =>
    refine Ends.ite (fun h => ?_) fun h => ?_
    · simp only [if_pos h]
      refine Ends.ite (fun h0 => ?_) fun h0 => Ends.ite (fun h1 => ?_) fun h1 => ?_
      · rw [range_skipped (Or.inl h0)]
        exact Books.then_pure Books.log4_only
      · rw [range_skipped (Or.inr (Or.inl h1))]
        exact Books.then_pure Books.log4_only
      · refine Books.then_pure ?_
        have hinsert : ∀ off n, Books w0 s (rangeOutcome (C.live w0) s .insertRange [off, n]
            (n = 0 ∨ s ≤ off) id (s + n)) (doInsertRange F C off n) :=
          fun _ _ => doInsertRange_books
        specialize hinsert (alignDown C.blockSize (trimOff ch.offset s))
          (alignDown C.blockSize (trimLen s ch.size C.maxfilelen))
        simp only [rangeOutcome, h0, h1, false_or] at hinsert ⊢
        exact hinsert
    · simp only [if_neg h]
      exact Books.then_pure Books.log4_only
  | cloneRange =>
    have hdo : ch.size ≠ 0 → Books w0 s _ (doCloneRange F C ch.offset ch.size ch.offset2) :=
      doCloneRange_books
    rw [← hop] at hdo
    have := ranged_books C.cloneRangeCalls hdo
    rwa [hop] at this
  | dedupeRange =>
    have hdo : ch.size ≠ 0 → Books w0 s _ (doDedupeRange F C ch.offset ch.size ch.offset2) :=
      doDedupeRange_books
    rw [← hop] at hdo
    have := ranged_books C.dedupeRangeCalls hdo
    rwa [hop] at this
  | copyRange =>
    have hdo : ch.size ≠ 0 → Books w0 s _
        (doCopyRange F C patience ch.offset ch.size ch.offset2) := doCopyRange_books
    rw [← hop] at hdo
    have := ranged_books C.copyRangeCalls hdo
    rwa [hop] at this
  | fsync => exact Books.then_pure dofsync_books

/-- The checks after it log nothing. -/
theorem perform_books {patience : ℕ} (ch : Choice) :
    Books w0 s (outcome C (C.live w0) s ch) (perform F C patience ch) := by
  refine Ends.bind (dispatch_books ch) fun _ => Ends.weaken (P := Since _ _) (Q := fun _ => Since _ _)
    (E := StoppedAt _) ?_ (fun _ h => h) (fun _ _ h => h) fun _ _ h => Or.inr h
  refine Ends.bind (onlyIf_takes (unlessSimulated_same checkContents_takes)) fun _ => ?_
  refine Ends.bind (onlyIf_takes (unlessSimulated_same checkSize_takes)) fun _ => ?_
  exact Takes.get_bind fun _ _ => onlyIf_takes docloseopen_takes

end Books

end

end Fsx
end Longan
