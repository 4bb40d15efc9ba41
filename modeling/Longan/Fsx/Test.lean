/-
# fsx: choosing an operation and doing it

`test` draws an operation and its arguments from the random numbers (`choose`),
cuts the range to the file or to the largest size (`dispatch`), does it, and
compares the size, and with `-X` the contents, of the file with what it has to
be. `main` opens the file, reads it, probes what the file system supports and
runs `test` as often as asked (`runTests`).
-/
import Longan.Fsx.Ops

namespace Longan
namespace Fsx

/-! ### The arguments of an operation -/

/-- `TRIM_OFF`. -/
def trimOff (off size : ℕ) : ℕ := if size = 0 then 0 else off % size

/-- `TRIM_LEN`. -/
def trimLen (off len size : ℕ) : ℕ := if size < off + len then size - off else len

/-- `x & ~(block_size - 1)`; a block size is a power of two. -/
def alignDown (bs x : ℕ) : ℕ := x - x % bs

/-- `file_size - 1` where it becomes an `unsigned long`. -/
def lessOne (fileSize : ℕ) : ℕ := if fileSize = 0 then 2 ^ 64 - 1 else fileSize - 1

/-- `llabs(a - b)`. -/
def distance (a b : ℕ) : ℕ := (a - b) + (b - a)

/-- An operation with its arguments. -/
structure Choice where
  op : Op
  offset : ℕ
  size : ℕ
  offset2 : ℕ
  keepSize : Bool
deriving DecidableEq, Repr

/-- `do { offset2 = random(); ... } while (...)`: the first random number whose
place will do, and the numbers left. -/
def pick (place : ℕ → ℕ) (fits : ℕ → Bool) : List ℕ → Option (ℕ × List ℕ)
  | [] => none
  | r :: rs => if fits (place r) then some (place r, rs) else pick place fits rs

/-- The same with at most `tries` numbers; `none` in the first component
stands for `size = 0`. -/
def pickIn (place : ℕ → ℕ) (fits : ℕ → Bool) : ℕ → ℕ → List ℕ → Option ((ℕ × Bool) × List ℕ)
  | 0, last, rs => some ((last, false), rs)
  | _ + 1, _, [] => none
  | tries + 1, _, r :: rs =>
    if fits (place r) then some ((place r, true), rs) else pickIn place fits tries (place r) rs

/-- The place keeps away from the source and inside the limit. -/
def fitsAt (offset size limit dest : ℕ) : Bool :=
  !(decide (distance dest offset < size) || decide (limit < dest + size))

def opOf : ℕ → Op
  | 0 => .read
  | 1 => .write
  | 2 => .mapread
  | 3 => .mapwrite
  | 4 => .truncate
  | 5 => .fallocate
  | 6 => .punchHole
  | 7 => .zeroRange
  | 8 => .collapseRange
  | 9 => .insertRange
  | 10 => .cloneRange
  | 11 => .dedupeRange
  | 12 => .copyRange
  | _ => .fsync

section

variable {φ : Type} (F : FileSystem φ) (C : Config)

/-- `OP_MAX_LITE`, `OP_MAX_FULL` or `OP_MAX_INTEGRITY`. -/
def Config.opMax : ℕ := if C.lite then 4 else if C.integrity then 14 else 13

/-- `random()`. -/
def random : Run φ ℕ := fun w =>
  match w.random with
  | [] => .error (.cut, w)
  | r :: rs => .ok (r, { w with random := rs })

/-- The random numbers are used up to the one that will do. -/
def draw {α : Type} (f : List ℕ → Option (α × List ℕ)) : Run φ α := fun w =>
  match f w.random with
  | none => .error (.cut, w)
  | some (a, rs) => .ok (a, { w with random := rs })

/-- The place of a clone's destination: any block below `maxfilelen`. -/
def Config.clonePlace (r : ℕ) : ℕ := alignDown C.blockSize (trimOff r C.maxfilelen)

def Config.dedupePlace (fileSize r : ℕ) : ℕ := alignDown C.blockSize (trimOff r fileSize)

def Config.copyPlace (r : ℕ) : ℕ := trimOff r C.maxfilelen - trimOff r C.maxfilelen % C.writebdy

/-- The size that is drawn. -/
def oplen : Run φ ℕ :=
  if C.randomoplen then do
    let r ← random
    pure (r % (C.maxoplen + 1))
  else pure C.maxoplen

/-- `random() % 2` where the size may be kept. -/
def keepOrNot (c : Prop) [Decidable c] : Run φ Bool :=
  if c then do
    let r ← random
    pure (decide (r % 2 = 1))
  else pure false

/-- The first half of `test`, up to `have_op`. -/
def choose : Run φ Choice := do
  let rv ← random
  onlyIf (C.closeprob ≠ 0)
    (modify fun w => { w with closeopen := decide (rv / 2 ^ 3 < 2 ^ 28 / C.closeprob) })
  let offset ← random
  let size ← oplen C
  let w ← get
  match opOf (rv % C.opMax) with
  | .truncate => do
    let r ← random
    pure ⟨.truncate, offset, r % C.maxfilelen, 0, false⟩
  | .fallocate => do
    let keepSize ← keepOrNot (C.fallocateCalls ∧ size ≠ 0 ∧ C.keepSizeCalls)
    pure ⟨.fallocate, offset, size, 0, keepSize⟩
  | .zeroRange => do
    let keepSize ← keepOrNot (C.zeroRangeCalls ∧ size ≠ 0 ∧ C.keepSizeCalls)
    pure ⟨.zeroRange, offset, size, 0, keepSize⟩
  | .cloneRange => do
    let off := trimOff offset w.fileSize
    let len := alignDown C.blockSize (trimLen off size w.fileSize)
    let off := alignDown C.blockSize off
    let dest ← draw (pick C.clonePlace (fitsAt off len C.maxfilelen))
    pure ⟨.cloneRange, off, len, dest, false⟩
  | .dedupeRange => do
    let off := trimOff offset w.fileSize
    let len := alignDown C.blockSize (trimLen off size w.fileSize)
    let off := alignDown C.blockSize off
    let r ← draw (pickIn (C.dedupePlace w.fileSize) (fitsAt off len w.fileSize) 30 0)
    pure ⟨.dedupeRange, off, if r.2 then len else 0, r.1, false⟩
  | .copyRange => do
    let off := trimOff offset w.fileSize
    let len := trimLen off size w.fileSize
    let off := off - off % C.readbdy
    let len := if C.oDirect then len - len % C.readbdy else len
    let dest ← draw (pick C.copyPlace (fitsAt off len C.maxfilelen))
    pure ⟨.copyRange, off, len, dest, false⟩
  | op => pure ⟨op, offset, size, 0, false⟩

/-! ### Doing it -/

/-- A range operation that is switched off is logged as skipped, and `goto
out`. -/
def ifEnabled (on : Bool) (skip m : Run φ Bool) : Run φ Bool := if on then m else skip

def skip4 (op : Op) (offset size : ℕ) : Run φ Bool := do
  log4 op offset size flSkipped
  pure false

def skip5 (op : Op) (offset size offset2 : ℕ) : Run φ Bool := do
  log5 op offset size offset2 flSkipped
  pure false

/-- The operation is done, and the checks follow. -/
def performed (m : Run φ Unit) : Run φ Bool := do
  m
  pure true

def trimmed (limit : ℕ) (offset size : ℕ) (m : ℕ → ℕ → Run φ Unit) : Run φ Bool :=
  performed (m (trimOff offset limit) (trimLen (trimOff offset limit) size limit))

/-- A clone, a dedupe or a copy as it is drawn, unless it is empty or would
end past the largest size. -/
def ranged (op : Op) (c : Choice) (m : Run φ Unit) : Run φ Bool :=
  if c.size = 0 then skip5 op c.offset c.size c.offset2
  else if C.maxfilelen < c.offset2 + c.size then skip5 op c.offset c.size c.offset2
  else performed m

/-- `test` from `have_op` on; `false` stands for `goto out`. -/
def dispatch (patience : ℕ) (c : Choice) : Run φ Bool := do
  let w ← get
  match c.op with
  | .read => trimmed w.fileSize c.offset c.size (doread F C)
  | .write => trimmed C.maxfilelen c.offset c.size (dowrite F C)
  | .mapread =>
    trimmed w.fileSize c.offset c.size (if C.mappedReads then domapread F C else doread F C)
  | .mapwrite =>
    trimmed C.maxfilelen c.offset c.size (if C.mappedWrites then domapwrite F C else dowrite F C)
  | .truncate => performed (dotruncate F C c.size)
  | .fallocate =>
    ifEnabled C.fallocateCalls (skip4 .fallocate c.offset c.size)
      (trimmed C.maxfilelen c.offset c.size fun off len => doPreallocate F C off len c.keepSize)
  | .punchHole =>
    ifEnabled C.punchHoleCalls (skip4 .punchHole c.offset c.size)
      (trimmed w.fileSize c.offset c.size (doPunchHole F C))
  | .zeroRange =>
    ifEnabled C.zeroRangeCalls (skip4 .zeroRange c.offset c.size)
      (trimmed w.fileSize c.offset c.size fun off len => doZeroRange F C off len c.keepSize)
  | .collapseRange =>
    ifEnabled C.collapseRangeCalls (skip4 .collapseRange c.offset c.size) <|
      let off := trimOff c.offset (lessOne w.fileSize)
      let len := alignDown C.blockSize (trimLen off c.size (lessOne w.fileSize))
      let off := alignDown C.blockSize off
      if len = 0 then skip4 .collapseRange off len else performed (doCollapseRange F C off len)
  | .insertRange =>
    ifEnabled C.insertRangeCalls (skip4 .insertRange c.offset c.size) <|
      let off := alignDown C.blockSize (trimOff c.offset w.fileSize)
      let len := alignDown C.blockSize (trimLen w.fileSize c.size C.maxfilelen)
      if len = 0 then skip4 .insertRange off len
      else if C.maxfilelen < w.fileSize + len then skip4 .insertRange off len
      else performed (doInsertRange F C off len)
  | .cloneRange =>
    ifEnabled C.cloneRangeCalls (skip5 .cloneRange c.offset c.size c.offset2)
      (ranged C .cloneRange c (doCloneRange F C c.offset c.size c.offset2))
  | .dedupeRange =>
    ifEnabled C.dedupeRangeCalls (skip5 .dedupeRange c.offset c.size c.offset2)
      (ranged C .dedupeRange c (doDedupeRange F C c.offset c.size c.offset2))
  | .copyRange =>
    ifEnabled C.copyRangeCalls (skip5 .copyRange c.offset c.size c.offset2)
      (ranged C .copyRange c (doCopyRange F C patience c.offset c.size c.offset2))
  | .fsync => performed (dofsync F C)

/-- The operation and the checks after it. -/
def perform (patience : ℕ) (c : Choice) : Run φ Unit := do
  let done ← dispatch F C patience c
  onlyIf (done ∧ C.checkFile) (unlessSimulated C (checkContents F C))
  onlyIf C.sizechecks (unlessSimulated C (checkSize F))
  let w ← get
  onlyIf w.closeopen (docloseopen F C)

/-- The start of `test`: at the end of the simulated operations the file is
written as a whole. -/
def begin : Run φ Unit := do
  let w ← get
  onlyIf (0 < C.simulatedopcount ∧ w.testcalls = C.simulatedopcount) (writefileimage F C)
  modify fun w => { w with testcalls := w.testcalls + 1 }

def test (patience : ℕ) : Run φ Unit := do
  begin F C
  let c ← choose C
  perform F C patience c

/-- `while (numops--) test();` -/
def runTests (patience : ℕ) : ℕ → Run φ Unit
  | 0 => pure ()
  | numops + 1 => do
    test F C patience
    runTests patience numops

end

end Fsx
end Longan
