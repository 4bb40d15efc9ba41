/-
# fsx: the operations

fsx does random operations on one file and keeps beside it, in `good_buf` and
`file_size`, what the file has to contain. Each operation changes these, logs
itself, makes its system calls and stops with a status of its own where an
answer is not the expected one. Here is the state, the file system as
something that answers calls, and one definition for each of the C functions
that work on the file.

`good_buf` is `maxfilelen` bytes long; an access past its end is a fault. The
messages on the standard output are left out.
-/
import Longan.Lib.Exits
import Longan.Lib.File
import Mathlib.Algebra.Group.Nat.Defs
import Mathlib.Data.Int.Notation

namespace Longan
namespace Fsx

inductive Op
  | read | write | mapread | mapwrite | truncate | fallocate | punchHole | zeroRange
  | collapseRange | insertRange | cloneRange | dedupeRange | copyRange | fsync
deriving DecidableEq, Repr

/-- `enum opflags`. -/
structure Flags where
  skipped : Bool
  closeOpen : Bool
  keepSize : Bool
deriving DecidableEq, Repr

def flNone : Flags := ⟨false, false, false⟩

def flSkipped : Flags := ⟨true, false, false⟩

/-- `struct log_entry`; the arguments are 32-bit words, and there are
`nr_args` of them. -/
structure LogEntry where
  operation : Op
  args : List ℕ
  flags : Flags
deriving DecidableEq, Repr

/-- `LOGSIZE`. -/
def logSize : ℕ := 10000

/-- What `main` finds of the system it is on: `block_size`, which is the
`st_blksize` of the file, the page size, and the calls that the options allow
and its trials (`test_fallocate` and the others) have found supported. -/
structure Probed where
  blockSize : ℕ
  pageSize : ℕ
  fallocateCalls : Bool
  keepSizeCalls : Bool
  punchHoleCalls : Bool
  zeroRangeCalls : Bool
  collapseRangeCalls : Bool
  insertRangeCalls : Bool
  cloneRangeCalls : Bool
  dedupeRangeCalls : Bool
  copyRangeCalls : Bool

/-- The options, and what is probed under them: two runs have the same where
they have the same options and find the same. `main` has a local `style`, so
that `-s` does not reach `test` and there is none here. -/
structure Config extends Probed where
  maxfilelen : ℕ
  maxoplen : ℕ
  readbdy : ℕ
  writebdy : ℕ
  truncbdy : ℕ
  simulatedopcount : ℕ
  closeprob : ℕ
  filldata : UInt8
  originalBuf : ℕ → UInt8
  randomoplen : Bool
  lite : Bool
  integrity : Bool
  oDirect : Bool
  flush : Bool
  doFsync : Bool
  sizechecks : Bool
  checkFile : Bool
  mappedReads : Bool
  mappedWrites : Bool

/-- The `mode` of `fallocate`. -/
inductive Mode
  | allocate | keepSize | punchHole | zeroRange | collapseRange | insertRange
deriving DecidableEq, Repr

/-- What `copy_file_range` returns: `EAGAIN`, another error, or a count. -/
inductive Copied
  | again | failed | bytes (n : ℕ)
deriving DecidableEq, Repr

/-- The system calls on the file, each with the type of its answer (`false`
and `none` stand for -1). A mapping is looked at through `load` and changed
through `store`; `mark` and `dump` are the `dmsetup` command and the file
`dump_fsync_buffer` writes. -/
inductive Call : Type → Type
  | seek (off : ℕ) : Call Bool
  | read (off n : ℕ) : Call (Option (List UInt8))
  | write (off : ℕ) (data : List UInt8) : Call (Option ℕ)
  | ftruncate (n : ℕ) : Call Bool
  | fallocate (mode : Mode) (off n : ℕ) : Call Bool
  | clone (off n dest : ℕ) : Call Bool
  | dedupe (off n dest : ℕ) : Call Bool
  | copy (off n dest : ℕ) : Call Copied
  | mmap (off n : ℕ) : Call Bool
  | load (off n : ℕ) : Call (ℕ → UInt8)
  | store (off : ℕ) (data : List UInt8) : Call Unit
  | msync : Call Bool
  | munmap : Call Bool
  | fstat : Call (Option ℕ)
  | seekEnd : Call (Option ℕ)
  | fsync : Call Bool
  | close : Call Bool
  | reopen : Call Bool
  | mark : Call Bool
  | dump : Call Bool

/-- A file system, whatever it answers. -/
structure FileSystem (φ : Type) where
  call : {ρ : Type} → Call ρ → φ → ρ × φ

/-- Why a run stops: `report_failure` or `exit` with a status, an access past
the end of a buffer, a copy that goes on for ever, or no further random
number. -/
inductive Stop
  | report (status : ℕ) | exit (status : ℕ) | fault | spin | cut
deriving DecidableEq, Repr

/-- The variables of the program, and the file system. -/
structure World (φ : Type) where
  goodBuf : ℕ → UInt8
  fileSize : ℕ
  testcalls : ℕ
  oplog : ℕ → LogEntry
  logptr : ℕ
  logcount : ℤ
  closeopen : Bool
  badoff : ℤ
  random : List ℕ
  fs : φ

section

variable {φ : Type} (F : FileSystem φ) (C : Config)

abbrev Run (φ α : Type) := Prog (World φ) Stop α

def ask {ρ : Type} (c : Call ρ) : Run φ ρ := fun w =>
  .ok ((F.call c w.fs).1, { w with fs := (F.call c w.fs).2 })

/-- A call whose failure stops the run. -/
def askOr (c : Call Bool) (e : Stop) : Run φ Unit := do
  let ok ← ask F c
  if ok then pure () else stop e

/-- A call whose failure is reported with a status. -/
def askOrReport (c : Call Bool) (status : ℕ) : Run φ Unit := askOr F c (.report status)

/-- A write of all the bytes, or a report. -/
def writeOrReport (off : ℕ) (data : List UInt8) (status : ℕ) : Run φ Unit := do
  match ← ask F (.write off data) with
  | none => stop (.report status)
  | some n => if n = data.length then pure () else stop (.report status)

/-! ### The log -/

/-- An `int` as the 32-bit word it is. -/
def word (n : ℕ) : ℕ := n % 2 ^ 32

/-- The `int` an integer wraps to. -/
def int32 (n : ℤ) : ℤ := n.bmod (2 ^ 32)

def World.log (w : World φ) (e : LogEntry) : World φ :=
  { w with
    oplog := fun i => if i = w.logptr then e else w.oplog i
    logptr := if logSize ≤ w.logptr + 1 then 0 else w.logptr + 1
    logcount := int32 (w.logcount + 1) }

def logged (w : World φ) (op : Op) (args : List ℕ) (flags : Flags) : LogEntry :=
  ⟨op, (args ++ [w.fileSize]).map word, { flags with closeOpen := flags.closeOpen || w.closeopen }⟩

def log4 (op : Op) (arg0 arg1 : ℕ) (flags : Flags) : Run φ Unit :=
  modify fun w => w.log (logged w op [arg0, arg1] flags)

def log5 (op : Op) (arg0 arg1 arg2 : ℕ) (flags : Flags) : Run φ Unit :=
  modify fun w => w.log (logged w op [arg0, arg1, arg2] flags)

/-! ### `good_buf` -/

/-- The access stays inside a buffer of the given size. -/
def within (cap off n : ℕ) : Run φ Unit :=
  if off + n ≤ cap then pure () else stop .fault

/-- The bytes of `good_buf` at `off`. -/
def World.slice (w : World φ) (off n : ℕ) : List UInt8 :=
  (List.range n).map fun i => w.goodBuf (off + i)

/-- `memset(good_buf + off, '\0', n)`. -/
def memset (off n : ℕ) : Run φ Unit := do
  within C.maxfilelen off n
  modify fun w => { w with goodBuf := fun i => if off ≤ i ∧ i < off + n then 0 else w.goodBuf i }

/-- `memmove(good_buf + dest, good_buf + src, n)`; as a `memcpy` it is used
on ranges that keep apart. -/
def memmove (dest src n : ℕ) : Run φ Unit := do
  within C.maxfilelen dest n
  within C.maxfilelen src n
  modify fun w => { w with
    goodBuf := fun i => if dest ≤ i ∧ i < dest + n then w.goodBuf (src + (i - dest)) else w.goodBuf i }

/-- The byte `gendata` puts at an offset. -/
def pattern (testcalls off : ℕ) : UInt8 :=
  if C.filldata ≠ 0 then C.filldata
  else if off % 2 = 1 then UInt8.ofNat (testcalls % 256) + C.originalBuf off
  else UInt8.ofNat (testcalls % 256)

def gendata (testcalls : ℕ) : (ℕ → UInt8) → ℕ → ℕ → ℕ → UInt8
  | buf, _, 0 => buf
  | buf, off, size + 1 =>
    gendata testcalls (fun i => if i = off then pattern C testcalls off else buf i) (off + 1) size

/-- `gendata` into `good_buf`, and zeros between the old end of the file and
what is written past it. -/
def genAndExtend (off size : ℕ) : Run φ Unit := do
  within C.maxfilelen off size
  modify fun w => { w with goodBuf := gendata C w.testcalls w.goodBuf off size }
  let w ← get
  onlyIf (w.fileSize < off + size) do
    onlyIf (w.fileSize < off) (memset C w.fileSize (off - w.fileSize))
    modify fun w => { w with fileSize := off + size }

/-! ### Checks -/

/-- The places where what was read is not what `good_buf` has. -/
def World.differing (w : World φ) (bytes : List UInt8) (off size : ℕ) : List ℕ :=
  (List.range size).filter fun i => w.goodBuf (off + i) != bytes.getD i 0

def checkBuffers (bytes : List UInt8) (off size : ℕ) : Run φ Unit := do
  within C.maxfilelen off size
  let w ← get
  match (w.differing bytes off size).getLast? with
  | none => pure ()
  | some i => do
    modify fun w => { w with badoff := ((off + i : ℕ) : ℤ) }
    stop (.report 110)

def checkSize : Run φ Unit := do
  let st ← ask F .fstat
  let sk ← ask F .seekEnd
  let w ← get
  if st = some w.fileSize ∧ sk = some w.fileSize then pure () else stop (.report 120)

/-- Where the last page of the file is in reach of the mapping, what it shows
past the end of the file must be zero. -/
def checkEofpage (off size : ℕ) : Run φ Unit := do
  let w ← get
  if off + size ≤ w.fileSize - w.fileSize % C.pageSize then pure ()
  else do
    let lastPage := (off + size) - (off + size) % C.pageSize
    let start := lastPage + w.fileSize % C.pageSize
    let n := C.pageSize - w.fileSize % C.pageSize
    let byte ← ask F (.load start n)
    if (List.range n).all fun i => byte (start + i) == 0 then pure () else stop (.report 205)

/-- The calls that only go to the file after the simulated operations. -/
def unlessSimulated (m : Run φ Unit) : Run φ Unit := do
  let w ← get
  if w.testcalls ≤ C.simulatedopcount then pure () else m

/-- `read` into a buffer and compare. -/
def readAndCheck (off size : ℕ) : Run φ Unit := do
  askOrReport F (.seek off) 140
  match ← ask F (.read off size) with
  | none => stop (.report 141)
  | some bytes => if bytes.length = size then checkBuffers C bytes off size else stop (.report 141)

def checkContents : Run φ Unit := do
  let w ← get
  let size := if C.oDirect then w.fileSize - w.fileSize % C.readbdy else w.fileSize
  if size = 0 then pure ()
  else do
    readAndCheck F C 0 size
    let mapOffset := size - size % C.pageSize
    let mapOffset := if mapOffset = size then mapOffset - C.pageSize else mapOffset
    let mapSize := size - mapOffset
    askOrReport F (.mmap mapOffset mapSize) 190
    checkEofpage F C mapOffset mapSize
    askOrReport F .munmap 191

/-! ### Reading and writing -/

def doread (offset size : ℕ) : Run φ Unit := do
  let offset := offset - offset % C.readbdy
  let size := if C.oDirect then size - size % C.readbdy else size
  let w ← get
  if size = 0 then log4 .read offset size flSkipped
  else if w.fileSize < size + offset then log4 .read offset size flSkipped
  else do
    log4 .read offset size flNone
    unlessSimulated C do
      within C.maxoplen 0 size
      readAndCheck F C offset size

def domapread (offset size : ℕ) : Run φ Unit := do
  let offset := offset - offset % C.readbdy
  let w ← get
  if size = 0 then log4 .mapread offset size flSkipped
  else if w.fileSize < size + offset then log4 .mapread offset size flSkipped
  else do
    log4 .mapread offset size flNone
    unlessSimulated C do
      let pgOffset := offset % C.pageSize
      askOrReport F (.mmap (offset - pgOffset) (pgOffset + size)) 190
      within C.maxoplen 0 size
      let byte ← ask F (.load offset size)
      checkEofpage F C offset size
      askOrReport F .munmap 191
      checkBuffers C ((List.range size).map fun i => byte (offset + i)) offset size

def doflush (offset size : ℕ) : Run φ Unit :=
  if C.oDirect then pure ()
  else do
    let pgOffset := offset % C.pageSize
    askOrReport F (.mmap (offset - pgOffset) (pgOffset + size)) 202
    askOrReport F .msync 203
    askOrReport F .munmap 204

def dowrite (offset size : ℕ) : Run φ Unit := do
  let offset := offset - offset % C.writebdy
  let size := if C.oDirect then size - size % C.writebdy else size
  if size = 0 then log4 .write offset size flSkipped
  else do
    log4 .write offset size flNone
    let old ← get
    genAndExtend C offset size
    if C.lite ∧ old.fileSize < offset + size then stop (.report 149)
    else unlessSimulated C do
      askOrReport F (.seek offset) 150
      let w ← get
      writeOrReport F offset (w.slice offset size) 151
      onlyIf C.doFsync (askOrReport F .fsync 152)
      onlyIf C.flush (doflush F C offset size)

def domapwrite (offset size : ℕ) : Run φ Unit := do
  let offset := offset - offset % C.writebdy
  if size = 0 then log4 .mapwrite offset size flSkipped
  else do
    log4 .mapwrite offset size flNone
    let old ← get
    genAndExtend C offset size
    if C.lite ∧ old.fileSize < offset + size then stop (.report 200)
    else unlessSimulated C do
      let w ← get
      onlyIf (old.fileSize < w.fileSize) (askOr F (.ftruncate w.fileSize) (.exit 201))
      let pgOffset := offset % C.pageSize
      askOrReport F (.mmap (offset - pgOffset) (pgOffset + size)) 202
      ask F (.store offset (w.slice offset size))
      askOrReport F .msync 203
      checkEofpage F C offset size
      askOrReport F .munmap 204

/-- What a truncation does to `good_buf`. -/
def truncateGood (size : ℕ) : Run φ Unit := do
  let w ← get
  onlyIf (w.fileSize < size) (memset C w.fileSize (size - w.fileSize))
  modify fun w => { w with fileSize := size }

def dotruncate (size : ℕ) : Run φ Unit := do
  let size := size - size % C.truncbdy
  log4 .truncate 0 size flNone
  truncateGood C size
  unlessSimulated C do
    askOrReport F (.ftruncate size) 160

/-! ### Ranges -/

def doPunchHole (offset length : ℕ) : Run φ Unit := do
  let w ← get
  if length = 0 then log4 .punchHole offset length flSkipped
  else if w.fileSize ≤ offset then log4 .punchHole offset length flSkipped
  else do
    log4 .punchHole offset length flNone
    unlessSimulated C do
      askOrReport F (.fallocate .punchHole offset length) 161
      let maxOffset := if offset < w.fileSize then offset else w.fileSize
      let maxLen := if maxOffset + length ≤ w.fileSize then length else w.fileSize - maxOffset
      memset C maxOffset maxLen

/-- The flags of a call that may keep the size. -/
def keepFlags (flags : Flags) (keepSize : Bool) : Flags := { flags with keepSize := keepSize }

def doZeroRange (offset length : ℕ) (keepSize : Bool) : Run φ Unit :=
  if length = 0 then log4 .zeroRange offset length (keepFlags flSkipped keepSize)
  else do
    log4 .zeroRange offset length (keepFlags flNone keepSize)
    unlessSimulated C do
      askOrReport F (.fallocate .zeroRange offset length) 161
      memset C offset length

def collapseGood (offset length : ℕ) : Run φ Unit := do
  let w ← get
  memmove C offset (offset + length) (w.fileSize - (offset + length))
  modify fun w => { w with fileSize := w.fileSize - length }

def doCollapseRange (offset length : ℕ) : Run φ Unit := do
  let w ← get
  if length = 0 then log4 .collapseRange offset length flSkipped
  else if w.fileSize ≤ offset + length then log4 .collapseRange offset length flSkipped
  else do
    log4 .collapseRange offset length flNone
    unlessSimulated C do
      askOrReport F (.fallocate .collapseRange offset length) 161
      collapseGood C offset length

def insertGood (offset length : ℕ) : Run φ Unit := do
  let w ← get
  memmove C (offset + length) offset (w.fileSize - offset)
  memset C offset length
  modify fun w => { w with fileSize := w.fileSize + length }

def doInsertRange (offset length : ℕ) : Run φ Unit := do
  let w ← get
  if length = 0 then log4 .insertRange offset length flSkipped
  else if w.fileSize ≤ offset then log4 .insertRange offset length flSkipped
  else do
    log4 .insertRange offset length flNone
    unlessSimulated C do
      askOrReport F (.fallocate .insertRange offset length) 161
      insertGood C offset length

/-- What a clone and a copy do to `good_buf`. -/
def copyGood (offset length dest : ℕ) : Run φ Unit := do
  memmove C dest offset length
  let w ← get
  onlyIf (w.fileSize < dest) (memset C w.fileSize (dest - w.fileSize))
  onlyIf (w.fileSize < dest + length) (modify fun w => { w with fileSize := dest + length })

def doCloneRange (offset length dest : ℕ) : Run φ Unit := do
  let w ← get
  if length = 0 then log5 .cloneRange offset length dest flSkipped
  else if w.fileSize ≤ offset then log5 .cloneRange offset length dest flSkipped
  else do
    log5 .cloneRange offset length dest flNone
    unlessSimulated C do
      askOrReport F (.clone offset length dest) 161
      copyGood C offset length dest

def doDedupeRange (offset length dest : ℕ) : Run φ Unit := do
  let w ← get
  if length = 0 then log5 .dedupeRange offset length dest flSkipped
  else if w.fileSize ≤ offset then log5 .dedupeRange offset length dest flSkipped
  else do
    log5 .dedupeRange offset length dest flNone
    unlessSimulated C do
      askOrReport F (.dedupe offset length dest) 161

/-- The loop of `do_copy_range`: as long as bytes are left, ask for them; an
answer of 0 bytes is asked again. The first argument bounds the calls. -/
def copyLoop : ℕ → ℕ → ℕ → ℕ → ℕ → Run φ Unit
  | 0, _, _, _, _ => stop .spin
  | patience + 1, o1, o2, olen, tries =>
    if olen = 0 then pure ()
    else do
      match ← ask F (.copy o1 olen o2) with
      | .failed => stop (.report 161)
      | .again =>
        if 300 ≤ tries then stop (.report 161) else copyLoop patience o1 o2 olen (tries + 1)
      | .bytes nr =>
        if olen < nr then stop (.report 161)
        else copyLoop patience (o1 + nr) (o2 + nr) (olen - nr) tries

def doCopyRange (patience offset length dest : ℕ) : Run φ Unit := do
  let w ← get
  if length = 0 then log5 .copyRange offset length dest flSkipped
  else if w.fileSize ≤ offset then log5 .copyRange offset length dest flSkipped
  else do
    log5 .copyRange offset length dest flNone
    unlessSimulated C do
      copyLoop F patience offset dest length 0
      copyGood C offset length dest

def preallocateGood (endOffset : ℕ) : Run φ Unit := do
  let w ← get
  onlyIf (w.fileSize < endOffset) do
    memset C w.fileSize (endOffset - w.fileSize)
    modify fun w => { w with fileSize := endOffset }

def doPreallocate (offset length : ℕ) (keepSize : Bool) : Run φ Unit :=
  if length = 0 then log4 .fallocate offset length (keepFlags flSkipped keepSize)
  else do
    let endOffset := if keepSize then 0 else offset + length
    log4 .fallocate offset length (keepFlags flNone keepSize)
    preallocateGood C endOffset
    unlessSimulated C do
      askOrReport F (.fallocate (if keepSize then .keepSize else .allocate) offset length) 161

/-! ### The file as a whole -/

def writefileimage : Run φ Unit := do
  askOrReport F (.seek 0) 171
  let w ← get
  writeOrReport F 0 (w.slice 0 w.fileSize) 172
  onlyIf (C.lite = false) (askOrReport F (.ftruncate w.fileSize) 173)

def docloseopen : Run φ Unit :=
  unlessSimulated C do
    askOrReport F .close 180
    askOrReport F .reopen 181

def dofsync : Run φ Unit :=
  unlessSimulated C do
    log4 .fsync 0 0 flNone
    askOrReport F .fsync 210
    askOr F .mark (.exit 211)
    askOr F .dump (.exit 212)

end

end Fsx
end Longan
