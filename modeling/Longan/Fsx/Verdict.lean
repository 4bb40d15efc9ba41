/-
# fsx: a whole run

On what is chosen (`choose_ok`) every operation keeps `good_buf` level with the
file. From one call of `test` to the next, and so over a whole run, fsx ends
well only on good answers, stops only on answers that were not good, and never
leaves its buffers (`verdict`).
-/
import Longan.Fsx.Choose
import Longan.Fsx.Sound
import Longan.Fsx.Unwatched

namespace Longan
namespace Fsx

section

variable {φ : Type} {F : FileSystem φ} {C : Config} {t : ℕ}

/-! ### Doing it -/

section Doing

variable {f c : File}

theorem performed_synced {m : Run (Watched φ) Unit}
    (h : Ends (At C t True f c) m (fun _ => Synced C t) Blamed) :
    Ends (At C t True f c) (performed m) (fun _ => Synced C t) Blamed :=
  Ends.bind h fun _ => Ends.pure fun _ h => h

theorem skip4_synced {op : Op} {a b : ℕ} (hs : Level C t f c) :
    Ends (At C t True f c) (skip4 op a b : Run (Watched φ) Bool) (fun _ => Synced C t) Blamed :=
  Ends.bind (log4_synced hs) fun _ => Ends.pure fun _ h => h

theorem skip5_synced {op : Op} {a b d : ℕ} (hs : Level C t f c) :
    Ends (At C t True f c) (skip5 op a b d : Run (Watched φ) Bool) (fun _ => Synced C t) Blamed :=
  Ends.bind (log5_synced hs) fun _ => Ends.pure fun _ h => h

theorem ifEnabled_synced {on : Bool} {skip m : Run (Watched φ) Bool}
    (hs : Ends (At C t True f c) skip (fun _ => Synced C t) Blamed)
    (hm : Ends (At C t True f c) m (fun _ => Synced C t) Blamed) :
    Ends (At C t True f c) (ifEnabled on skip m) (fun _ => Synced C t) Blamed :=
  Ends.ite (fun _ => hm) fun _ => hs

theorem ranged_synced {op : Op} {ch : Choice} {m : Run (Watched φ) Unit} (hs : Level C t f c)
    (h : ch.offset2 + ch.size ≤ C.maxfilelen →
      Ends (At C t True f c) m (fun _ => Synced C t) Blamed) :
    Ends (At C t True f c) (ranged C op ch m) (fun _ => Synced C t) Blamed :=
  Ends.ite (fun _ => skip5_synced hs) fun _ => Ends.ite (fun _ => skip5_synced hs) fun hle =>
    performed_synced (h (Nat.le_of_not_lt hle))

theorem dispatch_synced {patience : ℕ} {ch : Choice} (hC : C.Ok) (hs : Level C t f c)
    (hch : ch.Ok C c.size) :
    Ends (At C t True f c) (dispatch (watch F) C patience ch) (fun _ => Synced C t) Blamed := by
  refine get_at fun w hw => ?_
  have hc := hw.le
  rw [hw.size]
  -- the operations that `-L` leaves out
  have full : ¬ (ch.op = .read ∨ ch.op = .write ∨ ch.op = .mapread ∨ ch.op = .mapwrite) →
      C.lite = false := fun h => Bool.eq_false_iff.mpr fun hl => h (hch.lite hl)
  have hlen := fun limit => trimLen_le (trimOff ch.offset limit) ch.size limit
  have hin := fun limit => trim_le ch.offset ch.size limit
  have hsize := hch.size
  cases hop : ch.op with
  | read =>
    have hn := hsize (by rw [hop]; simp)
    exact performed_synced (doread_synced hs hc (Nat.le_trans (hlen _) hn))
  | write => exact performed_synced (dowrite_synced hs (hin _))
  | mapread =>
    have hn := hsize (by rw [hop]; simp)
    dsimp only
    cases C.mappedReads with
    | true => exact performed_synced (domapread_synced hC.pageSize hs hc (Nat.le_trans (hlen _) hn))
    | false => exact performed_synced (doread_synced hs hc (Nat.le_trans (hlen _) hn))
  | mapwrite =>
    dsimp only
    cases C.mappedWrites with
    | true => exact performed_synced (domapwrite_synced hC.pageSize hs (hin _))
    | false => exact performed_synced (dowrite_synced hs (hin _))
  | truncate =>
    exact performed_synced (dotruncate_synced (full (by rw [hop]; simp)) hs
      (Nat.le_of_lt (hch.cut hop)))
  | fallocate =>
    exact ifEnabled_synced (skip4_synced hs) (performed_synced
      (doPreallocate_synced (full (by rw [hop]; simp)) hs (hin _)))
  | punchHole =>
    exact ifEnabled_synced (skip4_synced hs) (performed_synced
      (doPunchHole_synced (full (by rw [hop]; simp)) hs hc))
  | zeroRange =>
    exact ifEnabled_synced (skip4_synced hs) (performed_synced
      (doZeroRange_synced (full (by rw [hop]; simp)) hs hc (hin _)))
  | collapseRange =>
    refine ifEnabled_synced (skip4_synced hs) (Ends.ite (fun _ => skip4_synced hs) fun _ => ?_)
    exact performed_synced (doCollapseRange_synced (full (by rw [hop]; simp)) hs)
  | insertRange =>
    refine ifEnabled_synced (skip4_synced hs) (Ends.ite (fun _ => skip4_synced hs) fun _ =>
      Ends.ite (fun _ => skip4_synced hs) fun hle => ?_)
    exact performed_synced (doInsertRange_synced (full (by rw [hop]; simp)) hs
      (Nat.le_of_not_lt hle))
  | cloneRange =>
    refine ifEnabled_synced (skip5_synced hs) (ranged_synced hs fun hle => ?_)
    exact doCloneRange_synced (full (by rw [hop]; simp)) hs (hch.source (Or.inl hop)) hle
  | dedupeRange =>
    exact ifEnabled_synced (skip5_synced hs) (ranged_synced hs fun _ => doDedupeRange_synced hs)
  | copyRange =>
    refine ifEnabled_synced (skip5_synced hs) (ranged_synced hs fun hle => ?_)
    exact doCopyRange_synced (full (by rw [hop]; simp)) hs (hch.source (Or.inr hop)) hle
      (hch.apart hop)
  | fsync => exact performed_synced (dofsync_synced hs)

/-- The contents are compared as far as `-X` can. -/
theorem checkContents_at (hp : 0 < C.pageSize) (hf : f = c) :
    Ends (At C t True f c) (checkContents (watch F) C) (fun _ => At C t True f c) Blamed := by
  unfold checkContents
  refine get_at fun w hw => ?_
  have hc := hw.le
  rw [hw.size]
  dsimp only
  have hle : (if C.oDirect = true then c.size - c.size % C.readbdy else c.size) ≤ c.size := le_of_direct
  refine Ends.ite (fun _ => Ends.pure fun _ h => h) fun _ => ?_
  refine Ends.bind (readAndCheck_at hf (by omega) hc) fun _ => ?_
  refine Ends.bind (askOrReport_at fun _ => Iff.rfl) fun _ => ?_
  refine Ends.bind (checkEofpage_at hp hf ?_) fun _ => askOrReport_at fun _ => Iff.rfl
  generalize (if C.oDirect = true then c.size - c.size % C.readbdy else c.size) = size at hle
  by_cases h : size - size % C.pageSize = size
  · rw [if_pos h]
    omega
  · rw [if_neg h]
    omega

theorem perform_synced {patience : ℕ} {ch : Choice} (hC : C.Ok) (hs : Level C t f c)
    (hch : ch.Ok C c.size) :
    Ends (At C t True f c) (perform (watch F) C patience ch) (fun _ => Synced C t) Blamed := by
  refine Ends.bind (dispatch_synced hC hs hch) fun done => ?_
  refine Ends.bind (R := fun _ => Synced C t) (Ends.onlyIf (fun _ => ?_) fun _ _ h => h) fun _ => ?_
  · exact synced_ends fun f c hs _ => unlessSimulated_synced hs fun ht =>
      (checkContents_at hC.pageSize (hs.same ht)).weaken (fun _ h => h) (fun _ _ h => h.synced hs)
        fun _ _ h => h
  refine Ends.bind (R := fun _ => Synced C t) (Ends.onlyIf (fun _ => ?_) fun _ _ h => h) fun _ => ?_
  · exact synced_ends fun f c hs _ => unlessSimulated_synced hs fun ht =>
      (checkSize_at (hs.same ht)).weaken (fun _ h => h) (fun _ _ h => h.synced hs) fun _ _ h => h
  refine synced_ends fun f c hs _ => get_at fun w hw => ?_
  exact Ends.onlyIf (fun _ => docloseopen_synced hs) fun _ _ h => h.synced hs

end Doing

/-! ### From one test to the next -/

/-- Between two calls of `test`: `good_buf` is the file before the first
simulated operation too. -/
structure Rest (C : Config) (t : ℕ) (f c : File) : Prop where
  same : C.simulatedopcount < t ∨ C.simulatedopcount = 0 → f = c
  whole : C.lite = true → f.size = C.maxfilelen ∧ c.size = C.maxfilelen

def Rested (C : Config) (t : ℕ) (w : World (Watched φ)) : Prop :=
  ∃ f c, At C t True f c w ∧ Rest C t f c

theorem Synced.rested {w : World (Watched φ)} (h : Synced C (t + 1) w) : Rested C (t + 1) w := by
  obtain ⟨f, c, hw, hs⟩ := h
  exact ⟨f, c, hw, fun ht => hs.same (by omega), hs.whole⟩

theorem writefileimage_at {f c : File} (hl : C.lite = true → f.size = c.size) :
    Ends (At C t True f c) (writefileimage (watch F) C) (fun _ => At C t True c c) Blamed := by
  refine Ends.bind (askOrReport_at fun _ => Iff.rfl) fun _ => get_at fun w hw => ?_
  rw [hw.size, hw.slice (by omega)]
  refine Ends.bind writeOrReport_at fun _ => ?_
  have hcut := f.truncate_write c
  refine Ends.onlyIf (fun _ => ?_) fun h w hw => ?_
  · refine (askOrReport_at fun _ => Iff.rfl).weaken (fun _ h => h) (fun _ w hw => ?_) fun _ _ h => h
    have hw : At C t True ((f.write 0 (c.read 0 c.size)).truncate c.size) c w := hw
    rwa [hcut] at hw
  · -- with `-L` the file is not cut, and does not have to be
    have hsize : (f.write 0 (c.read 0 c.size)).size = c.size := by
      have := hl (by simpa using h)
      have hlen : (c.read 0 c.size).length = c.size := by
        rw [File.read_length]
        omega
      rw [File.size_write, hlen]
      by_cases h0 : c.size = 0
      · rw [if_pos h0, this]
      · rw [if_neg h0]
        omega
    have hsame : f.write 0 (c.read 0 c.size) = c := by
      rw [← File.truncate_size (f.write 0 (c.read 0 c.size)), hsize, hcut]
    have hw : At C t True (f.write 0 (c.read 0 c.size)) c w := hw
    rwa [hsame] at hw

theorem begin_synced : Ends (Rested C t) (begin (watch F) C) (fun _ => Synced C (t + 1)) Blamed := by
  rintro w ⟨f, c, hw, hs⟩
  revert hw
  revert w
  refine get_at fun w hw => ?_
  rw [hw.testcalls]
  refine Ends.bind (R := fun _ w => ∃ g, At C t True g c w ∧
    Level C (t + 1) g c) (Ends.onlyIf (fun _ => ?_) fun h w hw => ?_) fun _ => Ends.modify ?_
  · refine (writefileimage_at fun hl => ?_).weaken (fun _ h => h) (fun _ _ h => ⟨c, h, ?_⟩)
      fun _ _ h => h
    · rw [(hs.whole hl).1, (hs.whole hl).2]
    · exact ⟨fun _ => rfl, fun hl => ⟨(hs.whole hl).2, (hs.whole hl).2⟩⟩
  · exact ⟨f, hw, fun ht => hs.same (by omega), hs.whole⟩
  · rintro w ⟨g, hw, hg⟩
    exact ⟨g, c, ⟨congrArg (· + 1) hw.testcalls, hw.fair, hw.file, hw.content, hw.room⟩, hg⟩

theorem anywhere_at {f c : File} : Anywhere (At C t True f c)
    (Blamed : Stop → World (Watched φ) → Prop) where
  random _ _ hw := ⟨hw.testcalls, hw.fair, hw.file, hw.content, hw.room⟩
  closeopen _ _ hw := ⟨hw.testcalls, hw.fair, hw.file, hw.content, hw.room⟩
  cut _ _ := trivial

theorem test_rested {patience : ℕ} (hC : C.Ok) :
    Ends (Rested C t) (test (watch F) C patience) (fun _ => Rested C (t + 1)) Blamed := by
  refine Ends.bind begin_synced fun _ => synced_ends fun f c hs _ => ?_
  refine Ends.bind (choose_ok hC.maxfilelen anywhere_at fun w hw => hw.size) fun ch => ?_
  rintro w ⟨hw, hch⟩
  exact (perform_synced hC hs hch w hw).mono (fun _ _ h => h.rested) fun _ _ h => h

theorem runTests_rested {patience : ℕ} (hC : C.Ok) : ∀ numops t : ℕ,
    Ends (Rested C t) (runTests (watch F) C patience numops)
      (fun _ => Rested C (t + numops)) Blamed
  | 0, _ => Ends.pure fun _ h => h
  | numops + 1, t => by
    refine Ends.bind (test_rested hC) fun _ => ?_
    rw [show t + (numops + 1) = t + 1 + numops by omega]
    exact runTests_rested hC numops (t + 1)

/-! ### The verdict -/

/-- The world at the first call: `good_buf` has what is in the file `f`. -/
structure Start (C : Config) (w : World φ) (f : File) : Prop where
  testcalls : w.testcalls = 0
  content : w.content = f
  room : w.fileSize ≤ C.maxfilelen
  whole : C.lite = true → w.fileSize = C.maxfilelen

/-- The world with the file beside it, and nothing noted yet. -/
def World.watched (w : World φ) (f : File) : World (Watched φ) where
  goodBuf := w.goodBuf
  fileSize := w.fileSize
  testcalls := w.testcalls
  oplog := w.oplog
  logptr := w.logptr
  logcount := w.logcount
  closeopen := w.closeopen
  badoff := w.badoff
  random := w.random
  fs := ⟨w.fs, f, True, 0⟩

theorem Start.rested {w : World φ} {f : File} (h : Start C w f) : Rested C 0 (w.watched f) := by
  refine ⟨f, f, ⟨h.testcalls, Iff.rfl, rfl, h.content, h.room⟩, fun _ => rfl, fun hl => ?_⟩
  have hsize : f.size = C.maxfilelen := by
    rw [← h.content]
    exact h.whole hl
  exact ⟨hsize, hsize⟩

/-- **A run of fsx judges the file system rightly.** Beside any file system, the
run with the file it should hold beside it is the same run; where it ends well
every answer was good, and `good_buf` is the file; where it stops with a status
some answer was not good, or a copy was to be tried again more than 300 times;
and it never touches memory outside its buffers. -/
theorem verdict (F : FileSystem φ) (hC : C.Ok) {w : World φ} {f : File} (h : Start C w f)
    (patience numops : ℕ) :
    runTests F C patience numops w =
        endMap World.under (runTests (watch F) C patience numops (w.watched f)) ∧
      AtEnd (fun _ v => v.fs.fair ∧ v.testcalls = numops ∧
          (C.simulatedopcount < numops → v.content = v.fs.file)) Blamed
        (runTests (watch F) C patience numops (w.watched f)) := by
  refine ⟨runTests_under numops (w.watched f), ?_⟩
  refine (runTests_rested hC numops 0 _ h.rested).mono (fun _ v hv => ?_) fun _ _ he => he
  obtain ⟨g, c, hv, hg⟩ := hv
  rw [Nat.zero_add] at hv hg
  refine ⟨hv.fair.mpr trivial, hv.testcalls, fun ht => ?_⟩
  rw [hv.content, hv.file, hg.same (Or.inl ht)]

end

/-! ### A file system that works -/

/-- The answer a file gives. -/
def answer (f : File) : {ρ : Type} → Call ρ → ρ
  | _, .read off n => some (f.read off n)
  | _, .write _ data => some data.length
  | _, .copy _ n _ => .bytes n
  | _, .load _ _ => f.byte
  | _, .store _ _ => ()
  | _, .fstat => some f.size
  | _, .seekEnd => some f.size
  | _, .seek _ => true
  | _, .ftruncate _ => true
  | _, .fallocate _ _ _ => true
  | _, .clone _ _ _ => true
  | _, .dedupe _ _ _ => true
  | _, .mmap _ _ => true
  | _, .msync => true
  | _, .munmap => true
  | _, .fsync => true
  | _, .close => true
  | _, .reopen => true
  | _, .mark => true
  | _, .dump => true

def inMemory : FileSystem File where
  call c f := (answer f c, effect f c (answer f c))

/-- fsx with small bounds on an empty file. -/
def smallConfig : Config where
  maxfilelen := 16
  maxoplen := 4
  readbdy := 1
  writebdy := 1
  truncbdy := 1
  blockSize := 4
  pageSize := 8
  simulatedopcount := 0
  closeprob := 0
  filldata := 0
  originalBuf := fun _ => 7
  randomoplen := true
  lite := false
  integrity := false
  oDirect := false
  flush := false
  doFsync := false
  sizechecks := true
  checkFile := true
  mappedReads := true
  mappedWrites := true
  fallocateCalls := true
  keepSizeCalls := true
  punchHoleCalls := true
  zeroRangeCalls := true
  collapseRangeCalls := true
  insertRangeCalls := true
  cloneRangeCalls := true
  dedupeRangeCalls := true
  copyRangeCalls := true

def emptyWorld (random : List ℕ) : World File where
  goodBuf := fun _ => 0
  fileSize := 0
  testcalls := 0
  oplog := fun _ => ⟨.read, [], flNone⟩
  logptr := 0
  logcount := 0
  closeopen := false
  badoff := -1
  random := random
  fs := File.empty

theorem smallConfig_ok : smallConfig.Ok := ⟨by decide, by decide, by decide, by decide, by decide, by decide⟩

theorem emptyWorld_start (random : List ℕ) : Start smallConfig (emptyWorld random) File.empty where
  testcalls := rfl
  content := content_eq rfl fun _ h => absurd h (Nat.not_lt_zero _)
  room := Nat.zero_le _
  whole h := absurd h (by decide)

/-- A write, a truncation and a copy of a file that works. -/
theorem verdict_inMemory :
    runTests inMemory smallConfig 5 3 (emptyWorld [1, 3, 4, 4, 0, 9, 2, 12, 0, 3, 8]) =
        endMap World.under (runTests (watch inMemory) smallConfig 5 3
          ((emptyWorld [1, 3, 4, 4, 0, 9, 2, 12, 0, 3, 8]).watched File.empty)) ∧
      AtEnd (fun _ v => v.fs.fair ∧ v.testcalls = 3 ∧
          (smallConfig.simulatedopcount < 3 → v.content = v.fs.file)) Blamed
        (runTests (watch inMemory) smallConfig 5 3
          ((emptyWorld [1, 3, 4, 4, 0, 9, 2, 12, 0, 3, 8]).watched File.empty)) :=
  verdict inMemory smallConfig_ok (emptyWorld_start _) 5 3

end Fsx
end Longan
