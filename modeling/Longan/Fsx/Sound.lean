/-
# fsx: what its verdict says

fsx runs beside a file system of which nothing is assumed, and the watched
file says which of its answers were good. Every operation keeps the two in
step (`Synced`): as long as the answers are good `good_buf` is the file, and
where fsx stops with a status an answer was not good. So a run that ends
well has seen only good answers, a run on a file system that works ends well,
and no run leaves its buffers (`verdict`).
-/
import Longan.Fsx.Choose
import Longan.Fsx.Watch

namespace Longan
namespace Fsx

/-- The bounds are there to divide by. -/
structure Config.Ok (C : Config) : Prop where
  maxfilelen : 0 < C.maxfilelen
  readbdy : 0 < C.readbdy
  writebdy : 0 < C.writebdy
  truncbdy : 0 < C.truncbdy
  blockSize : 0 < C.blockSize
  pageSize : 0 < C.pageSize

section

variable {φ : Type} {F : FileSystem φ} {C : Config} {t : ℕ}

/-- The file and `good_buf`: the same after the simulated operations, and with
`-L` never of another size than `maxfilelen`. -/
structure Level (C : Config) (t : ℕ) (f c : File) : Prop where
  same : C.simulatedopcount < t → f = c
  whole : C.lite = true → f.size = C.maxfilelen ∧ c.size = C.maxfilelen

theorem Level.full {f c : File} (hl : C.lite = false) (h : C.simulatedopcount < t → f = c) :
    Level C t f c := ⟨h, fun hl' => Bool.noConfusion (hl.symm.trans hl')⟩

/-- Between two steps of call number `t`: the answers were good, and `good_buf`
is level with the file. -/
def Synced (C : Config) (t : ℕ) (w : World (Watched φ)) : Prop :=
  ∃ f c, At C t True f c w ∧ Level C t f c

theorem synced_ends {α : Type} {m : Run (Watched φ) α} {Q : α → World (Watched φ) → Prop}
    {E : Stop → World (Watched φ) → Prop}
    (h : ∀ f c, Level C t f c → c.size ≤ C.maxfilelen → Ends (At C t True f c) m Q E) :
    Ends (Synced C t) m Q E := by
  rintro w ⟨f, c, hw, hs⟩
  exact h f c hs hw.le w hw

section Checks

variable {G : Prop} {f c : File}

theorem unlessSimulated_at {m : Run (Watched φ) Unit} {Q : Unit → World (Watched φ) → Prop}
    {E : Stop → World (Watched φ) → Prop}
    (h : C.simulatedopcount < t → Ends (At C t G f c) m Q E)
    (h' : t ≤ C.simulatedopcount → ∀ w, At C t G f c w → Q () w) :
    Ends (At C t G f c) (unlessSimulated C m) Q E := by
  unfold unlessSimulated
  refine get_at fun w hw => ?_
  rw [hw.testcalls]
  by_cases ht : t ≤ C.simulatedopcount
  · rw [if_pos ht]
    exact Ends.pure fun w hw => h' ht w hw
  · rw [if_neg ht]
    exact h (Nat.lt_of_not_le ht)

/-- The comparison passes just when the bytes are those of the file. -/
theorem checkBuffers_at {bytes : List UInt8} {off n : ℕ} (hn : off + n ≤ c.size)
    (hc : c.size ≤ C.maxfilelen) (hlen : bytes.length = n) (hG : G ↔ bytes = c.read off n) :
    Ends (At C t G f c) (checkBuffers C bytes off n : Run (Watched φ) Unit)
      (fun _ => At C t True f c) Blamed := by
  unfold checkBuffers
  refine Ends.bind (within_at (by omega)) fun _ => get_at fun w hw => ?_
  have hread : (c.read off n).length = n := by
    rw [File.read_length]
    omega
  have hnil : w.differing bytes off n = [] ↔ bytes = c.read off n := by
    unfold World.differing
    rw [List.filter_eq_nil_iff]
    constructor
    · intro hall
      apply List.ext_getElem (hlen.trans hread.symm)
      intro i h1 h2
      have hi : i < n := hlen ▸ h1
      have h3 := hall i (List.mem_range.mpr hi)
      rw [hw.byte (by omega)] at h3
      have h4 : c.byte (off + i) = bytes.getD i 0 := by simpa using h3
      rw [← File.read_getD c hi hn] at h4
      simpa [List.getD_eq_getElem?_getD, h1, h2] using h4.symm
    · intro he i hi
      have hi := List.mem_range.mp hi
      rw [he, File.read_getD c hi hn, hw.byte (by omega)]
      simp
  cases hl : (w.differing bytes off n).getLast? with
  | none =>
    have hg : G := hG.mpr (hnil.mp (List.getLast?_eq_none_iff.mp hl))
    exact Ends.pure fun w hw => ⟨hw.testcalls, hw.fair.trans (iff_true_intro hg), hw.file,
      hw.content, hw.room⟩
  | some i =>
    have hg : ¬ G := by
      intro hg
      rw [hnil.mpr (hG.mp hg)] at hl
      simp at hl
    refine Ends.bind (R := fun _ w => ¬ w.fs.fair) (Ends.modify fun w hw => ?_) fun _ =>
      Ends.stop fun w hw => Or.inl hw
    intro hf
    exact hg (hw.fair.mp hf)

theorem readAndCheck_at {off n : ℕ} (hf : f = c) (hn : off + n ≤ c.size)
    (hc : c.size ≤ C.maxfilelen) :
    Ends (At C t True f c) (readAndCheck (watch F) C off n) (fun _ => At C t True f c) Blamed := by
  unfold readAndCheck
  refine Ends.bind (askOrReport_at fun _ => Iff.rfl) fun _ => ?_
  refine Ends.bind (ask_at (.read off n) fun r w hw => hw) fun r => ?_
  cases r with
  | none =>
    refine Ends.stop fun w hw => Or.inl fun hfair => ?_
    have h1 : none = some (f.read off n) := (hw.fair.mp hfair).2
    simp at h1
  | some bytes =>
    refine Ends.ite (fun hlen => ?_) fun hlen => Ends.stop fun w hw => Or.inl fun hfair => ?_
    · apply checkBuffers_at hn hc hlen
      show True ∧ some bytes = some (f.read off n) ↔ _
      rw [hf, true_and, Option.some.injEq]
    · have h1 : some bytes = some (f.read off n) := (hw.fair.mp hfair).2
      apply hlen
      rw [Option.some.inj h1, File.read_length, hf]
      omega

/-- The size is asked for twice, and both have to be right. -/
theorem checkSize_at (hf : f = c) :
    Ends (At C t True f c) (checkSize (watch F)) (fun _ => At C t True f c) Blamed := by
  unfold checkSize
  refine Ends.bind (ask_at .fstat fun r w hw => hw) fun st => ?_
  refine Ends.bind (ask_at .seekEnd fun r w hw => hw) fun sk => ?_
  refine get_at fun w hw => ?_
  have hs := hw.size
  have hG : (True ∧ st = some f.size) ∧ sk = some f.size ↔
      st = some w.fileSize ∧ sk = some w.fileSize := by
    rw [hs, hf, true_and]
  refine Ends.ite (fun h => Ends.pure fun w hw => ?_) fun h => Ends.stop fun w hw => Or.inl ?_
  · exact ⟨hw.testcalls, hw.fair.trans (iff_true_intro (hG.mpr h)), hw.file, hw.content, hw.room⟩
  · intro hfair
    exact h (hG.mp (hw.fair.mp hfair))

/-- The bytes a mapping shows past the end of the file: whatever `G` was,
going on means they were zero. -/
theorem checkEofpage_at {off n : ℕ} (hp : 0 < C.pageSize) (hf : f = c) (hn : off + n ≤ c.size) :
    Ends (At C t G f c) (checkEofpage (watch F) C off n) (fun _ => At C t G f c) Blamed := by
  unfold checkEofpage
  refine get_at fun w hw => ?_
  have hs := hw.size
  rw [hs]
  refine Ends.ite (fun _ => Ends.pure fun w hw => hw) fun hlast => ?_
  -- the page of the end of the range is the page of the end of the file
  have hpage : off + n - (off + n) % C.pageSize + c.size % C.pageSize = c.size := by
    have h1 := Nat.div_add_mod (off + n) C.pageSize
    have h2 := Nat.div_add_mod c.size C.pageSize
    have h3 : c.size / C.pageSize ≤ (off + n) / C.pageSize := by
      rw [Nat.le_div_iff_mul_le hp]
      rw [Nat.mul_comm] at h2
      omega
    have h4 : (off + n) / C.pageSize ≤ c.size / C.pageSize := Nat.div_le_div_right hn
    have h5 : (off + n) / C.pageSize = c.size / C.pageSize := Nat.le_antisymm h4 h3
    rw [h5] at h1
    omega
  dsimp only
  rw [hpage]
  refine Ends.bind (ask_at (.load c.size (C.pageSize - c.size % C.pageSize)) fun r w hw => hw)
    fun byte => ?_
  have hzero : Good f (.load c.size (C.pageSize - c.size % C.pageSize)) byte ↔
      (List.range (C.pageSize - c.size % C.pageSize)).all
        (fun i => byte (c.size + i) == 0) = true := by
    rw [List.all_eq_true]
    constructor
    · intro h i hi
      have hi := List.mem_range.mp hi
      have h1 : byte (c.size + i) = f.byte (c.size + i) := h (c.size + i) (by omega) (by omega)
      rw [h1, hf, c.past _ (by omega)]
      rfl
    · intro h i h1 h2
      have h3 := h (i - c.size) (List.mem_range.mpr (by omega))
      rw [show c.size + (i - c.size) = i by omega] at h3
      rw [hf, c.past i h1]
      simpa using h3
  refine Ends.ite (fun h => Ends.pure fun w hw => ?_) fun h => Ends.stop fun w hw => Or.inl ?_
  · have hg : (G ∧ Good f (.load c.size (C.pageSize - c.size % C.pageSize)) byte) ↔ G :=
      and_iff_left (hzero.mpr h)
    exact ⟨hw.testcalls, hw.fair.trans hg, hw.file, hw.content, hw.room⟩
  · intro hfair
    exact h (hzero.mp (hw.fair.mp hfair).2)

end Checks

/-! ### The operations -/

section Operations

variable {f c : File}

theorem At.synced {w : World (Watched φ)} (h : At C t True f c w)
    (hs : Level C t f c) : Synced C t w := ⟨f, c, h, hs⟩

/-- An operation that is only logged. -/
theorem log4_synced {op : Op} {a b : ℕ} {fl : Flags}
    (hs : Level C t f c) :
    Ends (At C t True f c) (log4 op a b fl : Run (Watched φ) Unit) (fun _ => Synced C t) Blamed :=
  log4_at.weaken (fun _ h => h) (fun _ _ h => h.synced hs) fun _ _ h => h

theorem log5_synced {op : Op} {a b d : ℕ} {fl : Flags}
    (hs : Level C t f c) :
    Ends (At C t True f c) (log5 op a b d fl : Run (Watched φ) Unit) (fun _ => Synced C t) Blamed :=
  log5_at.weaken (fun _ h => h) (fun _ _ h => h.synced hs) fun _ _ h => h

theorem unlessSimulated_synced {m : Run (Watched φ) Unit}
    (hs : Level C t f c)
    (h : C.simulatedopcount < t → Ends (At C t True f c) m (fun _ => Synced C t) Blamed) :
    Ends (At C t True f c) (unlessSimulated C m) (fun _ => Synced C t) Blamed :=
  unlessSimulated_at h fun _ _ hw => hw.synced hs

theorem doread_synced {off n : ℕ} (hs : Level C t f c) (hc : c.size ≤ C.maxfilelen)
    (hn : n ≤ C.maxoplen) :
    Ends (At C t True f c) (doread (watch F) C off n) (fun _ => Synced C t) Blamed := by
  unfold doread
  refine get_at fun w hw => ?_
  rw [hw.size]
  refine Ends.ite (fun _ => log4_synced hs) fun _ => Ends.ite (fun _ => log4_synced hs) fun h2 => ?_
  refine Ends.bind log4_at fun _ => unlessSimulated_synced hs fun ht => ?_
  have hle : (if C.oDirect then n - n % C.readbdy else n) ≤ n := le_of_direct
  refine Ends.bind (within_at (by omega)) fun _ => ?_
  exact (readAndCheck_at (hs.same ht) (by omega) hc).weaken (fun _ h => h)
    (fun _ _ h => h.synced hs) fun _ _ h => h

theorem domapread_synced {off n : ℕ} (hp : 0 < C.pageSize) (hs : Level C t f c)
    (hc : c.size ≤ C.maxfilelen) (hn : n ≤ C.maxoplen) :
    Ends (At C t True f c) (domapread (watch F) C off n) (fun _ => Synced C t) Blamed := by
  unfold domapread
  refine get_at fun w hw => ?_
  rw [hw.size]
  refine Ends.ite (fun _ => log4_synced hs) fun _ => Ends.ite (fun _ => log4_synced hs) fun h2 => ?_
  refine Ends.bind log4_at fun _ => unlessSimulated_synced hs fun ht => ?_
  have hin : off - off % C.readbdy + n ≤ c.size := by omega
  refine Ends.bind (askOrReport_at fun _ => Iff.rfl) fun _ => ?_
  refine Ends.bind (within_at (by omega)) fun _ => ?_
  refine Ends.bind (ask_at (.load (off - off % C.readbdy) n) fun r w hw => hw) fun byte => ?_
  refine Ends.bind (checkEofpage_at hp (hs.same ht) hin) fun _ => ?_
  refine Ends.bind (askOrReport_at fun _ => Iff.rfl) fun _ => ?_
  refine (checkBuffers_at hin hc (by simp) ?_).weaken (fun _ h => h)
    (fun _ _ h => h.synced hs) fun _ _ h => h
  -- what the mapping showed is good when it is what the file has there
  have hmin : min n (c.size - (off - off % C.readbdy)) = n := by omega
  rw [true_and, File.read, hmin]
  show (∀ i, off - off % C.readbdy ≤ i → i < off - off % C.readbdy + n → byte i = f.byte i) ↔ _
  rw [hs.same ht]
  constructor
  · intro h
    apply List.map_congr_left
    intro i hi
    have := List.mem_range.mp hi
    exact h _ (by omega) (by omega)
  · intro h i h3 h4
    have h5 := List.map_inj_left.mp h (i - (off - off % C.readbdy)) (List.mem_range.mpr (by omega))
    rwa [show off - off % C.readbdy + (i - (off - off % C.readbdy)) = i by omega] at h5

theorem doflush_at {off n : ℕ} :
    Ends (At C t True f c) (doflush (watch F) C off n) (fun _ => At C t True f c) Blamed := by
  unfold doflush
  refine Ends.ite (fun _ => Ends.pure fun _ h => h) fun _ => ?_
  refine Ends.bind (askOrReport_at fun _ => Iff.rfl) fun _ => ?_
  refine Ends.bind (askOrReport_at fun _ => Iff.rfl) fun _ => ?_
  exact askOrReport_at fun _ => Iff.rfl

/-- A write goes on when it took all the bytes. -/
theorem writeOrReport_at {off status : ℕ} {data : List UInt8} :
    Ends (At C t True f c) (writeOrReport (watch F) off data status)
      (fun _ => At C t True (f.write off data) c) Blamed := by
  unfold writeOrReport
  refine Ends.bind (ask_at (.write off data) fun r w hw => hw) fun r => ?_
  cases r with
  | none =>
    refine Ends.stop fun w hw => Or.inl fun hfair => ?_
    have h1 : none = some data.length := (hw.fair.mp hfair).2
    simp at h1
  | some k =>
    refine Ends.ite (fun hk => Ends.pure fun w hw => ?_) fun hk => Ends.stop fun w hw =>
      Or.inl fun hfair => ?_
    · have hG : True ∧ Good f (.write off data) (some k) ↔ True :=
        iff_true_intro ⟨trivial, congrArg some hk⟩
      exact ⟨hw.testcalls, hw.fair.trans hG, hw.file, hw.content, hw.room⟩
    · have h1 : some k = some data.length := (hw.fair.mp hfair).2
      exact hk (Option.some.inj h1)

/-- Once the bytes are made, `good_buf` is ahead of the file by one write. -/
theorem made_slice {w : World (Watched φ)} {off n : ℕ} (h0 : 0 < n)
    (hw : At C t True f (c.write off (made C t off n)) w) : w.slice off n = made C t off n := by
  have hlen := made_length (C := C) t off n
  have hend : off + (made C t off n).length ≤ (c.write off (made C t off n)).size :=
    c.end_le_write (by omega)
  rw [hw.slice (by omega)]
  have hread := c.read_write off (made C t off n)
  rwa [hlen] at hread

/-- Inside `maxfilelen` a write keeps the size that `-L` fixes. -/
theorem Level.write {off : ℕ} {data : List UInt8} (hs : Level C t f c)
    (hn : off + data.length ≤ C.maxfilelen) {g : File} (hg : C.simulatedopcount < t → g = c.write off data)
    (hf : t ≤ C.simulatedopcount → g = f) : Level C t g (c.write off data) := by
  refine ⟨hg, fun hl => ?_⟩
  have hsize : (c.write off data).size = C.maxfilelen := by
    have := (hs.whole hl).2
    rw [File.size_write]
    by_cases h0 : data.length = 0
    · rw [if_pos h0, this]
    · rw [if_neg h0]
      omega
  rcases Nat.lt_or_ge C.simulatedopcount t with ht | ht
  · rw [hg ht]
    exact ⟨hsize, hsize⟩
  · rw [hf ht]
    exact ⟨(hs.whole hl).1, hsize⟩

theorem dowrite_synced {off n : ℕ} (hs : Level C t f c) (hn : off + n ≤ C.maxfilelen) :
    Ends (At C t True f c) (dowrite (watch F) C off n) (fun _ => Synced C t) Blamed := by
  unfold dowrite
  dsimp only
  generalize hoff : off - off % C.writebdy = off'
  generalize hlen : (if C.oDirect then n - n % C.writebdy else n) = n'
  have hle : n' ≤ n := hlen ▸ le_of_direct
  have hmade := made_length (C := C) t off' n'
  refine Ends.ite (fun _ => log4_synced hs) fun h0 => ?_
  refine Ends.bind log4_at fun _ => get_at fun old hold => ?_
  refine Ends.bind (genAndExtend_at (by omega) (by omega)) fun _ => ?_
  refine Ends.ite (fun hl => ?_) fun _ => ?_
  · have := (hs.whole hl.1).2
    have := hold.size
    omega
  · refine unlessSimulated_at (fun ht => ?_) fun ht w hw =>
      ⟨_, _, hw, hs.write (by omega) (fun h => absurd h (by omega)) fun _ => rfl⟩
    have hlev : Level C t (c.write off' (made C t off' n')) (c.write off' (made C t off' n')) :=
      hs.write (by omega) (fun _ => rfl) fun h => absurd h (by omega)
    rw [hs.same ht]
    refine Ends.bind (askOrReport_at fun _ => Iff.rfl) fun _ => get_at fun w hw => ?_
    rw [made_slice (by omega) hw]
    refine Ends.bind writeOrReport_at fun _ => ?_
    -- the write is what brings the file level with the buffer
    refine Ends.bind (R := fun _ => At C t True (c.write off' (made C t off' n'))
      (c.write off' (made C t off' n'))) ?_ fun _ => ?_
    · exact Ends.onlyIf (fun _ => askOrReport_at fun _ => Iff.rfl) fun _ _ h => h
    · exact Ends.onlyIf (fun _ => doflush_at.weaken (fun _ h => h)
        (fun _ _ h => h.synced hlev) fun _ _ h => h) fun _ _ h => h.synced hlev

theorem domapwrite_synced {off n : ℕ} (hp : 0 < C.pageSize) (hs : Level C t f c)
    (hn : off + n ≤ C.maxfilelen) :
    Ends (At C t True f c) (domapwrite (watch F) C off n) (fun _ => Synced C t) Blamed := by
  unfold domapwrite
  dsimp only
  generalize hoff : off - off % C.writebdy = off'
  have hmade := made_length (C := C) t off' n
  have hend : 0 < (made C t off' n).length →
      off' + (made C t off' n).length ≤ (c.write off' (made C t off' n)).size := c.end_le_write
  refine Ends.ite (fun _ => log4_synced hs) fun h0 => ?_
  refine Ends.bind log4_at fun _ => get_at fun old hold => ?_
  refine Ends.bind (genAndExtend_at (by omega) (by omega)) fun _ => ?_
  refine Ends.ite (fun hl => ?_) fun _ => ?_
  · have := (hs.whole hl.1).2
    have := hold.size
    omega
  · refine unlessSimulated_at (fun ht => ?_) fun ht w hw =>
      ⟨_, _, hw, hs.write (by omega) (fun h => absurd h (by omega)) fun _ => rfl⟩
    have hlev : Level C t (c.write off' (made C t off' n)) (c.write off' (made C t off' n)) :=
      hs.write (by omega) (fun _ => rfl) fun h => absurd h (by omega)
    rw [hs.same ht]
    refine get_at fun w hw => ?_
    have hsize := hw.size
    rw [File.size_write, if_neg (by omega)] at hsize
    rw [made_slice (by omega) hw, hold.size, hsize]
    -- the file that is mapped is as long as it is going to be
    refine Ends.bind (R := fun _ w => ∃ g, g.write off' (made C t off' n) =
      c.write off' (made C t off' n) ∧ At C t True g (c.write off' (made C t off' n)) w) ?_ fun _ => ?_
    · refine Ends.onlyIf (fun _ => ?_) fun _ w h => ⟨c, rfl, h⟩
      exact (askOrExit_at fun _ => Iff.rfl).weaken (fun _ h => h)
        (fun _ _ h => ⟨_, c.write_truncate (by omega) rfl, h⟩) fun _ _ h => h
    · rintro w1 ⟨g, hg, hw1⟩
      revert hw1
      revert w1
      refine Ends.bind (askOrReport_at fun _ => Iff.rfl) fun _ => ?_
      refine Ends.bind (ask_at (.store off' (made C t off' n)) fun r w hw => hw) fun _ => ?_
      refine Ends.bind (askOrReport_at fun _ => Iff.rfl) fun _ => ?_
      refine Ends.bind (checkEofpage_at hp hg (by omega)) fun _ => ?_
      refine (askOrReport_at fun _ => Iff.rfl).weaken (fun _ h => h) (fun _ w h => ?_) fun _ _ h => h
      have hG : True ∧ Good (effect g (.mmap (off' - off' % C.pageSize) (off' % C.pageSize + n)) true)
        (.store off' (made C t off' n)) () ↔ True := iff_true_intro ⟨trivial, trivial⟩
      exact ⟨_, _, ⟨h.testcalls, h.fair.trans hG, h.file, h.content, h.room⟩, hg ▸ hlev⟩

theorem dotruncate_synced {n : ℕ} (hl : C.lite = false) (hs : Level C t f c)
    (hn : n ≤ C.maxfilelen) :
    Ends (At C t True f c) (dotruncate (watch F) C n) (fun _ => Synced C t) Blamed := by
  unfold dotruncate
  dsimp only
  refine Ends.bind log4_at fun _ => Ends.bind (truncate_at (by omega)) fun _ => ?_
  refine unlessSimulated_at (fun ht => ?_) fun ht w hw =>
    ⟨_, _, hw, .full hl fun h => absurd h (by omega)⟩
  rw [hs.same ht]
  exact (askOrReport_at fun _ => Iff.rfl).weaken (fun _ h => h)
    (fun _ _ h => h.synced (.full hl fun _ => rfl)) fun _ _ h => h

theorem doPunchHole_synced {off n : ℕ} (hl : C.lite = false) (hs : Level C t f c)
    (hc : c.size ≤ C.maxfilelen) :
    Ends (At C t True f c) (doPunchHole (watch F) C off n) (fun _ => Synced C t) Blamed := by
  unfold doPunchHole
  refine get_at fun w hw => ?_
  rw [hw.size]
  refine Ends.ite (fun _ => log4_synced hs) fun h0 => Ends.ite (fun _ => log4_synced hs) fun h1 => ?_
  refine Ends.bind log4_at fun _ => unlessSimulated_synced hs fun ht => ?_
  rw [hs.same ht]
  refine Ends.bind (askOrReport_at fun _ => Iff.rfl) fun _ => ?_
  have h2 : off < c.size := Nat.lt_of_not_le h1
  dsimp only
  rw [if_pos h2]
  refine (memset_at ?_ hc).weaken (fun _ h => h) (fun _ w h => ?_) fun _ _ h => h
  · by_cases h3 : off + n ≤ c.size
    · rw [if_pos h3]
      exact h3
    · rw [if_neg h3]
      omega
  · rw [c.zero_clip] at h
    exact h.synced (.full hl fun _ => rfl)

theorem doZeroRange_synced {off n : ℕ} {keepSize : Bool} (hl : C.lite = false)
    (hs : Level C t f c) (hc : c.size ≤ C.maxfilelen) (hn : off + n ≤ c.size) :
    Ends (At C t True f c) (doZeroRange (watch F) C off n keepSize)
      (fun _ => Synced C t) Blamed := by
  unfold doZeroRange
  refine Ends.ite (fun _ => log4_synced hs) fun h0 => ?_
  refine Ends.bind log4_at fun _ => unlessSimulated_synced hs fun ht => ?_
  rw [hs.same ht]
  refine Ends.bind (askOrReport_at fun _ => Iff.rfl) fun _ => ?_
  exact (memset_at hn hc).weaken (fun _ h => h)
    (fun _ _ h => h.synced (.full hl fun _ => c.allocate_zero hn)) fun _ _ h => h

theorem doCollapseRange_synced {off n : ℕ} (hl : C.lite = false) (hs : Level C t f c) :
    Ends (At C t True f c) (doCollapseRange (watch F) C off n) (fun _ => Synced C t) Blamed := by
  unfold doCollapseRange
  refine get_at fun w hw => ?_
  rw [hw.size]
  refine Ends.ite (fun _ => log4_synced hs) fun h0 => Ends.ite (fun _ => log4_synced hs) fun h1 => ?_
  refine Ends.bind log4_at fun _ => unlessSimulated_synced hs fun ht => ?_
  rw [hs.same ht]
  refine Ends.bind (askOrReport_at fun _ => Iff.rfl) fun _ => ?_
  exact (collapse_at (Nat.lt_of_not_le h1)).weaken (fun _ h => h)
    (fun _ _ h => h.synced (.full hl fun _ => rfl)) fun _ _ h => h

theorem doInsertRange_synced {off n : ℕ} (hl : C.lite = false) (hs : Level C t f c)
    (hn : c.size + n ≤ C.maxfilelen) :
    Ends (At C t True f c) (doInsertRange (watch F) C off n) (fun _ => Synced C t) Blamed := by
  unfold doInsertRange
  refine get_at fun w hw => ?_
  rw [hw.size]
  refine Ends.ite (fun _ => log4_synced hs) fun h0 => Ends.ite (fun _ => log4_synced hs) fun h1 => ?_
  refine Ends.bind log4_at fun _ => unlessSimulated_synced hs fun ht => ?_
  rw [hs.same ht]
  refine Ends.bind (askOrReport_at fun _ => Iff.rfl) fun _ => ?_
  exact (insert_at (Nat.lt_of_not_le h1) hn).weaken (fun _ h => h)
    (fun _ _ h => h.synced (.full hl fun _ => rfl)) fun _ _ h => h

theorem doCloneRange_synced {off n dest : ℕ} (hl : C.lite = false) (hs : Level C t f c)
    (hin : off + n ≤ c.size) (hd : dest + n ≤ C.maxfilelen) :
    Ends (At C t True f c) (doCloneRange (watch F) C off n dest)
      (fun _ => Synced C t) Blamed := by
  unfold doCloneRange
  refine get_at fun w hw => ?_
  rw [hw.size]
  refine Ends.ite (fun _ => log5_synced hs) fun h0 => Ends.ite (fun _ => log5_synced hs) fun h1 => ?_
  refine Ends.bind log5_at fun _ => unlessSimulated_synced hs fun ht => ?_
  rw [hs.same ht]
  refine Ends.bind (askOrReport_at fun _ => Iff.rfl) fun _ => ?_
  exact (copyGood_at (by omega) hin hd).weaken (fun _ h => h)
    (fun _ _ h => h.synced (.full hl fun _ => rfl)) fun _ _ h => h

theorem doDedupeRange_synced {off n dest : ℕ} (hs : Level C t f c) :
    Ends (At C t True f c) (doDedupeRange (watch F) C off n dest)
      (fun _ => Synced C t) Blamed := by
  unfold doDedupeRange
  refine get_at fun w hw => ?_
  rw [hw.size]
  refine Ends.ite (fun _ => log5_synced hs) fun h0 => Ends.ite (fun _ => log5_synced hs) fun h1 => ?_
  refine Ends.bind log5_at fun _ => unlessSimulated_synced hs fun ht => ?_
  exact (askOrReport_at fun _ => Iff.rfl).weaken (fun _ h => h) (fun _ _ h => h.synced hs)
    fun _ _ h => h

/-- The answers that ask to try again are counted. -/
theorem ask_counted {ρ : Type} {G : Prop} {call : Call ρ} {k : ℕ}
    {E : Stop → World (Watched φ) → Prop} :
    Ends (fun w => At C t G f c w ∧ k ≤ w.fs.agains) (ask (watch F) call)
      (fun r w => At C t (G ∧ Good f call r) (effect f call r) c w ∧
        k + againIn call r ≤ w.fs.agains) E := by
  rintro w ⟨hw, hk⟩
  exact ⟨ask_at (E := E) call (fun _ _ h => h) w hw, Nat.add_le_add_right hk _⟩

/-- A copy in parts: after `k` bytes the file is ahead of `good_buf` by them. -/
theorem copyLoop_at {off n dest : ℕ} (ha : off + n ≤ dest ∨ dest + n ≤ off) :
    ∀ patience k tries : ℕ, k ≤ n →
      Ends (fun w => At C t True (c.copy off k dest) c w ∧ tries ≤ w.fs.agains)
        (copyLoop (watch F) patience (off + k) (dest + k) (n - k) tries)
        (fun _ => At C t True (c.copy off n dest) c) Blamed
  | 0, k, tries, _ => Ends.stop fun _ _ => trivial
  | patience + 1, k, tries, hk => by
    rw [copyLoop]
    refine Ends.ite (fun h0 => Ends.pure fun w hw => ?_) fun h0 => ?_
    · rw [show n = k by omega]
      exact hw.1
    refine Ends.bind ask_counted fun r => ?_
    cases r with
    | failed =>
      refine Ends.stop fun w hw => Or.inl fun hfair => ?_
      have hg : Copied.failed = .again ∨ ∃ m ≤ n - k, Copied.failed = .bytes m :=
        (hw.1.fair.mp hfair).2
      simp at hg
    | again =>
      refine Ends.ite (fun ht => Ends.stop fun w hw => Or.inr ?_) fun ht => ?_
      · have : tries + 1 ≤ w.fs.agains := hw.2
        omega
      · refine (copyLoop_at ha patience k (tries + 1) hk).weaken (fun w hw => ⟨?_, hw.2⟩)
          (fun _ _ h => h) fun _ _ h => h
        have hG : True ∧ Good (c.copy off k dest) (.copy (off + k) (n - k) (dest + k)) .again ↔
          True := iff_true_intro ⟨trivial, Or.inl rfl⟩
        exact ⟨hw.1.testcalls, hw.1.fair.trans hG, hw.1.file, hw.1.content, hw.1.room⟩
    | bytes m =>
      refine Ends.ite (fun hm => Ends.stop fun w hw => Or.inl fun hfair => ?_) fun hm => ?_
      · have hg : Copied.bytes m = .again ∨ ∃ m' ≤ n - k, Copied.bytes m = .bytes m' :=
          (hw.1.fair.mp hfair).2
        rcases hg with hg | ⟨m', hle, hg⟩
        · simp at hg
        · have := Copied.bytes.inj hg
          omega
      · have hadd : off + k + m = off + (k + m) ∧ dest + k + m = dest + (k + m) ∧
          n - k - m = n - (k + m) := by omega
        rw [hadd.1, hadd.2.1, hadd.2.2]
        refine (copyLoop_at ha patience (k + m) tries (by omega)).weaken
          (fun w hw => ⟨?_, hw.2⟩) (fun _ _ h => h) fun _ _ h => h
        have hG : True ∧ Good (c.copy off k dest) (.copy (off + k) (n - k) (dest + k))
          (.bytes m) ↔ True := iff_true_intro ⟨trivial, Or.inr ⟨m, by omega, rfl⟩⟩
        have hapart : off + (k + m) ≤ dest ∨ dest + (k + m) ≤ off := by omega
        rw [← c.copy_add hapart]
        exact ⟨hw.1.testcalls, hw.1.fair.trans hG, hw.1.file, hw.1.content, hw.1.room⟩

theorem doCopyRange_synced {patience off n dest : ℕ} (hl : C.lite = false) (hs : Level C t f c)
    (hin : off + n ≤ c.size) (hd : dest + n ≤ C.maxfilelen)
    (ha : off + n ≤ dest ∨ dest + n ≤ off) :
    Ends (At C t True f c) (doCopyRange (watch F) C patience off n dest)
      (fun _ => Synced C t) Blamed := by
  unfold doCopyRange
  refine get_at fun w hw => ?_
  rw [hw.size]
  refine Ends.ite (fun _ => log5_synced hs) fun h0 => Ends.ite (fun _ => log5_synced hs) fun h1 => ?_
  refine Ends.bind log5_at fun _ => unlessSimulated_synced hs fun ht => ?_
  rw [hs.same ht]
  refine Ends.bind (R := fun _ => At C t True (c.copy off n dest) c) ?_ fun _ => ?_
  · refine (copyLoop_at ha patience 0 0 (Nat.zero_le n)).weaken (fun w hw => ⟨?_, Nat.zero_le _⟩)
      (fun _ _ h => h) fun _ _ h => h
    rw [c.copy_zero]
    exact hw
  · exact (copyGood_at (by omega) hin hd).weaken (fun _ h => h)
      (fun _ _ h => h.synced (.full hl fun _ => rfl)) fun _ _ h => h

theorem doPreallocate_synced {off n : ℕ} {keepSize : Bool} (hl : C.lite = false)
    (hs : Level C t f c) (hn : off + n ≤ C.maxfilelen) :
    Ends (At C t True f c) (doPreallocate (watch F) C off n keepSize)
      (fun _ => Synced C t) Blamed := by
  unfold doPreallocate
  refine Ends.ite (fun _ => log4_synced hs) fun h0 => ?_
  dsimp only
  refine Ends.bind log4_at fun _ => Ends.bind (preallocate_at hn) fun _ => ?_
  refine unlessSimulated_at (fun ht => ?_) fun ht w hw =>
    ⟨_, _, hw, .full hl fun h => absurd h (by omega)⟩
  rw [hs.same ht]
  exact (askOrReport_at fun _ => Iff.rfl).weaken (fun _ h => h)
    (fun _ _ h => h.synced (.full hl fun _ => rfl)) fun _ _ h => h

theorem docloseopen_synced (hs : Level C t f c) :
    Ends (At C t True f c) (docloseopen (watch F) C) (fun _ => Synced C t) Blamed := by
  refine unlessSimulated_synced hs fun _ => Ends.bind (askOrReport_at fun _ => Iff.rfl) fun _ => ?_
  exact (askOrReport_at fun _ => Iff.rfl).weaken (fun _ h => h) (fun _ _ h => h.synced hs)
    fun _ _ h => h

theorem dofsync_synced (hs : Level C t f c) :
    Ends (At C t True f c) (dofsync (watch F) C) (fun _ => Synced C t) Blamed := by
  refine unlessSimulated_synced hs fun _ => Ends.bind log4_at fun _ => ?_
  refine Ends.bind (askOrReport_at fun _ => Iff.rfl) fun _ => ?_
  refine Ends.bind (askOrExit_at fun _ => Iff.rfl) fun _ => ?_
  exact (askOrExit_at fun _ => Iff.rfl).weaken (fun _ h => h) (fun _ _ h => h.synced hs)
    fun _ _ h => h

end Operations

end

end Fsx
end Longan
