/-
# fsx: the file as it should be

What the answers of a file system have to be is said by a `File` that follows
the calls (`Good`, `effect`). `watch` puts such a file beside any file system
and notes whether every answer so far was good; it answers as the file system
does. Where the watched file is the contents of `good_buf` (`World.content`),
the two levels are in step, and the small steps of the operations are steps of
both: what fsx does to its buffer is what the call does to the file.
-/
import Longan.Fsx.Test

namespace Longan
namespace Fsx

/-- What a mode of `fallocate` does to the file. -/
def Mode.apply (f : File) (off n : ℕ) : Mode → File
  | .allocate => f.allocate off n
  | .keepSize => f
  | .punchHole => f.zero off n
  | .zeroRange => (f.allocate off n).zero off n
  | .collapseRange => f.collapse off n
  | .insertRange => f.insert off n

/-- The file after a call that was answered so. -/
def effect (f : File) : {ρ : Type} → Call ρ → ρ → File
  | _, .write off data, _ => f.write off data
  | _, .ftruncate n, _ => f.truncate n
  | _, .fallocate mode off n, _ => mode.apply f off n
  | _, .clone off n dest, _ => f.copy off n dest
  | _, .copy off _ dest, .bytes n => f.copy off n dest
  | _, .store off data, _ => f.write off data
  | _, _, _ => f

/-- The answers of a file system that works. A copy may do less than it is
asked for, and may have to be asked again; a mapping shows the bytes of the
file and zeros past its end. -/
def Good (f : File) : {ρ : Type} → Call ρ → ρ → Prop
  | _, .read off n, r => r = some (f.read off n)
  | _, .write _ data, r => r = some data.length
  | _, .copy _ n _, r => r = .again ∨ ∃ m ≤ n, r = .bytes m
  | _, .load off n, r => ∀ i, off ≤ i → i < off + n → r i = f.byte i
  | _, .store _ _, _ => True
  | _, .fstat, r => r = some f.size
  | _, .seekEnd, r => r = some f.size
  | _, .seek _, r => r = true
  | _, .ftruncate _, r => r = true
  | _, .fallocate _ _ _, r => r = true
  | _, .clone _ _ _, r => r = true
  | _, .dedupe _ _ _, r => r = true
  | _, .mmap _ _, r => r = true
  | _, .msync, r => r = true
  | _, .munmap, r => r = true
  | _, .fsync, r => r = true
  | _, .close, r => r = true
  | _, .reopen, r => r = true
  | _, .mark, r => r = true
  | _, .dump, r => r = true

/-- An answer that asks to try again. -/
def againIn : {ρ : Type} → Call ρ → ρ → ℕ
  | _, .copy _ _ _, .again => 1
  | _, _, _ => 0

/-- A file system, the file it should hold, whether all its answers were good,
and how often it asked to try again. -/
structure Watched (φ : Type) where
  under : φ
  file : File
  fair : Prop
  agains : ℕ

def watch {φ : Type} (F : FileSystem φ) : FileSystem (Watched φ) where
  call c m :=
    ((F.call c m.under).1,
      { under := (F.call c m.under).2
        file := effect m.file c (F.call c m.under).1
        fair := m.fair ∧ Good m.file c (F.call c m.under).1
        agains := m.agains + againIn c (F.call c m.under).1 })

section

variable {φ α β : Type} {F : FileSystem φ} {C : Config}

/-- What `good_buf` and `file_size` stand for. -/
def World.content (w : World φ) : File where
  size := w.fileSize
  byte i := if i < w.fileSize then w.goodBuf i else 0
  past _ h := if_neg (Nat.not_lt_of_le h)

/-- A place in a run of `test`: call number `t`, the file `f` behind the
answers, which were good just when `G`, and `good_buf` as the file `c`. -/
structure At (C : Config) (t : ℕ) (G : Prop) (f c : File) (w : World (Watched φ)) : Prop where
  testcalls : w.testcalls = t
  fair : w.fs.fair ↔ G
  file : w.fs.file = f
  content : w.content = c
  room : w.fileSize ≤ C.maxfilelen

/-- A run stops by itself only where some answer was not good, or one call was
answered `EAGAIN` too often; it never leaves its buffers. -/
def Blamed (e : Stop) (w : World (Watched φ)) : Prop :=
  match e with
  | .report _ | .exit _ => ¬ w.fs.fair ∨ 300 < w.fs.agains
  | .fault => False
  | .spin | .cut => True

theorem At.size {t : ℕ} {G : Prop} {f c : File} {w : World (Watched φ)} (h : At C t G f c w) :
    w.fileSize = c.size := by
  rw [← h.content]
  rfl

theorem At.byte {t : ℕ} {G : Prop} {f c : File} {w : World (Watched φ)} (h : At C t G f c w) {i : ℕ}
    (hi : i < c.size) : w.goodBuf i = c.byte i := by
  have hs := h.size
  rw [← h.content]
  simp only [World.content]
  rw [if_pos (by omega)]

theorem At.le {t : ℕ} {G : Prop} {f c : File} {w : World (Watched φ)} (h : At C t G f c w) :
    c.size ≤ C.maxfilelen := h.size ▸ h.room

/-- The contents are the file with this size and these bytes. -/
theorem content_eq {w : World φ} {c : File} (hs : w.fileSize = c.size)
    (hb : ∀ i < c.size, w.goodBuf i = c.byte i) : w.content = c := by
  apply File.ext_below hs
  intro i hi
  have hi' : i < w.fileSize := hi
  simp only [World.content, if_pos hi']
  exact hb i (hs ▸ hi')

theorem At.slice {t : ℕ} {G : Prop} {f c : File} {w : World (Watched φ)} (h : At C t G f c w)
    {off n : ℕ} (hn : off + n ≤ c.size) : w.slice off n = c.read off n := by
  have hmin : min n (c.size - off) = n := by omega
  rw [World.slice, File.read, hmin]
  apply List.map_congr_left
  intro i hi
  exact h.byte (by have := List.mem_range.mp hi; omega)

/-! ### The rules of the small steps -/

section Rules

variable {t : ℕ} {G : Prop} {f c : File} {Q : α → World (Watched φ) → Prop}

/-- Any answer may come. -/
theorem ask_at {ρ : Type} (call : Call ρ) {Q : ρ → World (Watched φ) → Prop}
    {E : Stop → World (Watched φ) → Prop}
    (h : ∀ r w, At C t (G ∧ Good f call r) (effect f call r) c w → Q r w) :
    Ends (At C t G f c) (ask (watch F) call) Q E := by
  intro w hw
  apply h
  exact
    { testcalls := hw.testcalls
      fair := by
        show (w.fs.fair ∧ Good w.fs.file call _) ↔ _
        rw [hw.fair, hw.file]
        exact Iff.rfl
      file := by
        show effect w.fs.file call _ = _
        rw [hw.file]
        rfl
      content := hw.content
      room := hw.room }

/-- A call that has to succeed: where it does not, the run stops and the
answer is to blame. -/
theorem askOr_at {call : Call Bool} {e : Stop} (hg : ∀ r, Good f call r ↔ r = true)
    (he : ∀ w : World (Watched φ), ¬ w.fs.fair → Blamed e w) :
    Ends (At C t G f c) (askOr (watch F) call e)
      (fun _ => At C t G (effect f call true) c) Blamed := by
  unfold askOr
  refine Ends.bind (R := fun r w => At C t (G ∧ r = true) (effect f call r) c w)
    (ask_at call fun r w hw => ?_) fun r => Ends.ite (fun hr => ?_) fun hr => ?_
  · rwa [hg r] at hw
  · subst hr
    apply Ends.pure
    intro w hw
    simpa using hw
  · apply Ends.stop
    intro w hw
    exact he w fun hf => hr (hw.fair.mp hf).2

theorem askOrReport_at {call : Call Bool} {status : ℕ} (hg : ∀ r, Good f call r ↔ r = true) :
    Ends (At C t G f c) (askOrReport (watch F) call status)
      (fun _ => At C t G (effect f call true) c) Blamed :=
  askOr_at hg fun _ => Or.inl

theorem askOrExit_at {call : Call Bool} {status : ℕ} (hg : ∀ r, Good f call r ↔ r = true) :
    Ends (At C t G f c) (askOr (watch F) call (.exit status))
      (fun _ => At C t G (effect f call true) c) Blamed :=
  askOr_at hg fun _ => Or.inl

theorem log4_at {op : Op} {a b : ℕ} {fl : Flags} {E : Stop → World (Watched φ) → Prop} :
    Ends (At C t G f c) (log4 op a b fl) (fun _ => At C t G f c) E :=
  Ends.modify fun _ hw => ⟨hw.testcalls, hw.fair, hw.file, hw.content, hw.room⟩

theorem log5_at {op : Op} {a b d : ℕ} {fl : Flags} {E : Stop → World (Watched φ) → Prop} :
    Ends (At C t G f c) (log5 op a b d fl) (fun _ => At C t G f c) E :=
  Ends.modify fun _ hw => ⟨hw.testcalls, hw.fair, hw.file, hw.content, hw.room⟩

/-- A read of the variables. -/
theorem get_at {m : World (Watched φ) → Run (Watched φ) α} {E : Stop → World (Watched φ) → Prop}
    (h : ∀ w, At C t G f c w → Ends (At C t G f c) (m w) Q E) :
    Ends (At C t G f c) (get >>= m) Q E :=
  Ends.get_bind fun w hw => (h w hw).weaken (fun _ he => he ▸ hw) (fun _ _ hq => hq) fun _ _ he => he

theorem within_at {cap off n : ℕ} {E : Stop → World (Watched φ) → Prop} (h : off + n ≤ cap) :
    Ends (At C t G f c) (within cap off n) (fun _ => At C t G f c) E := by
  unfold within
  rw [if_pos h]
  exact Ends.pure fun _ hw => hw

theorem memset_at {off n : ℕ} {E : Stop → World (Watched φ) → Prop} (h : off + n ≤ c.size)
    (hc : c.size ≤ C.maxfilelen) :
    Ends (At C t G f c) (memset C off n) (fun _ => At C t G f (c.zero off n)) E := by
  refine Ends.bind (within_at (by omega)) fun _ => Ends.modify fun w hw => ?_
  refine ⟨hw.testcalls, hw.fair, hw.file, ?_, hw.room⟩
  apply content_eq
  · exact hw.size
  · intro i hi
    have hb := hw.byte hi
    simp only [File.zero]
    by_cases h1 : off ≤ i ∧ i < off + n
    · rw [if_pos h1, if_pos h1]
    · rw [if_neg h1, if_neg h1, hb]

/-! #### What the operations do to `good_buf` -/

theorem gendata_apply (n : ℕ) : ∀ (size off : ℕ) (buf : ℕ → UInt8) (i : ℕ),
    gendata C n buf off size i =
      if off ≤ i ∧ i < off + size then pattern C n i else buf i
  | 0, off, buf, i => by rw [gendata, if_neg (by omega)]
  | size + 1, off, buf, i => by
    rw [gendata, gendata_apply n size]
    by_cases h1 : off + 1 ≤ i ∧ i < off + 1 + size
    · rw [if_pos h1, if_pos (by omega)]
    · rw [if_neg h1]
      by_cases h2 : i = off
      · rw [if_pos h2, if_pos (by omega), h2]
      · rw [if_neg h2, if_neg (by omega)]

/-- The bytes `gendata` makes up. -/
def made (C : Config) (t off size : ℕ) : List UInt8 :=
  (List.range size).map fun i => pattern C t (off + i)

theorem made_length (t off size : ℕ) : (made C t off size).length = size := by
  simp [made]

theorem made_getD {t off size i : ℕ} (h : i < size) :
    (made C t off size).getD i 0 = pattern C t (off + i) := by
  simp [made, List.getD_eq_getElem?_getD, h]

/-- A write of made-up bytes, with the hole in front of it filled. -/
theorem genAndExtend_at {off size : ℕ} {E : Stop → World (Watched φ) → Prop} (hs : 0 < size)
    (h : off + size ≤ C.maxfilelen) :
    Ends (At C t G f c) (genAndExtend C off size)
      (fun _ => At C t G f (c.write off (made C t off size))) E := by
  intro w hw
  have ht := hw.testcalls
  have hsize := hw.size
  have hlen := made_length (C := C) t off size
  have key : ∀ w' : World (Watched φ), w'.testcalls = w.testcalls → w'.fs = w.fs →
      w'.fileSize = max c.size (off + size) →
      (∀ i < max c.size (off + size), w'.goodBuf i =
        if off ≤ i ∧ i < off + size then pattern C t i
        else if i < c.size then w.goodBuf i else 0) →
      At C t G f (c.write off (made C t off size)) w' := by
    intro w' h1 h2 h3 h4
    have hle := hw.le
    refine ⟨h1.trans ht, h2 ▸ hw.fair, h2 ▸ hw.file, ?_, by omega⟩
    have hmax : (c.write off (made C t off size)).size = max c.size (off + size) := by
      rw [File.size_write, hlen]
      exact if_neg (by omega)
    apply content_eq (h3.trans hmax.symm)
    intro i hi
    rw [hmax] at hi
    rw [h4 i hi]
    simp only [File.byte_write, hlen]
    by_cases h5 : off ≤ i ∧ i < off + size
    · rw [if_pos h5, if_pos h5, made_getD (by omega)]
      congr 1
      omega
    · rw [if_neg h5, if_neg h5]
      by_cases h6 : i < c.size
      · rw [if_pos h6, hw.byte h6]
      · rw [if_neg h6, c.past i (Nat.le_of_not_lt h6)]
  unfold genAndExtend
  simp only [within, if_pos h]
  show AtEnd _ _ (onlyIf (w.fileSize < off + size) (do
      onlyIf (w.fileSize < off) (memset C w.fileSize (off - w.fileSize))
      modify fun w => { w with fileSize := off + size } : Run (Watched φ) Unit)
      { w with goodBuf := gendata C w.testcalls w.goodBuf off size })
  unfold onlyIf
  by_cases h1 : w.fileSize < off + size
  · rw [if_pos h1]
    by_cases h2 : w.fileSize < off
    · rw [if_pos h2]
      have hcap : w.fileSize + (off - w.fileSize) ≤ C.maxfilelen := by omega
      simp only [memset, within, if_pos hcap]
      refine key _ rfl rfl (by simp only; omega) fun i hi => ?_
      simp only [gendata_apply, ht]
      by_cases h3 : w.fileSize ≤ i ∧ i < w.fileSize + (off - w.fileSize)
      · rw [if_pos h3, if_neg (by omega), if_neg (by omega)]
      · rw [if_neg h3]
        by_cases h4 : off ≤ i ∧ i < off + size
        · rw [if_pos h4, if_pos h4]
        · rw [if_neg h4, if_neg h4, if_pos (by omega)]
    · rw [if_neg h2]
      refine key _ rfl rfl (by simp only; omega) fun i hi => ?_
      simp only [gendata_apply, ht]
      by_cases h4 : off ≤ i ∧ i < off + size
      · rw [if_pos h4, if_pos h4]
      · rw [if_neg h4, if_neg h4, if_pos (by omega)]
  · rw [if_neg h1]
    refine key _ rfl rfl (by simp only; omega) fun i hi => ?_
    simp only [gendata_apply, ht]
    by_cases h4 : off ≤ i ∧ i < off + size
    · rw [if_pos h4, if_pos h4]
    · rw [if_neg h4, if_neg h4, if_pos (by omega)]

/-- `good_buf` after `dotruncate`. -/
theorem truncate_at {n : ℕ} {E : Stop → World (Watched φ) → Prop} (hn : n ≤ C.maxfilelen) :
    Ends (At C t G f c) (truncateGood C n) (fun _ => At C t G f (c.truncate n)) E := by
  intro w hw
  have hsize := hw.size
  show AtEnd _ _ ((do
      onlyIf (w.fileSize < n) (memset C w.fileSize (n - w.fileSize))
      modify fun w => { w with fileSize := n } : Run (Watched φ) Unit) w)
  unfold onlyIf
  by_cases h1 : w.fileSize < n
  · rw [if_pos h1]
    have hcap : w.fileSize + (n - w.fileSize) ≤ C.maxfilelen := by omega
    simp only [memset, within, if_pos hcap]
    refine ⟨hw.testcalls, hw.fair, hw.file, content_eq rfl fun i hi => ?_, hn⟩
    have hi' : i < n := hi
    rw [File.byte_truncate, if_pos hi']
    simp only
    by_cases h2 : w.fileSize ≤ i ∧ i < w.fileSize + (n - w.fileSize)
    · rw [if_pos h2, c.past i (by omega)]
    · rw [if_neg h2, hw.byte (by omega)]
  · rw [if_neg h1]
    refine ⟨hw.testcalls, hw.fair, hw.file, content_eq rfl fun i hi => ?_, hn⟩
    have hi' : i < n := hi
    rw [File.byte_truncate, if_pos hi']
    exact hw.byte (by omega)

/-- `good_buf` after `do_collapse_range`. -/
theorem collapse_at {off n : ℕ} {E : Stop → World (Watched φ) → Prop} (hn : off + n < c.size) :
    Ends (At C t G f c) (collapseGood C off n) (fun _ => At C t G f (c.collapse off n)) E := by
  intro w hw
  have hsize := hw.size
  have hle := hw.le
  show AtEnd _ _ ((do
      memmove C off (off + n) (w.fileSize - (off + n))
      modify fun w => { w with fileSize := w.fileSize - n } : Run (Watched φ) Unit) w)
  rw [hsize]
  have h1 : off + (c.size - (off + n)) ≤ C.maxfilelen := by omega
  have h2 : off + n + (c.size - (off + n)) ≤ C.maxfilelen := by omega
  simp only [memmove, within, if_pos h1, if_pos h2]
  refine ⟨hw.testcalls, hw.fair, hw.file, content_eq (congrArg (· - n) hsize) fun i hi => ?_, ?_⟩
  · rw [File.size_collapse] at hi
    rw [File.byte_collapse, if_neg (by omega)]
    simp only
    by_cases h3 : off ≤ i ∧ i < off + (c.size - (off + n))
    · rw [if_pos h3, if_neg (by omega), hw.byte (by omega)]
      congr 1
      omega
    · rw [if_neg h3, if_pos (by omega), hw.byte (by omega)]
  · show w.fileSize - n ≤ C.maxfilelen
    omega

/-- `good_buf` after `do_insert_range`. -/
theorem insert_at {off n : ℕ} {E : Stop → World (Watched φ) → Prop} (ho : off < c.size)
    (hn : c.size + n ≤ C.maxfilelen) :
    Ends (At C t G f c) (insertGood C off n) (fun _ => At C t G f (c.insert off n)) E := by
  intro w hw
  have hsize := hw.size
  show AtEnd _ _ ((do
      memmove C (off + n) off (w.fileSize - off)
      memset C off n
      modify fun w => { w with fileSize := w.fileSize + n } : Run (Watched φ) Unit) w)
  rw [hsize]
  have h1 : off + n + (c.size - off) ≤ C.maxfilelen := by omega
  have h2 : off + (c.size - off) ≤ C.maxfilelen := by omega
  have h3 : off + n ≤ C.maxfilelen := by omega
  simp only [memmove, memset, within, if_pos h1, if_pos h2, if_pos h3]
  refine ⟨hw.testcalls, hw.fair, hw.file, content_eq (congrArg (· + n) hsize) fun i hi => ?_, ?_⟩
  · rw [File.size_insert] at hi
    rw [File.byte_insert, if_neg (by omega)]
    simp only
    by_cases h4 : off ≤ i ∧ i < off + n
    · rw [if_pos h4, if_neg (by omega), if_pos (by omega)]
    · rw [if_neg h4]
      by_cases h5 : i < off
      · rw [if_neg (by omega), if_pos h5, hw.byte (by omega)]
      · rw [if_pos (by omega), if_neg h5, if_neg (by omega), hw.byte (by omega)]
        congr 1
        omega
  · show w.fileSize + n ≤ C.maxfilelen
    omega

/-- `good_buf` after a clone or a copy inside the largest size. -/
theorem copyGood_at {src n dest : ℕ} {E : Stop → World (Watched φ) → Prop} (h0 : 0 < n)
    (hs : src + n ≤ c.size) (hd : dest + n ≤ C.maxfilelen) :
    Ends (At C t G f c) (copyGood C src n dest)
      (fun _ => At C t G f (c.copy src n dest)) E := by
  intro w hw
  have hsize := hw.size
  have hle := hw.le
  have key : ∀ w' : World (Watched φ), w'.testcalls = w.testcalls → w'.fs = w.fs →
      w'.fileSize = max c.size (dest + n) →
      (∀ i < max c.size (dest + n), w'.goodBuf i =
        if dest ≤ i ∧ i < dest + n then w.goodBuf (src + (i - dest))
        else if i < c.size then w.goodBuf i else 0) →
      At C t G f (c.copy src n dest) w' := by
    intro w' h1 h2 h3 h4
    have hmax : (c.copy src n dest).size = max c.size (dest + n) := by
      rw [File.size_copy]
      exact if_neg (by omega)
    refine ⟨h1.trans hw.testcalls, h2 ▸ hw.fair, h2 ▸ hw.file,
      content_eq (h3.trans hmax.symm) fun i hi => ?_, by omega⟩
    rw [hmax] at hi
    rw [h4 i hi, File.byte_copy]
    by_cases h5 : dest ≤ i ∧ i < dest + n
    · rw [if_pos h5, if_pos h5, hw.byte (by omega)]
    · rw [if_neg h5, if_neg h5]
      by_cases h6 : i < c.size
      · rw [if_pos h6, hw.byte h6]
      · rw [if_neg h6, c.past i (Nat.le_of_not_lt h6)]
  have h1 : src + n ≤ C.maxfilelen := by omega
  unfold copyGood
  simp only [memmove, within, if_pos hd, if_pos h1]
  show AtEnd _ _ ((do
      onlyIf (w.fileSize < dest) (memset C w.fileSize (dest - w.fileSize))
      onlyIf (w.fileSize < dest + n) (modify fun w => { w with fileSize := dest + n }) :
        Run (Watched φ) Unit)
      { w with goodBuf := fun i =>
        if dest ≤ i ∧ i < dest + n then w.goodBuf (src + (i - dest)) else w.goodBuf i })
  unfold onlyIf
  by_cases h2 : w.fileSize < dest
  · have h3 : w.fileSize < dest + n := by omega
    have hcap : w.fileSize + (dest - w.fileSize) ≤ C.maxfilelen := by omega
    rw [if_pos h2, if_pos h3]
    simp only [memset, within, if_pos hcap]
    refine key _ rfl rfl (by simp only; omega) fun i hi => ?_
    simp only
    by_cases h4 : w.fileSize ≤ i ∧ i < w.fileSize + (dest - w.fileSize)
    · rw [if_pos h4, if_neg (by omega), if_neg (by omega)]
    · rw [if_neg h4]
      by_cases h5 : dest ≤ i ∧ i < dest + n
      · rw [if_pos h5, if_pos h5]
      · rw [if_neg h5, if_neg h5, if_pos (by omega)]
  · rw [if_neg h2]
    by_cases h3 : w.fileSize < dest + n
    · rw [if_pos h3]
      refine key _ rfl rfl (by simp only; omega) fun i hi => ?_
      simp only
      by_cases h5 : dest ≤ i ∧ i < dest + n
      · rw [if_pos h5, if_pos h5]
      · rw [if_neg h5, if_neg h5, if_pos (by omega)]
    · rw [if_neg h3]
      refine key _ rfl rfl (by simp only; omega) fun i hi => ?_
      simp only
      by_cases h5 : dest ≤ i ∧ i < dest + n
      · rw [if_pos h5, if_pos h5]
      · rw [if_neg h5, if_neg h5, if_pos (by omega)]

/-- `good_buf` after `do_preallocate`; keeping the size keeps everything. -/
theorem preallocate_at {off n : ℕ} {keepSize : Bool} {E : Stop → World (Watched φ) → Prop}
    (hn : off + n ≤ C.maxfilelen) :
    Ends (At C t G f c) (preallocateGood C (if keepSize then 0 else off + n))
      (fun _ => At C t G f ((if keepSize then Mode.keepSize else .allocate).apply c off n)) E := by
  intro w hw
  have hsize := hw.size
  have hle := hw.le
  cases keepSize with
  | true => exact hw
  | false =>
    show AtEnd _ _ ((if w.fileSize < off + n then do
        memset C w.fileSize (off + n - w.fileSize)
        modify fun w => { w with fileSize := off + n }
      else pure () : Run (Watched φ) Unit) w)
    by_cases h1 : w.fileSize < off + n
    · rw [if_pos h1]
      have hcap : w.fileSize + (off + n - w.fileSize) ≤ C.maxfilelen := by omega
      simp only [memset, within, if_pos hcap]
      refine ⟨hw.testcalls, hw.fair, hw.file, content_eq (by
        show off + n = max c.size (off + n)
        omega) fun i hi => ?_, hn⟩
      have hi' : i < max c.size (off + n) := hi
      show _ = c.byte i
      simp only
      by_cases h2 : w.fileSize ≤ i ∧ i < w.fileSize + (off + n - w.fileSize)
      · rw [if_pos h2, c.past i (by omega)]
      · rw [if_neg h2, hw.byte (by omega)]
    · rw [if_neg h1]
      refine ⟨hw.testcalls, hw.fair, hw.file, content_eq (by
        show w.fileSize = max c.size (off + n)
        omega) fun i hi => ?_, hw.room⟩
      have hi' : i < max c.size (off + n) := hi
      exact hw.byte (by omega)

end Rules

end

end Fsx
end Longan
