/-
# The contents of a file

A file is its size and its bytes, and past its end every byte is zero: that is
what a hole reads as, and what a mapping of the last page shows. So a file is
determined by its size and the bytes below it (`File.ext_below`), and making
it longer is changing its size. The operations are those of `pwrite`,
`ftruncate`, the modes of `fallocate` and the range ioctls, on ranges for which
these are defined; a copy done in parts is the whole copy as long as the two
ranges keep apart (`copy_add`).
-/
import Mathlib.Data.List.Basic

namespace Longan

structure File where
  size : ℕ
  byte : ℕ → UInt8
  past : ∀ i, size ≤ i → byte i = 0

namespace File

/-- Two files of one size agree when they agree below it. -/
theorem ext_below {f g : File} (hs : f.size = g.size) (hb : ∀ i < f.size, f.byte i = g.byte i) :
    f = g := by
  obtain ⟨n, b, hf⟩ := f
  obtain ⟨m, c, hg⟩ := g
  simp only at hs hb hf hg
  subst hs
  congr 1
  funext i
  rcases Nat.lt_or_ge i n with h | h
  · exact hb i h
  · rw [hf i h, hg i h]

def empty : File := ⟨0, fun _ => 0, fun _ _ => rfl⟩

/-- The `n` bytes at `off`, as far as the file goes. -/
def read (f : File) (off n : ℕ) : List UInt8 :=
  (List.range (min n (f.size - off))).map fun i => f.byte (off + i)

/-- `ftruncate`. -/
def truncate (f : File) (n : ℕ) : File where
  size := n
  byte i := if i < n then f.byte i else 0
  past _ h := if_neg (Nat.not_lt_of_le h)

/-- `pwrite` of some data. -/
def write (f : File) (off : ℕ) (data : List UInt8) : File where
  size := if data.length = 0 then f.size else max f.size (off + data.length)
  byte i := if off ≤ i ∧ i < off + data.length then data.getD (i - off) 0 else f.byte i
  past i h := by
    by_cases h0 : data.length = 0
    · rw [if_pos h0] at h
      rw [if_neg (by omega)]
      exact f.past i h
    · rw [if_neg h0] at h
      rw [if_neg (by omega)]
      exact f.past i (by omega)

/-- `fallocate` with mode 0: the file is at least that long. -/
def allocate (f : File) (off n : ℕ) : File where
  size := max f.size (off + n)
  byte := f.byte
  past i h := f.past i (by omega)

/-- `FALLOC_FL_PUNCH_HOLE`, which keeps the size. -/
def zero (f : File) (off n : ℕ) : File where
  size := f.size
  byte i := if off ≤ i ∧ i < off + n then 0 else f.byte i
  past i h := by
    by_cases h1 : off ≤ i ∧ i < off + n
    · rw [if_pos h1]
    · rw [if_neg h1]
      exact f.past i h

/-- `FALLOC_FL_COLLAPSE_RANGE`. -/
def collapse (f : File) (off n : ℕ) : File where
  size := f.size - n
  byte i := if f.size - n ≤ i then 0 else if i < off then f.byte i else f.byte (i + n)
  past _ h := if_pos h

/-- `FALLOC_FL_INSERT_RANGE`. -/
def insert (f : File) (off n : ℕ) : File where
  size := f.size + n
  byte i := if f.size + n ≤ i then 0 else if i < off then f.byte i else
    if i < off + n then 0 else f.byte (i - n)
  past _ h := if_pos h

/-- `FICLONERANGE` and `copy_file_range` within one file. -/
def copy (f : File) (src n dest : ℕ) : File where
  size := if n = 0 then f.size else max f.size (dest + n)
  byte i := if dest ≤ i ∧ i < dest + n then f.byte (src + (i - dest)) else f.byte i
  past i h := by
    by_cases h0 : n = 0
    · rw [if_pos h0] at h
      rw [if_neg (by omega)]
      exact f.past i h
    · rw [if_neg h0] at h
      rw [if_neg (by omega)]
      exact f.past i (by omega)

section Fields

variable (f : File) (off n : ℕ)

@[simp] theorem size_truncate : (f.truncate n).size = n := rfl

@[simp] theorem byte_truncate (i : ℕ) : (f.truncate n).byte i = if i < n then f.byte i else 0 := rfl

@[simp] theorem size_write (data : List UInt8) : (f.write off data).size =
    if data.length = 0 then f.size else max f.size (off + data.length) := rfl

@[simp] theorem byte_write (data : List UInt8) (i : ℕ) : (f.write off data).byte i =
    if off ≤ i ∧ i < off + data.length then data.getD (i - off) 0 else f.byte i := rfl

@[simp] theorem size_allocate : (f.allocate off n).size = max f.size (off + n) := rfl

@[simp] theorem byte_allocate (i : ℕ) : (f.allocate off n).byte i = f.byte i := rfl

@[simp] theorem size_zero : (f.zero off n).size = f.size := rfl

@[simp] theorem byte_zero (i : ℕ) :
    (f.zero off n).byte i = if off ≤ i ∧ i < off + n then 0 else f.byte i := rfl

@[simp] theorem size_collapse : (f.collapse off n).size = f.size - n := rfl

@[simp] theorem byte_collapse (i : ℕ) : (f.collapse off n).byte i =
    if f.size - n ≤ i then 0 else if i < off then f.byte i else f.byte (i + n) := rfl

@[simp] theorem size_insert : (f.insert off n).size = f.size + n := rfl

@[simp] theorem byte_insert (i : ℕ) : (f.insert off n).byte i =
    if f.size + n ≤ i then 0 else if i < off then f.byte i else
      if i < off + n then 0 else f.byte (i - n) := rfl

@[simp] theorem size_copy (dest : ℕ) : (f.copy off n dest).size =
    if n = 0 then f.size else max f.size (dest + n) := rfl

@[simp] theorem byte_copy (dest i : ℕ) : (f.copy off n dest).byte i =
    if dest ≤ i ∧ i < dest + n then f.byte (off + (i - dest)) else f.byte i := rfl

end Fields

theorem copy_zero (f : File) (src dest : ℕ) : f.copy src 0 dest = f := by
  apply ext_below (by simp)
  intro i _
  exact if_neg (by omega)

/-- Copying a range in two parts is copying it, as long as what is written is
not read again. -/
theorem copy_add (f : File) {src m n dest : ℕ}
    (h : src + (m + n) ≤ dest ∨ dest + (m + n) ≤ src) :
    (f.copy src m dest).copy (src + m) n (dest + m) = f.copy src (m + n) dest := by
  apply ext_below
  · simp only [copy]
    by_cases hm : m = 0
    · simp [hm]
    · by_cases hn : n = 0
      · simp [hn, hm]
      · simp only [hm, hn, if_false, Nat.add_eq_zero_iff, and_self]
        omega
  · intro i _
    simp only [copy]
    by_cases h1 : dest + m ≤ i ∧ i < dest + m + n
    · rw [if_pos h1, if_neg (by omega), if_pos (by omega)]
      congr 1
      omega
    · rw [if_neg h1]
      by_cases h2 : dest ≤ i ∧ i < dest + m
      · rw [if_pos h2, if_pos (by omega)]
      · rw [if_neg h2, if_neg (by omega)]

theorem truncate_size (f : File) : f.truncate f.size = f :=
  ext_below rfl fun _ hi => if_pos hi

theorem read_length (f : File) (off n : ℕ) : (f.read off n).length = min n (f.size - off) := by
  simp [read]

theorem read_getD (f : File) {off n i : ℕ} (hi : i < n) (h : off + n ≤ f.size) :
    (f.read off n).getD i 0 = f.byte (off + i) := by
  have : i < min n (f.size - off) := by omega
  simp [read, List.getD_eq_getElem?_getD, this]

/-- What is read back at the place of a write is what was written. -/
theorem read_write (f : File) (off : ℕ) (data : List UInt8) :
    (f.write off data).read off data.length = data := by
  have hsize : off + data.length ≤ (f.write off data).size ∨ data.length = 0 := by
    rw [size_write]
    by_cases h : data.length = 0
    · exact Or.inr h
    · rw [if_neg h]
      exact Or.inl (Nat.le_max_right _ _)
  rcases hsize with h | h
  · apply List.ext_getElem
    · rw [read_length]
      omega
    · intro i h1 h2
      have h3 := read_getD (f.write off data) h2 h
      rw [byte_write, if_pos (by omega), Nat.add_sub_cancel_left] at h3
      simpa [List.getD_eq_getElem?_getD, h1, h2] using h3
  · rw [h, List.length_eq_zero_iff.mp h]
    simp [read]

theorem end_le_write (f : File) {off : ℕ} {data : List UInt8} (h : 0 < data.length) :
    off + data.length ≤ (f.write off data).size := by
  rw [size_write, if_neg (by omega)]
  exact Nat.le_max_right _ _

/-- Growing the file first and writing then is writing past its end. -/
theorem write_truncate (f : File) {off n : ℕ} {data : List UInt8} (hd : 0 < data.length)
    (hn : n = max f.size (off + data.length)) : (f.truncate n).write off data = f.write off data := by
  apply ext_below
  · rw [size_write, size_write, if_neg (by omega), if_neg (by omega), size_truncate]
    omega
  · intro i _
    rw [byte_write, byte_write]
    by_cases h1 : off ≤ i ∧ i < off + data.length
    · rw [if_pos h1, if_pos h1]
    · rw [if_neg h1, if_neg h1, byte_truncate]
      by_cases h2 : i < n
      · rw [if_pos h2]
      · rw [if_neg h2, f.past i (by omega)]

/-- Past the end of the file there is nothing to zero. -/
theorem zero_clip (f : File) {off n : ℕ} :
    f.zero off (if off + n ≤ f.size then n else f.size - off) = f.zero off n := by
  apply ext_below (by simp)
  intro i hi
  rw [size_zero] at hi
  rw [byte_zero, byte_zero]
  by_cases h1 : off + n ≤ f.size
  · rw [if_pos h1]
  · rw [if_neg h1]
    by_cases h2 : off ≤ i
    · rw [if_pos (by omega), if_pos (by omega)]
    · rw [if_neg (by omega), if_neg (by omega)]

/-- Zeroing inside the file does not make it longer. -/
theorem allocate_zero (f : File) {off n : ℕ} (h : off + n ≤ f.size) :
    (f.allocate off n).zero off n = f.zero off n :=
  ext_below (Nat.max_eq_left h) fun _ _ => rfl

/-- Writing all of a file over another one and cutting it there copies it. -/
theorem truncate_write (f g : File) : (f.write 0 (g.read 0 g.size)).truncate g.size = g := by
  have hlen : (g.read 0 g.size).length = g.size := by
    rw [read_length]
    omega
  apply ext_below (by simp)
  intro i hi
  rw [size_truncate] at hi
  rw [byte_truncate, if_pos hi, byte_write, hlen, if_pos (by omega), read_getD g (by omega) (by omega)]
  congr 1
  omega

end File
end Longan
