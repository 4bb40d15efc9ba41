/-
# fsstress: its names and the calls it makes

fsstress makes, renames and removes files below one directory. The name of a
file comes from its type and its id, with some `X` behind it when `namerand` is
set, and no two files have one name (`fileName_inj`).

The file system is a parameter. It answers each call, with an error if it
likes; `Posix` is what it has to keep to when it does not. Where a path leads
through a symbolic link is not described, and neither is what a call does to a
file that was there before it.
-/
import Longan.Lib.Exits
import Longan.Lib.Hex
import Longan.Lib.Tree

namespace Longan
namespace Fsstress

/-! ### Names -/

/-- The types of the file list, `FT_DIR` to `FT_RTF`. -/
inductive Ft
  | dir | reg | sym | dev | rtf
  deriving DecidableEq

/-- The tags of `flist`. -/
def Ft.tag : Ft → Char
  | .dir => 'd'
  | .reg => 'f'
  | .sym => 'l'
  | .dev => 'c'
  | .rtf => 'r'

theorem Ft.tag_inj {ft ft' : Ft} (h : ft.tag = ft'.tag) : ft = ft' := by
  cases ft <;> cases ft' <;> first | rfl | exact absurd h (by decide)

/-- `NAME_MAX` -/
def nameMax : ℕ := 255

def buckets : List ℕ := [2, 4, 8, 16, 32, 64, 128, nameMax]

/-- What is put behind a name. -/
def namerandpad (namerand id : ℕ) (buf : Text) : Text :=
  if namerand = 0 then buf
  else
    let bucket := (id ^^^ namerand) % buckets.length
    let padmod := buckets.getD bucket 0 + 1 - buf.length
    if padmod = 0 then buf
    else buf ++ List.replicate ((id ^^^ namerand) % padmod) 'X'

/-- `%c%x` and its padding. -/
def fileName (namerand : ℕ) (ft : Ft) (id : ℕ) : Text :=
  namerandpad namerand id (ft.tag :: Nat.toDigits 16 id)

theorem namerandpad_eq (namerand id : ℕ) (buf : Text) :
    ∃ n, namerandpad namerand id buf = buf ++ List.replicate n 'X' := by
  unfold namerandpad
  split_ifs
  · exact ⟨0, by simp⟩
  · dsimp only
    split_ifs
    · exact ⟨0, by simp⟩
    · exact ⟨_, rfl⟩

theorem not_x_of_mem_toDigits (id : ℕ) : ∀ c ∈ Nat.toDigits 16 id, c ≠ 'X' :=
  Text.forall_mem_toDigits (fun d hd => by interval_cases d <;> decide) id

/-- What is before the padding. -/
theorem takeWhile_fileName (namerand : ℕ) (ft : Ft) (id : ℕ) :
    (fileName namerand ft id).takeWhile (· ≠ 'X') = ft.tag :: Nat.toDigits 16 id := by
  obtain ⟨n, hn⟩ := namerandpad_eq namerand id (ft.tag :: Nat.toDigits 16 id)
  have hall : ∀ c ∈ ft.tag :: Nat.toDigits 16 id, decide (c ≠ 'X') = true := by
    intro c hc
    rcases List.mem_cons.mp hc with rfl | hc
    · cases ft <;> decide
    · exact decide_eq_true (not_x_of_mem_toDigits id c hc)
  rw [fileName, hn, List.takeWhile_append_of_pos hall]
  cases n <;> simp [List.replicate_succ]

/-- The padding never makes a name too long. -/
theorem length_namerandpad_le (namerand id : ℕ) {buf : Text} (h : buf.length ≤ nameMax) :
    (namerandpad namerand id buf).length ≤ nameMax := by
  unfold namerandpad
  split_ifs with h0
  · exact h
  · dsimp only
    split_ifs with h1
    · exact h
    · have hlt := Nat.mod_lt (id ^^^ namerand) (Nat.pos_of_ne_zero h1)
      have hbucket : ∀ i < buckets.length, buckets.getD i 0 ≤ nameMax := by decide
      have hle := hbucket _ (Nat.mod_lt (id ^^^ namerand) (by decide))
      rw [List.length_append, List.length_replicate]
      omega

/-- No name of an `int` is too long. -/
theorem length_fileName_le (namerand : ℕ) (ft : Ft) {id : ℕ} (h : id < 2 ^ 31) :
    (fileName namerand ft id).length ≤ nameMax := by
  have hdigits : (Nat.toDigits 16 id).length ≤ 8 := by
    rw [Nat.length_toDigits_le_iff (by omega) (by omega)]
    exact h.trans (by decide)
  have hlen : (ft.tag :: Nat.toDigits 16 id).length ≤ nameMax := by
    rw [List.length_cons, nameMax]
    omega
  exact length_namerandpad_le namerand id hlen

/-- **Names.** Two files have one name only if they are of one type and have
one id, whatever the padding. -/
theorem fileName_inj (namerand : ℕ) (ft ft' : Ft) (id id' : ℕ) :
    fileName namerand ft id = fileName namerand ft' id' ↔ ft = ft' ∧ id = id' := by
  constructor
  · intro h
    have h1 := congrArg (List.takeWhile (· ≠ 'X')) h
    rw [takeWhile_fileName, takeWhile_fileName] at h1
    obtain ⟨htag, hdigits⟩ := List.cons.inj h1
    have h2 := congrArg (Text.readDigits 16 0) hdigits
    rw [Text.readDigits_toDigits, Text.readDigits_toDigits] at h2
    exact ⟨Ft.tag_inj htag, Option.some.inj h2⟩
  · rintro ⟨rfl, rfl⟩
    rfl

/-- A name begins with its tag. -/
theorem head_fileName (namerand : ℕ) (ft : Ft) (id : ℕ) :
    ∃ t, fileName namerand ft id = ft.tag :: t := by
  obtain ⟨n, hn⟩ := namerandpad_eq namerand id (ft.tag :: Nat.toDigits 16 id)
  exact ⟨Nat.toDigits 16 id ++ List.replicate n 'X', hn⟩

/-! ### Files by path -/

/-- A path as the calls get it, name by name, the outermost first. -/
abbrev Pathname := List Text

/-- The text of a path. -/
def Pathname.text (p : Pathname) : Text := ['/'].intercalate p

def Pathname.len (p : Pathname) : ℕ := (Pathname.text p).length

def dotdot : Text := ['.', '.']

/-- A path of names. -/
def Named (namerand : ℕ) (p : Pathname) : Prop := ∀ c ∈ p, ∃ ft id, c = fileName namerand ft id

theorem Named.no_dotdot {namerand : ℕ} {p : Pathname} (h : Named namerand p) : dotdot ∉ p := by
  intro hmem
  obtain ⟨ft, id, heq⟩ := h _ hmem
  obtain ⟨t, ht⟩ := head_fileName namerand ft id
  rw [ht] at heq
  have htag := (List.cons.inj heq).1
  cases ft <;> exact absurd htag (by decide)

/-- The text of a path of names begins with a tag. -/
theorem Named.head_text {namerand : ℕ} {p : Pathname} (h : Named namerand p) (hp : p ≠ []) :
    ∃ (ft : Ft) (t : Text), Pathname.text p = ft.tag :: t := by
  match p with
  | name :: p =>
    obtain ⟨ft, id, rfl⟩ := h name List.mem_cons_self
    obtain ⟨t, ht⟩ := head_fileName namerand ft id
    rw [ht, Pathname.text]
    match p with
    | [] => exact ⟨ft, t, by simp [List.intercalate]⟩
    | c :: p => exact ⟨ft, t ++ ['/'] ++ ['/'].intercalate (c :: p), by simp [List.intercalate, List.intersperse]⟩

/-- What a file is on the disk. -/
inductive FileKind
  | dir | reg | sym | dev
  deriving DecidableEq

/-- What there is at each place below the directory of the process. -/
abbrev Files := Tree Text FileKind

namespace Files

variable (T : Files)

/-- One name down or up from a directory. -/
def step (d : List Text) (c : Text) : Option (List Text) :=
  if c = dotdot then d.tail?
  else if c ≠ [] ∧ T (c :: d) = some .dir then some (c :: d) else none

theorem step_dotdot {T : Files} {d d' : List Text} {c : Text} (h : d' = c :: d) :
    T.step d' dotdot = some d := by
  rw [step, if_pos rfl, h, List.tail?_cons]

/-- What a path says from a directory: the directories on it are there, and the
last name is the name of a file. -/
def target : List Text → Pathname → Option (List Text)
  | _, [] => none
  | d, [c] => if c = [] ∨ c.head? = some '.' then none else some (c :: d)
  | d, c :: p => (T.step d c).bind fun d' => target d' p

end Files

/-! ### The calls -/

/-- The calls on one path; `other` are those that make and remove nothing. -/
inductive One
  | creat | mkdir | mknod | symlink | rmdir | unlink | other
  deriving DecidableEq

/-- The flags of `renameat2`. -/
inductive Mode
  | none | noreplace | exchange | whiteout
  deriving DecidableEq

/-- The calls on two paths. -/
inductive Two
  | link
  | rename (mode : Mode)
  deriving DecidableEq

section

variable (T : Files)

/-- What becomes of the tree when a call on a file is done. -/
def One.Made (r : List Text) (T' : Files) : One → Prop
  | .creat => T r = none → T' = T.put r .reg
  | .mkdir => T r = none ∧ T' = T.put r .dir
  | .mknod => T r = none ∧ T' = T.put r .dev
  | .symlink => T r = none ∧ T' = T.put r .sym
  | .rmdir => T r = some .dir ∧ (∀ c, T (c :: r) = none) ∧ T' = T.cut r
  | .unlink => (∃ k, T r = some k ∧ k ≠ .dir) ∧ T' = T.cut r
  | .other => T' = T

/-- A file is moved to where there is none, and not below itself. -/
def Mode.Made (r r' : List Text) (T' : Files) : Mode → Prop
  | .none => T r' = Option.none → T r ≠ Option.none ∧ ¬ r <:+ r' ∧ T' = T.move r r'
  | .noreplace => T r' = Option.none ∧ T r ≠ Option.none ∧ ¬ r <:+ r' ∧ T' = T.move r r'
  | .exchange => T r ≠ Option.none ∧ T r' ≠ Option.none ∧ (r = r' ∨ ¬ r <:+ r' ∧ ¬ r' <:+ r) ∧
      T' = T.exchange r r'
  | .whiteout => T r' = Option.none → T r ≠ Option.none ∧ ¬ r <:+ r' ∧
      T' = (T.move r r').put r .dev

/-- What becomes of the tree when a call on two files is done. -/
def Two.Made (r r' : List Text) (T' : Files) : Two → Prop
  | .link => T r' = none ∧ ∃ k, T r = some k ∧ k ≠ .dir ∧ T' = T.put r' k
  | .rename mode => mode.Made T r r' T'

end

/-- What the caller looks at: `errno` only if it is `ENAMETOOLONG`. -/
inductive Answer
  | done | nameTooLong | failed
  deriving DecidableEq

/-- A file system, with one process in it. -/
structure FileSystem (φ : Type) where
  one : One → Pathname → φ → Answer × φ
  two : Two → Pathname → Pathname → φ → Answer × φ
  chdir : Text → φ → Bool × φ
  tree : φ → Files
  /-- The working directory, from that of the process. -/
  cwd : φ → List Text

/-- What the calls keep to. A call that is not done changes nothing, and one
that is does what it is to do; to change to `""` is always an error. No file is
linked or moved to below itself or to above itself, and the working directory
gets another path only where one on the way to it is moved. -/
structure Posix {φ : Type} (F : FileSystem φ) : Prop where
  one_cwd : ∀ c p s, F.cwd (F.one c p s).2 = F.cwd s
  one_undone : ∀ c p s, (F.one c p s).1 ≠ .done → F.tree (F.one c p s).2 = F.tree s
  one_done : ∀ c p s r, (F.one c p s).1 = .done → (F.tree s).target (F.cwd s) p = some r →
    c.Made (F.tree s) r (F.tree (F.one c p s).2)
  two_undone : ∀ c p q s, (F.two c p q s).1 ≠ .done →
    F.tree (F.two c p q s).2 = F.tree s ∧ F.cwd (F.two c p q s).2 = F.cwd s
  two_apart : ∀ c p q s r r', (F.two c p q s).1 = .done →
    (F.tree s).target (F.cwd s) p = some r → (F.tree s).target (F.cwd s) q = some r' →
    r ≠ r' → ¬ r <:+ r' ∧ ¬ r' <:+ r
  two_cwd : ∀ c p q s r r', (F.two c p q s).1 = .done →
    (F.tree s).target (F.cwd s) p = some r → (F.tree s).target (F.cwd s) q = some r' →
    ¬ r <:+ F.cwd s → ¬ r' <:+ F.cwd s → F.cwd (F.two c p q s).2 = F.cwd s
  two_done : ∀ c p q s r r', (F.two c p q s).1 = .done →
    (F.tree s).target (F.cwd s) p = some r → (F.tree s).target (F.cwd s) q = some r' →
    c.Made (F.tree s) r r' (F.tree (F.two c p q s).2)
  chdir_tree : ∀ c s, F.tree (F.chdir c s).2 = F.tree s
  chdir_undone : ∀ c s, (F.chdir c s).1 = false → F.cwd (F.chdir c s).2 = F.cwd s
  chdir_done : ∀ c s d, (F.chdir c s).1 = true → (F.tree s).step (F.cwd s) c = some d →
    F.cwd (F.chdir c s).2 = d
  chdir_empty : ∀ s, (F.chdir [] s).1 = false

/-- The same file system, with a limit on its paths. -/
def FileSystem.limited {φ : Type} (F : FileSystem φ) (limit : ℕ) : FileSystem φ :=
  { F with
    one := fun c p s => if limit < Pathname.len p then (.nameTooLong, s) else F.one c p s
    two := fun c p q s =>
      if limit < Pathname.len p ∨ limit < Pathname.len q then (.nameTooLong, s)
      else F.two c p q s }

theorem Posix.limited {φ : Type} {F : FileSystem φ} (hF : Posix F) (limit : ℕ) :
    Posix (F.limited limit) where
  one_cwd c p s := by
    simp only [FileSystem.limited]
    split_ifs
    · rfl
    · exact hF.one_cwd c p s
  one_undone c p s h := by
    simp only [FileSystem.limited] at h ⊢
    split_ifs at h ⊢
    · rfl
    · exact hF.one_undone c p s h
  one_done c p s r h hr := by
    simp only [FileSystem.limited] at h hr ⊢
    split_ifs at h ⊢
    exact hF.one_done c p s r h hr
  two_undone c p q s h := by
    simp only [FileSystem.limited] at h ⊢
    split_ifs at h ⊢
    · exact ⟨rfl, rfl⟩
    · exact hF.two_undone c p q s h
  two_apart c p q s r r' h hr hr' := by
    simp only [FileSystem.limited] at h hr hr'
    split_ifs at h
    exact hF.two_apart c p q s r r' h hr hr'
  two_cwd c p q s r r' h hr hr' := by
    simp only [FileSystem.limited] at h hr hr' ⊢
    split_ifs at h ⊢
    exact hF.two_cwd c p q s r r' h hr hr'
  two_done c p q s r r' h hr hr' := by
    simp only [FileSystem.limited] at h hr hr' ⊢
    split_ifs at h ⊢
    exact hF.two_done c p q s r r' h hr hr'
  chdir_tree := hF.chdir_tree
  chdir_undone := hF.chdir_undone
  chdir_done := hF.chdir_done
  chdir_empty := hF.chdir_empty

/-! ### A file system in memory -/

section

variable (T : Files) (r r' : List Text)

/-- The tree after a call, if it is one of those that are done: a directory is
never removed, and no file replaced. -/
def One.after (c : One) : Option Files :=
  match c, T r with
  | .creat, none => some (T.put r .reg)
  | .mkdir, none => some (T.put r .dir)
  | .mknod, none => some (T.put r .dev)
  | .symlink, none => some (T.put r .sym)
  | .unlink, some k => if k = .dir then none else some (T.cut r)
  | .other, some _ => some T
  | _, _ => none

def Two.after (c : Two) : Option Files :=
  match c, T r, T r' with
  | .link, some k, none => if k = .dir then none else some (T.put r' k)
  | .rename .none, some _, none => if r <:+ r' then none else some (T.move r r')
  | .rename .noreplace, some _, none => if r <:+ r' then none else some (T.move r r')
  | .rename .whiteout, some _, none => if r <:+ r' then none else some ((T.move r r').put r .dev)
  | .rename .exchange, some _, some _ =>
    if r = r' ∨ ¬ r <:+ r' ∧ ¬ r' <:+ r then some (T.exchange r r') else none
  | _, _, _ => none

variable {T r r'} {T' : Files}

theorem One.made_of_after {c : One} (h : c.after T r = some T') : c.Made T r T' := by
  unfold One.after at h
  split at h
  case h_1 hr => exact fun _ => (Option.some.inj h).symm
  case h_2 hr => exact ⟨hr, (Option.some.inj h).symm⟩
  case h_3 hr => exact ⟨hr, (Option.some.inj h).symm⟩
  case h_4 hr => exact ⟨hr, (Option.some.inj h).symm⟩
  case h_5 k hr =>
    split_ifs at h with hk
    exact ⟨⟨k, hr, hk⟩, (Option.some.inj h).symm⟩
  case h_6 => exact (Option.some.inj h).symm
  case h_7 => exact absurd h (by simp)

theorem Two.made_of_after {c : Two} (h : c.after T r r' = some T') : c.Made T r r' T' := by
  unfold Two.after at h
  split at h
  case h_1 k hr hr' =>
    split_ifs at h with hk
    exact ⟨hr', k, hr, hk, (Option.some.inj h).symm⟩
  case h_2 hr hr' =>
    split_ifs at h with hsub
    exact fun _ => ⟨by simp [hr], hsub, (Option.some.inj h).symm⟩
  case h_3 hr hr' =>
    split_ifs at h with hsub
    exact ⟨hr', by simp [hr], hsub, (Option.some.inj h).symm⟩
  case h_4 hr hr' =>
    split_ifs at h with hsub
    exact fun _ => ⟨by simp [hr], hsub, (Option.some.inj h).symm⟩
  case h_5 hr hr' =>
    split_ifs at h with hsub
    exact ⟨by simp [hr], by simp [hr'], hsub, (Option.some.inj h).symm⟩
  case h_6 => exact absurd h (by simp)

end

/-- A tree and a place in it. -/
structure Memory where
  tree : Files
  cwd : List Text

namespace Memory

/-- What is answered when a call makes `T` of the tree, or nothing. -/
def answer (m : Memory) : Option Files → Answer × Memory
  | some T => (.done, { m with tree := T })
  | none => (.failed, m)

def one (c : One) (p : Pathname) (m : Memory) : Answer × Memory :=
  m.answer ((m.tree.target m.cwd p).bind fun r => c.after m.tree r)

/-- A call on two files, neither below the other. -/
def two (c : Two) (p q : Pathname) (m : Memory) : Answer × Memory :=
  m.answer ((m.tree.target m.cwd p).bind fun r => (m.tree.target m.cwd q).bind fun r' =>
    if r ≠ r' ∧ (r <:+ r' ∨ r' <:+ r) then none else c.after m.tree r r')

def chdir (c : Text) (m : Memory) : Bool × Memory :=
  match m.tree.step m.cwd c with
  | none => (false, m)
  | some d => (true, { m with cwd := d })

def inMemory : FileSystem Memory where
  one := one
  two := two
  chdir := chdir
  tree := tree
  cwd := cwd

theorem answer_cwd (m : Memory) (o : Option Files) : (m.answer o).2.cwd = m.cwd := by
  cases o <;> rfl

theorem answer_undone {m : Memory} {o : Option Files} (h : (m.answer o).1 ≠ .done) :
    (m.answer o).2.tree = m.tree := by
  cases o with
  | none => rfl
  | some T => exact absurd rfl h

theorem answer_done {m : Memory} {o : Option Files} (h : (m.answer o).1 = .done) :
    o = some (m.answer o).2.tree := by
  cases o with
  | none => exact absurd h (by simp [answer])
  | some T => rfl

theorem chdir_of_step {m : Memory} {c : Text} {d : List Text} (h : m.tree.step m.cwd c = some d) :
    chdir c m = (true, { m with cwd := d }) := by
  rw [chdir, h]

theorem chdir_of_none {m : Memory} {c : Text} (h : m.tree.step m.cwd c = none) :
    chdir c m = (false, m) := by
  rw [chdir, h]

theorem chdir_down {m : Memory} {c : Text} (hc : c ≠ dotdot) (h : (chdir c m).1 = true) :
    m.tree.step m.cwd c = some (c :: m.cwd) ∧ (chdir c m).2 = { m with cwd := c :: m.cwd } := by
  cases hstep : m.tree.step m.cwd c with
  | none =>
    rw [chdir_of_none hstep] at h
    exact absurd h (by simp)
  | some d =>
    have hd := hstep
    rw [Files.step, if_neg hc] at hd
    split_ifs at hd
    obtain rfl := Option.some.inj hd
    exact ⟨rfl, by rw [chdir_of_step hstep]⟩

/-- A call that is done is one on two such files. -/
theorem two_done {c : Two} {p q : Pathname} {m : Memory} {r r' : List Text}
    (h : (two c p q m).1 = .done) (hr : m.tree.target m.cwd p = some r)
    (hr' : m.tree.target m.cwd q = some r') :
    ¬ (r ≠ r' ∧ (r <:+ r' ∨ r' <:+ r)) ∧ c.after m.tree r r' = some (two c p q m).2.tree := by
  have hafter : ((m.tree.target m.cwd p).bind fun r => (m.tree.target m.cwd q).bind fun r' =>
      if r ≠ r' ∧ (r <:+ r' ∨ r' <:+ r) then none else c.after m.tree r r') =
        some (two c p q m).2.tree := answer_done h
  rw [hr, Option.bind_some, hr', Option.bind_some] at hafter
  split_ifs at hafter with hrel
  exact ⟨hrel, hafter⟩

theorem posix_inMemory : Posix inMemory where
  one_cwd _ _ m := answer_cwd m _
  one_undone _ _ _ h := answer_undone h
  one_done c p m r h hr := by
    change m.tree.target m.cwd p = some r at hr
    have hafter : ((m.tree.target m.cwd p).bind fun r => c.after m.tree r) =
        some (one c p m).2.tree := answer_done h
    rw [hr] at hafter
    exact One.made_of_after hafter
  two_undone _ _ _ m h := ⟨answer_undone h, answer_cwd m _⟩
  two_apart _ _ _ _ _ _ h hr hr' hne :=
    not_or.mp fun hrel => (two_done h hr hr').1 ⟨hne, hrel⟩
  two_cwd _ _ _ m _ _ _ _ _ _ _ := answer_cwd m _
  two_done _ _ _ _ _ _ h hr hr' := Two.made_of_after (two_done h hr hr').2
  chdir_tree c m := by
    change (chdir c m).2.tree = m.tree
    cases h : m.tree.step m.cwd c with
    | none => rw [chdir_of_none h]
    | some d => rw [chdir_of_step h]
  chdir_undone c m hok := by
    change (chdir c m).1 = false at hok
    change (chdir c m).2.cwd = m.cwd
    cases h : m.tree.step m.cwd c with
    | none => rw [chdir_of_none h]
    | some d =>
      rw [chdir_of_step h] at hok
      exact absurd hok (by simp)
  chdir_done c m d _ h := by
    change m.tree.step m.cwd c = some d at h
    change (chdir c m).2.cwd = d
    rw [chdir_of_step h]
  chdir_empty m := by
    change (chdir [] m).1 = false
    rw [chdir_of_none (by simp [Files.step, dotdot])]

end Memory

end Fsstress
end Longan
