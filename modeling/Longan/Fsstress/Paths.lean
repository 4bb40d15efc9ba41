/-
# fsstress: paths that are too long

Each call on a path has a function of its own (`creat_path`, `unlink_path`,
...). When the path is too long for the call they change to the first directory
on it, try the rest of it from there, and change back. With two paths
(`link_path`, `rename_path`) they change to the first directory of both, and
where these differ to the one that leaves the shorter paths: the other path gets
a `../` in front.

None of this is seen from outside. What is done is done to the files that the
paths name, and the working directory is the same after it (`onPath_called`,
`onPaths_called`). The second is not obvious to end, since one path grows: it
does, whatever the paths and the answers (`onPaths_ends`). With one path it is
as if there were no limit, as long as no name is longer than that
(`onPath_limited`); with two it is not.
-/
import Mathlib.Tactic.Ring
import Longan.Fsstress.Calls

namespace Longan
namespace Fsstress

/-- How a call is stopped: an assertion on `chdir("..")` fails, or the program
does what it must not: it follows a null pointer, never ends, or reads outside a
list. -/
inductive Stop
  | assertion | null | endless | outside
  deriving DecidableEq

abbrev Run (φ : Type) := Prog φ Stop

/-- The name that `separate_pathname` takes off: none when there is no slash.
What it leaves is the tail of the path, and no path at all when there was no
slash. -/
def separatePathname : Pathname → Text
  | c :: _ :: _ => c
  | _ => []

section

variable {φ : Type} (F : FileSystem φ)

def askOne (c : One) (p : Pathname) : Run φ Answer := fun s => .ok (F.one c p s)

def askTwo (c : Two) (p q : Pathname) : Run φ Answer := fun s => .ok (F.two c p q s)

def chdir (c : Text) : Run φ Bool := fun s => .ok (F.chdir c s)

/-- Something done in another directory, if that can be reached. -/
def within (c : Text) (m : Run φ Bool) : Run φ Bool := do
  if ← chdir F c then do
    let ok ← m
    if ← chdir F dotdot then pure ok else stop .assertion
  else pure false

/-- A call, and `rest` from the directory below if the path is too long. -/
def orWithin (c : One) (p : Pathname) (rest : Run φ Bool) : Run φ Bool := do
  match ← askOne F c p with
  | .done => pure true
  | .failed => pure false
  | .nameTooLong => within F (separatePathname p) rest

/-- `creat_path` and the others with one path. -/
def onPath (c : One) : Pathname → Run φ Bool
  | [] => do
    match ← askOne F c [] with
    | .done => pure true
    | .failed => pure false
    | .nameTooLong => stop .null
  | name :: p => orWithin F c (name :: p) (onPath c p)

def creatPath : Pathname → Run φ Bool := onPath F .creat

def mkdirPath : Pathname → Run φ Bool := onPath F .mkdir

def mknodPath : Pathname → Run φ Bool := onPath F .mknod

def rmdirPath : Pathname → Run φ Bool := onPath F .rmdir

def unlinkPath : Pathname → Run φ Bool := onPath F .unlink

def attrRemovePath : Pathname → Run φ Bool := onPath F .other

def attrSetPath : Pathname → Run φ Bool := onPath F .other

def lchownPath : Pathname → Run φ Bool := onPath F .other

def lstat64Path : Pathname → Run φ Bool := onPath F .other

def openPath : Pathname → Run φ Bool := onPath F .other

def opendirPath : Pathname → Run φ Bool := onPath F .other

def readlinkPath : Pathname → Run φ Bool := onPath F .other

def stat64Path : Pathname → Run φ Bool := onPath F .other

def truncate64Path : Pathname → Run φ Bool := onPath F .other

/-- `ATTR_DONTFOLLOW` -/
def attrDontfollow : ℕ := 1

/-- The only one that looks at its flags, and at each step of the way. -/
def attrListPath (flags : ℕ) : Pathname → Run φ Bool
  | [] => if flags ≠ attrDontfollow then pure false else onPath F .other []
  | name :: p =>
    if flags ≠ attrDontfollow then pure false
    else orWithin F .other (name :: p) (attrListPath flags p)

/-- The only one that looks at its path: where that is what the link is to
contain it makes no link, and says it has. -/
def symlinkPath (val : Text) : Pathname → Run φ Bool
  | [] => stop .null
  | name :: p =>
    if val = Pathname.text (name :: p) then pure true
    else orWithin F .symlink (name :: p) (symlinkPath val p)

/-- Which of two paths that begin with different names is gone down. -/
def down1 (p q : Pathname) : Bool :=
  if separatePathname p = dotdot then false
  else if separatePathname q = dotdot then true
  else if separatePathname p = [] then false
  else if separatePathname q = [] then true
  else decide (max (Pathname.len p.tail) (3 + Pathname.len q) ≤
    max (3 + Pathname.len p) (Pathname.len q.tail))

/-- A call on two paths, for so many steps of the way. -/
def twoPaths (c : Two) : ℕ → Pathname → Pathname → Run φ Bool
  | 0, _, _ => stop .endless
  | n + 1, p, q => do
    match ← askTwo F c p q with
    | .done => pure true
    | .failed => pure false
    | .nameTooLong =>
      if p = [] ∨ q = [] then stop .null
      else if separatePathname p = separatePathname q then
        within F (separatePathname p) (twoPaths c n p.tail q.tail)
      else if down1 p q = true then
        within F (separatePathname p) (twoPaths c n p.tail (dotdot :: q))
      else within F (separatePathname q) (twoPaths c n (dotdot :: p) q.tail)

/-- How far down the path is that is gone down. -/
def turn (p q : Pathname) : ℕ :=
  if separatePathname p = separatePathname q then 0
  else if down1 p q = true then p.length else q.length

/-- What goes down from call to call: the names of both paths together, and as
long as they stay as many, the names of the path that is gone down. -/
def rank (p q : Pathname) : ℕ := (p.length + q.length) * (p.length + q.length + 1) + turn p q

/-- `link_path` and `rename_path`: there are calls enough. -/
def onPaths (c : Two) (p q : Pathname) : Run φ Bool := twoPaths F c (rank p q + 1) p q

def linkPath : Pathname → Pathname → Run φ Bool := onPaths F .link

def renamePath (mode : Mode) : Pathname → Pathname → Run φ Bool := onPaths F (.rename mode)

end

/-! ### It ends -/

theorem separatePathname_cons {c : Text} {p : Pathname} (h : p ≠ []) :
    separatePathname (c :: p) = c := by
  match p with
  | [] => exact absurd rfl h
  | _ :: _ => rfl

theorem turn_le (p q : Pathname) : turn p q ≤ p.length + q.length := by
  unfold turn
  split_ifs <;> omega

theorem rank_tails {p q : Pathname} (hp : p ≠ []) (hq : q ≠ []) :
    rank p.tail q.tail < rank p q := by
  have h1 := List.length_pos_of_ne_nil hp
  have h2 := List.length_pos_of_ne_nil hq
  have hturn := turn_le p.tail q.tail
  simp only [rank, List.length_tail] at hturn ⊢
  obtain ⟨s, hs⟩ : ∃ s, p.length + q.length = s + 2 := ⟨p.length + q.length - 2, by omega⟩
  have hs' : p.length - 1 + (q.length - 1) = s := by omega
  rw [hs'] at hturn ⊢
  rw [hs]
  calc s * (s + 1) + turn p.tail q.tail ≤ s * (s + 1) + s := Nat.add_le_add_left hturn _
    _ < s * (s + 1) + (4 * s + 6) := by omega
    _ = (s + 2) * (s + 2 + 1) := by ring
    _ ≤ (s + 2) * (s + 2 + 1) + turn p q := Nat.le_add_right _ _

theorem turn_down {p q : Pathname} (hp : p ≠ []) (hq : q ≠ [])
    (hne : separatePathname p ≠ separatePathname q) (hdown : down1 p q = true) :
    turn p.tail (dotdot :: q) < turn p q := by
  have h1 := List.length_pos_of_ne_nil hp
  have hdots := separatePathname_cons (c := dotdot) hq
  rw [turn, turn, if_neg hne, if_pos hdown]
  by_cases heq : separatePathname p.tail = separatePathname (dotdot :: q)
  · rw [if_pos heq]
    exact h1
  · have hd : down1 p.tail (dotdot :: q) = true := by
      rw [down1, if_neg (hdots ▸ heq), if_pos hdots]
    rw [if_neg heq, if_pos hd, List.length_tail]
    omega

theorem turn_up {p q : Pathname} (hp : p ≠ []) (hq : q ≠ [])
    (hne : separatePathname p ≠ separatePathname q) (hdown : ¬ down1 p q = true) :
    turn (dotdot :: p) q.tail < turn p q := by
  have h1 := List.length_pos_of_ne_nil hq
  have hdots := separatePathname_cons (c := dotdot) hp
  rw [turn, turn, if_neg hne, if_neg hdown]
  by_cases heq : separatePathname (dotdot :: p) = separatePathname q.tail
  · rw [if_pos heq]
    exact h1
  · have hd : ¬ down1 (dotdot :: p) q.tail = true := by
      rw [down1, if_pos hdots]
      exact Bool.false_ne_true
    rw [if_neg heq, if_neg hd, List.length_tail]
    omega

theorem rank_down {p q : Pathname} (hp : p ≠ []) (hq : q ≠ [])
    (hne : separatePathname p ≠ separatePathname q) (hdown : down1 p q = true) :
    rank p.tail (dotdot :: q) < rank p q := by
  have h1 := List.length_pos_of_ne_nil hp
  have hlen : p.tail.length + (dotdot :: q).length = p.length + q.length := by
    rw [List.length_tail, List.length_cons]
    omega
  rw [rank, hlen]
  exact Nat.add_lt_add_left (turn_down hp hq hne hdown) _

theorem rank_up {p q : Pathname} (hp : p ≠ []) (hq : q ≠ [])
    (hne : separatePathname p ≠ separatePathname q) (hdown : ¬ down1 p q = true) :
    rank (dotdot :: p) q.tail < rank p q := by
  have h1 := List.length_pos_of_ne_nil hq
  have hlen : (dotdot :: p).length + q.tail.length = p.length + q.length := by
    rw [List.length_tail, List.length_cons]
    omega
  rw [rank, hlen]
  exact Nat.add_lt_add_left (turn_up hp hq hne hdown) _

section

variable {φ : Type} {F : FileSystem φ}

/-- Whatever it is that holds at all ends of what is done elsewhere. -/
theorem within_stops {c : Text} {m : Run φ Bool} {E : Stop → φ → Prop}
    (hassert : ∀ s, E .assertion s) (hm : Ends (fun _ => True) m (fun _ _ => True) E) :
    Ends (fun _ => True) (within F c m) (fun _ _ => True) E := by
  refine Ends.bind (R := fun _ _ => True) (fun _ _ => trivial) fun ok => ?_
  refine Ends.ite (fun _ => ?_) fun _ => Ends.pure fun _ _ => trivial
  refine Ends.bind hm fun _ => Ends.bind (R := fun _ _ => True) (fun _ _ => trivial) fun _ => ?_
  exact Ends.ite (fun _ => Ends.pure fun _ _ => trivial) fun _ => Ends.stop fun s _ => hassert s

theorem twoPaths_ends (F : FileSystem φ) (c : Two) : ∀ (n : ℕ) (p q : Pathname), rank p q < n →
    Ends (fun _ => True) (twoPaths F c n p q) (fun _ _ => True) (fun e _ => e ≠ .endless)
  | 0, _, _, h => absurd h (Nat.not_lt_zero _)
  | n + 1, p, q, h => by
    refine Ends.bind (R := fun _ _ => True) (fun _ _ => trivial) fun a => ?_
    have hassert : ∀ _ : φ, Stop.assertion ≠ Stop.endless := fun _ => by decide
    cases a with
    | done => exact Ends.pure fun _ _ => trivial
    | failed => exact Ends.pure fun _ _ => trivial
    | nameTooLong =>
      refine Ends.ite (fun _ => Ends.stop fun _ _ => by decide) fun hnull => ?_
      obtain ⟨hp, hq⟩ := not_or.mp hnull
      refine Ends.ite (fun _ => ?_) fun hne => Ends.ite (fun hdown => ?_) fun hdown => ?_
      · have hrank := rank_tails hp hq
        exact within_stops hassert (twoPaths_ends F c n _ _ (by omega))
      · have hrank := rank_down hp hq hne hdown
        exact within_stops hassert (twoPaths_ends F c n _ _ (by omega))
      · have hrank := rank_up hp hq hne hdown
        exact within_stops hassert (twoPaths_ends F c n _ _ (by omega))

/-- **Two paths come to an end.** Whatever the paths are and the calls answer,
one of them is answered without going further. -/
theorem onPaths_ends (F : FileSystem φ) (c : Two) (p q : Pathname) :
    Ends (fun _ => True) (onPaths F c p q) (fun _ _ => True) (fun e _ => e ≠ .endless) :=
  twoPaths_ends F c _ p q (Nat.lt_succ_self _)

/-! ### What it does -/

/-- The tree and the working directory. -/
def Here (F : FileSystem φ) (T : Files) (d : List Text) (s : φ) : Prop := F.tree s = T ∧ F.cwd s = d

/-- What there is after a call that was done, or not. -/
def Called (F : FileSystem φ) (T : Files) (d : List Text) (Made : Files → Prop) (ok : Bool) (s : φ) :
    Prop :=
  F.cwd s = d ∧ if ok then Made (F.tree s) else F.tree s = T

/-- The only stop is an assertion. -/
def Asserted (e : Stop) (_ : φ) : Prop := e = .assertion

variable {T : Files} {d r r' : List Text} {c : Text} {p q : Pathname} {Made : Files → Prop}

theorem Called.of_here {s : φ} (h : Here F T d s) : Called F T d Made false s := ⟨h.2, h.1⟩

theorem askOne_called (hF : Posix F) {c : One} (h : T.target d p = some r) :
    Ends (Here F T d) (askOne F c p)
      (fun a s => if a = .done then Called F T d (c.Made T r) true s else Here F T d s)
      Asserted := by
  rintro s ⟨rfl, rfl⟩
  show if (F.one c p s).1 = .done then _ else _
  split_ifs with ha
  · exact ⟨hF.one_cwd c p s, hF.one_done c p s r ha h⟩
  · exact ⟨hF.one_undone c p s ha, hF.one_cwd c p s⟩

theorem chdir_called (hF : Posix F) (hstep : T.step d c = some r) :
    Ends (Here F T d) (chdir F c) (fun ok s => Here F T (if ok then r else d) s) Asserted := by
  rintro s ⟨rfl, rfl⟩
  refine ⟨hF.chdir_tree c s, ?_⟩
  show F.cwd (F.chdir c s).2 = if (F.chdir c s).1 = true then r else F.cwd s
  split_ifs with hok
  · exact hF.chdir_done c s r hok hstep
  · exact hF.chdir_undone c s (Bool.eq_false_of_not_eq_true hok)

/-- The way back is there, whatever has been made. -/
theorem chdir_dotdot (hF : Posix F) {done : Bool} :
    Ends (Called F T (c :: d) Made done) (chdir F dotdot)
      (fun ok s => ok = true → Called F T d Made done s) Asserted := by
  rintro s ⟨hcwd, hmade⟩ hok
  refine ⟨hF.chdir_done dotdot s d hok ?_, ?_⟩
  · exact Files.step_dotdot hcwd
  · rw [← hF.chdir_tree dotdot s] at hmade
    exact hmade

/-- There is no way to `""`. -/
theorem within_empty (hF : Posix F) {m : Run φ Bool} :
    Ends (Here F T d) (within F [] m) (Called F T d Made) Asserted := by
  have hchdir : Ends (Here F T d) (chdir F []) (fun ok s => ok = false ∧ Here F T d s)
      (Asserted : Stop → φ → Prop) := by
    rintro s ⟨rfl, rfl⟩
    have hno := hF.chdir_empty s
    exact ⟨hno, hF.chdir_tree [] s, hF.chdir_undone [] s hno⟩
  refine Ends.bind hchdir fun ok => Ends.ite (fun hok => ?_) fun _ => Ends.pure ?_
  · rintro s ⟨rfl, -⟩
    exact absurd hok Bool.false_ne_true
  · exact fun s hs => Called.of_here hs.2

/-- What is done below, seen from above. -/
theorem within_called (hF : Posix F) {m : Run φ Bool} (hstep : T.step d c = some (c :: d))
    (hm : Ends (Here F T (c :: d)) m (Called F T (c :: d) Made) Asserted) :
    Ends (Here F T d) (within F c m) (Called F T d Made) Asserted := by
  refine Ends.bind (chdir_called hF hstep) fun ok => Ends.ite (fun hok => ?_) fun hok => ?_
  · rw [if_pos hok]
    refine Ends.bind hm fun done => Ends.bind (chdir_dotdot hF) fun up => ?_
    exact Ends.ite (fun hup => Ends.pure fun s hs => hs hup) fun _ => Ends.stop fun _ _ => rfl
  · rw [if_neg hok]
    exact Ends.pure fun s hs => Called.of_here hs

namespace Files

theorem target_eq (hp : p ≠ []) :
    T.target d (c :: p) = (T.step d c).bind fun d' => T.target d' p := by
  match p with
  | [] => exact absurd rfl hp
  | _ :: _ => rfl

theorem target_cons (hp : p ≠ []) (hc : c ≠ dotdot) (h : T.target d (c :: p) = some r) :
    T.step d c = some (c :: d) ∧ T.target (c :: d) p = some r := by
  rw [target_eq hp, Option.bind_eq_some_iff] at h
  obtain ⟨d', hd', hr⟩ := h
  rw [step, if_neg hc] at hd' ⊢
  by_cases hT : c ≠ [] ∧ T (c :: d) = some .dir
  · rw [if_pos hT] at hd'
    obtain rfl := Option.some.inj hd'
    exact ⟨if_pos hT, hr⟩
  · rw [if_neg hT] at hd'
    exact absurd hd' (by simp)

/-- A path without `..` leads below. -/
theorem target_below : ∀ {p : Pathname} {d : List Text}, dotdot ∉ p → T.target d p = some r →
    ∃ u, u ≠ [] ∧ r = u ++ d
  | [], _, _, h => absurd h (by simp [target])
  | [c], d, _, h => by
    rw [target] at h
    split_ifs at h
    exact ⟨[c], List.cons_ne_nil _ _, (Option.some.inj h).symm⟩
  | c :: c' :: p, d, hup, h => by
    obtain ⟨hc, hup⟩ := not_or.mp (List.mem_cons.not.mp hup)
    obtain ⟨-, hrest⟩ := target_cons (List.cons_ne_nil _ _) (Ne.symm hc) h
    obtain ⟨u, -, rfl⟩ := target_below hup hrest
    exact ⟨u ++ [c], by simp, by simp⟩

theorem target_ne_nil (h : T.target d p = some r) : p ≠ [] := by
  rintro rfl
  exact absurd h (by simp [target])

/-- One up and down the same way. -/
theorem target_dotdot (h : T.target d q = some r) : T.target (c :: d) (dotdot :: q) = some r := by
  rw [target_eq (target_ne_nil h), step_dotdot rfl]
  exact h

end Files

/-- The call is made from a directory on the way to one of the two files, which
therefore stays where it is. -/
theorem askTwo_called (hF : Posix F) {c : Two} (hp : T.target d p = some r)
    (hq : T.target d q = some r') (hway : dotdot ∉ p ∨ dotdot ∉ q) :
    Ends (Here F T d) (askTwo F c p q)
      (fun a s => if a = .done then Called F T d (c.Made T r r') true s else Here F T d s)
      Asserted := by
  rintro s ⟨rfl, rfl⟩
  show if (F.two c p q s).1 = .done then _ else _
  split_ifs with ha
  · refine ⟨?_, hF.two_done c p q s r r' ha hp hq⟩
    have hbelow : ∀ {u : List Text}, u ≠ [] → ¬ u ++ F.cwd s <:+ F.cwd s := fun hu h => by
      have hlen := h.length_le
      have hpos := List.length_pos_iff.mpr hu
      rw [List.length_append] at hlen
      omega
    have hapart := hF.two_apart c p q s r r' ha hp hq
    rcases hway with hup | hup
    · obtain ⟨u, hu, rfl⟩ := Files.target_below hup hp
      refine hF.two_cwd c p q s _ r' ha hp hq (hbelow hu) fun hr' => ?_
      have hne : u ++ F.cwd s ≠ r' := by
        rintro rfl
        exact hbelow hu hr'
      exact (hapart hne).2 (hr'.trans (List.suffix_append _ _))
    · obtain ⟨u, hu, rfl⟩ := Files.target_below hup hq
      refine hF.two_cwd c p q s r _ ha hp hq (fun hr => ?_) (hbelow hu)
      have hne : r ≠ u ++ F.cwd s := by
        rintro rfl
        exact hbelow hu hr
      exact (hapart hne).1 (hr.trans (List.suffix_append _ _))
  · exact ⟨(hF.two_undone c p q s ha).1, (hF.two_undone c p q s ha).2⟩

/-- A call here, or below where the path goes on. -/
theorem orWithin_called (hF : Posix F) {o : One} {rest : Run φ Bool} (hc : c ≠ dotdot)
    (h : T.target d (c :: p) = some r)
    (hrest : T.target (c :: d) p = some r →
      Ends (Here F T (c :: d)) rest (Called F T (c :: d) (o.Made T r)) Asserted) :
    Ends (Here F T d) (orWithin F o (c :: p) rest) (Called F T d (o.Made T r)) Asserted := by
  refine Ends.bind (askOne_called hF h) fun a => ?_
  cases a with
  | done => exact Ends.pure fun s hs => hs
  | failed => exact Ends.pure fun s hs => Called.of_here hs
  | nameTooLong =>
    by_cases hp : p = []
    · rw [hp]
      exact within_empty hF
    · obtain ⟨hstep, hbelow⟩ := Files.target_cons hp hc h
      rw [separatePathname_cons hp]
      exact within_called hF hstep (hrest hbelow)

/-- **A call on one path.** If it is done, it is done to what the path names,
and in any case the working directory is what it was. -/
theorem onPath_called (hF : Posix F) (o : One) (T : Files) (r : List Text) :
    ∀ (p : Pathname) (d : List Text), dotdot ∉ p → T.target d p = some r →
      Ends (Here F T d) (onPath F o p) (Called F T d (o.Made T r)) Asserted
  | [], _, _, h => absurd h (by simp [Files.target])
  | name :: p, d, hup, h => by
    obtain ⟨hname, hup⟩ := not_or.mp (List.mem_cons.not.mp hup)
    exact orWithin_called hF (Ne.symm hname) h fun hbelow => onPath_called hF o T r p _ hup hbelow

/-- One directory with a file in it. -/
def oneFile : Files := (Tree.put (fun _ => none) [['d', '0']] .dir).put [['f', '1'], ['d', '0']] .reg

theorem here_oneFile (limit : ℕ) :
    ∃ s, Here (Memory.inMemory.limited limit) oneFile [] s := ⟨⟨oneFile, []⟩, rfl, rfl⟩

/-- Paths of four characters are enough to unlink `d0/f1`. -/
theorem onPath_called_oneFile :
    (∃ s, Here (Memory.inMemory.limited 4) oneFile [] s) ∧
    Ends (Here (Memory.inMemory.limited 4) oneFile [])
      (unlinkPath (Memory.inMemory.limited 4) [['d', '0'], ['f', '1']])
      (Called (Memory.inMemory.limited 4) oneFile []
        (One.unlink.Made oneFile [['f', '1'], ['d', '0']])) Asserted :=
  ⟨here_oneFile 4, onPath_called (Memory.posix_inMemory.limited 4) .unlink oneFile
    [['f', '1'], ['d', '0']] [['d', '0'], ['f', '1']] [] (by decide) (by decide)⟩

/-- The same for a link, as long as its text is not the path from one of the
directories on the way. -/
theorem symlinkPath_other (hF : Posix F) (val : Text) (T : Files) (r : List Text) :
    ∀ (p : Pathname) (d : List Text), dotdot ∉ p → T.target d p = some r →
      (∀ t, t <:+ p → t ≠ [] → val ≠ Pathname.text t) →
      Ends (Here F T d) (symlinkPath F val p) (Called F T d (One.symlink.Made T r)) Asserted
  | [], _, _, h, _ => absurd h (by simp [Files.target])
  | name :: p, d, hup, h, hval => by
    obtain ⟨hname, hup⟩ := not_or.mp (List.mem_cons.not.mp hup)
    rw [symlinkPath, if_neg (hval _ (List.suffix_refl _) (List.cons_ne_nil _ _))]
    exact orWithin_called hF (Ne.symm hname) h fun hbelow =>
      symlinkPath_other hF val T r p _ hup hbelow fun t ht => hval t (ht.trans (List.suffix_cons _ _))

/-- **A symbolic link.** `symlink_f` fills it with `x`, which is no path of
names, so that it is always made when it is said to be. -/
theorem symlinkPath_called (hF : Posix F) (namerand : ℕ) (val : Text) (T : Files) (r d : List Text)
    (p : Pathname) (hnames : Named namerand p) (hval : val.head? = none ∨ val.head? = some 'x')
    (h : T.target d p = some r) :
    Ends (Here F T d) (symlinkPath F val p) (Called F T d (One.symlink.Made T r)) Asserted := by
  refine symlinkPath_other hF val T r p d hnames.no_dotdot h fun t ht hne heq => ?_
  obtain ⟨ft, u, hu⟩ := Named.head_text (fun c hc => hnames c (ht.mem hc)) hne
  rw [heq, hu, List.head?_cons] at hval
  cases ft <;> exact absurd hval (by decide)

theorem named_d0_l2 : Named 0 [['d', '0'], ['l', '2']] := by
  intro c hc
  simp only [List.mem_cons, List.not_mem_nil, or_false] at hc
  rcases hc with rfl | rfl
  · exact ⟨.dir, 0, by decide⟩
  · exact ⟨.sym, 2, by decide⟩

theorem symlinkPath_called_oneFile :
    (∃ s, Here (Memory.inMemory.limited 4) oneFile [] s) ∧
    Ends (Here (Memory.inMemory.limited 4) oneFile [])
      (symlinkPath (Memory.inMemory.limited 4) ['x', 'x'] [['d', '0'], ['l', '2']])
      (Called (Memory.inMemory.limited 4) oneFile []
        (One.symlink.Made oneFile [['l', '2'], ['d', '0']])) Asserted :=
  ⟨here_oneFile 4, symlinkPath_called (Memory.posix_inMemory.limited 4) 0 ['x', 'x'] oneFile
    [['l', '2'], ['d', '0']] [] [['d', '0'], ['l', '2']] named_d0_l2 (Or.inr rfl) (by decide)⟩

/-- The flags are the same at each step of the way. -/
theorem attrListPath_eq (F : FileSystem φ) (flags : ℕ) : ∀ p : Pathname,
    attrListPath F flags p = if flags ≠ attrDontfollow then pure false else onPath F .other p
  | [] => rfl
  | name :: p => by
    rw [attrListPath, attrListPath_eq F flags p]
    by_cases h : flags ≠ attrDontfollow
    · rw [if_pos h, if_pos h]
    · rw [if_neg h, if_neg h, if_neg h, onPath]

/-! ### Two paths -/

/-- One of two paths is plain, and the other goes up at its beginning only. -/
def Climbs (p q : Pathname) : Prop :=
  dotdot ∉ p ∧ ∃ n q', q = List.replicate n dotdot ++ q' ∧ dotdot ∉ q'

/-- What begins with a name does not go up. -/
theorem Climbs.right (h : Climbs p (c :: q)) (hc : c ≠ dotdot) : dotdot ∉ c :: q := by
  obtain ⟨-, n, q', hq, hq'⟩ := h
  match n with
  | 0 => exact hq ▸ hq'
  | n + 1 =>
    rw [List.replicate_succ, List.cons_append] at hq
    exact absurd (List.cons.inj hq).1 hc

theorem Climbs.up (h : Climbs p q) : Climbs p (dotdot :: q) := by
  obtain ⟨hp, n, q', rfl, hq'⟩ := h
  exact ⟨hp, n + 1, q', by rw [List.replicate_succ, List.cons_append], hq'⟩

theorem Climbs.tail (h : Climbs (c :: p) q) : Climbs p q :=
  ⟨fun hmem => h.1 (List.mem_cons_of_mem _ hmem), h.2⟩

theorem Climbs.plain (hp : dotdot ∉ p) (hq : dotdot ∉ q) : Climbs p q := ⟨hp, 0, q, rfl, hq⟩

/-- Down one path, whichever way the other climbs. -/
theorem Climbs.down (h : Climbs (c :: p) q ∨ Climbs q (c :: p)) (hc : c ≠ dotdot) :
    Climbs p (dotdot :: q) := by
  rcases h with h | h
  · exact h.up.tail
  · exact (Climbs.plain (h.right hc) h.1).up.tail

/-- Two paths that begin with one name do not climb. -/
theorem Climbs.both (h : Climbs (c :: p) (c :: q) ∨ Climbs (c :: q) (c :: p)) :
    c ≠ dotdot ∧ Climbs p q := by
  have hc : c ≠ dotdot := by
    rintro rfl
    exact h.elim (fun h => h.1 List.mem_cons_self) fun h => h.1 List.mem_cons_self
  have hp : dotdot ∉ c :: p := h.elim And.left fun h => h.right hc
  have hq : dotdot ∉ c :: q := h.elim (fun h => h.right hc) And.left
  exact ⟨hc, Climbs.plain (fun hmem => hp (List.mem_cons_of_mem _ hmem))
    fun hmem => hq (List.mem_cons_of_mem _ hmem)⟩

/-- What is taken off is there. -/
theorem eq_separatePathname (h : separatePathname p ≠ []) :
    ∃ p', p = separatePathname p :: p' ∧ p' ≠ [] := by
  match p with
  | [] => exact absurd rfl h
  | [_] => exact absurd rfl h
  | _ :: c :: p' => exact ⟨c :: p', rfl, List.cons_ne_nil c p'⟩

/-- What is gone down is no `..`. -/
theorem down_ne_dotdot (h : down1 p q = true) : separatePathname p ≠ dotdot := by
  intro heq
  rw [down1, if_pos heq] at h
  exact absurd h Bool.false_ne_true

theorem up_ne_dotdot (hne : separatePathname p ≠ separatePathname q) (h : ¬ down1 p q = true) :
    separatePathname q ≠ dotdot := by
  intro heq
  rw [down1, if_neg (fun hp => hne (hp.trans heq.symm)), if_pos heq] at h
  exact h rfl

/-- The calls on two paths, whichever way down is taken. -/
theorem twoPaths_climb (hF : Posix F) (o : Two) (T : Files) (r r' : List Text) :
    ∀ (n : ℕ) (p q : Pathname) (d : List Text), Climbs p q ∨ Climbs q p → rank p q < n →
      T.target d p = some r → T.target d q = some r' →
      Ends (Here F T d) (twoPaths F o n p q) (Called F T d (o.Made T r r')) Asserted
  | 0, _, _, _, _, h, _, _ => absurd h (Nat.not_lt_zero _)
  | n + 1, p, q, d, hclimb, hn, hp, hq => by
    refine Ends.bind (askTwo_called hF hp hq (hclimb.imp And.left And.left)) fun a => ?_
    cases a with
    | done => exact Ends.pure fun s hs => hs
    | failed => exact Ends.pure fun s hs => Called.of_here hs
    | nameTooLong =>
      have hpn := Files.target_ne_nil hp
      have hqn := Files.target_ne_nil hq
      refine Ends.ite (fun hnull => ?_) fun _ => ?_
      · exact absurd hnull (not_or.mpr ⟨hpn, hqn⟩)
      refine Ends.ite (fun heq => ?_) fun hne => Ends.ite (fun hdown => ?_) fun hdown => ?_
      · by_cases hc : separatePathname p = []
        · rw [hc]
          exact within_empty hF
        have hrank := rank_tails hpn hqn
        obtain ⟨p', hpe, hp'⟩ := eq_separatePathname hc
        obtain ⟨q', hqe, hq'⟩ := eq_separatePathname (heq ▸ hc)
        rw [← heq] at hqe
        generalize separatePathname p = name at hpe hqe
        subst hpe hqe
        obtain ⟨hname, hplain⟩ := Climbs.both hclimb
        obtain ⟨hstep, hpt⟩ := Files.target_cons hp' hname hp
        obtain ⟨-, hqt⟩ := Files.target_cons hq' hname hq
        exact within_called hF hstep
          (twoPaths_climb hF o T r r' n p' q' _ (Or.inl hplain) (by simp at hrank; omega) hpt hqt)
      · by_cases hc : separatePathname p = []
        · rw [hc]
          exact within_empty hF
        have hname := down_ne_dotdot hdown
        have hrank := rank_down hpn hqn hne hdown
        obtain ⟨p', hpe, hp'⟩ := eq_separatePathname hc
        generalize separatePathname p = name at hpe hname
        subst hpe
        obtain ⟨hstep, hpt⟩ := Files.target_cons hp' hname hp
        exact within_called hF hstep
          (twoPaths_climb hF o T r r' n p' (dotdot :: q) _ (Or.inl (Climbs.down hclimb hname))
            (by simp at hrank; omega) hpt (Files.target_dotdot hq))
      · by_cases hc : separatePathname q = []
        · rw [hc]
          exact within_empty hF
        have hname := up_ne_dotdot hne hdown
        have hrank := rank_up hpn hqn hne hdown
        obtain ⟨q', hqe, hq'⟩ := eq_separatePathname hc
        generalize separatePathname q = name at hqe hname
        subst hqe
        obtain ⟨hstep, hqt⟩ := Files.target_cons hq' hname hq
        exact within_called hF hstep
          (twoPaths_climb hF o T r r' n (dotdot :: p) q' _ (Or.inr (Climbs.down hclimb.symm hname))
            (by simp at hrank; omega) (Files.target_dotdot hp) hqt)

/-- **A call on two paths.** The same as with one: what is done is done to what
both name, and the working directory is what it was. -/
theorem onPaths_called (hF : Posix F) (o : Two) (T : Files) (r r' d : List Text) (p q : Pathname)
    (hp : dotdot ∉ p) (hq : dotdot ∉ q) (hpt : T.target d p = some r)
    (hqt : T.target d q = some r') :
    Ends (Here F T d) (onPaths F o p q) (Called F T d (o.Made T r r')) Asserted :=
  twoPaths_climb hF o T r r' _ p q d (Or.inl (Climbs.plain hp hq)) (Nat.lt_succ_self _) hpt hqt

theorem onPaths_called_oneFile :
    (∃ s, Here (Memory.inMemory.limited 4) oneFile [] s) ∧
    Ends (Here (Memory.inMemory.limited 4) oneFile [])
      (renamePath (Memory.inMemory.limited 4) .none [['d', '0'], ['f', '1']] [['d', '0'], ['f', '2']])
      (Called (Memory.inMemory.limited 4) oneFile []
        ((Two.rename .none).Made oneFile [['f', '1'], ['d', '0']] [['f', '2'], ['d', '0']]))
      Asserted :=
  ⟨here_oneFile 4, onPaths_called (Memory.posix_inMemory.limited 4) (.rename .none) oneFile
    [['f', '1'], ['d', '0']] [['f', '2'], ['d', '0']] [] [['d', '0'], ['f', '1']]
    [['d', '0'], ['f', '2']] (by decide) (by decide) (by decide) (by decide)⟩

/-! ### With a limit and without -/

/-- A name that is not `.` or `..` and does not stand for a link. -/
def Files.Plain (T : Files) (d : List Text) (name : Text) : Prop :=
  name.head? ≠ some '.' ∧ T (name :: d) ≠ some .sym

/-- All names before the last are plain. -/
def Files.Straight (T : Files) : List Text → Pathname → Prop
  | _, [] | _, [_] => True
  | d, name :: p => T.Plain d name ∧ T.Straight (name :: d) p

theorem Files.straight_cons {T : Files} {d : List Text} {name : Text} {p : Pathname} (hp : p ≠ []) :
    T.Straight d (name :: p) ↔ T.Plain d name ∧ T.Straight (name :: d) p := by
  cases p with
  | nil => exact absurd rfl hp
  | cons c p => exact Iff.rfl

/-- How a plain name is followed, where there is no limit: what is done by a path
is done by the rest of it in its first directory, and if there is none it
fails. -/
structure Walks (F : FileSystem φ) : Prop where
  answered : ∀ c p s, (F.one c p s).1 ≠ .nameTooLong
  entered : ∀ name s, (F.tree s).Plain (F.cwd s) name → (F.chdir name s).1 = true →
    F.tree (F.chdir name s).2 = F.tree s ∧ F.cwd (F.chdir name s).2 = name :: F.cwd s
  back : ∀ c name p s, (F.tree s).Plain (F.cwd s) name → (F.chdir name s).1 = true →
    (F.chdir dotdot (F.one c p (F.chdir name s).2).2).1 = true
  down : ∀ c name p s, (F.tree s).Plain (F.cwd s) name → p ≠ [] → (F.chdir name s).1 = true →
    F.one c (name :: p) s = ((F.one c p (F.chdir name s).2).1,
      (F.chdir dotdot (F.one c p (F.chdir name s).2).2).2)
  stuck : ∀ c name p s, (F.tree s).Plain (F.cwd s) name → p ≠ [] → (F.chdir name s).1 = false →
    F.one c (name :: p) s = (.failed, (F.chdir name s).2)

/-- What `rval` is for an answer. -/
def Answer.ok (a : Answer) : Bool := decide (a = .done)

theorem bind_of_ok {α β : Type} {m : Run φ α} {f : α → Run φ β} {a : α} {s s' : φ}
    (h : m s = .ok (a, s')) : (m >>= f) s = f a s' := by
  show Except.bind (m s) _ = _
  rw [h]
  rfl

theorem chdir_eq (F : FileSystem φ) {c : Text} {s : φ} {ok : Bool} (h : (F.chdir c s).1 = ok) :
    chdir F c s = .ok (ok, (F.chdir c s).2) := by
  rw [← h]
  rfl

theorem within_down {m : Run φ Bool} {s s' : φ} {ok : Bool} (hgo : (F.chdir c s).1 = true)
    (hm : m (F.chdir c s).2 = .ok (ok, s')) (hup : (F.chdir dotdot s').1 = true) :
    within F c m s = .ok (ok, (F.chdir dotdot s').2) := by
  rw [within, bind_of_ok (chdir_eq F hgo), if_pos rfl, bind_of_ok hm, bind_of_ok (chdir_eq F hup),
    if_pos rfl]
  rfl

theorem within_stuck {m : Run φ Bool} {s : φ} (hgo : (F.chdir c s).1 = false) :
    within F c m s = .ok (false, (F.chdir c s).2) := by
  rw [within, bind_of_ok (chdir_eq F hgo), if_neg Bool.false_ne_true]
  rfl

theorem askOne_eq {o : One} {s : φ} {a : Answer} (h : (F.one o p s).1 = a) :
    askOne F o p s = .ok (a, (F.one o p s).2) := by
  rw [← h]
  rfl

theorem orWithin_answered {o : One} {rest : Run φ Bool} {s : φ}
    (h : (F.one o p s).1 ≠ .nameTooLong) :
    orWithin F o p rest s = .ok ((F.one o p s).1.ok, (F.one o p s).2) := by
  cases ha : (F.one o p s).1 with
  | done =>
    rw [orWithin, bind_of_ok (askOne_eq ha)]
    rfl
  | failed =>
    rw [orWithin, bind_of_ok (askOne_eq ha)]
    rfl
  | nameTooLong => exact absurd ha h

theorem orWithin_tooLong {o : One} {rest : Run φ Bool} {s : φ}
    (h : F.one o p s = (.nameTooLong, s)) :
    orWithin F o p rest s = within F (separatePathname p) rest s := by
  have hask : askOne F o p s = .ok (.nameTooLong, s) := congrArg Except.ok h
  rw [orWithin, bind_of_ok hask]

/-- **No limit is seen** with one path, if each name keeps to it: the call is
done when it would be done by the whole path, with the same effect. -/
theorem onPath_limited (hF : Walks F) (o : One) (limit : ℕ) :
    ∀ (p : Pathname) (s : φ), p ≠ [] → (F.tree s).Straight (F.cwd s) p →
      (∀ c ∈ p, c.length ≤ limit) →
      onPath (F.limited limit) o p s = .ok ((F.one o p s).1.ok, (F.one o p s).2)
  | [], _, h, _, _ => absurd rfl h
  | name :: p, s, _, hstraight, hlen => by
    by_cases hshort : Pathname.len (name :: p) ≤ limit
    · have hone : (F.limited limit).one o (name :: p) s = F.one o (name :: p) s :=
        if_neg (Nat.not_lt.mpr hshort)
      rw [← hone]
      exact orWithin_answered (hone ▸ hF.answered o _ s)
    · have hone : (F.limited limit).one o (name :: p) s = (.nameTooLong, s) :=
        if_pos (Nat.not_le.mp hshort)
      have hp : p ≠ [] := by
        rintro rfl
        exact hshort (by simpa [Pathname.len, Pathname.text] using hlen name List.mem_cons_self)
      obtain ⟨hname, hrest⟩ := (Files.straight_cons hp).mp hstraight
      rw [onPath, orWithin_tooLong hone, separatePathname_cons hp]
      cases hgo : (F.chdir name s).1 with
      | true =>
        obtain ⟨htree, hcwd⟩ := hF.entered name s hname hgo
        have ih := onPath_limited hF o limit p (F.chdir name s).2 hp (by rwa [htree, hcwd])
          fun c hc => hlen c (List.mem_cons_of_mem _ hc)
        rw [hF.down o name p s hname hp hgo]
        exact within_down hgo ih (hF.back o name p s hname hgo)
      | false =>
        rw [hF.stuck o name p s hname hp hgo]
        exact within_stuck hgo

theorem ne_dotdot_of_plain {T : Files} {d : List Text} {name : Text} (h : T.Plain d name) :
    name ≠ dotdot := by
  rintro rfl
  exact h.1 rfl

theorem walks_inMemory : Walks Memory.inMemory where
  entered name m hname hgo := by
    obtain ⟨-, hdown⟩ := Memory.chdir_down (ne_dotdot_of_plain hname) hgo
    change (Memory.chdir name m).2.tree = m.tree ∧ (Memory.chdir name m).2.cwd = name :: m.cwd
    rw [hdown]
    exact ⟨rfl, rfl⟩
  answered c p m := by
    change (m.answer _).1 ≠ _
    cases (m.tree.target m.cwd p).bind fun r => c.after m.tree r <;> simp [Memory.answer]
  back c name p m hname hgo := by
    have hname := ne_dotdot_of_plain hname
    change (Memory.chdir name m).1 = true at hgo
    change (Memory.chdir dotdot (Memory.one c p (Memory.chdir name m).2).2).1 = true
    obtain ⟨-, hdown⟩ := Memory.chdir_down hname hgo
    have hcwd : (Memory.one c p (Memory.chdir name m).2).2.cwd = name :: m.cwd := by
      rw [hdown]
      exact Memory.answer_cwd _ _
    rw [Memory.chdir_of_step (Files.step_dotdot hcwd)]
  down c name p m hname hp hgo := by
    have hname := ne_dotdot_of_plain hname
    change (Memory.chdir name m).1 = true at hgo
    obtain ⟨hstep, hdown⟩ := Memory.chdir_down hname hgo
    change Memory.one c (name :: p) m = ((Memory.one c p (Memory.chdir name m).2).1,
      (Memory.chdir dotdot (Memory.one c p (Memory.chdir name m).2).2).2)
    have hcwd : (Memory.one c p (Memory.chdir name m).2).2.cwd = name :: m.cwd := by
      rw [hdown]
      exact Memory.answer_cwd _ _
    rw [Memory.chdir_of_step (Files.step_dotdot hcwd), hdown]
    simp only [Memory.one, Files.target_eq hp, hstep, Option.bind_some]
    cases (m.tree.target (name :: m.cwd) p).bind fun r => c.after m.tree r <;> rfl
  stuck c name p m hname hp hgo := by
    change (Memory.chdir name m).1 = false at hgo
    change Memory.one c (name :: p) m = (.failed, (Memory.chdir name m).2)
    cases hstep : m.tree.step m.cwd name with
    | none =>
      rw [Memory.chdir_of_none hstep, Memory.one, Files.target_eq hp, hstep]
      rfl
    | some d =>
      rw [Memory.chdir_of_step hstep] at hgo
      exact absurd hgo (by simp)

theorem onPath_limited_oneFile :
    onPath (Memory.inMemory.limited 4) .unlink [['d', '0'], ['f', '1']] ⟨oneFile, []⟩ =
      .ok ((Memory.inMemory.one .unlink [['d', '0'], ['f', '1']] ⟨oneFile, []⟩).1.ok,
        (Memory.inMemory.one .unlink [['d', '0'], ['f', '1']] ⟨oneFile, []⟩).2) :=
  onPath_limited walks_inMemory .unlink 4 [['d', '0'], ['f', '1']] ⟨oneFile, []⟩ (by simp)
    ⟨⟨by decide, by decide⟩, trivial⟩ (by decide)

/-- With two paths the limit is seen: `link("d0/f1", "f2")` is done, but not by
paths of four characters. -/
example :
    (Memory.inMemory.two .link [['d', '0'], ['f', '1']] [['f', '2']] ⟨oneFile, []⟩).1 = .done ∧
    ((linkPath (Memory.inMemory.limited 4) [['d', '0'], ['f', '1']] [['f', '2']]
      ⟨oneFile, []⟩).toOption.map Prod.fst) = some false := by
  decide

end

end Fsstress
end Longan
