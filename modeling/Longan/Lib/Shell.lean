/-
# A shell on a file tree

The state is the disk, the working directory and the one before it. What a
text names depends on how it is used: unquoted, it is split into words and
each word goes through pathname expansion (`words`), which is a parameter; a
word then stands for a path (`resolve`). There are no symbolic links.

`Reads` says that the unquoted text of a path is read as that path. Under it
a redirection and an `echo` to a file, `ls` and `cd` do what they look like.
-/
import Longan.Lib.Disk

namespace Longan

open Text

structure Shell where
  disk : Disk
  cwd : Path
  oldpwd : Path
  /-- The lines that `echo` has added to files, with the file of each. -/
  appended : List (Path × Text)

namespace Shell

/-! ### Paths and their texts -/

/-- The text of a path, as `pwd` prints it. -/
def render (p : Path) : Text := if p = [] then ['/'] else p.flatMap fun n => '/' :: n

/-- `$p/n1/n2...`. -/
def text (p : Path) (ns : List Text) : Text := render p ++ ns.flatMap fun n => '/' :: n

/-- From a directory to what a name between slashes stands for in it. -/
def enter (p : Path) (n : Text) : Path :=
  if n = [] ∨ n = ['.'] then p else if n = ['.', '.'] then p.dropLast else p ++ [n]

/-- The path a word stands for in a working directory. -/
def resolve (cwd : Path) (t : Text) : Path :=
  (t.splitOnP (· = '/')).foldl enter (if t.head? = some '/' then [] else cwd)

/-- The name of an entry. -/
def IsName (n : Text) : Prop := n ≠ [] ∧ '/' ∉ n ∧ n ≠ ['.'] ∧ n ≠ ['.', '.']

instance (n : Text) : Decidable (IsName n) := inferInstanceAs (Decidable (_ ∧ _))

/-- `dirname`. -/
def dirname (t : Text) : Text :=
  let t' := t.rdropWhile (· = '/')
  let d := (t'.rdropWhile (· ≠ '/')).rdropWhile (· = '/')
  if t' = [] then (if t = [] then ['.'] else ['/'])
  else if d ≠ [] then d
  else if t'.head? = some '/' then ['/'] else ['.']

theorem splitOnP_slash : ∀ (ns : List Text) (n : Text), '/' ∉ n → (∀ m ∈ ns, '/' ∉ m) →
    (n ++ ns.flatMap fun m => '/' :: m).splitOnP (· = '/') = n :: ns
  | [], n, hn, _ => by
    rw [List.flatMap_nil, List.append_nil]
    refine List.splitOnP_eq_singleton fun c hc => ?_
    exact decide_eq_false fun h => hn (h ▸ hc)
  | m :: ns, n, hn, hns => by
    have ih := splitOnP_slash ns m (hns m List.mem_cons_self) fun x hx => hns x (List.mem_cons_of_mem _ hx)
    have hn' : ∀ c ∈ n, decide (c = '/') = false := fun c hc => decide_eq_false fun h => hn (h ▸ hc)
    rw [List.flatMap_cons, List.cons_append,
      List.splitOnP_append_cons_of_forall_mem hn' '/' (by decide), ih]

theorem foldl_enter : ∀ (ns : List Text) (p : Path), (∀ n ∈ ns, IsName n) → ns.foldl enter p = p ++ ns
  | [], p, _ => (List.append_nil p).symm
  | n :: ns, p, h => by
    have hn := h n List.mem_cons_self
    have he : enter p n = p ++ [n] := by
      rw [enter, if_neg (by simp [hn.1, hn.2.2.1]), if_neg hn.2.2.2]
    rw [List.foldl_cons, foldl_enter ns _ fun m hm => h m (List.mem_cons_of_mem _ hm), he,
      List.append_assoc]
    rfl

theorem text_eq {p : Path} (hp : p ≠ []) (ns : List Text) :
    text p ns = (p ++ ns).flatMap fun n => '/' :: n := by
  rw [text, render, if_neg hp, List.flatMap_append]

/-- The text of a path stands for the path. -/
theorem resolve_text {p : Path} (hp : p ≠ []) {ns : List Text} (h : ∀ n ∈ p ++ ns, IsName n)
    (cwd : Path) : resolve cwd (text p ns) = p ++ ns := by
  have hsplit := splitOnP_slash (p ++ ns) [] List.not_mem_nil fun n hn => (h n hn).2.1
  have hhead : ((p ++ ns).flatMap fun n => '/' :: n).head? = some '/' := by
    cases p with
    | nil => exact absurd rfl hp
    | cons n p => rfl
  rw [text_eq hp, resolve, hhead, if_pos rfl]
  show List.foldl enter [] (List.splitOnP _ ([] ++ (p ++ ns).flatMap fun n => '/' :: n)) = _
  rw [hsplit, List.foldl_cons]
  exact foldl_enter (p ++ ns) [] h

/-! ### Unquoted texts -/

variable (glob : Shell → Text → List Text) (order : List Text → List Text) (sh : Shell)

/-- The words of an unquoted text. -/
def words (t : Text) : List Text := (fields t).flatMap (glob sh)

/-- The paths they stand for. -/
def operands (t : Text) : List Path := (sh.words glob t).map (resolve sh.cwd)

/-- The unquoted `$p/n1/n2...` is read as that path, whatever the state. -/
def Reads (p : Path) (ns : List Text) : Prop := ∀ sh : Shell, sh.operands glob (text p ns) = [p ++ ns]

variable {glob} in
theorem reads_of_glob {p : Path} (hp : p ≠ []) {ns : List Text} (h : ∀ n ∈ p ++ ns, IsName n)
    (hw : IsWord (text p ns)) (hg : ∀ sh, glob sh (text p ns) = [text p ns]) : Reads glob p ns := by
  intro sh
  rw [operands, words, fields_word hw, List.flatMap_singleton, hg sh]
  exact congrArg (fun q => [q]) (resolve_text hp h sh.cwd)

/-! ### Commands -/

/-- The entries `ls` shows of a directory, in its order. -/
def names (p : Path) : List Text := order ((sh.disk.children p).filter fun n => n.head? ≠ some '.')

/-- The lines `ls` prints, for its operands. -/
def ls : List Text → List Text
  | [] => sh.names order sh.cwd
  | [w] =>
    if sh.disk.isFile (resolve sh.cwd w) then [w]
    else if sh.disk.isDir (resolve sh.cwd w) then sh.names order (resolve sh.cwd w)
    else []
  | ws =>
    order (ws.filter fun w => sh.disk.isFile (resolve sh.cwd w)) ++
      (order (ws.filter fun w => sh.disk.isDir (resolve sh.cwd w))).flatMap fun w =>
        [] :: (w ++ [':']) :: sh.names order (resolve sh.cwd w)

/-- `` `ls $t` `` as the word list of a `for` loop. -/
def lsWords (t : Text) : List Text := sh.words glob (commandSubst (sh.ls order (sh.words glob t)))

/-- The file that `> $t` or `>> $t` opens; an error for no word or several. -/
def redirect (t : Text) : Option Path :=
  match sh.operands glob t with
  | [p] => if sh.disk.isDir p.dropLast && !sh.disk.isDir p then some p else none
  | _ => none

/-- `echo line >> $t`. -/
def echo (line t : Text) : Shell :=
  match sh.redirect glob t with
  | some p => { sh with
      disk := sh.disk.set p (.file (sh.disk.lines p ++ [line])), appended := sh.appended ++ [(p, line)] }
  | none => sh

/-- `cd $t`, when it succeeds. -/
def cd (t : Text) : Option Shell :=
  match sh.operands glob t with
  | [p] => if sh.disk.isDir p then some { sh with cwd := p, oldpwd := sh.cwd } else none
  | _ => none

/-- `cd -`. -/
def cdBack : Shell :=
  if sh.disk.isDir sh.oldpwd then { sh with cwd := sh.oldpwd, oldpwd := sh.cwd } else sh

/-- `mkdir -p $t`. -/
def mkdirP (t : Text) : Shell :=
  { sh with disk := (sh.operands glob t).foldl Disk.mkdirP sh.disk }

/-- `cd $t && rm -rf n1 n2...`. -/
def rmIn (t : Text) (ns : List Text) : Shell :=
  match sh.cd glob t with
  | some sh => { sh with disk := ns.foldl (fun d n => d.rm (sh.cwd ++ [n])) sh.disk }
  | none => sh

/-- `cp -r $src $dst`: the last of the words is the target, a directory when
there are several before it. -/
def cp (src dst : Text) : Shell :=
  match (sh.operands glob src ++ sh.operands glob dst).reverse with
  | target :: [p] => { sh with disk := sh.disk.cp p target }
  | target :: ps =>
    if sh.disk.isDir target then
      { sh with disk := ps.reverse.foldl (fun d p => d.cp p target) sh.disk }
    else sh
  | [] => sh

/-- The operands `rm` refuses: the root, and what ends in `.` or `..`. -/
def refused (w : Text) : Bool :=
  resolve sh.cwd w = [] ∨ (w.rdropWhile (· = '/')).rtakeWhile (· ≠ '/') ∈ [['.'], ['.', '.']]

/-- The paths `rm -rf` takes away. -/
def removed (ws : List Text) : List Path :=
  (ws.filter fun w => !sh.refused w).map (resolve sh.cwd)

/-! ### What they do -/

variable {glob} {sh}

theorem mkdirP_of_reads {p : Path} {ns : List Text} (h : Reads glob p ns) :
    sh.mkdirP glob (text p ns) = { sh with disk := sh.disk.mkdirP (p ++ ns) } := by
  rw [mkdirP, h sh]
  rfl

theorem redirect_of_reads {p : Path} {ns : List Text} (h : Reads glob p ns) :
    sh.redirect glob (text p ns) =
      if sh.disk.isDir (p ++ ns).dropLast && !sh.disk.isDir (p ++ ns) then some (p ++ ns) else none := by
  rw [redirect, h sh]

/-- A line is appended where the directory is there. -/
theorem echo_of_reads {p : Path} {ns : List Text} (h : Reads glob p ns)
    (hd : sh.disk.isDir (p ++ ns).dropLast = true) (hf : sh.disk.isDir (p ++ ns) = false) (line : Text) :
    sh.echo glob line (text p ns) = { sh with
      disk := sh.disk.set (p ++ ns) (.file (sh.disk.lines (p ++ ns) ++ [line]))
      appended := sh.appended ++ [(p ++ ns, line)] } := by
  rw [echo, redirect_of_reads h, hd, hf]
  rfl

theorem echo_appended (line t : Text) : (sh.echo glob line t).appended =
    sh.appended ++ ((sh.redirect glob t).map fun p => (p, line)).toList := by
  unfold echo
  cases sh.redirect glob t with
  | none => exact (List.append_nil _).symm
  | some p => rfl

@[simp] theorem rmIn_appended (t : Text) (ns : List Text) : (sh.rmIn glob t ns).appended = sh.appended := by
  unfold rmIn cd
  split
  · rename_i sh' hcd
    split at hcd
    · split_ifs at hcd
      cases hcd
      rfl
    · cases hcd
  · rfl

@[simp] theorem cp_appended (src dst : Text) : (sh.cp glob src dst).appended = sh.appended := by
  unfold cp
  split
  · rfl
  · split_ifs <;> rfl
  · rfl

@[simp] theorem cdBack_appended : sh.cdBack.appended = sh.appended := by
  unfold cdBack
  split_ifs <;> rfl

theorem word_of_reads {p : Path} {ns : List Text} (h : Reads glob p ns) (sh : Shell) :
    ∃ w, sh.words glob (text p ns) = [w] ∧ resolve sh.cwd w = p ++ ns :=
  List.map_eq_singleton_iff.mp (h sh)

/-- The words of what `ls` prints: those of each line. -/
theorem lsWords_eq (order : List Text → List Text) (t : Text) :
    sh.lsWords glob order t = (sh.ls order (sh.words glob t)).flatMap (sh.words glob) := by
  rw [lsWords, words, fields_commandSubst, List.flatMap_assoc]
  rfl

/-- `ls` of a directory. -/
theorem lsWords_dir {p : Path} {ns : List Text} (h : Reads glob p ns)
    (hd : sh.disk.isDir (p ++ ns) = true) (order : List Text → List Text) :
    sh.lsWords glob order (text p ns) = (sh.names order (p ++ ns)).flatMap (sh.words glob) := by
  obtain ⟨w, hw, hr⟩ := word_of_reads h sh
  have hfile : ¬ sh.disk.isFile (p ++ ns) = true := by
    unfold Disk.isFile Disk.isDir at *
    simp [of_decide_eq_true hd]
  rw [lsWords_eq, hw, ls, hr, if_neg hfile, if_pos hd]

/-- `ls` of a file. -/
theorem lsWords_file {p : Path} {ns : List Text} (h : Reads glob p ns)
    (hf : sh.disk.isFile (p ++ ns) = true) (order : List Text → List Text) :
    sh.lsWords glob order (text p ns) = (sh.words glob (text p ns)).flatMap (sh.words glob) := by
  obtain ⟨w, hw, hr⟩ := word_of_reads h sh
  rw [lsWords_eq, hw, ls, hr, if_pos hf]

end Shell
end Longan
