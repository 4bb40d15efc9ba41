/-
# File trees

A path is the list of its names from the root, and a disk the list of its
entries, directories and text files. `set`, `mkdirP`, `put` and `copy` add
entries or change files; `rm` and `rmBelow` take subtrees away.

A region is a set of paths. Two disks are the same in a region when they have
the same entries there, in the same order (`Same`); then every path of the
region has the same node, and every directory with its entries in the region
the same children. Removing a subtree that is apart from a directory changes
nothing in it (`same_rm`), and writing outside a region nothing in the region
(`same_set`); what adds entries leaves every directory one (`Adds`).
-/
import Mathlib.Data.List.Infix
import Longan.Lib.Text

namespace Longan

/-- The names of a path; `[]` is the root. -/
abbrev Path := List Text

inductive Node
  | dir
  | file (lines : List Text)
  deriving DecidableEq, Repr

abbrev Disk := List (Path × Node)

namespace Disk

/-! ### Looking -/

def lookup (d : Disk) (p : Path) : Option Node :=
  if p = [] then some .dir else (d.find? fun e => e.1 = p).map (·.2)

def isDir (d : Disk) (p : Path) : Bool := d.lookup p = some .dir

def isFile (d : Disk) (p : Path) : Bool := d.lookup p ≠ none ∧ d.lookup p ≠ some .dir

/-- The lines of a file; none for what is not one. -/
def lines (d : Disk) (p : Path) : List Text :=
  match d.lookup p with
  | some (.file ls) => ls
  | _ => []

/-- The names of the entries of a directory. -/
def children (d : Disk) (p : Path) : List Text :=
  d.filterMap fun e => if e.1.dropLast = p then e.1.getLast? else none

/-! ### Changing -/

/-- The entry at `p` becomes `n`. -/
def set (d : Disk) (p : Path) (n : Node) : Disk :=
  if (d.find? fun e => e.1 = p).isSome then d.map fun e => if e.1 = p then (p, n) else e
  else d ++ [(p, n)]

/-- A directory where nothing is. -/
def makeDir (d : Disk) (p : Path) : Disk := if d.lookup p = none then d.set p .dir else d

/-- `mkdir -p`: the missing directories of the path, unless a file is in the
way. -/
def mkdirP (d : Disk) (p : Path) : Disk :=
  if p.inits.any d.isFile then d else p.inits.foldl makeDir d

/-- An entry copied to `p`: a directory does not replace a file, nor a file a
directory. -/
def put (d : Disk) (p : Path) (n : Node) : Disk :=
  match d.lookup p, n with
  | none, n => d.set p n
  | some (.file _), .file ls => d.set p (.file ls)
  | _, _ => d

/-- The tree at `src` copied to `dst`. -/
def copy (d : Disk) (src dst : Path) : Disk :=
  if d.isFile dst then d
  else (d.filter fun e => src <+: e.1).foldl (fun d e => d.put (dst ++ e.1.drop src.length) e.2) d

/-- `cp -r src dst`: into `dst` if it is a directory, as `dst` if there is
none. -/
def cp (d : Disk) (src dst : Path) : Disk :=
  if d.isDir dst then d.copy src (dst ++ src.getLast?.toList)
  else if d.lookup dst = none ∧ d.isDir dst.dropLast then d.copy src dst
  else d

/-- `rm -rf p`. -/
def rm (d : Disk) (p : Path) : Disk := d.filter fun e => ¬ p <+: e.1

/-- `rm -rf p/*`. -/
def rmBelow (d : Disk) (p : Path) : Disk := d.filter fun e => ¬ (p <+: e.1 ∧ e.1 ≠ p)

/-! ### Regions -/

/-- The same entries in the region. -/
def Same (R : Path → Bool) (d d' : Disk) : Prop :=
  d.filter (fun e => R e.1) = d'.filter fun e => R e.1

variable {R S : Path → Bool} {d d' : Disk} {p q : Path} {n : Node}

theorem Same.refl (R : Path → Bool) (d : Disk) : Same R d d := rfl

theorem Same.trans {d'' : Disk} (h : Same R d d') (h' : Same R d' d'') : Same R d d'' :=
  Eq.trans h h'

theorem Same.mono (h : Same R d d') (hS : ∀ p, S p = true → R p = true) : Same S d d' := by
  have hf : ∀ d : Disk, d.filter (fun e => S e.1) =
      (d.filter fun e => R e.1).filter fun e => S e.1 := by
    intro d
    rw [List.filter_filter]
    refine List.filter_congr fun e _ => ?_
    cases hs : S e.1 with
    | false => rfl
    | true => rw [hS _ hs]; rfl
  rw [Same, hf d, hf d', h]

theorem find_filter (hp : R p = true) (d : Disk) :
    (d.filter fun e => R e.1).find? (fun e => e.1 = p) = d.find? fun e => e.1 = p := by
  rw [List.find?_filter]
  congr 1
  funext e
  by_cases he : e.1 = p
  · simp [he, hp]
  · simp [he]

theorem Same.lookup (h : Same R d d') (hp : R p = true) : d'.lookup p = d.lookup p := by
  unfold Disk.lookup
  rw [← find_filter hp d, ← find_filter hp d', h]

theorem Same.isDir (h : Same R d d') (hp : R p = true) : d'.isDir p = d.isDir p := by
  unfold Disk.isDir
  rw [h.lookup hp]

theorem children_filter (hp : ∀ c, R (p ++ [c]) = true) (d : Disk) :
    children (d.filter fun e => R e.1) p = d.children p := by
  unfold children
  rw [List.filterMap_filter]
  refine List.filterMap_congr fun e _ => ?_
  by_cases he : e.1.dropLast = p
  · rcases List.eq_nil_or_concat e.1 with h0 | ⟨l, c, hc⟩
    · simp [h0]
    · rw [hc, List.concat_eq_append, List.dropLast_concat] at he
      rw [hc, List.concat_eq_append, he, hp c]
      simp
  · simp [he]

theorem Same.children (h : Same R d d') (hp : ∀ c, R (p ++ [c]) = true) :
    d'.children p = d.children p := by
  rw [← children_filter hp d, ← children_filter hp d', h]

/-! ### Writing -/

theorem lookup_root (d : Disk) : d.lookup [] = some .dir := rfl

theorem lookup_set (hp : p ≠ []) (d : Disk) (n : Node) (q : Path) :
    (d.set p n).lookup q = if q = p then some n else d.lookup q := by
  by_cases hq : q = []
  · rw [hq, if_neg (Ne.symm hp)]
    rfl
  unfold lookup set
  rw [if_neg hq, if_neg hq]
  split_ifs with hs hqp hqp
  · subst hqp
    obtain ⟨e, he⟩ := Option.isSome_iff_exists.mp hs
    rw [List.find?_map]
    have hc : ((fun e : Path × Node => decide (e.1 = q)) ∘ fun e => if e.1 = q then (q, n) else e) =
        fun e => decide (e.1 = q) := by
      funext e
      by_cases h : e.1 = q <;> simp [h]
    have hek : e.1 = q := by simpa using List.find?_some he
    rw [hc, he]
    simp [hek]
  · rw [List.find?_map]
    have hc : ((fun e : Path × Node => decide (e.1 = q)) ∘ fun e => if e.1 = p then (p, n) else e) =
        fun e => decide (e.1 = q) := by
      funext e
      by_cases h : e.1 = p
      · simp [h]
      · simp [h]
    rw [hc]
    cases he : d.find? fun e => decide (e.1 = q) with
    | none => rfl
    | some e =>
      have hek : e.1 = q := by simpa using List.find?_some he
      simp [hek, hqp]
  · subst hqp
    have hn : d.find? (fun e => decide (e.1 = q)) = none := Option.not_isSome_iff_eq_none.mp hs
    rw [List.find?_append, hn]
    simp
  · rw [List.find?_append, List.find?_singleton]
    simp [Ne.symm hqp]

theorem same_set (hp : R p = false) (d : Disk) (n : Node) : Same R d (d.set p n) := by
  unfold Same set
  split_ifs
  · rw [List.filter_map]
    have hc : ((fun e : Path × Node => R e.1) ∘ fun e => if e.1 = p then (p, n) else e) =
        fun e => R e.1 := by
      funext e
      by_cases h : e.1 = p <;> simp [h]
    rw [hc]
    symm
    refine (List.map_congr_left fun e he => ?_).trans (List.map_id _)
    have hR := (List.mem_filter.mp he).2
    rw [if_neg]
    · rfl
    · intro h
      rw [h, hp] at hR
      cases hR
  · rw [List.filter_append]
    simp [hp]

/-- A change that writes outside the region, keeps directories, and keeps the
file `f`. -/
structure Adds (R : Path → Bool) (f : Path) (d d' : Disk) : Prop where
  same : Same R d d'
  dirs : ∀ q, d.isDir q = true → d'.isDir q = true
  file : d'.lookup f = d.lookup f

variable {f : Path}

theorem Adds.refl (R : Path → Bool) (f : Path) (d : Disk) : Adds R f d d :=
  ⟨Same.refl R d, fun _ h => h, rfl⟩

theorem Adds.trans {d'' : Disk} (h : Adds R f d d') (h' : Adds R f d' d'') : Adds R f d d'' :=
  ⟨h.same.trans h'.same, fun q hq => h'.dirs q (h.dirs q hq), h'.file.trans h.file⟩

theorem adds_set (hp : p ≠ []) (hR : R p = false) (hf : f ≠ p) (hd : d.isDir p = false ∨ n = .dir) :
    Adds R f d (d.set p n) := by
  refine ⟨same_set hR d n, fun q hq => ?_, ?_⟩
  · unfold isDir at hq ⊢
    rw [lookup_set hp]
    split_ifs with h
    · subst h
      rcases hd with hd | hd
      · unfold isDir at hd
        rw [hq] at hd
        cases hd
      · rw [hd]
        simp
    · exact hq
  · rw [lookup_set hp, if_neg hf]

/-- A list of changes that each add. -/
theorem adds_foldl {α : Type*} {g : Disk → α → Disk} : ∀ (as : List α),
    (∀ a ∈ as, ∀ d, Adds R f d (g d a)) → ∀ d, Adds R f d (as.foldl g d)
  | [], _, d => Adds.refl R f d
  | a :: as, h, d => (h a List.mem_cons_self d).trans
      (adds_foldl as (fun b hb => h b (List.mem_cons_of_mem _ hb)) (g d a))

theorem lookup_makeDir (d : Disk) (p q : Path) : (d.makeDir p).lookup q =
    if q = p ∧ d.lookup p = none then some .dir else d.lookup q := by
  unfold makeDir
  by_cases hn : d.lookup p = none
  · have hp : p ≠ [] := by
      rintro rfl
      rw [lookup_root] at hn
      cases hn
    rw [if_pos hn, lookup_set hp]
    simp [hn]
  · simp [hn]

theorem isFile_makeDir (d : Disk) (p q : Path) : (d.makeDir p).isFile q = d.isFile q := by
  unfold isFile
  rw [lookup_makeDir]
  split_ifs with h
  · rw [h.1, h.2]
    simp
  · rfl

theorem isDir_makeDir {x : Path} (h : d.isDir q = true ∨ (q = x ∧ d.isFile q = false)) :
    (d.makeDir x).isDir q = true := by
  unfold isDir isFile at *
  rw [lookup_makeDir]
  split_ifs with hx
  · simp
  · rcases h with h | ⟨rfl, h⟩
    · exact h
    · have hn : ¬ d.lookup q = none := fun hn => hx ⟨rfl, hn⟩
      simpa [hn] using h

theorem isDir_makeDirs : ∀ (ps : List Path) (d : Disk),
    d.isDir q = true ∨ (q ∈ ps ∧ d.isFile q = false) → (ps.foldl makeDir d).isDir q = true
  | [], _, h => h.elim id fun h => nomatch h.1
  | p :: ps, d, h => by
    apply isDir_makeDirs ps (d.makeDir p)
    rcases h with h | ⟨hq, h⟩
    · exact .inl (isDir_makeDir (.inl h))
    · rcases List.mem_cons.mp hq with rfl | hq
      · exact .inl (isDir_makeDir (.inr ⟨rfl, h⟩))
      · exact .inr ⟨hq, by rw [isFile_makeDir, h]⟩

/-- With no file in the way the directory is there afterwards. -/
theorem isDir_mkdirP (h : ∀ q, q <+: p → d.isFile q = false) : (d.mkdirP p).isDir p = true := by
  have hany : ¬ p.inits.any d.isFile = true := by
    rw [List.any_eq_true]
    rintro ⟨q, hq, hf⟩
    rw [h q ((List.mem_inits q p).mp hq)] at hf
    cases hf
  rw [mkdirP, if_neg hany]
  exact isDir_makeDirs _ d (.inr ⟨(List.mem_inits p p).mpr List.prefix_rfl, h p List.prefix_rfl⟩)

theorem adds_makeDir (hR : R p = false) (hf : f ≠ p) : Adds R f d (d.makeDir p) := by
  refine ⟨?_, fun q hq => isDir_makeDir (.inl hq), ?_⟩
  · unfold makeDir
    split_ifs
    · exact same_set hR d _
    · exact Same.refl R d
  · rw [lookup_makeDir, if_neg fun h => hf h.1]

theorem adds_mkdirP (hR : ∀ q, q <+: p → R q = false) (hf : ¬ f <+: p) : Adds R f d (d.mkdirP p) := by
  unfold mkdirP
  split_ifs
  · exact Adds.refl R f d
  · refine adds_foldl _ (fun q hq d => ?_) d
    have hqp := (List.mem_inits q p).mp hq
    exact adds_makeDir (hR q hqp) fun h => hf (h ▸ hqp)

theorem adds_put (hp : p ≠ []) (hR : R p = false) (hf : f ≠ p) : Adds R f d (d.put p n) := by
  unfold put
  split
  · rename_i hn
    refine adds_set hp hR hf (.inl ?_)
    simp [isDir, hn]
  · rename_i hn
    refine adds_set hp hR hf (.inl ?_)
    simp [isDir, hn]
  · exact Adds.refl R f d

/-- A copy changes things at and below its target only. -/
theorem adds_copy {src dst : Path} (hne : dst ≠ []) (hR : ∀ q, dst <+: q → R q = false)
    (hf : ¬ dst <+: f) : Adds R f d (d.copy src dst) := by
  unfold copy
  split_ifs
  · exact Adds.refl R f d
  · refine adds_foldl _ (fun e _ d => adds_put ?_ (hR _ (List.prefix_append _ _)) ?_) d
    · simp [hne]
    · rintro rfl
      exact hf (List.prefix_append _ _)

/-- `cp -r` into a directory. -/
theorem adds_cp {src dst : Path} (hdir : d.isDir dst = true) (hne : dst ≠ [])
    (hR : ∀ q, dst <+: q → R q = false) (hf : ¬ dst ++ src.getLast?.toList <+: f) :
    Adds R f d (d.cp src dst) := by
  rw [cp, if_pos hdir]
  refine adds_copy (by simp [hne]) (fun q hq => hR q ?_) hf
  exact (List.prefix_append _ _).trans hq

/-! ### Removing -/

/-- Neither is above, below or at the other. -/
def Apart (p q : Path) : Prop := ¬ p <+: q ∧ ¬ q <+: p

instance (p q : Path) : Decidable (Apart p q) := inferInstanceAs (Decidable (_ ∧ _))

theorem Apart.not_prefix (h : Apart p q) {x : Path} (hq : q <+: x) : ¬ p <+: x := fun hp =>
  (List.prefix_or_prefix_of_prefix hp hq).elim h.1 h.2

/-- What is below a path is apart from what the path is apart from. -/
theorem Apart.below (h : Apart p q) {x : Path} (hx : p <+: x) : Apart x q :=
  ⟨fun hq => h.1 (hx.trans hq), fun hq => (List.prefix_or_prefix_of_prefix hx hq).elim h.1 h.2⟩

theorem same_filter {P : Path → Bool} (h : ∀ q, R q = true → P q = true) (d : Disk) :
    Same R d (d.filter fun e => P e.1) := by
  unfold Same
  rw [List.filter_filter]
  refine List.filter_congr fun e _ => ?_
  cases hR : R e.1 with
  | false => rfl
  | true => rw [h _ hR]; rfl

theorem same_rm (h : ∀ q, R q = true → ¬ p <+: q) (d : Disk) : Same R d (d.rm p) :=
  same_filter (P := fun q => ¬ p <+: q) (fun q hq => by simpa using h q hq) d

theorem same_rmBelow (h : ∀ q, R q = true → ¬ p <+: q) (d : Disk) : Same R d (d.rmBelow p) :=
  same_filter (P := fun q => ¬ (p <+: q ∧ q ≠ p)) (fun q hq => by simpa using Or.inl (h q hq)) d

end Disk
end Longan
