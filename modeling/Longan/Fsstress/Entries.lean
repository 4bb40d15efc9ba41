/-
# fsstress: the paths of its files

The lists as one set of entries (`World.entries`). When these mirror the files
there are, `fent_to_name` finds the path of each of them and does not go round
in a circle (`fentToName_spec`), and the path leads to the file
(`target_at`). `get_fname` chooses one of the files that are wanted.
-/
import Mathlib.Data.List.Perm.Subperm
import Longan.Fsstress.Lists

namespace Longan
namespace Fsstress

def Ft.kind : Ft → FileKind
  | .dir => .dir
  | .reg => .reg
  | .sym => .sym
  | .dev => .dev
  | .rtf => .reg

theorem Ft.kind_eq_dir {ft : Ft} : ft.kind = .dir ↔ ft = .dir := by cases ft <;> simp [kind]

/-- A file of the lists. -/
def entry (namerand : ℕ) (ft : Ft) (f : Fent) : Entry ℕ Text FileKind where
  id := f.id
  parent := f.parent
  name := fileName namerand ft f.id
  kind := ft.kind

section

variable {φ : Type}

def World.entries (namerand : ℕ) (w : World φ) : Set (Entry ℕ Text FileKind) :=
  {e | ∃ ft, ∃ f ∈ w.fents ft, e = entry namerand ft f}

/-- Where a file is. -/
abbrev World.At (namerand : ℕ) (w : World φ) : List Text → Entry ℕ Text FileKind → Prop :=
  Longan.At .dir (w.entries namerand)

abbrev World.Mirrors (namerand : ℕ) (w : World φ) (T : Files) : Prop :=
  Longan.Mirrors .dir (w.entries namerand) T

variable {namerand : ℕ} {w : World φ} {T : Files} {ft : Ft} {f : Fent} {p q : List Text}
  {e : Entry ℕ Text FileKind}

theorem mem_entries (h : f ∈ w.fents ft) : entry namerand ft f ∈ w.entries namerand :=
  ⟨ft, f, h, rfl⟩

theorem entry_inj {ft' : Ft} {f' : Fent} (h : entry namerand ft f = entry namerand ft' f') :
    ft = ft' ∧ f.id = f'.id :=
  (fileName_inj namerand ft ft' f.id f'.id).mp (congrArg Entry.name h)

/-- The directories of the entries are in their list. -/
theorem dir_of_mem (he : e ∈ w.entries namerand) (hdir : e.kind = .dir) :
    ∃ f ∈ w.fents .dir, e = entry namerand .dir f := by
  obtain ⟨ft, f, hf, rfl⟩ := he
  obtain rfl := Ft.kind_eq_dir.mp hdir
  exact ⟨f, hf, rfl⟩

/-- The directories a path goes through are as many different ones. -/
theorem ancestors (hm : w.Mirrors namerand T) (h : w.At namerand p e) :
    ∃ ds : List Fent, ds.Nodup ∧ ds ⊆ w.fents .dir ∧ ds.length + 1 = p.length ∧
      ∀ x ∈ ds, ∃ s, w.At namerand s (entry namerand .dir x) ∧ s.length < p.length := by
  induction h with
  | top => exact ⟨[], by simp⟩
  | @under p d e hd hdir _ _ ih =>
    obtain ⟨ds, hnodup, hsub, hlen, hpath⟩ := ih
    obtain ⟨fd, hfd, rfl⟩ := dir_of_mem hd.mem hdir
    have hnew : fd ∉ ds := by
      intro hmem
      obtain ⟨s, hs, hlt⟩ := hpath fd hmem
      rw [hm.path_unique hs hd] at hlt
      exact absurd hlt (Nat.lt_irrefl _)
    refine ⟨fd :: ds, hnodup.cons hnew, List.cons_subset.mpr ⟨hfd, hsub⟩, ?_, ?_⟩
    · rw [List.length_cons, List.length_cons, hlen]
    · intro x hx
      rw [List.length_cons]
      rcases List.mem_cons.mp hx with rfl | hx
      · exact ⟨p, hd, Nat.lt_succ_self _⟩
      · obtain ⟨s, hs, hlt⟩ := hpath x hx
        exact ⟨s, hs, Nat.lt_succ_of_lt hlt⟩

theorem length_at_le (hm : w.Mirrors namerand T) (h : w.At namerand p e) :
    p.length ≤ w.nfiles .dir + 1 := by
  obtain ⟨ds, hnodup, hsub, hlen, -⟩ := ancestors hm h
  have hle := (List.subperm_of_subset hnodup hsub).length_le
  rw [World.nfiles]
  omega

/-- The directory of a file is found. -/
theorem parent_spec (hm : w.Mirrors namerand T) {fd : Fent} (hfd : fd ∈ w.fents .dir)
    (hat : w.At namerand q (entry namerand .dir fd)) :
    Ends (Looked w) (diridToFent fd.id) (fun o v => Looked w v ∧ ∃ k f,
      o = some k ∧ (w.fents .dir)[k]? = some f ∧ w.At namerand q (entry namerand .dir f)) Never := by
  refine (diridToFent_spec fd.id).imp ?_
  rintro o v ⟨hv, ho⟩
  cases o with
  | none => exact absurd rfl (ho fd hfd)
  | some k =>
    obtain ⟨f, hf, hid⟩ := ho
    have heq := hm.ids _ (mem_entries (List.mem_of_getElem? hf)) _ (mem_entries hfd) hid
    exact ⟨hv, k, f, rfl, hf, heq ▸ hat⟩

theorem nameFrom_spec (hm : w.Mirrors namerand T) : ∀ (n : ℕ) (p : List Text) (ft : Ft) (f : Fent),
    w.At namerand p (entry namerand ft f) → p.length ≤ n →
    Ends (Looked w) (nameFrom namerand n ft f) (fun o v => Looked w v ∧ o = some p.reverse) Never
  | 0, p, _, _, h, hn => absurd (List.length_pos_of_ne_nil h.ne_nil) (Nat.not_lt.mpr hn)
  | n + 1, p, ft, f, h, hn => by
    obtain ⟨q, rfl, hspot⟩ := h.spot
    rw [nameFrom]
    rcases hspot with ⟨rfl, hnone⟩ | ⟨d, hd, hdir, hsome⟩
    · have hparent : f.parent = none := hnone
      rw [hparent]
      exact Ends.pure fun v hv => ⟨hv, rfl⟩
    · obtain ⟨fd, hfd, rfl⟩ := dir_of_mem hd.mem hdir
      have hparent : f.parent = some fd.id := hsome
      rw [hparent]
      refine Ends.bind (parent_spec hm hfd hd) fun o => Ends.given ?_
      rintro ⟨k, g, rfl, hg, hat⟩
      refine Ends.bind (fentAt_looked hg) fun g' => Ends.of_eq ?_
      rintro v ⟨rfl, hv⟩
      have ih := nameFrom_spec hm n q .dir g' hat (Nat.le_of_succ_le_succ hn)
      refine Ends.bind (ih.start hv) fun o => Ends.given ?_
      rintro rfl
      refine Ends.pure fun u hu => ⟨hu, ?_⟩
      rw [List.reverse_cons]
      rfl

/-- **The path of a file** is what its directories spell. -/
theorem fentToName_spec (hm : w.Mirrors namerand T) (h : w.At namerand p (entry namerand ft f)) :
    Ends (Looked w) (fentToName namerand ft f) (fun o v => Looked w v ∧ o = some p.reverse)
      Never := by
  refine Ends.get_bind fun v hv => ?_
  rw [hv.nfiles]
  exact (nameFrom_spec hm _ p ft f h (length_at_le hm h)).start hv

theorem ancestorFrom_spec (hm : w.Mirrors namerand T) (dfep : Fent) :
    ∀ (n : ℕ) (p : List Text) (ft : Ft) (f : Fent),
      w.At namerand p (entry namerand ft f) → p.length ≤ n →
      Ends (Looked w) (ancestorFrom n f dfep) (fun _ v => Looked w v) Never
  | 0, p, _, _, h, hn => absurd (List.length_pos_of_ne_nil h.ne_nil) (Nat.not_lt.mpr hn)
  | n + 1, p, ft, f, h, hn => by
    obtain ⟨q, rfl, hspot⟩ := h.spot
    rw [ancestorFrom]
    rcases hspot with ⟨rfl, hnone⟩ | ⟨d, hd, hdir, hsome⟩
    · have hparent : f.parent = none := hnone
      rw [hparent]
      exact Ends.pure fun v hv => hv
    · obtain ⟨fd, hfd, rfl⟩ := dir_of_mem hd.mem hdir
      have hparent : f.parent = some fd.id := hsome
      rw [hparent]
      refine Ends.ite (fun _ => Ends.pure fun v hv => hv) fun _ => ?_
      refine Ends.bind (parent_spec hm hfd hd) fun o => Ends.given ?_
      rintro ⟨k, g, rfl, hg, hat⟩
      refine Ends.bind (fentAt_looked hg) fun g' => Ends.of_eq ?_
      rintro v ⟨rfl, hv⟩
      exact (ancestorFrom_spec hm dfep n q .dir g' hat (Nat.le_of_succ_le_succ hn)).start hv

theorem fentsAncestorCheck_spec (hm : w.Mirrors namerand T) (dfep : Fent)
    (h : w.At namerand p (entry namerand ft f)) :
    Ends (Looked w) (fentsAncestorCheck f dfep) (fun _ v => Looked w v) Never := by
  refine Ends.get_bind fun v hv => ?_
  rw [hv.nfiles]
  exact (ancestorFrom_spec hm dfep _ p ft f h (length_at_le hm h)).start hv

/-! ### A file is chosen -/

theorem found_spec (which : Ft → Bool) (x : ℕ) : ∀ (fts : List Ft) (partialsum : ℕ),
    partialsum ≤ x → x < partialsum + ((fts.filter which).map w.nfiles).sum →
    ∃ ft slot, w.found which x partialsum fts = some (ft, slot) ∧ which ft = true ∧
      slot < w.nfiles ft
  | [], partialsum, hle, hlt => absurd hlt (Nat.not_lt.mpr hle)
  | ft :: fts, partialsum, hle, hlt => by
    rw [World.found]
    by_cases hw : which ft = true
    · rw [List.filter_cons_of_pos hw, List.map_cons, List.sum_cons] at hlt
      rw [if_pos hw]
      by_cases hx : x < partialsum + w.nfiles ft
      · exact ⟨ft, x - partialsum, if_pos hx, hw, by omega⟩
      · rw [if_neg hx]
        exact found_spec which x fts _ (by omega) (by omega)
    · rw [List.filter_cons_of_neg hw] at hlt
      rw [if_neg hw]
      exact found_spec which x fts partialsum hle hlt

/-- A file that is wanted, and where it is in its list. -/
def Chosen (w : World φ) (which : Ft → Bool) (x : Ft × ℕ × Fent) : Prop :=
  which x.1 = true ∧ (w.fents x.1)[x.2.1]? = some x.2.2

theorem getFent_spec (which : Ft → Bool) (r : ℕ) :
    Ends (Looked w) (getFent which r) (fun o v => Looked w v ∧ ∀ x, o = some x → Chosen w which x)
      Never := by
  refine Ends.get_bind fun v hv => Ends.ite (fun _ => Ends.pure ?_) fun hsum => ?_
  · rintro u rfl
    exact ⟨hv, fun _ h => absurd h (by simp)⟩
  · obtain ⟨ft, slot, hfound, hwhich, hslot⟩ := found_spec (w := v) which (r % v.totalsum which) Ft.all
      0 (Nat.zero_le _) (by rw [Nat.zero_add]; exact Nat.mod_lt _ (Nat.pos_of_ne_zero hsum))
    rw [hfound]
    obtain ⟨f, hget⟩ : ∃ f, (v.fents ft)[slot]? = some f := ⟨_, List.getElem?_eq_getElem hslot⟩
    refine Ends.bind (fentAt_spec fun u hu => hu ▸ hget) fun g => Ends.pure ?_
    rintro u ⟨rfl, rfl⟩
    refine ⟨hv, ?_⟩
    rintro x hx
    rw [← Option.some.inj hx]
    exact ⟨hwhich, hv.fents ▸ hget⟩

/-- And its path. -/
theorem getFname_spec (hm : w.Mirrors namerand T) (which : Ft → Bool) (r : ℕ) :
    Ends (Looked w) (getFname namerand which r) (fun o v => Looked w v ∧ ∀ ft slot f name,
      o = some (ft, slot, f, name) → Chosen w which (ft, slot, f) ∧
        ∃ p, w.At namerand p (entry namerand ft f) ∧ name = p.reverse) Never := by
  refine Ends.bind (getFent_spec which r) fun o => Ends.given fun ho => ?_
  match o with
  | none => exact Ends.pure fun v hv => ⟨hv, fun _ _ _ _ h => absurd h (by simp)⟩
  | some (ft, slot, f) =>
    have hchosen := ho _ rfl
    obtain ⟨p, hp, -⟩ := hm.listed _ (mem_entries (List.mem_of_getElem? hchosen.2))
    refine Ends.bind (fentToName_spec hm hp) fun o => Ends.given ?_
    rintro rfl
    refine Ends.pure fun v hv => ⟨hv, ?_⟩
    rintro ft' slot' f' name h
    obtain ⟨rfl, rfl, rfl, rfl⟩ : ft = ft' ∧ slot = slot' ∧ f = f' ∧ p.reverse = name := by simpa using h
    exact ⟨hchosen, p, hp, rfl⟩

/-- The next id is taken. -/
def World.next (w : World φ) : World φ := { w with nameseq := w.nameseq + 1 }

/-- Where a new file may be made. -/
def Below (namerand : ℕ) (w : World φ) (q : List Text) : Option Fent → Prop
  | none => q = []
  | some f => w.At namerand q (entry namerand .dir f)

theorem generateFname_spec (hm : w.Mirrors namerand T) {fep : Option Fent}
    (hq : Below namerand w q fep) (ft : Ft) :
    Ends (Looked w) (generateFname namerand fep ft) (fun o v => Looked w.next v ∧
      o = some ((fileName namerand ft w.nameseq :: q).reverse, w.nameseq)) Never := by
  refine Ends.get_bind fun v hv => ?_
  have hseq : v.nameseq = w.nameseq := by
    obtain ⟨-, c, rfl⟩ := hv
    rfl
  rw [hseq]
  refine Ends.bind (R := fun _ u => Looked w.next u) (Ends.modify ?_) fun _ => ?_
  · rintro u rfl
    obtain ⟨hc, c, rfl⟩ := hv
    exact ⟨hc, c, rfl⟩
  · match fep with
    | none =>
      have hnil : q = [] := hq
      exact Ends.pure fun u hu => ⟨hu, by rw [hnil]; rfl⟩
    | some f =>
      refine Ends.bind (fentToName_spec (w := w.next) hm hq) fun o => Ends.given ?_
      rintro rfl
      refine Ends.pure fun u hu => ⟨hu, ?_⟩
      rw [List.reverse_cons]

/-! ### The path leads there -/

namespace Files

variable (T : Files)

/-- Down a path of directories. -/
def walk : List Text → Pathname → Option (List Text)
  | d, [] => some d
  | d, c :: l => (T.step d c).bind fun d' => walk d' l

theorem walk_concat (c : Text) : ∀ (l : Pathname) (d : List Text),
    T.walk d (l ++ [c]) = (T.walk d l).bind fun d' => T.step d' c
  | [], d => by
    rw [List.nil_append, walk, walk, Option.bind_some]
    cases T.step d c <;> rfl
  | x :: l, d => by
    rw [List.cons_append, walk, walk, Option.bind_assoc]
    exact congrArg _ (funext fun d' => walk_concat c l d')

theorem target_concat {x : Text} (hx : ¬ (x = [] ∨ x.head? = some '.')) : ∀ (l : Pathname)
    (d : List Text), T.target d (l ++ [x]) = (T.walk d l).map fun d' => x :: d'
  | [], d => if_neg hx
  | c :: l, d => by
    rw [List.cons_append, target_eq (by simp), walk, Option.map_bind]
    exact congrArg _ (funext fun d' => target_concat hx l d')

end Files

/-- A name is a name. -/
theorem fileName_plain (namerand : ℕ) (ft : Ft) (id : ℕ) :
    ¬ (fileName namerand ft id = [] ∨ (fileName namerand ft id).head? = some '.') ∧
    fileName namerand ft id ≠ dotdot := by
  obtain ⟨t, ht⟩ := head_fileName namerand ft id
  rw [ht]
  cases ft <;> simp [Ft.tag, dotdot]

theorem walk_at (hm : w.Mirrors namerand T) : ∀ {p : List Text} {f : Fent},
    w.At namerand p (entry namerand .dir f) → T.walk [] p.reverse = some p
  | [], _, h => absurd rfl h.ne_nil
  | x :: p, f, h => by
    have hdir := hm.kind h
    obtain ⟨q, heq, hspot⟩ := h.spot
    obtain ⟨rfl, rfl⟩ := List.cons.inj heq
    have hwalk : T.walk [] p.reverse = some p := by
      rcases hspot with ⟨rfl, -⟩ | ⟨d, hd, hkind, -⟩
      · rfl
      · obtain ⟨fd, -, rfl⟩ := dir_of_mem hd.mem hkind
        exact walk_at hm hd
    have hplain := fileName_plain namerand .dir f.id
    rw [List.reverse_cons, Files.walk_concat, hwalk, Option.bind_some, Files.step]
    exact (if_neg hplain.2).trans (if_pos ⟨fun h => hplain.1 (Or.inl h), hdir⟩)

theorem walk_spot (hm : w.Mirrors namerand T) {parent : Option ℕ}
    (h : Spot .dir (w.entries namerand) q parent) : T.walk [] q.reverse = some q := by
  rcases h with ⟨rfl, -⟩ | ⟨d, hd, hkind, -⟩
  · rfl
  · obtain ⟨fd, -, rfl⟩ := dir_of_mem hd.mem hkind
    exact walk_at hm hd

/-- **A path leads to its file**, there or yet to be made. -/
theorem target_spot (hm : w.Mirrors namerand T) {parent : Option ℕ}
    (h : Spot .dir (w.entries namerand) q parent) (ft : Ft) (id : ℕ) :
    T.target [] (fileName namerand ft id :: q).reverse = some (fileName namerand ft id :: q) := by
  rw [List.reverse_cons, Files.target_concat T (fileName_plain namerand ft id).1, walk_spot hm h]
  rfl

theorem target_at (hm : w.Mirrors namerand T) (h : w.At namerand p (entry namerand ft f)) :
    T.target [] p.reverse = some p := by
  obtain ⟨q, rfl, hspot⟩ := h.spot
  exact target_spot hm hspot ft f.id

end

end Fsstress
end Longan
