/-
# fsstress: the lists mirror the files

What `fsstress` believes of its files is so: after any operations, with any
random numbers, there is a file below its directory just where the lists say,
and of that kind (`process_mirrors`). It rests on what `Posix` says of a call
that is done, and on nothing of when calls are done.

`Inv` holds between the operations: the ids are unique and below the next one,
the cache is right, the lists mirror the files and the working directory is the
one the process began in.
-/
import Longan.Fsstress.Changes

namespace Longan
namespace Fsstress

section

variable {φ : Type} {F : FileSystem φ} {namerand : ℕ} {w v : World φ} {T : Files} {ft : Ft}
  {slot : ℕ} {f : Fent} {p q : List Text} {e : Entry ℕ Text FileKind}

structure Inv (F : FileSystem φ) (namerand : ℕ) (w : World φ) : Prop where
  listed : Listed w
  cached : Cached w
  mirrors : w.Mirrors namerand (F.tree w.fs)
  cwd : F.cwd w.fs = []

theorem Inv.of_looked (h : Looked w v) (hl : Listed w) (hm : w.Mirrors namerand (F.tree w.fs))
    (hcwd : F.cwd w.fs = []) : Inv F namerand v := by
  obtain ⟨hc, c, rfl⟩ := h
  exact ⟨⟨hl.nodup, hl.seq⟩, hc, hm, hcwd⟩

theorem Inv.looked (h : Inv F namerand w) : Looked w w := Looked.refl h.cached

/-- Only the cache has changed. -/
theorem Inv.stays (hw : Inv F namerand w) (hv : Looked w v) : Inv F namerand v :=
  Inv.of_looked hv hw.listed hw.mirrors hw.cwd

theorem Listed.next (h : Listed w) : Listed w.next :=
  ⟨h.nodup, fun ft f hf => Nat.lt_succ_of_lt (h.seq ft f hf)⟩

theorem Listed.withFs (h : Listed w) (s : φ) : Listed { w with fs := s } := ⟨h.nodup, h.seq⟩

theorem Inv.next (hw : Inv F namerand w) : Inv F namerand w.next :=
  ⟨hw.listed.next, hw.cached, hw.mirrors, hw.cwd⟩

/-- The files are what they were. -/
theorem Inv.undone {s : φ} (hw : Inv F namerand w) (hcwd : F.cwd s = [])
    (hT : F.tree s = F.tree w.fs) (hv : Looked { w with fs := s } v) : Inv F namerand v :=
  Inv.of_looked hv (hw.listed.withFs s) (hT ▸ hw.mirrors) hcwd

/-- What the lists say never stops a process. -/
theorem of_never {α : Type} {P : World φ → Prop} {m : Proc φ α} {Q : α → World φ → Prop}
    {E : Stop → World φ → Prop} (h : Ends P m Q Never) : Ends P m Q E :=
  h.weaken (fun _ hs => hs) (fun _ _ hs => hs) fun _ _ hs => absurd hs id

/-- Calls on the file system, with the lists as they are. -/
theorem onFs_spec {m : Run φ Bool} {Made : Files → Prop} (hcwd : F.cwd w.fs = [])
    (hm : Ends (Here F (F.tree w.fs) []) m (Called F (F.tree w.fs) [] Made) Asserted) :
    Ends (Looked w) (onFs m) (fun ok v => ∃ s, Looked { w with fs := s } v ∧
      Called F (F.tree w.fs) [] Made ok s) Asserted := by
  rintro v ⟨hc, c, rfl⟩
  have h := hm w.fs ⟨rfl, hcwd⟩
  cases hr : m w.fs with
  | ok r =>
    obtain ⟨ok, s⟩ := r
    rw [hr] at h
    simp only [onFs, hr]
    exact ⟨s, ⟨hc, c, rfl⟩, h⟩
  | error r =>
    obtain ⟨e, s⟩ := r
    rw [hr] at h
    simp only [onFs, hr]
    exact h

/-! ### New files -/

/-- The parts of a path are names. -/
theorem named_at (h : w.At namerand p e) : Named namerand p := by
  induction h with
  | top he hp =>
    obtain ⟨ft, f, -, rfl⟩ := he
    exact fun c hc => ⟨ft, f.id, List.mem_singleton.mp hc⟩
  | under _ _ he _ ih =>
    obtain ⟨ft, f, -, rfl⟩ := he
    intro c hc
    rcases List.mem_cons.mp hc with rfl | hc
    · exact ⟨ft, f.id, rfl⟩
    · exact ih c hc

theorem Named.reverse (h : Named namerand p) : Named namerand p.reverse :=
  fun c hc => h c (List.mem_reverse.mp hc)

theorem named_spot {parent : Option ℕ} (h : Spot .dir (w.entries namerand) q parent) (ft : Ft)
    (id : ℕ) : Named namerand (fileName namerand ft id :: q) := by
  intro c hc
  rcases List.mem_cons.mp hc with rfl | hc
  · exact ⟨ft, id, rfl⟩
  · rcases h with ⟨rfl, -⟩ | ⟨d, hd, -, -⟩
    · exact absurd hc (by simp)
    · exact named_at hd c hc

/-- What is chosen for a new file to be in is a directory, or there is none. -/
theorem below_chosen (hm : w.Mirrors namerand T) {o : Option (Ft × ℕ × Fent)}
    (h : ∀ x, o = some x → Chosen w ftDirm x) :
    ∃ q, Below namerand w q (o.map fun x => x.2.2) ∧
      Spot .dir (w.entries namerand) q ((o.map fun x => x.2.2).map Fent.id) := by
  match o with
  | none => exact ⟨[], rfl, Or.inl ⟨rfl, rfl⟩⟩
  | some (ft, slot, f) =>
    obtain ⟨hdir, hf⟩ := h _ rfl
    obtain rfl : ft = .dir := of_decide_eq_true hdir
    obtain ⟨p, hp, -⟩ := hm.listed _ (mem_entries (List.mem_of_getElem? hf))
    exact ⟨p, hp, Or.inr ⟨_, hp, rfl, rfl⟩⟩

/-- The next id and its names are new. -/
theorem Listed.fresh (h : Listed w) (namerand : ℕ) (ft : Ft) :
    (∀ e ∈ w.entries namerand, e.id ≠ w.nameseq) ∧
    ∀ e ∈ w.entries namerand, e.name ≠ fileName namerand ft w.nameseq := by
  constructor
  · rintro e ⟨t, f, hf, rfl⟩
    exact Nat.ne_of_lt (h.seq t f hf)
  · rintro e ⟨t, f, hf, rfl⟩ hname
    exact absurd ((fileName_inj namerand t ft _ _).mp hname).2 (Nat.ne_of_lt (h.seq t f hf))

/-- A file that has been made is listed. -/
theorem added_inv (hl : Listed w) (hseq : f.id < w.nameseq)
    (hid : ∀ e ∈ w.entries namerand, e.id ≠ f.id)
    (hm : Longan.Mirrors .dir (insert (entry namerand ft f) (w.entries namerand)) (F.tree w.fs))
    (hcwd : F.cwd w.fs = []) (hv : Looked (w.added ft f) v) : Inv F namerand v := by
  refine Inv.of_looked hv (hl.added hseq fun g hg => hid _ (mem_entries hg)) ?_ hcwd
  show Longan.Mirrors _ (World.entries namerand _) _
  rw [entries_added]
  exact hm

/-- A new file is made and listed, or not made. -/
theorem make_spec {m : Run φ Bool} {Made : Files → Prop} (hw : Inv F namerand w)
    {parent : Option ℕ} (hspot : Spot .dir (w.entries namerand) q parent) (x : ℕ)
    (hcall : Ends (Here F (F.tree w.fs) []) m (Called F (F.tree w.fs) [] Made) Asserted)
    (hmade : ∀ T' : Files, F.tree w.fs (fileName namerand ft w.nameseq :: q) = none → Made T' →
      T' = (F.tree w.fs).put (fileName namerand ft w.nameseq :: q) ft.kind) :
    Ends (Looked w.next)
      (do if ← onFs m then addToFlist ft w.nameseq parent x else pure ())
      (fun _ v => Inv F namerand v) Asserted := by
  have hm := hw.mirrors
  obtain ⟨hid, hname⟩ := hw.listed.fresh namerand ft
  refine Ends.bind (onFs_spec (w := w.next) hw.cwd hcall) fun ok => Ends.of_eq ?_
  rintro v ⟨s, hv, hcwd, hT⟩
  refine Ends.ite (fun hok => ?_) fun hok => Ends.pure ?_
  · rw [if_pos hok] at hT
    have hput := hmade _ (hm.free hname q) hT
    have hins := hm.insert (n := entry namerand ft ⟨w.nameseq, parent, x⟩) hid hname hspot
    refine ((addToFlist_spec ft ⟨w.nameseq, parent, x⟩).start hv).imp ?_
    exact fun _ u hu => added_inv (w := { w.next with fs := s })
      (f := ⟨w.nameseq, parent, x⟩) (hw.listed.next.withFs s) (Nat.lt_succ_self _) hid
      (hput ▸ hins) hcwd hu
  · rw [if_neg hok] at hT
    rintro u rfl
    exact hw.next.undone hcwd hT hv

/-- One of the calls with one path. -/
def Calls (F : FileSystem φ) (namerand : ℕ) (o : One) (m : Pathname → Run φ Bool) : Prop :=
  ∀ (T : Files) (p : Pathname) (r : List Text), Named namerand p → T.target [] p = some r →
    Ends (Here F T []) (m p) (Called F T [] (o.Made T r)) Asserted

theorem calls_onPath (hF : Posix F) (o : One) : Calls F namerand o (onPath F o) :=
  fun T p r hnames h => onPath_called hF o T r p [] hnames.no_dotdot h

theorem newFile_spec (ft : Ft) {make : Pathname → Run φ Bool} {o : One} (hmake : Calls F namerand o make)
    (hmade : ∀ (T T' : Files) r, T r = none → o.Made T r T' → T' = T.put r ft.kind)
    (hw : Inv F namerand w) (r : ℕ) :
    Ends (fun v => v = w) (newFile namerand ft make r) (fun _ v => Inv F namerand v) Asserted := by
  have hm := hw.mirrors
  refine Ends.bind (of_never ((getFent_spec ftDirm r).start hw.looked)) fun o => Ends.given fun ho => ?_
  obtain ⟨q, hbelow, hspot⟩ := below_chosen hm ho
  refine Ends.bind (of_never (generateFname_spec hm hbelow ft)) fun o => Ends.given ?_
  rintro rfl
  exact make_spec hw hspot 0
    (hmake _ _ _ (named_spot hspot ft w.nameseq).reverse (target_spot hm hspot ft w.nameseq))
    fun T' hfree hmd => hmade _ _ _ hfree hmd

/-- The kind of a type that is no directory's. -/
theorem kind_ne_dir (h : ft ≠ .dir) : ft.kind ≠ .dir := fun hk => h (Ft.kind_eq_dir.mp hk)

theorem linkF_spec (hF : Posix F) (hw : Inv F namerand w) (r r2 : ℕ) :
    Ends (fun v => v = w) (linkF F namerand r r2) (fun _ v => Inv F namerand v) Asserted := by
  have hm := hw.mirrors
  refine Ends.bind (of_never ((getFname_spec hm ftNotdir r).start hw.looked)) fun o =>
    Ends.given fun ho => ?_
  match o, ho with
  | none, _ => exact Ends.pure fun v hv => hw.stays hv
  | some (ft, slot, src, name), ho =>
    obtain ⟨-, p, hp, rfl⟩ := ho _ _ _ _ rfl
    refine Ends.bind (of_never (getFent_spec ftDirm r2)) fun o => Ends.given fun ho => ?_
    obtain ⟨q, hbelow, hspot⟩ := below_chosen hm ho
    refine Ends.bind (of_never (generateFname_spec hm hbelow ft)) fun o => Ends.given ?_
    rintro rfl
    have hcall := onPaths_called hF .link _ _ _ _ _ _ (named_at hp).reverse.no_dotdot
      (named_spot hspot ft w.nameseq).reverse.no_dotdot (target_at hm hp)
      (target_spot hm hspot ft w.nameseq)
    refine make_spec hw hspot src.xattrCounter hcall ?_
    rintro T' - ⟨-, k, hk, -, hT'⟩
    rw [hm.kind hp] at hk
    rw [hT', ← Option.some.inj hk]
    rfl

/-! ### Files that go -/

theorem removeFile_spec {which : Ft → Bool} {rm : Pathname → Run φ Bool} {o : One}
    (hrm : Calls F namerand o rm) (hw : Inv F namerand w)
    (hmade : ∀ (ft : Ft) (f : Fent) (p : List Text) (T' : Files), which ft = true →
      w.At namerand p (entry namerand ft f) → o.Made (F.tree w.fs) p T' →
      T' = (F.tree w.fs).cut p ∧ ∀ x, F.tree w.fs (x :: p) = none) (r : ℕ) :
    Ends (fun v => v = w) (removeFile namerand which rm r) (fun _ v => Inv F namerand v)
      Asserted := by
  have hm := hw.mirrors
  refine Ends.bind (of_never ((getFname_spec hm which r).start hw.looked)) fun o =>
    Ends.given fun ho => ?_
  match o, ho with
  | none, _ => exact Ends.pure fun v hv => hw.stays hv
  | some (ft, slot, f, name), ho =>
    obtain ⟨⟨hwhich, hf⟩, p, hp, rfl⟩ := ho _ _ _ _ rfl
    have hcall := hrm _ _ _ (named_at hp).reverse (target_at hm hp)
    refine Ends.bind (onFs_spec hw.cwd hcall) fun ok => Ends.of_eq ?_
    rintro v ⟨s, hv, hcwd, hT⟩
    refine Ends.ite (fun hok => ?_) fun hok => Ends.pure ?_
    · rw [if_pos hok] at hT
      obtain ⟨hcut, hempty⟩ := hmade ft f p _ hwhich hp hT
      have hdel := delFromFlist_spec (w := { w with fs := s }) (hw.listed.nodup .dir) hf
      refine ((of_never hdel).start hv).imp ?_
      intro _ u hu
      refine Inv.of_looked hu ((hw.listed.withFs s).removed hf) ?_ hcwd
      show Longan.Mirrors _ (World.entries namerand (World.removed { w with fs := s } ft slot)) (F.tree s)
      rw [entries_removed namerand (hw.listed.withFs s) hf, hcut]
      exact hm.remove hp hempty
    · rw [if_neg hok] at hT
      rintro u rfl
      exact hw.undone hcwd hT hv

theorem rmdirF_spec (hF : Posix F) (hw : Inv F namerand w) (r : ℕ) :
    Ends (fun v => v = w) (rmdirF F namerand r) (fun _ v => Inv F namerand v) Asserted :=
  removeFile_spec (calls_onPath hF .rmdir) hw (fun _ _ _ _ _ _ h => ⟨h.2.2, h.2.1⟩) r

theorem unlinkF_spec (hF : Posix F) (hw : Inv F namerand w) (r : ℕ) :
    Ends (fun v => v = w) (unlinkF F namerand r) (fun _ v => Inv F namerand v) Asserted := by
  refine removeFile_spec (calls_onPath hF .unlink) hw (fun ft f p T' _ hp h => ?_) r
  obtain ⟨⟨k, hk, hdir⟩, hT'⟩ := h
  have hno : F.tree w.fs p ≠ some .dir := by
    rw [hk]
    simpa using hdir
  exact ⟨hT', fun x => hw.mirrors.leaf hno (List.cons_ne_nil x [])⟩

theorem otherF_spec (hF : Posix F) (hw : Inv F namerand w) (which : Ft → Bool) (r : ℕ) :
    Ends (fun v => v = w) (otherF F namerand which r) (fun _ v => Inv F namerand v) Asserted := by
  have hm := hw.mirrors
  refine Ends.bind (of_never ((getFname_spec hm which r).start hw.looked)) fun o =>
    Ends.given fun ho => ?_
  match o, ho with
  | none, _ => exact Ends.pure fun v hv => hw.stays hv
  | some (ft, slot, f, name), ho =>
    obtain ⟨-, p, hp, rfl⟩ := ho _ _ _ _ rfl
    have hcall := calls_onPath hF .other _ _ _ (named_at hp).reverse (target_at hm hp)
    refine Ends.bind (onFs_spec hw.cwd hcall) fun ok => Ends.pure ?_
    rintro v ⟨s, hv, hcwd, hT⟩
    have hsame : F.tree s = F.tree w.fs := by
      cases ok with
      | true => exact hT
      | false => exact hT
    exact hw.undone hcwd hsame hv

/-! ### Files that are renamed -/

/-- The lists when a directory has got another id. -/
def World.refit (w : World φ) (ft : Ft) (oldid newid : ℕ) (swap : Bool) : World φ :=
  if ft = .dir then w.fixed oldid newid swap else w

theorem refit_spec (a b : ℕ) (swap : Bool) {E : Stop → World φ → Prop} :
    Ends (Looked w) (onlyIf (ft = .dir) (fixParent a b swap))
      (fun _ v => Looked (w.refit ft a b swap) v) E := by
  unfold World.refit
  refine Ends.onlyIf (fun h => ?_) fun h v hv => ?_
  · rw [if_pos h]
    exact fixParent_spec a b swap
  · rw [if_neg h]
    exact hv

theorem Listed.refit (h : Listed w) (ft : Ft) (a b : ℕ) (swap : Bool) : Listed (w.refit ft a b swap) := by
  unfold World.refit
  split_ifs
  · exact h.fixed a b swap
  · exact h

theorem refit_fs (w : World φ) (ft : Ft) (a b : ℕ) (swap : Bool) :
    (w.refit ft a b swap).fs = w.fs ∧ (w.refit ft a b swap).nameseq = w.nameseq := by
  unfold World.refit
  split_ifs <;> exact ⟨rfl, rfl⟩

/-- Nothing is in a file that is no directory. -/
theorem no_child (hm : w.Mirrors namerand T) (hp : w.At namerand p (entry namerand ft f))
    (hdir : ft ≠ .dir) : ∀ e ∈ w.entries namerand, e.parent ≠ some f.id := by
  have hno : T p ≠ some .dir := by
    rw [hm.kind hp]
    exact fun h => kind_ne_dir hdir (Option.some.inj h)
  exact hm.childless hp fun x => hm.leaf hno (List.cons_ne_nil x [])

/-- Those that are in the file are in it under its new id, which matters for
directories only. -/
theorem entries_refit (hm : w.Mirrors namerand T) (hp : w.At namerand p (entry namerand ft f))
    (b : ℕ) :
    (w.refit ft f.id b false).entries namerand = reparent f.id b '' w.entries namerand := by
  unfold World.refit
  split_ifs with hdir
  · exact entries_fixed w f.id b false fun t g => entry_fixed f.id b t g
  · have hid : ∀ e ∈ w.entries namerand, reparent f.id b e = e := fun e he =>
      reparent_ne (no_child hm hp hdir e he)
    rw [Set.image_congr hid, Set.image_id']

theorem refit_slot (hm : w.Mirrors namerand T) (hp : w.At namerand p (entry namerand ft f))
    (hf : (w.fents ft)[slot]? = some f) (b : ℕ) :
    ∃ f', ((w.refit ft f.id b false).fents ft)[slot]? = some f' ∧
      entry namerand ft f' = reparent f.id b (entry namerand ft f) := by
  unfold World.refit
  split_ifs with hdir
  · refine ⟨f.fixed f.id b false, ?_, entry_fixed f.id b ft f⟩
    show ((w.fents ft).map _)[slot]? = _
    rw [List.getElem?_map, hf]
    rfl
  · exact ⟨f, hf, (reparent_ne (no_child hm hp hdir _ hp.mem)).symm⟩

theorem image_reparent_diff {E : Set (Entry ℕ Text FileKind)}
    (hids : ∀ x ∈ E, ∀ y ∈ E, x.id = y.id → x = y) (he : e ∈ E) (a b : ℕ) :
    reparent a b '' E \ {reparent a b e} = reparent a b '' (E \ {e}) := by
  ext x
  constructor
  · rintro ⟨⟨y, hy, rfl⟩, hne⟩
    exact ⟨y, ⟨hy, fun h => hne (congrArg _ h)⟩, rfl⟩
  · rintro ⟨y, ⟨hy, hne⟩, rfl⟩
    refine ⟨⟨y, hy, rfl⟩, fun h => hne (hids y hy e he ?_)⟩
    have hid : (reparent a b y).id = (reparent a b e).id := congrArg Entry.id h
    rwa [reparent_id, reparent_id] at hid

/-- A file has a new name, a new id and another parent. -/
theorem moved_inv {s : φ} {parent : Option ℕ} {x : ℕ} (hw : Inv F namerand w)
    (hp : w.At namerand p (entry namerand ft f)) (hf : (w.fents ft)[slot]? = some f)
    (hspot : Spot .dir (w.entries namerand) q parent)
    (hpq : ¬ p <:+ fileName namerand ft w.nameseq :: q)
    (hT : F.tree s = (F.tree w.fs).move p (fileName namerand ft w.nameseq :: q))
    (hcwd : F.cwd s = [])
    (hv : Looked ((World.removed (World.refit { w.next with fs := s } ft f.id w.nameseq false) ft
      slot).added ft ⟨w.nameseq, parent, x⟩) v) : Inv F namerand v := by
  have hm := hw.mirrors
  obtain ⟨hid, hname⟩ := hw.listed.fresh namerand ft
  have hl : Listed { w.next with fs := s } := hw.listed.next.withFs s
  have hents := entries_refit (w := { w.next with fs := s }) hm hp w.nameseq
  obtain ⟨f', hf', hfe⟩ := refit_slot (w := { w.next with fs := s }) hm hp hf w.nameseq
  obtain ⟨hfs, hseq⟩ := refit_fs { w.next with fs := s } ft f.id w.nameseq false
  have hl2 := hl.refit ft f.id w.nameseq false
  have hents3 := entries_removed namerand hl2 hf'
  have hdiff := image_reparent_diff hm.ids hp.mem f.id w.nameseq
  rw [hents, hfe] at hents3
  have hmove := hm.move (n := entry namerand ft ⟨w.nameseq, parent, x⟩) hp hid hname hspot rfl
    fun h => hpq (h.trans (List.suffix_cons _ _))
  refine added_inv (hl2.removed hf') ?_ ?_ ?_ ?_ hv
  · exact hseq ▸ Nat.lt_succ_self _
  · rw [hents3]
    rintro e ⟨⟨y, hy, rfl⟩, -⟩
    rw [reparent_id]
    exact hid y hy
  · rw [hents3]
    show Longan.Mirrors _ _ (F.tree (World.refit { w.next with fs := s } ft f.id w.nameseq false).fs)
    rw [hfs]
    show Longan.Mirrors _ (insert _ (_ '' World.entries namerand w \ _)) (F.tree s)
    rw [hdiff, hT]
    exact hmove
  · show F.cwd (World.refit { w.next with fs := s } ft f.id w.nameseq false).fs = []
    rw [hfs]
    exact hcwd

/-- A device has a new name, and another one its old name. -/
theorem whiteout_inv {s : φ} {parent : Option ℕ} {x : ℕ} (hw : Inv F namerand w)
    (hp : w.At namerand p (entry namerand .dev f))
    (hspot : Spot .dir (w.entries namerand) q parent)
    (hT : F.tree s =
      ((F.tree w.fs).move p (fileName namerand .dev w.nameseq :: q)).put p .dev)
    (hcwd : F.cwd s = [])
    (hv : Looked ((World.withXattr { w.next with fs := s } .dev slot 0).added .dev
      ⟨w.nameseq, parent, x⟩) v) : Inv F namerand v := by
  have hm := hw.mirrors
  obtain ⟨hid, hname⟩ := hw.listed.fresh namerand .dev
  have hl : Listed { w.next with fs := s } := hw.listed.next.withFs s
  have hents := entries_withXattr namerand { w.next with fs := s } .dev slot 0
  have hins := hm.insert (n := entry namerand .dev ⟨w.nameseq, parent, x⟩) hid hname hspot
  have hdev : F.tree w.fs p = some .dev := hm.kind hp
  refine added_inv (w := World.withXattr { w.next with fs := s } .dev slot 0)
    (hl.withXattr slot 0) (Nat.lt_succ_self _) (hents ▸ hid) ?_ hcwd hv
  rw [hents]
  show Longan.Mirrors _ (insert _ (World.entries namerand w)) (F.tree s)
  rw [hT, hm.move_put hdev (by decide) (hm.free hname q)]
  exact hins

theorem moveF_spec (hF : Posix F) (hw : Inv F namerand w) {mode : Mode} (hmode : mode ≠ .exchange)
    (r r2 : ℕ) :
    Ends (fun v => v = w) (moveF F namerand mode r r2) (fun _ v => Inv F namerand v) Asserted := by
  have hm := hw.mirrors
  refine Ends.bind (of_never ((getFname_spec hm _ r).start hw.looked)) fun o => Ends.given fun ho => ?_
  match o, ho with
  | none, _ => exact Ends.pure fun v hv => hw.stays hv
  | some (ft, slot, f, name), ho =>
    obtain ⟨⟨hwhich, hf⟩, p, hp, rfl⟩ := ho _ _ _ _ rfl
    replace hf : (w.fents ft)[slot]? = some f := hf
    refine Ends.bind (of_never (getFent_spec ftDirm r2)) fun o => Ends.given fun ho => ?_
    obtain ⟨q, hbelow, hspot⟩ := below_chosen hm ho
    refine Ends.bind (of_never (generateFname_spec hm hbelow ft)) fun o => Ends.given ?_
    rintro rfl
    have hcall := onPaths_called hF (.rename mode) _ _ _ _ _ _ (named_at hp).reverse.no_dotdot
      (named_spot hspot ft w.nameseq).reverse.no_dotdot (target_at hm hp)
      (target_spot hm hspot ft w.nameseq)
    refine Ends.bind (onFs_spec (w := w.next) hw.cwd hcall) fun ok => Ends.of_eq ?_
    rintro v ⟨s, hv, hcwd, hT⟩
    refine Ends.ite (fun hok => ?_) fun hok => Ends.pure ?_
    · rw [if_pos hok] at hT
      have hl : Listed { w.next with fs := s } := hw.listed.next.withFs s
      have hfree := hm.free (hw.listed.fresh namerand ft).2 q
      refine Ends.bind ((refit_spec f.id w.nameseq false).start hv) fun _ => ?_
      by_cases hwh : mode = .whiteout
      · subst hwh
        obtain rfl : ft = .dev := by simpa using hwhich
        obtain ⟨-, -, hmade⟩ := hT hfree
        rw [if_pos rfl]
        refine Ends.bind (setXattr_spec .dev slot 0) fun _ =>
          (addToFlist_spec .dev ⟨w.nameseq, _, f.xattrCounter⟩).imp ?_
        exact fun _ u hu => whiteout_inv hw hp hspot hmade hcwd hu
      · rw [if_neg hwh]
        have hmade : ¬ p <:+ fileName namerand ft w.nameseq :: q ∧
            F.tree s = (F.tree w.fs).move p (fileName namerand ft w.nameseq :: q) := by
          cases mode with
          | none => exact (hT hfree).2
          | noreplace => exact hT.2.2
          | exchange => exact absurd rfl hmode
          | whiteout => exact absurd rfl hwh
        obtain ⟨f', hf', -⟩ := refit_slot (w := { w.next with fs := s }) hm hp hf w.nameseq
        have hl2 := hl.refit ft f.id w.nameseq false
        refine Ends.bind (of_never (delFromFlist_spec (hl2.nodup .dir) hf')) fun _ =>
          (addToFlist_spec ft ⟨w.nameseq, _, f.xattrCounter⟩).imp ?_
        exact fun _ u hu => moved_inv hw hp hf hspot hmade.1 hmade.2 hcwd hu
    · rw [if_neg hok] at hT
      rintro u rfl
      exact hw.next.undone hcwd hT hv

theorem related_spec (hm : w.Mirrors namerand T) {f' : Fent}
    (hp : w.At namerand p (entry namerand ft f)) (hq : w.At namerand q (entry namerand ft f')) :
    Ends (Looked w) (related ft f f') (fun _ v => Looked w v) Never := by
  refine Ends.ite (fun _ => ?_) fun _ => Ends.pure fun v hv => hv
  refine Ends.bind (fentsAncestorCheck_spec hm f' hp) fun _ => Ends.ite (fun _ => ?_) fun _ => ?_
  · exact Ends.pure fun v hv => hv
  · exact fentsAncestorCheck_spec hm f hq

/-- The files of two entries of one type are exchanged. -/
theorem exchanged_mirrors (hm : w.Mirrors namerand T) {f' : Fent}
    (hp : w.At namerand p (entry namerand ft f)) (hq : w.At namerand q (entry namerand ft f'))
    (hpq : p = q ∨ ¬ p <:+ q ∧ ¬ q <:+ p) :
    Longan.Mirrors .dir ((w.refit ft f.id f'.id true).entries namerand) (T.exchange p q) := by
  unfold World.refit
  split_ifs with hdir
  · subst hdir
    rw [entries_fixed w f.id f'.id true fun t g => entry_crossed f.id f'.id t g]
    rcases hpq with rfl | ⟨hpq, hqp⟩
    · have hid : f.id = f'.id := congrArg Entry.id (hm.entry_unique hp hq)
      have hsame : ∀ e ∈ w.entries namerand, crossParent f.id f.id e = e := by
        rintro e -
        unfold crossParent
        split_ifs with h
        · rw [← h]
        · rfl
      have hT : T.exchange p p = T := funext fun r => by rw [Tree.exchange, Tree.swap_self]
      rw [← hid, Set.image_congr hsame, Set.image_id', hT]
      exact hm
    · exact hm.exchange (a := entry namerand .dir f) (b := entry namerand .dir f')
        ⟨hp, hq, rfl, rfl, hpq, hqp⟩
  · rw [hm.exchange_files hp hq rfl (kind_ne_dir hdir)]
    exact hm

theorem exchangeF_spec (hF : Posix F) (hw : Inv F namerand w) (r r2 : ℕ) :
    Ends (fun v => v = w) (exchangeF F namerand r r2) (fun _ v => Inv F namerand v) Asserted := by
  have hm := hw.mirrors
  refine Ends.bind (of_never ((getFname_spec hm _ r).start hw.looked)) fun o => Ends.given fun ho => ?_
  match o, ho with
  | none, _ => exact Ends.pure fun v hv => hw.stays hv
  | some (ft, slot, f, name), ho =>
    obtain ⟨-, p, hp, rfl⟩ := ho _ _ _ _ rfl
    refine Ends.bind (of_never (getFname_spec hm _ r2)) fun o => Ends.given fun ho => ?_
    match o, ho with
    | none, _ => exact Ends.pure fun v hv => hw.stays hv
    | some (ft', slot', f', name), ho =>
      obtain ⟨⟨hwhich, -⟩, q, hq, rfl⟩ := ho _ _ _ _ rfl
      obtain rfl : ft' = ft := of_decide_eq_true hwhich
      refine Ends.bind (of_never (related_spec hm hp hq)) fun _ => Ends.ite (fun _ => ?_) fun _ => ?_
      · exact Ends.pure fun v hv => hw.stays hv
      have hcall := onPaths_called hF (.rename .exchange) _ _ _ _ _ _ (named_at hp).reverse.no_dotdot
        (named_at hq).reverse.no_dotdot (target_at hm hp) (target_at hm hq)
      refine Ends.bind (onFs_spec hw.cwd hcall) fun ok => Ends.of_eq ?_
      rintro v ⟨s, hv, hcwd, hT⟩
      refine Ends.ite (fun hok => ?_) fun hok => Ends.pure ?_
      · rw [if_pos hok] at hT
        obtain ⟨-, -, hpq, hmade⟩ := hT
        refine Ends.bind ((refit_spec f.id f'.id true).start hv) fun _ =>
          Ends.bind (setXattr_spec ft' slot f'.xattrCounter) fun _ =>
            (setXattr_spec ft' slot' f.xattrCounter).imp ?_
        intro _ u hu
        have hl := (hw.listed.withFs s).refit ft' f.id f'.id true
        obtain ⟨hfs, -⟩ := refit_fs { w with fs := s } ft' f.id f'.id true
        have hex := exchanged_mirrors (w := { w with fs := s }) hm hp hq hpq
        refine Inv.of_looked hu ((hl.withXattr slot _).withXattr slot' _) ?_ ?_
        · show Longan.Mirrors _ (World.entries namerand _)
            (F.tree (World.refit { w with fs := s } ft' f.id f'.id true).fs)
          rw [entries_withXattr, entries_withXattr, hfs]
          show Longan.Mirrors _ _ (F.tree s)
          rw [hmade]
          exact hex
        · show F.cwd (World.refit { w with fs := s } ft' f.id f'.id true).fs = []
          rw [hfs]
          exact hcwd
      · rw [if_neg hok] at hT
        rintro u rfl
        exact hw.undone hcwd hT hv

/-! ### Any number of operations -/

/-- What `symlink_f` makes a link contain begins with no tag. -/
theorem head_symlinkVal (len : ℕ) :
    (symlinkVal len).head? = none ∨ (symlinkVal len).head? = some 'x' := by
  match len with
  | 0 => exact Or.inl rfl
  | len + 1 =>
    right
    rw [symlinkVal, List.range_succ_eq_map]
    rfl

theorem creatType_kind (rtpct e1 : ℕ) : (creatType rtpct e1).kind = .reg := by
  unfold creatType
  split_ifs <;> rfl

/-- **One operation** leaves what there was between them. -/
theorem run_spec (hF : Posix F) (hw : Inv F namerand w) (op : Op) :
    Ends (fun v => v = w) (op.run F namerand) (fun _ v => Inv F namerand v) Asserted := by
  cases op with
  | creat rtpct r e1 =>
    refine newFile_spec _ (calls_onPath hF .creat) (fun T T' r hfree h => ?_) hw r
    rw [creatType_kind]
    exact h hfree
  | mkdir r => exact newFile_spec .dir (calls_onPath hF .mkdir) (fun _ _ _ _ h => h.2) hw r
  | mknod r => exact newFile_spec .dev (calls_onPath hF .mknod) (fun _ _ _ _ h => h.2) hw r
  | symlink r r2 =>
    have hcalls : Calls F namerand .symlink (symlinkPath F (symlinkVal (r2 % pathMax))) :=
      fun T p t hnames h => symlinkPath_called hF namerand _ T t [] p hnames (head_symlinkVal _) h
    exact newFile_spec .sym hcalls (fun _ _ _ _ h => h.2) hw r
  | link r r2 => exact linkF_spec hF hw r r2
  | rename mode r r2 =>
    refine Ends.ite (fun _ => ?_) fun hmode => ?_
    · exact exchangeF_spec hF hw r r2
    · exact moveF_spec hF hw hmode r r2
  | rmdir r => exact rmdirF_spec hF hw r
  | unlink r => exact unlinkF_spec hF hw r
  | other which r => exact otherF_spec hF hw which r

theorem process_spec (hF : Posix F) : ∀ (ops : List Op) {w : World φ}, Inv F namerand w →
    Ends (fun v => v = w) (process F namerand ops) (fun _ v => Inv F namerand v) Asserted
  | [], _, hw => Ends.pure fun _ hv => hv ▸ hw
  | op :: ops, _, hw => Ends.bind (run_spec hF hw op) fun _ =>
      Ends.of_eq fun _ hv => process_spec hF ops hv

/-- An empty directory. -/
def emptyDir : Files := fun p => if p = [] then some .dir else none

/-- The process in its directory, before it has done anything. -/
def World.initial (s : φ) : World φ where
  fents := fun _ => []
  dcache := fun _ => none
  nameseq := 0
  fs := s

theorem inv_initial {s : φ} (hs : Here F emptyDir [] s) : Inv F namerand (World.initial s) := by
  obtain ⟨hT, hcwd⟩ := hs
  have hnone : ∀ e, e ∉ World.entries namerand (World.initial s) := by
    rintro e ⟨t, f, hf, -⟩
    exact absurd hf List.not_mem_nil
  refine ⟨⟨fun _ => List.nodup_nil, fun _ f hf => absurd hf List.not_mem_nil⟩, fun _ _ h => ?_, ?_,
    hcwd⟩
  · exact absurd h (by simp [World.initial])
  · refine ⟨fun e he => absurd he (hnone e), fun e he => absurd he (hnone e), ?_,
      fun e he => absurd he (hnone e), fun x p hx => ?_⟩
    · show F.tree s [] = _
      rw [hT]
      rfl
    · refine absurd ?_ hx
      show F.tree s (x :: p) = none
      rw [hT]
      rfl

/-- **The lists mirror the files.** After any operations there is a file just
where the lists say, each entry has its file, and the process is where it was.
Nothing but an assertion stops it: no null pointer is followed, no cached place
is out of its list and no path goes round. -/
theorem process_mirrors (hF : Posix F) (namerand : ℕ) (ops : List Op) (s : φ)
    (hs : Here F emptyDir [] s) :
    Ends (fun w => w = World.initial s) (process F namerand ops)
      (fun _ w => F.cwd w.fs = [] ∧
        (∀ p k, F.tree w.fs p = some k ↔ (p = [] ∧ k = .dir) ∨
          ∃ ft, ∃ f ∈ w.fents ft, ft.kind = k ∧ w.At namerand p (entry namerand ft f)) ∧
        ∀ ft, ∀ f ∈ w.fents ft, ∃ p, w.At namerand p (entry namerand ft f)) Asserted := by
  refine (process_spec hF ops (inv_initial hs)).imp ?_
  intro _ w hw
  refine ⟨hw.cwd, fun p k => (hw.mirrors.iff p k).trans (or_congr_right ?_), fun ft f hf => ?_⟩
  · constructor
    · rintro ⟨e, he, hk⟩
      obtain ⟨ft, f, hf, rfl⟩ := he.mem
      exact ⟨ft, f, hf, hk, he⟩
    · rintro ⟨ft, f, -, hk, he⟩
      exact ⟨_, he, hk⟩
  · obtain ⟨p, hp, -⟩ := hw.mirrors.listed _ (mem_entries hf)
    exact ⟨p, hp⟩

/-- **The path of each file is found.** After any operations `fent_to_name`
ends with the path of any file of the lists, which has the file at its end,
whatever the cache has seen before, and what it remembers is right. -/
theorem process_names (hF : Posix F) (namerand : ℕ) (ops : List Op) (s : φ)
    (hs : Here F emptyDir [] s) :
    Ends (fun w => w = World.initial s) (process F namerand ops)
      (fun _ w => Cached w ∧ ∀ ft, ∀ f ∈ w.fents ft, ∃ p w', F.tree w.fs p = some ft.kind ∧
        fentToName namerand ft f w = .ok (some p.reverse, w') ∧
        (F.tree w.fs).target [] p.reverse = some p) Asserted := by
  refine (process_spec hF ops (inv_initial hs)).imp ?_
  intro _ w hw
  refine ⟨hw.cached, fun ft f hf => ?_⟩
  obtain ⟨p, hp, hk⟩ := hw.mirrors.listed _ (mem_entries hf)
  have hname := fentToName_spec hw.mirrors hp w hw.looked
  cases hr : fentToName namerand ft f w with
  | ok r =>
    obtain ⟨o, w'⟩ := r
    rw [hr] at hname
    obtain ⟨-, rfl⟩ := hname
    exact ⟨p, w', hk, rfl, target_at hw.mirrors hp⟩
  | error r =>
    rw [hr] at hname
    exact hname.elim

end

/-! ### In memory -/

theorem here_emptyDir (limit : ℕ) :
    Here (Memory.inMemory.limited limit) emptyDir [] ⟨emptyDir, []⟩ := ⟨rfl, rfl⟩

/-- Two directories are made, one in the other, and a file in both. The inner
one gets another name and the file is exchanged with itself. -/
def someOps : List Op :=
  [.mkdir 0, .mkdir 0, .creat 0 1 5, .rename .none 1 0, .rename .exchange 2 2]

/-- The file is in the directory under its new id. -/
example : (process (Memory.inMemory.limited 4) 0 someOps (World.initial ⟨emptyDir, []⟩)).toOption.map
    (fun r => (r.2.fents .dir, r.2.fents .reg)) =
      some ([⟨0, none, 0⟩, ⟨3, some 0, 0⟩], [⟨2, some 3, 0⟩]) := by
  decide +kernel

theorem process_mirrors_someOps :
    Here (Memory.inMemory.limited 4) emptyDir [] ⟨emptyDir, []⟩ ∧
    Ends (fun w => w = World.initial ⟨emptyDir, []⟩)
      (process (Memory.inMemory.limited 4) 0 someOps)
      (fun _ w => (Memory.inMemory.limited 4).cwd w.fs = [] ∧
        (∀ p k, (Memory.inMemory.limited 4).tree w.fs p = some k ↔ (p = [] ∧ k = .dir) ∨
          ∃ ft, ∃ f ∈ w.fents ft, ft.kind = k ∧ w.At 0 p (entry 0 ft f)) ∧
        ∀ ft, ∀ f ∈ w.fents ft, ∃ p, w.At 0 p (entry 0 ft f)) Asserted :=
  ⟨here_emptyDir 4, process_mirrors (Memory.posix_inMemory.limited 4) 0 someOps ⟨emptyDir, []⟩
    (here_emptyDir 4)⟩

theorem process_names_someOps :
    Here (Memory.inMemory.limited 4) emptyDir [] ⟨emptyDir, []⟩ ∧
    Ends (fun w => w = World.initial ⟨emptyDir, []⟩)
      (process (Memory.inMemory.limited 4) 0 someOps)
      (fun _ w => Cached w ∧ ∀ ft, ∀ f ∈ w.fents ft, ∃ p w',
        (Memory.inMemory.limited 4).tree w.fs p = some ft.kind ∧
        fentToName 0 ft f w = .ok (some p.reverse, w') ∧
        Files.target ((Memory.inMemory.limited 4).tree w.fs) [] p.reverse = some p) Asserted :=
  ⟨here_emptyDir 4, process_names (Memory.posix_inMemory.limited 4) 0 someOps ⟨emptyDir, []⟩
    (here_emptyDir 4)⟩

end Fsstress
end Longan
