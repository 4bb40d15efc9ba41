/-
# fsstress: the list of its files

`flist` holds the files of each type in no order: one that is deleted is
overwritten by the last. `dcache` remembers for some directories where they are
in the list (`dcache_lookup`), and is purged where the list changes. A file is
chosen by its place in the lists put together (`get_fname`), and its path is
put together from its parents (`fent_to_name`).

`Cached` is what keeps the cache right: what it remembers is a place in the
list where there is a directory that may be remembered there.
-/
import Mathlib.Data.List.Nodup
import Mathlib.Data.List.Perm.Basic
import Longan.Lib.Mirror
import Longan.Fsstress.Paths

namespace Longan
namespace Fsstress

/-- `NDCACHE` -/
def ndcache : ℕ := 64

/-- `fent_t`; the parent of what is in no directory is -1. -/
structure Fent where
  id : ℕ
  parent : Option ℕ
  xattrCounter : ℕ
  deriving DecidableEq

/-- A process: its lists, its cache and the file system. -/
structure World (φ : Type) where
  fents : Ft → List Fent
  dcache : ℕ → Option ℕ
  nameseq : ℕ
  fs : φ

abbrev Proc (φ : Type) := Prog (World φ) Stop

section

variable {φ : Type}

def World.nfiles (w : World φ) (ft : Ft) : ℕ := (w.fents ft).length

def World.setFents (w : World φ) (ft : Ft) (l : List Fent) : World φ :=
  { w with fents := fun t => if t = ft then l else w.fents t }

/-- What is at a place of a list. -/
def fentAt (ft : Ft) (slot : ℕ) : Proc φ Fent := do
  let w ← get
  match (w.fents ft)[slot]? with
  | some f => pure f
  | none => stop .outside

def addToFlist (ft : Ft) (id : ℕ) (parent : Option ℕ) (xattrCounter : ℕ) : Proc φ Unit :=
  modify fun w => w.setFents ft (w.fents ft ++ [⟨id, parent, xattrCounter⟩])

def World.enter (w : World φ) (i : ℕ) (slot : Option ℕ) : World φ :=
  { w with dcache := fun j => if j = i then slot else w.dcache j }

def dcacheEnter (dirid slot : ℕ) : Proc φ Unit :=
  modify fun w => w.enter (dirid % ndcache) (some slot)

def dcacheLookup (dirid : ℕ) : Proc φ (Option ℕ) := do
  let w ← get
  match w.dcache (dirid % ndcache) with
  | none => pure none
  | some slot => do
    let f ← fentAt .dir slot
    pure (if f.id = dirid then some slot else none)

def dcachePurge (dirid : ℕ) : Proc φ Unit := do
  let w ← get
  match w.dcache (dirid % ndcache) with
  | none => pure ()
  | some slot => do
    let f ← fentAt .dir slot
    onlyIf (f.id = dirid) (modify fun w => w.enter (dirid % ndcache) none)

/-- A list without the entry at a place, which the last is moved to. -/
def swapRemove (l : List Fent) (slot : ℕ) : List Fent :=
  if slot ≠ l.length - 1 then
    match l.getLast? with
    | some last => (l.set slot last).dropLast
    | none => l
  else l.dropLast

def delFromFlist (ft : Ft) (slot : ℕ) : Proc φ Unit := do
  let w ← get
  onlyIf (ft = .dir) (do
    let f ← fentAt ft slot
    dcachePurge f.id)
  onlyIf (slot ≠ w.nfiles ft - 1 ∧ ft = .dir) (do
    let f ← fentAt ft (w.nfiles ft - 1)
    dcachePurge f.id)
  modify fun w => w.setFents ft (swapRemove (w.fents ft) slot)

def diridToFent (dirid : ℕ) : Proc φ (Option ℕ) := do
  match ← dcacheLookup dirid with
  | some slot => pure (some slot)
  | none => do
    let w ← get
    match (w.fents .dir).findIdx? (·.id = dirid) with
    | some slot => do
      dcacheEnter dirid slot
      pure (some slot)
    | none => pure none

variable (namerand : ℕ)

/-- `fent_to_name`, for so many names. -/
def nameFrom : ℕ → Ft → Fent → Proc φ (Option Pathname)
  | 0, _, _ => stop .endless
  | n + 1, ft, fep =>
    match fep.parent with
    | none => pure (some [fileName namerand ft fep.id])
    | some parent => do
      match ← diridToFent parent with
      | none => pure none
      | some slot => do
        let pfep ← fentAt .dir slot
        match ← nameFrom n .dir pfep with
        | none => pure none
        | some name => pure (some (name ++ [fileName namerand ft fep.id]))

/-- A path goes through no more directories than there are. -/
def fentToName (ft : Ft) (fep : Fent) : Proc φ (Option Pathname) := do
  let w ← get
  nameFrom namerand (w.nfiles .dir + 1) ft fep

/-- `fents_ancestor_check`, for so many directories. -/
def ancestorFrom : ℕ → Fent → Fent → Proc φ Bool
  | 0, _, _ => stop .endless
  | n + 1, tmpfep, dfep =>
    match tmpfep.parent with
    | none => pure false
    | some parent =>
      if parent = dfep.id then pure true
      else do
        match ← diridToFent parent with
        | none => stop .null
        | some slot => do
          let pfep ← fentAt .dir slot
          ancestorFrom n pfep dfep

def fentsAncestorCheck (fep dfep : Fent) : Proc φ Bool := do
  let w ← get
  ancestorFrom (w.nfiles .dir + 1) fep dfep

/-- What `fix_parent` makes of an entry. -/
def Fent.fixed (oldid newid : ℕ) (swap : Bool) (f : Fent) : Fent :=
  if f.parent = some oldid then { f with parent := some newid }
  else if swap = true ∧ f.parent = some newid then { f with parent := some oldid } else f

def fixParent (oldid newid : ℕ) (swap : Bool) : Proc φ Unit :=
  modify fun w => { w with fents := fun ft => (w.fents ft).map (Fent.fixed oldid newid swap) }

/-- The name of a new file, in a directory or at the top, and its id. -/
def generateFname (fep : Option Fent) (ft : Ft) : Proc φ (Option (Pathname × ℕ)) := do
  let w ← get
  modify fun w => { w with nameseq := w.nameseq + 1 }
  match fep with
  | none => pure (some ([fileName namerand ft w.nameseq], w.nameseq))
  | some f => do
    match ← fentToName namerand .dir f with
    | none => pure none
    | some name => pure (some (name ++ [fileName namerand ft w.nameseq], w.nameseq))

/-- The types in the order of `flist`. -/
def Ft.all : List Ft := [.dir, .reg, .sym, .dev, .rtf]

def World.totalsum (w : World φ) (which : Ft → Bool) : ℕ :=
  ((Ft.all.filter which).map w.nfiles).sum

/-- The place `x` of the lists that are wanted. -/
def World.found (w : World φ) (which : Ft → Bool) (x : ℕ) : ℕ → List Ft → Option (Ft × ℕ)
  | _, [] => none
  | partialsum, ft :: fts =>
    if which ft = true then
      if x < partialsum + w.nfiles ft then some (ft, x - partialsum)
      else w.found which x (partialsum + w.nfiles ft) fts
    else w.found which x partialsum fts

/-- `get_fname` without a name. -/
def getFent (which : Ft → Bool) (r : ℕ) : Proc φ (Option (Ft × ℕ × Fent)) := do
  let w ← get
  if w.totalsum which = 0 then pure none
  else
    match w.found which (r % w.totalsum which) 0 Ft.all with
    | none => pure none
    | some (ft, slot) => do
      let f ← fentAt ft slot
      pure (some (ft, slot, f))

/-- `get_fname` -/
def getFname (which : Ft → Bool) (r : ℕ) : Proc φ (Option (Ft × ℕ × Fent × Pathname)) := do
  match ← getFent which r with
  | none => pure none
  | some (ft, slot, f) => do
    match ← fentToName namerand ft f with
    | none => pure none
    | some name => pure (some (ft, slot, f, name))

end

/-! ### The cache -/

section

variable {φ : Type} {w v : World φ} {ft : Ft} {slot : ℕ} {f : Fent}

def Cached (w : World φ) : Prop :=
  ∀ i slot, w.dcache i = some slot → ∃ f, (w.fents .dir)[slot]? = some f ∧ f.id % ndcache = i

/-- Only the cache has changed, and it is right. -/
def Looked (w v : World φ) : Prop := Cached v ∧ ∃ c, v = { w with dcache := c }

def Never (_ : Stop) (_ : World φ) : Prop := False

theorem Looked.refl (h : Cached w) : Looked w w := ⟨h, w.dcache, rfl⟩

theorem Looked.fents (h : Looked w v) : v.fents = w.fents := by
  obtain ⟨-, c, rfl⟩ := h
  rfl

theorem Looked.nfiles (h : Looked w v) : v.nfiles = w.nfiles := by
  obtain ⟨-, c, rfl⟩ := h
  rfl

theorem Looked.enter {i : ℕ} {o : Option ℕ} (h : Looked w v)
    (ho : ∀ slot, o = some slot → ∃ f, (w.fents .dir)[slot]? = some f ∧ f.id % ndcache = i) :
    Looked w (v.enter i o) := by
  obtain ⟨hc, c, rfl⟩ := h
  refine ⟨fun j slot hj => ?_, _, rfl⟩
  dsimp only [World.enter] at hj ⊢
  by_cases hji : j = i
  · rw [if_pos hji] at hj
    exact hji ▸ ho slot hj
  · rw [if_neg hji] at hj
    exact hc j slot hj

theorem fentAt_spec {P : World φ → Prop} {E : Stop → World φ → Prop}
    (hf : ∀ v, P v → (v.fents ft)[slot]? = some f) :
    Ends P (fentAt ft slot) (fun g v => g = f ∧ P v) E := by
  refine Ends.get_bind fun v hv => ?_
  rw [hf v hv]
  refine Ends.pure ?_
  rintro u rfl
  exact ⟨rfl, hv⟩

theorem fentAt_looked (hf : (w.fents ft)[slot]? = some f) :
    Ends (Looked w) (fentAt ft slot) (fun g v => g = f ∧ Looked w v) Never :=
  fentAt_spec fun _ hv => hv.fents ▸ hf

theorem dcacheLookup_spec (dirid : ℕ) :
    Ends (Looked w) (dcacheLookup dirid) (fun o v => Looked w v ∧
      ∀ k, o = some k → ∃ f, (w.fents .dir)[k]? = some f ∧ f.id = dirid) Never := by
  refine Ends.get_bind fun v hv => ?_
  cases hd : v.dcache (dirid % ndcache) with
  | none =>
    refine Ends.pure ?_
    rintro u rfl
    exact ⟨hv, fun k hk => absurd hk (by simp)⟩
  | some slot =>
    obtain ⟨f, hf, -⟩ := hv.1 _ _ hd
    refine Ends.bind (fentAt_spec fun u hu => hu ▸ hf) fun g => Ends.pure ?_
    rintro u ⟨rfl, rfl⟩
    rw [hv.fents] at hf
    refine ⟨hv, fun k hk => ?_⟩
    by_cases hid : g.id = dirid
    · rw [if_pos hid] at hk
      exact ⟨g, Option.some.inj hk ▸ hf, hid⟩
    · rw [if_neg hid] at hk
      exact absurd hk (by simp)

/-- A place that is not remembered any more. -/
theorem dcachePurge_spec {K : ℕ → Prop} (hf : (w.fents .dir)[slot]? = some f)
    (hids : ∀ k g, (w.fents .dir)[k]? = some g → g.id = f.id → k = slot) :
    Ends (fun v => Looked w v ∧ ∀ i k, v.dcache i = some k → K k) (dcachePurge f.id)
      (fun _ v => Looked w v ∧ ∀ i k, v.dcache i = some k → K k ∧ k ≠ slot) Never := by
  refine Ends.get_bind fun v hv => ?_
  obtain ⟨hv, hK⟩ := hv
  -- only this entry can be at its place
  have hplace : ∀ i, v.dcache i = some slot → i = f.id % ndcache := by
    intro i hi
    obtain ⟨g, hg, hgi⟩ := hv.1 i slot hi
    rw [hv.fents, hf] at hg
    rw [← hgi, Option.some.inj hg]
  cases hd : v.dcache (f.id % ndcache) with
  | none =>
    refine Ends.pure ?_
    rintro u rfl
    refine ⟨hv, fun i k hi => ⟨hK i k hi, ?_⟩⟩
    rintro rfl
    rw [hplace i hi, hd] at hi
    exact absurd hi (by simp)
  | some k0 =>
    obtain ⟨g, hg, -⟩ := hv.1 _ _ hd
    refine Ends.bind (fentAt_spec fun u hu => hu ▸ hg) fun g' =>
      Ends.onlyIf (fun hid => Ends.modify ?_) fun hid => ?_
    · rintro u ⟨rfl, rfl⟩
      rw [hv.fents] at hg
      have hk0 := hids k0 g' hg hid
      refine ⟨hv.enter fun _ h => absurd h (by simp), fun i k hi => ?_⟩
      dsimp only [World.enter] at hi
      by_cases hif : i = f.id % ndcache
      · rw [if_pos hif] at hi
        exact absurd hi (by simp)
      · rw [if_neg hif] at hi
        exact ⟨hK i k hi, fun hk => hif (hplace i (hk ▸ hi))⟩
    · rintro u ⟨rfl, rfl⟩
      refine ⟨hv, fun i k hi => ⟨hK i k hi, ?_⟩⟩
      rintro rfl
      rw [hplace i hi, hd] at hi
      rw [hv.fents, Option.some.inj hi, hf] at hg
      exact hid (by rw [Option.some.inj hg])

/-- Where a directory is, or that it is nowhere. -/
def Finds (w : World φ) (dirid : ℕ) : Option ℕ → Prop
  | some k => ∃ f, (w.fents .dir)[k]? = some f ∧ f.id = dirid
  | none => ∀ f ∈ w.fents .dir, f.id ≠ dirid

/-- **What the cache says is so.** A directory is found where it is, and only
one that is not there is not found. -/
theorem diridToFent_spec (dirid : ℕ) :
    Ends (Looked w) (diridToFent dirid) (fun o v => Looked w v ∧ Finds w dirid o) Never := by
  refine Ends.bind (dcacheLookup_spec dirid) fun o => ?_
  cases o with
  | some k =>
    refine Ends.pure ?_
    rintro v ⟨hv, hk⟩
    exact ⟨hv, hk k rfl⟩
  | none =>
    refine Ends.get_bind fun v hv => ?_
    replace hv := hv.1
    rw [hv.fents]
    cases hfind : (w.fents .dir).findIdx? (·.id = dirid) with
    | some k =>
      obtain ⟨hlt, hid, -⟩ := List.findIdx?_eq_some_iff_getElem.mp hfind
      have hget : (w.fents .dir)[k]? = some (w.fents .dir)[k] := List.getElem?_eq_getElem hlt
      have hid : (w.fents .dir)[k].id = dirid := by simpa using hid
      refine Ends.bind (R := fun _ u => Looked w u) (Ends.modify ?_) fun _ => Ends.pure ?_
      · rintro u rfl
        refine hv.enter fun slot hslot => ?_
        obtain rfl := Option.some.inj hslot
        exact ⟨_, hget, by rw [hid]⟩
      · exact fun u hu => ⟨hu, _, hget, hid⟩
    | none =>
      refine Ends.pure ?_
      rintro u rfl
      refine ⟨hv, fun f hf hid => ?_⟩
      have hno := List.findIdx?_eq_none_iff.mp hfind f hf
      simp [hid] at hno

/-! ### An entry less -/

theorem swapRemove_concat (init : List Fent) (last : Fent) (slot : ℕ) :
    swapRemove (init ++ [last]) slot =
      if slot < init.length then init.set slot last else init := by
  unfold swapRemove
  by_cases hlt : slot < init.length
  · have hne : slot ≠ (init ++ [last]).length - 1 := by
      rw [List.length_append, List.length_singleton]
      omega
    rw [if_pos hne, if_pos hlt]
    simp only [List.getLast?_concat, List.set_append_left _ _ hlt, List.dropLast_concat]
  · rw [if_neg hlt]
    by_cases hne : slot ≠ (init ++ [last]).length - 1
    · rw [if_pos hne]
      have hset : (init ++ [last]).set slot last = init ++ [last] := by
        refine List.set_eq_of_length_le ?_
        rw [List.length_append, List.length_singleton] at hne ⊢
        omega
      simp only [List.getLast?_concat, hset, List.dropLast_concat]
    · rw [if_neg hne, List.dropLast_concat]

theorem eq_concat {l : List Fent} (h : l[slot]? = some f) : ∃ init last, l = init ++ [last] := by
  rcases List.eq_nil_or_concat l with rfl | ⟨init, last, rfl⟩
  · exact absurd h (by simp)
  · exact ⟨init, last, List.concat_eq_append⟩

theorem swapRemove_perm {l : List Fent} (h : l[slot]? = some f) : (f :: swapRemove l slot).Perm l := by
  obtain ⟨init, last, rfl⟩ := eq_concat h
  rw [swapRemove_concat]
  by_cases hlt : slot < init.length
  · rw [List.getElem?_append_left hlt] at h
    have hf := (List.getElem?_eq_some_iff.mp h).2
    rw [if_pos hlt]
    calc (f :: init.set slot last).Perm (f :: last :: init.eraseIdx slot) :=
          (List.set_perm_cons_eraseIdx hlt last).cons f
      _ |>.Perm (last :: f :: init.eraseIdx slot) := List.Perm.swap _ _ _
      _ |>.Perm (last :: init) := (hf ▸ List.getElem_cons_eraseIdx_perm hlt).cons last
      _ |>.Perm (init ++ [last]) := (List.perm_append_singleton last init).symm
  · have hslot : slot = init.length := by
      have hlen := (List.getElem?_eq_some_iff.mp h).1
      rw [List.length_append, List.length_singleton] at hlen
      omega
    rw [hslot, List.getElem?_concat_length] at h
    rw [if_neg hlt, ← Option.some.inj h]
    exact (List.perm_append_singleton last init).symm

/-- What is at another place that is not the last stays there. -/
theorem swapRemove_getElem? {l : List Fent} {k : ℕ} (h : l[slot]? = some f) (hk : k ≠ slot)
    (hlast : k ≠ l.length - 1) : (swapRemove l slot)[k]? = l[k]? := by
  obtain ⟨init, last, rfl⟩ := eq_concat h
  rw [List.length_append, List.length_singleton] at hlast
  rw [swapRemove_concat]
  have hinit : init[k]? = (init ++ [last])[k]? := by
    by_cases hlt : k < init.length
    · rw [List.getElem?_append_left hlt]
    · rw [List.getElem?_eq_none (by omega), List.getElem?_eq_none (by simp; omega)]
  by_cases hlt : slot < init.length
  · rw [if_pos hlt, List.getElem?_set_ne (Ne.symm hk), hinit]
  · rw [if_neg hlt, hinit]

theorem slot_unique {l : List Fent} (hids : (l.map Fent.id).Nodup) {k : ℕ} {g : Fent}
    (hf : l[slot]? = some f) (hg : l[k]? = some g) (hid : g.id = f.id) : k = slot := by
  have hk : (l.map Fent.id)[k]? = some f.id := by rw [List.getElem?_map, hg, ← hid]; rfl
  have hslot : (l.map Fent.id)[slot]? = some f.id := by rw [List.getElem?_map, hf]; rfl
  obtain ⟨hlt, hk⟩ := List.getElem?_eq_some_iff.mp hk
  obtain ⟨hlt', hslot⟩ := List.getElem?_eq_some_iff.mp hslot
  exact (List.Nodup.getElem_inj_iff hids).mp (hk.trans hslot.symm)

/-- The entry is gone, and what is remembered is right. -/
theorem delFromFlist_spec (hids : ((w.fents .dir).map Fent.id).Nodup)
    (hf : (w.fents ft)[slot]? = some f) :
    Ends (Looked w) (delFromFlist ft slot)
      (fun _ v => Looked (w.setFents ft (swapRemove (w.fents ft) slot)) v) Never := by
  refine Ends.get_bind fun v hv => ?_
  have purge : ∀ {k : ℕ} {g : Fent} {K : ℕ → Prop}, ft = .dir → (w.fents ft)[k]? = some g →
      Ends (fun u => Looked w u ∧ ∀ i k, u.dcache i = some k → K k)
        (do
          let f ← fentAt ft k
          dcachePurge f.id)
        (fun _ u => Looked w u ∧ ∀ i j, u.dcache i = some j → K j ∧ j ≠ k) Never := by
    rintro k g K rfl hg
    refine Ends.bind (fentAt_spec fun u hu => hu.1.fents ▸ hg) fun g' => Ends.of_eq ?_
    rintro u ⟨rfl, hu⟩
    exact (dcachePurge_spec hg fun j g'' hj hid => slot_unique hids hg hj hid).start hu
  refine Ends.bind (R := fun _ u => Looked w u ∧ ∀ i j, u.dcache i = some j → ft = .dir → j ≠ slot)
    (Ends.onlyIf (fun hdir => ?_) fun hdir => ?_) fun _ => ?_
  · refine ((purge (K := fun _ => True) hdir hf).start ⟨hv, fun _ _ _ => trivial⟩).imp ?_
    exact fun _ u hu => ⟨hu.1, fun i j hj _ => (hu.2 i j hj).2⟩
  · rintro u rfl
    exact ⟨hv, fun _ _ _ h => absurd h hdir⟩
  refine Ends.bind (R := fun _ u => Looked w u ∧ ∀ i j, u.dcache i = some j → ft = .dir →
    j ≠ slot ∧ j ≠ (w.fents ft).length - 1)
    (Ends.onlyIf (fun hlast => ?_) fun hlast => ?_) fun _ => Ends.modify ?_
  · have hlen := (List.getElem?_eq_some_iff.mp hf).1
    have hn : v.nfiles ft = (w.fents ft).length := by rw [hv.nfiles, World.nfiles]
    rw [hn]
    have hg := List.getElem?_eq_getElem (l := w.fents ft) (i := (w.fents ft).length - 1) (by omega)
    refine (purge hlast.2 hg).imp ?_
    exact fun _ u hu => ⟨hu.1, fun i j hj h => ⟨(hu.2 i j hj).1 h, (hu.2 i j hj).2⟩⟩
  · rintro u ⟨hu, hne⟩
    refine ⟨hu, fun i j hj h => ⟨hne i j hj h, ?_⟩⟩
    have hn : v.nfiles ft = (w.fents ft).length := by rw [hv.nfiles, World.nfiles]
    rw [hn] at hlast
    have hslot : slot = (w.fents ft).length - 1 := by
      by_contra hns
      exact hlast ⟨hns, h⟩
    exact hslot ▸ hne i j hj h
  · rintro u ⟨hu, hne⟩
    obtain ⟨hc, c, rfl⟩ := hu
    refine ⟨fun i j hj => ?_, c, rfl⟩
    obtain ⟨g, hg, hgi⟩ := hc i j hj
    refine ⟨g, ?_, hgi⟩
    show (if Ft.dir = ft then _ else _)[j]? = some g
    split_ifs with hdir
    · obtain ⟨hns, hnl⟩ := hne i j hj hdir.symm
      subst hdir
      rw [swapRemove_getElem? hf hns hnl]
      exact hg
    · exact hg

end

end Fsstress
end Longan
