/-
# fsstress: how its lists change

A file is added, removed, given another parent or another counter
(`World.added` to `World.withXattr`), as the functions on the lists do. Each
time the ids stay unique (`Listed`), the cache stays right, and what becomes of
the set of entries is said.
-/
import Longan.Fsstress.Ops

namespace Longan
namespace Fsstress

section

variable {φ : Type} {namerand : ℕ} {w : World φ} {ft : Ft} {slot : ℕ} {f : Fent}

structure Listed (w : World φ) : Prop where
  nodup : ∀ ft, ((w.fents ft).map Fent.id).Nodup
  seq : ∀ ft, ∀ f ∈ w.fents ft, f.id < w.nameseq

theorem fents_setFents (w : World φ) (ft t : Ft) (l : List Fent) :
    (w.setFents ft l).fents t = if t = ft then l else w.fents t := rfl

/-- One list is another. -/
theorem Listed.setFents (h : Listed w) {l : List Fent} (hnodup : (l.map Fent.id).Nodup)
    (hseq : ∀ f ∈ l, f.id < w.nameseq) : Listed (w.setFents ft l) := by
  refine ⟨fun t => ?_, fun t f hf => ?_⟩
  · rw [fents_setFents]
    split_ifs
    · exact hnodup
    · exact h.nodup t
  · rw [fents_setFents] at hf
    split_ifs at hf
    · exact hseq f hf
    · exact h.seq t f hf

/-- A file more. -/
def World.added (w : World φ) (ft : Ft) (f : Fent) : World φ := w.setFents ft (w.fents ft ++ [f])

/-- A file less. -/
def World.removed (w : World φ) (ft : Ft) (slot : ℕ) : World φ :=
  w.setFents ft (swapRemove (w.fents ft) slot)

/-- Other parents. -/
def World.fixed (w : World φ) (oldid newid : ℕ) (swap : Bool) : World φ :=
  { w with fents := fun ft => (w.fents ft).map (Fent.fixed oldid newid swap) }

def World.withXattr (w : World φ) (ft : Ft) (slot n : ℕ) : World φ :=
  w.setFents ft ((w.fents ft).modify slot fun f => { f with xattrCounter := n })

theorem Listed.added (h : Listed w) (hid : f.id < w.nameseq) (hnew : ∀ g ∈ w.fents ft, g.id ≠ f.id) :
    Listed (w.added ft f) := by
  refine h.setFents ?_ ?_
  · rw [List.map_append, List.nodup_append]
    refine ⟨h.nodup ft, by simp, ?_⟩
    rintro a ha b hb rfl
    obtain ⟨g, hg, rfl⟩ := List.mem_map.mp ha
    exact hnew g hg (by simpa using hb)
  · intro g hg
    rcases List.mem_append.mp hg with hg | hg
    · exact h.seq ft g hg
    · rw [List.mem_singleton.mp hg]
      exact hid

theorem Listed.removed (h : Listed w) (hf : (w.fents ft)[slot]? = some f) :
    Listed (w.removed ft slot) := by
  have hperm := swapRemove_perm hf
  refine h.setFents ?_ fun g hg => h.seq ft g (hperm.subset (List.mem_cons_of_mem f hg))
  have hnodup := (hperm.map Fent.id).nodup_iff.mpr (h.nodup ft)
  exact (List.nodup_cons.mp hnodup).2

@[simp] theorem Fent.fixed_id (a b : ℕ) (swap : Bool) (f : Fent) : (f.fixed a b swap).id = f.id := by
  unfold Fent.fixed
  split_ifs <;> rfl

theorem map_fixed_id (a b : ℕ) (swap : Bool) (l : List Fent) :
    (l.map (Fent.fixed a b swap)).map Fent.id = l.map Fent.id := by
  rw [List.map_map]
  exact List.map_congr_left fun f _ => Fent.fixed_id a b swap f

theorem Listed.fixed (h : Listed w) (a b : ℕ) (swap : Bool) : Listed (w.fixed a b swap) := by
  refine ⟨fun t => ?_, fun t g hg => ?_⟩
  · show (((w.fents t).map (Fent.fixed a b swap)).map Fent.id).Nodup
    rw [map_fixed_id]
    exact h.nodup t
  · obtain ⟨g', hg', rfl⟩ := List.mem_map.mp hg
    rw [Fent.fixed_id]
    exact h.seq t g' hg'

theorem map_modify {α : Type} (l : List Fent) (slot n : ℕ) (key : Fent → α)
    (hkey : ∀ f, key { f with xattrCounter := n } = key f) :
    (l.modify slot fun f => { f with xattrCounter := n }).map key = l.map key := by
  refine List.ext_getElem? fun i => ?_
  rw [List.getElem?_map, List.getElem?_map, List.getElem?_modify]
  cases l[i]? with
  | none => rfl
  | some f =>
    by_cases hi : slot = i
    · simp [hi, hkey]
    · simp [hi]

theorem Listed.withXattr (h : Listed w) (slot n : ℕ) : Listed (w.withXattr ft slot n) := by
  have hids := map_modify (w.fents ft) slot n Fent.id fun _ => rfl
  refine h.setFents (hids ▸ h.nodup ft) fun g hg => ?_
  have hmem := List.mem_map_of_mem (f := Fent.id) hg
  rw [hids] at hmem
  obtain ⟨g', hg', hid⟩ := List.mem_map.mp hmem
  exact hid ▸ h.seq ft g' hg'

/-! ### What becomes of the entries -/

theorem entries_added (w : World φ) (ft : Ft) (f : Fent) :
    (w.added ft f).entries namerand = insert (entry namerand ft f) (w.entries namerand) := by
  ext e
  constructor
  · rintro ⟨t, g, hg, rfl⟩
    rw [World.added, fents_setFents] at hg
    split_ifs at hg with ht
    · subst ht
      rcases List.mem_append.mp hg with hg | hg
      · exact Or.inr (mem_entries hg)
      · exact Or.inl (by rw [List.mem_singleton.mp hg])
    · exact Or.inr (mem_entries hg)
  · rintro (rfl | ⟨t, g, hg, rfl⟩)
    · refine mem_entries ?_
      rw [World.added, fents_setFents, if_pos rfl]
      exact List.mem_append_right _ (List.mem_singleton_self f)
    · refine mem_entries ?_
      rw [World.added, fents_setFents]
      split_ifs with ht
      · subst ht
        exact List.mem_append_left _ hg
      · exact hg

theorem entries_removed (namerand : ℕ) (h : Listed w) (hf : (w.fents ft)[slot]? = some f) :
    (w.removed ft slot).entries namerand = w.entries namerand \ {entry namerand ft f} := by
  have hperm := swapRemove_perm hf
  have hnodup := List.nodup_cons.mp ((hperm.map Fent.id).nodup_iff.mpr (h.nodup ft))
  ext e
  constructor
  · rintro ⟨t, g, hg, rfl⟩
    rw [World.removed, fents_setFents] at hg
    split_ifs at hg with ht
    · subst ht
      refine ⟨mem_entries (hperm.subset (List.mem_cons_of_mem f hg)), fun heq => ?_⟩
      exact hnodup.1 ((entry_inj heq).2 ▸ List.mem_map_of_mem hg)
    · exact ⟨mem_entries hg, fun heq => ht (entry_inj heq).1⟩
  · rintro ⟨⟨t, g, hg, rfl⟩, hne⟩
    refine mem_entries ?_
    rw [World.removed, fents_setFents]
    split_ifs with ht
    · subst ht
      rcases List.mem_cons.mp (hperm.mem_iff.mpr hg) with rfl | hg
      · exact absurd rfl hne
      · exact hg
    · exact hg

theorem entry_fixed (a b : ℕ) (ft : Ft) (f : Fent) :
    entry namerand ft (f.fixed a b false) = reparent a b (entry namerand ft f) := by
  unfold Fent.fixed reparent entry
  by_cases h : f.parent = some a <;> simp [h]

theorem entry_crossed (a b : ℕ) (ft : Ft) (f : Fent) :
    entry namerand ft (f.fixed a b true) = crossParent a b (entry namerand ft f) := by
  unfold Fent.fixed crossParent entry
  by_cases h : f.parent = some a
  · simp [h]
  · by_cases h' : f.parent = some b
    · have hba : b ≠ a := fun hba => h (hba ▸ h')
      simp [h', hba]
    · simp [h, h']

theorem entries_fixed (w : World φ) (a b : ℕ) (swap : Bool)
    {g : Entry ℕ Text FileKind → Entry ℕ Text FileKind}
    (hg : ∀ ft f, entry namerand ft (f.fixed a b swap) = g (entry namerand ft f)) :
    (w.fixed a b swap).entries namerand = g '' w.entries namerand := by
  ext e
  constructor
  · rintro ⟨t, f, hf, rfl⟩
    obtain ⟨f', hf', rfl⟩ := List.mem_map.mp hf
    exact ⟨_, mem_entries hf', (hg t f').symm⟩
  · rintro ⟨_, ⟨t, f, hf, rfl⟩, rfl⟩
    exact ⟨t, _, List.mem_map_of_mem hf, (hg t f).symm⟩

theorem entries_withXattr (namerand : ℕ) (w : World φ) (ft : Ft) (slot n : ℕ) :
    (w.withXattr ft slot n).entries namerand = w.entries namerand := by
  have hmap := map_modify (w.fents ft) slot n (entry namerand ft) fun _ => rfl
  have hmem : ∀ t e, e ∈ ((w.withXattr ft slot n).fents t).map (entry namerand t) ↔
      e ∈ (w.fents t).map (entry namerand t) := by
    intro t e
    rw [World.withXattr, fents_setFents]
    split_ifs with ht
    · subst ht
      rw [hmap]
    · rfl
  ext e
  refine exists_congr fun t => ?_
  simpa only [List.mem_map, eq_comm] using hmem t e

/-! ### What the list functions do -/

variable {E : Stop → World φ → Prop}

theorem addToFlist_spec (ft : Ft) (f : Fent) :
    Ends (Looked w) (addToFlist ft f.id f.parent f.xattrCounter)
      (fun _ v => Looked (w.added ft f) v) E := by
  refine Ends.modify ?_
  rintro v ⟨hc, c, rfl⟩
  refine ⟨fun i slot hi => ?_, c, rfl⟩
  obtain ⟨g, hg, hgi⟩ := hc i slot hi
  refine ⟨g, ?_, hgi⟩
  rw [fents_setFents]
  split_ifs with ht
  · subst ht
    rw [List.getElem?_append_left (List.getElem?_eq_some_iff.mp hg).1]
    exact hg
  · exact hg

theorem fixParent_spec (a b : ℕ) (swap : Bool) :
    Ends (Looked w) (fixParent a b swap) (fun _ v => Looked (w.fixed a b swap) v) E := by
  refine Ends.modify ?_
  rintro v ⟨hc, c, rfl⟩
  refine ⟨fun i slot hi => ?_, c, rfl⟩
  obtain ⟨g, hg, hgi⟩ := hc i slot hi
  refine ⟨g.fixed a b swap, ?_, by rw [Fent.fixed_id, hgi]⟩
  show ((w.fents .dir).map _)[slot]? = _
  rw [List.getElem?_map, hg]
  rfl

theorem setXattr_spec (ft : Ft) (slot n : ℕ) :
    Ends (Looked w) (setXattr ft slot n) (fun _ v => Looked (w.withXattr ft slot n) v) E := by
  refine Ends.modify ?_
  rintro v ⟨hc, c, rfl⟩
  refine ⟨fun i k hi => ?_, c, rfl⟩
  obtain ⟨g, hg, hgi⟩ := hc i k hi
  rw [fents_setFents]
  split_ifs with ht
  · subst ht
    rw [List.getElem?_modify, hg]
    by_cases hk : slot = k
    · exact ⟨{ g with xattrCounter := n }, by simp [hk], hgi⟩
    · exact ⟨g, by simp [hk], hgi⟩
  · exact ⟨g, hg, hgi⟩

end

end Fsstress
end Longan
