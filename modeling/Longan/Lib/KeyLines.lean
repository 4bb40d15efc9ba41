/-
# Lines with keys

A line `key=value` belongs to the key before its first `=`. An assignment of
values to some keys rewrites the lines of these keys and leaves the others
alone (`assign`). Assignments compose: the later one wins (`assign_assign`), so
a line that went through any number of them has the value of the last one for
its key, and what a total assignment of the same keys leaves does not depend on
what came before (`assign_after`).
-/
import Longan.Lib.Text

namespace Longan
namespace KeyLines

/-- What precedes the first `=`. -/
def key (l : Text) : Option Text := if '=' ∈ l then some (l.takeWhile (· ≠ '=')) else none

abbrev Assignment := Text → Option Text

def assign (a : Assignment) (l : Text) : Text :=
  match key l with
  | some k => match a k with
    | some v => k ++ '=' :: v
    | none => l
  | none => l

/-- `a`, and `b` where `a` says nothing. -/
def overlay (a b : Assignment) : Assignment := fun k => (a k).or (b k)

def single (k v : Text) : Assignment := fun x => if x = k then some v else none

/-- The last of the pairs wins. -/
def ofPairs : List (Text × Text) → Assignment
  | [] => fun _ => none
  | p :: ps => overlay (ofPairs ps) (single p.1 p.2)

theorem takeWhile_key {k : Text} (hk : '=' ∉ k) (v : Text) : (k ++ '=' :: v).takeWhile (· ≠ '=') = k := by
  induction k with
  | nil => rfl
  | cons c k ih =>
    simp only [List.mem_cons, not_or] at hk
    have hc : decide (c ≠ '=') = true := decide_eq_true (Ne.symm hk.1)
    rw [List.cons_append, List.takeWhile_cons, hc]
    exact congrArg (c :: ·) (ih hk.2)

theorem key_append {k : Text} (hk : '=' ∉ k) (v : Text) : key (k ++ '=' :: v) = some k := by
  rw [key, if_pos (by simp), takeWhile_key hk]

theorem key_eq_some_iff {k l : Text} : key l = some k ↔ '=' ∉ k ∧ ∃ v, l = k ++ '=' :: v := by
  constructor
  · intro h
    unfold key at h
    split_ifs at h with hl
    have hk := Option.some.inj h
    have hnot : '=' ∉ k := fun hm => by
      rw [← hk] at hm
      have hne := List.mem_takeWhile_imp hm
      exact absurd hne (by decide)
    refine ⟨hnot, ?_⟩
    cases hd : l.dropWhile (· ≠ '=') with
    | nil =>
      have hall := List.dropWhile_eq_nil_iff.mp hd '=' hl
      exact absurd rfl (of_decide_eq_true hall)
    | cons c v =>
      have hc : c = '=' := by
        by_contra hne
        have hhead := List.head?_dropWhile_not (· ≠ '=') l
        rw [hd] at hhead
        simp [hne] at hhead
      refine ⟨v, ?_⟩
      rw [← List.takeWhile_append_dropWhile (p := (· ≠ '=')) (l := l), hk, hd, hc]
  · rintro ⟨hk, v, rfl⟩
    exact key_append hk v

/-- The lines of a key are those that begin with it and `=`. -/
theorem key_eq_some_iff_begins {k l : Text} (hk : '=' ∉ k) : key l = some k ↔ (k ++ ['=']) <+: l := by
  rw [key_eq_some_iff, and_iff_right hk]
  constructor
  · rintro ⟨v, rfl⟩
    exact ⟨v, by simp⟩
  · rintro ⟨v, rfl⟩
    exact ⟨v, by simp⟩

/-! ### Assignments -/

variable {a b : Assignment} {k v l : Text}

theorem assign_of_some (hk : key l = some k) (ha : a k = some v) : assign a l = k ++ '=' :: v := by
  unfold assign
  simp only [hk, ha]

theorem assign_of_none (hk : key l = some k) (ha : a k = none) : assign a l = l := by
  unfold assign
  simp only [hk, ha]

theorem assign_of_no_key (hk : key l = none) : assign a l = l := by
  unfold assign
  simp only [hk]

theorem key_assign (a : Assignment) (l : Text) : key (assign a l) = key l := by
  cases hk : key l with
  | none => rw [assign_of_no_key hk, hk]
  | some k =>
    cases ha : a k with
    | none => rw [assign_of_none hk ha, hk]
    | some v => rw [assign_of_some hk ha, key_append (key_eq_some_iff.mp hk).1]

/-- The later assignment wins. -/
theorem assign_assign (a b : Assignment) (l : Text) : assign a (assign b l) = assign (overlay a b) l := by
  cases hk : key l with
  | none => rw [assign_of_no_key hk, assign_of_no_key hk, assign_of_no_key hk]
  | some k =>
    have hk' := (key_assign b l).trans hk
    cases ha : a k with
    | some v =>
      have hboth : overlay a b k = some v := by rw [overlay, ha]; rfl
      rw [assign_of_some hk' ha, assign_of_some hk hboth]
    | none =>
      have hboth : overlay a b k = b k := by rw [overlay, ha]; rfl
      rw [assign_of_none hk' ha]
      cases hb : b k with
      | some v => rw [assign_of_some hk hb, assign_of_some hk (hboth.trans hb)]
      | none => rw [assign_of_none hk hb, assign_of_none hk (hboth.trans hb)]

theorem assign_none (l : Text) : assign (fun _ => none) l = l := by
  cases hk : key l with
  | none => exact assign_of_no_key hk
  | some k => exact assign_of_none hk rfl

theorem map_assign_none (ls : List Text) : ls.map (assign fun _ => none) = ls := by
  rw [List.map_congr_left fun l _ => assign_none l, List.map_id']

/-- What comes before an assignment of at least the same keys makes no
difference. -/
theorem assign_after (h : ∀ k, a k = none → b k = none) (l : Text) :
    assign a (assign b l) = assign a l := by
  have hboth : overlay a b = a := funext fun k => by
    cases ha : a k with
    | some v => rw [overlay, ha]; rfl
    | none => rw [overlay, ha, h k ha]; rfl
  rw [assign_assign, hboth]

/-! ### Pairs with different keys -/

theorem ofPairs_eq_none_iff : ∀ {ps : List (Text × Text)},
    ofPairs ps k = none ↔ k ∉ ps.map Prod.fst
  | [] => iff_of_true rfl List.not_mem_nil
  | p :: ps => by
    have ih : ofPairs ps k = none ↔ k ∉ ps.map Prod.fst := ofPairs_eq_none_iff
    rw [ofPairs, overlay, Option.or_eq_none_iff, ih, List.map_cons, List.mem_cons, not_or, and_comm]
    apply and_congr_left'
    unfold single
    split_ifs with hk <;> simp [hk]

theorem ofPairs_eq_some_iff : ∀ {ps : List (Text × Text)}, (ps.map Prod.fst).Nodup →
    (ofPairs ps k = some v ↔ (k, v) ∈ ps)
  | [], _ => iff_of_false (fun h => (nomatch h)) List.not_mem_nil
  | p :: ps, hn => by
    obtain ⟨hp, hn⟩ := List.nodup_cons.mp hn
    have ih : ofPairs ps k = some v ↔ (k, v) ∈ ps := ofPairs_eq_some_iff hn
    rw [ofPairs, overlay, List.mem_cons]
    by_cases hk : k = p.1
    · have hnone : ofPairs ps k = none := ofPairs_eq_none_iff.mpr (hk ▸ hp)
      have hnot : (k, v) ∉ ps := fun h => hp (hk ▸ List.mem_map_of_mem h)
      rw [hnone, Option.none_or, or_iff_left hnot, single, if_pos hk, Option.some.injEq, Prod.ext_iff]
      exact ⟨fun h => ⟨hk, h.symm⟩, fun h => h.2.symm⟩
    · have hne : (k, v) ≠ p := fun h => hk (congrArg Prod.fst h)
      rw [single, if_neg hk, Option.or_none, or_iff_right hne]
      exact ih

/-- Their order makes no difference. -/
theorem ofPairs_perm {ps qs : List (Text × Text)} (h : ps.Perm qs) (hn : (ps.map Prod.fst).Nodup) :
    ofPairs ps = ofPairs qs := by
  have hn' : (qs.map Prod.fst).Nodup := (h.map Prod.fst).nodup_iff.mp hn
  funext k
  refine Option.ext fun v => ?_
  rw [ofPairs_eq_some_iff hn, ofPairs_eq_some_iff hn', h.mem_iff]

end KeyLines
end Longan
