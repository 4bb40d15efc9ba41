/-
# Lists that mirror a tree

A list of files keeps no paths: each `Entry` has a name and the directory it is
in, and `At dir E p e` says that the directories above `e` spell `p`. The list
mirrors the tree (`Mirrors`) when what it spells is what the tree has.

A file that is made, removed, moved or exchanged with another changes the tree
below a path, and one entry of the list and the directories that entries name;
the list mirrors the tree again (`Mirrors.insert`, `Mirrors.remove`,
`Mirrors.move`, `Mirrors.exchange`).
-/
import Longan.Lib.Tree
import Mathlib.Data.Set.Image

namespace Longan

variable {ι ν κ : Type}

/-- A file of a list: its directory is named by an id. -/
structure Entry (ι ν κ : Type) where
  id : ι
  parent : Option ι
  name : ν
  kind : κ

/-- The directories above an entry spell its path. -/
inductive At (dir : κ) (E : Set (Entry ι ν κ)) : List ν → Entry ι ν κ → Prop
  | top {e : Entry ι ν κ} (he : e ∈ E) (h : e.parent = none) : At dir E [e.name] e
  | under {p : List ν} {d e : Entry ι ν κ} (hd : At dir E p d) (hdir : d.kind = dir) (he : e ∈ E)
      (h : e.parent = some d.id) : At dir E (e.name :: p) e

/-- A parent that an entry at `q` and one name more has to have. -/
def Spot (dir : κ) (E : Set (Entry ι ν κ)) (q : List ν) (parent : Option ι) : Prop :=
  (q = [] ∧ parent = none) ∨ ∃ d, At dir E q d ∧ d.kind = dir ∧ parent = some d.id

/-- The list has the files of the tree. -/
structure Mirrors (dir : κ) (E : Set (Entry ι ν κ)) (T : Tree ν κ) : Prop where
  ids : ∀ e ∈ E, ∀ e' ∈ E, e.id = e'.id → e = e'
  names : ∀ e ∈ E, ∀ e' ∈ E, e.name = e'.name → e = e'
  root : T [] = some dir
  listed : ∀ e ∈ E, ∃ p, At dir E p e ∧ T p = some e.kind
  found : ∀ x p, T (x :: p) ≠ none → ∃ e, At dir E (x :: p) e

section

variable {dir : κ} {E : Set (Entry ι ν κ)} {T : Tree ν κ}

theorem At.mem {p : List ν} {e : Entry ι ν κ} (h : At dir E p e) : e ∈ E := by
  cases h with
  | top he => exact he
  | under _ _ he => exact he

theorem At.spot {p : List ν} {e : Entry ι ν κ} (h : At dir E p e) :
    ∃ q, p = e.name :: q ∧ Spot dir E q e.parent := by
  cases h with
  | top _ h => exact ⟨[], rfl, Or.inl ⟨rfl, h⟩⟩
  | under hd hdir _ h => exact ⟨_, rfl, Or.inr ⟨_, hd, hdir, h⟩⟩

theorem At.ne_nil {p : List ν} {e : Entry ι ν κ} (h : At dir E p e) : p ≠ [] := by
  obtain ⟨q, rfl, -⟩ := h.spot
  exact List.cons_ne_nil _ _

theorem Spot.at {q : List ν} {e : Entry ι ν κ} (h : Spot dir E q e.parent) (he : e ∈ E) :
    At dir E (e.name :: q) e := by
  rcases h with ⟨rfl, h⟩ | ⟨d, hd, hdir, h⟩
  · exact At.top he h
  · exact At.under hd hdir he h

/-- An entry has one path. -/
theorem At.path_unique (hids : ∀ e ∈ E, ∀ e' ∈ E, e.id = e'.id → e = e') {p : List ν}
    {e : Entry ι ν κ} (h : At dir E p e) : ∀ {p' : List ν}, At dir E p' e → p = p' := by
  induction h with
  | top _ h =>
    intro p' h'
    cases h' with
    | top => rfl
    | under _ _ _ h' => exact absurd (h.symm.trans h') (by simp)
  | under hd _ _ h ih =>
    intro p' h'
    cases h' with
    | top _ h' => exact absurd (h.symm.trans h') (by simp)
    | under hd' _ _ h' =>
      have hid := hids _ hd.mem _ hd'.mem (Option.some.inj (h.symm.trans h'))
      subst hid
      rw [ih hd']

namespace Mirrors

/-- A path has one entry. -/
theorem entry_unique (h : Mirrors dir E T) {p : List ν} {e e' : Entry ι ν κ} (he : At dir E p e)
    (he' : At dir E p e') : e = e' := by
  obtain ⟨q, hq, -⟩ := he.spot
  obtain ⟨q', hq', -⟩ := he'.spot
  exact h.names e he.mem e' he'.mem (List.cons.inj (hq.symm.trans hq')).1

theorem path_unique (h : Mirrors dir E T) {p p' : List ν} {e : Entry ι ν κ} (he : At dir E p e)
    (he' : At dir E p' e) : p = p' := he.path_unique h.ids he'

theorem kind (h : Mirrors dir E T) {p : List ν} {e : Entry ι ν κ} (he : At dir E p e) :
    T p = some e.kind := by
  obtain ⟨p', hp', hT⟩ := h.listed e he.mem
  rwa [h.path_unique he hp']

/-- **What the tree has is what is listed.** -/
theorem iff (h : Mirrors dir E T) (p : List ν) (k : κ) :
    T p = some k ↔ (p = [] ∧ k = dir) ∨ ∃ e, At dir E p e ∧ e.kind = k := by
  constructor
  · intro hk
    match p with
    | [] => exact Or.inl ⟨rfl, Option.some.inj (hk.symm.trans h.root)⟩
    | x :: p =>
      obtain ⟨e, he⟩ := h.found x p (by simp [hk])
      exact Or.inr ⟨e, he, Option.some.inj ((h.kind he).symm.trans hk)⟩
  · rintro (⟨rfl, rfl⟩ | ⟨e, he, rfl⟩)
    · exact h.root
    · exact h.kind he

/-- What is in a directory is in a directory. -/
theorem above (h : Mirrors dir E T) {x : ν} {p : List ν} (hx : T (x :: p) ≠ none) :
    T p = some dir := by
  obtain ⟨e, he⟩ := h.found x p hx
  obtain ⟨q, hq, hspot⟩ := he.spot
  obtain ⟨-, rfl⟩ := List.cons.inj hq
  rcases hspot with ⟨rfl, -⟩ | ⟨d, hd, hdir, -⟩
  · exact h.root
  · rw [h.kind hd, hdir]

/-- Nothing is below what is no directory. -/
theorem leaf (h : Mirrors dir E T) {p : List ν} (hp : T p ≠ some dir) : ∀ {s : List ν}, s ≠ [] →
    T (s ++ p) = none
  | [x], _ => by
    by_contra hx
    exact hp (h.above hx)
  | x :: y :: s, _ => by
    by_contra hx
    have habove : T (y :: s ++ p) = some dir := h.above hx
    rw [h.leaf hp (List.cons_ne_nil y s)] at habove
    exact absurd habove (by simp)

/-- A name that is not listed is free. -/
theorem free (h : Mirrors dir E T) {x : ν} (hx : ∀ e ∈ E, e.name ≠ x) (q : List ν) :
    T (x :: q) = none := by
  by_contra hT
  obtain ⟨e, he⟩ := h.found x q hT
  obtain ⟨q', hq, -⟩ := he.spot
  exact hx e he.mem (List.cons.inj hq).1.symm

/-- Neither of two directories is in the other. -/
structure Apart (dir : κ) (E : Set (Entry ι ν κ)) (a b : Entry ι ν κ) (p q : List ν) : Prop where
  left : At dir E p a
  right : At dir E q b
  left_dir : a.kind = dir
  right_dir : b.kind = dir
  not_right : ¬ p <:+ q
  not_left : ¬ q <:+ p

theorem Apart.symm {a b : Entry ι ν κ} {p q : List ν} (h : Apart dir E a b p q) : Apart dir E b a q p :=
  ⟨h.right, h.left, h.right_dir, h.left_dir, h.not_left, h.not_right⟩

theorem Apart.id_ne {a b : Entry ι ν κ} {p q : List ν} (h : Apart dir E a b p q)
    (hm : Mirrors dir E T) : b.id ≠ a.id := by
  intro hid
  have hab := hm.ids b h.right.mem a h.left.mem hid
  exact h.not_right (hm.path_unique h.left (hab ▸ h.right) ▸ List.suffix_refl _)

/-- A file that is no directory is moved and one like it put in its place, which
is as if the new one had been put there. -/
theorem move_put [DecidableEq ν] (hm : Mirrors dir E T) {p q : List ν} {k : κ} (hp : T p = some k)
    (hdir : k ≠ dir) (hq : T q = none) : (T.move p q).put p k = T.put q k := by
  have hno : T p ≠ some dir := by
    rw [hp]
    simpa using hdir
  have hpq : p ≠ q := by
    rintro rfl
    exact absurd (hq.symm.trans hp) (by simp)
  funext r
  unfold Tree.put
  by_cases hrp : r = p
  · rw [if_pos hrp, if_neg (fun h => hpq (hrp.symm.trans h)), hrp, hp]
  · rw [if_neg hrp]
    by_cases hrq : q <:+ r
    · obtain ⟨s, rfl⟩ := hrq
      rw [Tree.move_below]
      by_cases hs : s = []
      · rw [hs, if_pos (List.nil_append q)]
        exact hp
      · rw [hm.leaf hno hs, if_neg (fun h => hs (List.append_left_eq_self.mp h)),
          hm.leaf (by rw [hq]; simp) hs]
    · have hne : r ≠ q := by
        rintro rfl
        exact hrq (List.suffix_refl r)
      rw [if_neg hne]
      by_cases hsub : p <:+ r
      · obtain ⟨s, rfl⟩ := hsub
        rw [Tree.move_away hrq (List.suffix_append s p),
          hm.leaf hno (fun hs => hrp (by rw [hs, List.nil_append]))]
      · exact Tree.move_else hrq hsub

/-- Two files of one kind that are no directories are exchanged, and the tree
is as it was. -/
theorem exchange_files [DecidableEq ν] (hm : Mirrors dir E T) {a b : Entry ι ν κ} {p q : List ν}
    (ha : At dir E p a) (hb : At dir E q b)
    (hkind : a.kind = b.kind) (hdir : a.kind ≠ dir) : T.exchange p q = T := by
  have hTp : T p = T q := by rw [hm.kind ha, hm.kind hb, hkind]
  have hno : T p ≠ some dir := by rw [hm.kind ha]; simpa using hdir
  have hno' : T q ≠ some dir := hTp ▸ hno
  have hbelow : ∀ s, T (s ++ p) = T (s ++ q) := by
    intro s
    match s with
    | [] => exact hTp
    | x :: s => rw [hm.leaf hno (List.cons_ne_nil x s), hm.leaf hno' (List.cons_ne_nil x s)]
  funext r
  rw [Tree.exchange]
  by_cases h1 : p <:+ r
  · obtain ⟨s, rfl⟩ := h1
    rw [Tree.swap_left, hbelow]
  · by_cases h2 : q <:+ r
    · obtain ⟨s, rfl⟩ := h2
      rw [Tree.swap, Tree.below_eq_none.mpr h1]
      exact (congrArg T Tree.relocate_below).trans (hbelow s)
    · rw [Tree.swap_neither h1 h2]

/-! ### A new file -/

theorem spot_mono {E' : Set (Entry ι ν κ)} (h : ∀ {p e}, At dir E p e → At dir E' p e) {q : List ν}
    {parent : Option ι} (hq : Spot dir E q parent) : Spot dir E' q parent := by
  rcases hq with hq | ⟨d, hd, hdir, hp⟩
  · exact Or.inl hq
  · exact Or.inr ⟨d, h hd, hdir, hp⟩

theorem at_mono {E' : Set (Entry ι ν κ)} (h : E ⊆ E') {p : List ν} {e : Entry ι ν κ}
    (he : At dir E p e) : At dir E' p e := by
  induction he with
  | top he hp => exact At.top (h he) hp
  | under _ hdir he hp ih => exact At.under ih hdir (h he) hp

/-- A file that is made. -/
theorem insert [DecidableEq ν] (h : Mirrors dir E T) {n : Entry ι ν κ} {q : List ν}
    (hid : ∀ e ∈ E, e.id ≠ n.id) (hname : ∀ e ∈ E, e.name ≠ n.name)
    (hq : Spot dir E q n.parent) : Mirrors dir (insert n E) (T.put (n.name :: q) n.kind) := by
  have hmono : ∀ {p e}, At dir E p e → At dir (Insert.insert n E) p e :=
    at_mono (Set.subset_insert n E)
  have hn : At dir (Insert.insert n E) (n.name :: q) n :=
    (spot_mono hmono hq).at (Set.mem_insert n E)
  refine ⟨?_, ?_, ?_, ?_, ?_⟩
  · rintro e (rfl | he) e' (rfl | he') heq
    · rfl
    · exact absurd heq.symm (hid e' he')
    · exact absurd heq (hid e he)
    · exact h.ids e he e' he' heq
  · rintro e (rfl | he) e' (rfl | he') heq
    · rfl
    · exact absurd heq.symm (hname e' he')
    · exact absurd heq (hname e he)
    · exact h.names e he e' he' heq
  · rw [Tree.put, if_neg (List.cons_ne_nil _ _).symm]
    exact h.root
  · rintro e (rfl | he)
    · exact ⟨_, hn, if_pos rfl⟩
    · obtain ⟨p, hp, hT⟩ := h.listed e he
      refine ⟨p, hmono hp, ?_⟩
      obtain ⟨p', rfl, -⟩ := hp.spot
      rwa [Tree.put, if_neg fun heq => hname e he (List.cons.inj heq).1]
  · intro x p hx
    by_cases hp : x :: p = n.name :: q
    · exact ⟨n, hp ▸ hn⟩
    · rw [Tree.put, if_neg hp] at hx
      obtain ⟨e, he⟩ := h.found x p hx
      exact ⟨e, hmono he⟩

/-! ### A file less -/

/-- Nobody is in what has nothing below it. -/
theorem childless (h : Mirrors dir E T) {p : List ν} {e : Entry ι ν κ} (he : At dir E p e)
    (hempty : ∀ x, T (x :: p) = none) : ∀ e' ∈ E, e'.parent ≠ some e.id := by
  intro e' he' hp
  obtain ⟨r, hr, hT⟩ := h.listed e' he'
  obtain ⟨q, rfl, hspot⟩ := hr.spot
  rcases hspot with ⟨-, hnone⟩ | ⟨d, hd, -, hsome⟩
  · exact absurd (hp.symm.trans hnone) (by simp)
  · have hde := h.ids d hd.mem e he.mem (Option.some.inj (hsome.symm.trans hp))
    rw [hde] at hd
    rw [h.path_unique hd he, hempty] at hT
    exact absurd hT (by simp)

theorem at_remove {e : Entry ι ν κ}
    (hchild : ∀ e' ∈ E, e'.parent ≠ some e.id) {r : List ν} {x : Entry ι ν κ} (hx : At dir E r x) :
    x ≠ e → At dir (E \ {e}) r x := by
  induction hx with
  | top hx hp => exact fun hne => At.top ⟨hx, hne⟩ hp
  | under _ hdir hx hp ih =>
    intro hne
    refine At.under (ih ?_) hdir ⟨hx, hne⟩ hp
    rintro rfl
    exact hchild _ hx hp

/-- A file that is removed, with nothing below it. -/
theorem remove [DecidableEq ν] (h : Mirrors dir E T) {p : List ν} {e : Entry ι ν κ}
    (he : At dir E p e) (hempty : ∀ x, T (x :: p) = none) : Mirrors dir (E \ {e}) (T.cut p) := by
  have hchild := h.childless he hempty
  refine ⟨?_, ?_, ?_, ?_, ?_⟩
  · exact fun a ha b hb => h.ids a ha.1 b hb.1
  · exact fun a ha b hb => h.names a ha.1 b hb.1
  · rw [Tree.cut, if_neg he.ne_nil.symm]
    exact h.root
  · rintro x ⟨hx, hne⟩
    obtain ⟨r, hr, hT⟩ := h.listed x hx
    refine ⟨r, at_remove hchild hr hne, ?_⟩
    rw [Tree.cut, if_neg]
    · exact hT
    · rintro rfl
      exact hne (h.entry_unique hr he)
  · intro x r hx
    rw [Tree.cut] at hx
    by_cases hr : x :: r = p
    · exact absurd (if_pos hr) hx
    · rw [if_neg hr] at hx
      obtain ⟨y, hy⟩ := h.found x r hx
      refine ⟨y, at_remove hchild hy ?_⟩
      rintro rfl
      exact hr (h.path_unique hy he)

/-! ### A file elsewhere -/

end Mirrors

/-- An entry whose directory `a` is now `b`. -/
def reparent [DecidableEq ι] (a b : ι) (x : Entry ι ν κ) : Entry ι ν κ :=
  if x.parent = some a then { x with parent := some b } else x

section

variable [DecidableEq ι]

@[simp] theorem reparent_id (a b : ι) (x : Entry ι ν κ) : (reparent a b x).id = x.id := by
  unfold reparent
  split <;> rfl

@[simp] theorem reparent_name (a b : ι) (x : Entry ι ν κ) : (reparent a b x).name = x.name := by
  unfold reparent
  split <;> rfl

@[simp] theorem reparent_kind (a b : ι) (x : Entry ι ν κ) : (reparent a b x).kind = x.kind := by
  unfold reparent
  split <;> rfl

theorem reparent_ne {a b : ι} {x : Entry ι ν κ} (h : x.parent ≠ some a) : reparent a b x = x :=
  if_neg h

theorem reparent_parent {a b : ι} {x : Entry ι ν κ} (h : x.parent = some a) :
    (reparent a b x).parent = some b := by
  rw [reparent, if_pos h]

namespace Mirrors

variable {e n : Entry ι ν κ} {p q : List ν}

/-- The list without `e`, whose files are in `n` now, and with `n`. -/
def moved (E : Set (Entry ι ν κ)) (e n : Entry ι ν κ) : Set (Entry ι ν κ) :=
  Insert.insert n (reparent e.id n.id '' (E \ {e}))

theorem mem_moved {x : Entry ι ν κ} (hx : x ∈ E) (hne : x ≠ e) :
    reparent e.id n.id x ∈ moved E e n :=
  Set.mem_insert_of_mem n ⟨x, ⟨hx, hne⟩, rfl⟩

/-- What is not below `e` stays. -/
theorem at_moved_else (h : Mirrors dir E T) (he : At dir E p e) {r : List ν} {x : Entry ι ν κ}
    (hx : At dir E r x) : ¬ p <:+ r → At dir (moved E e n) r x := by
  induction hx with
  | @top x hx hp =>
    intro hr
    have hne : x ≠ e := by
      rintro rfl
      exact hr (h.path_unique he (At.top hx hp) ▸ List.suffix_refl _)
    have hx' : x ∈ moved E e n := by
      have := mem_moved (n := n) hx hne
      rwa [reparent_ne (by simp [hp])] at this
    exact At.top hx' hp
  | @under r d x hd hdir hx hp ih =>
    intro hr
    have hne : x ≠ e := by
      rintro rfl
      exact hr (h.path_unique he (At.under hd hdir hx hp) ▸ List.suffix_refl _)
    have hr' : ¬ p <:+ r := fun hs => hr (hs.trans (List.suffix_cons _ _))
    have hde : d.id ≠ e.id := by
      intro hid
      have := h.ids d hd.mem e he.mem hid
      exact hr' (h.path_unique he (this ▸ hd) ▸ List.suffix_refl _)
    have hx' : x ∈ moved E e n := by
      have := mem_moved (n := n) hx hne
      rwa [reparent_ne (by simpa [hp] using hde)] at this
    exact At.under (ih hr') hdir hx' hp

/-- The entry that is new. -/
theorem at_moved_new (h : Mirrors dir E T) (he : At dir E p e) (hq : Spot dir E q n.parent)
    (hpq : ¬ p <:+ q) : At dir (moved E e n) (n.name :: q) n := by
  refine Spot.at ?_ (Set.mem_insert n _)
  rcases hq with hq | ⟨d, hd, hdir, hp⟩
  · exact Or.inl hq
  · exact Or.inr ⟨d, h.at_moved_else he hd hpq, hdir, hp⟩

/-- What is below `e` goes with it. -/
theorem at_moved [DecidableEq ν] (h : Mirrors dir E T) (he : At dir E p e) (hq : Spot dir E q n.parent)
    (hkind : n.kind = e.kind) (hpq : ¬ p <:+ q) {r : List ν} {x : Entry ι ν κ}
    (hx : At dir E r x) : x ≠ e →
      At dir (moved E e n) (Tree.relocate p (n.name :: q) r) (reparent e.id n.id x) := by
  induction hx with
  | @top x hx hp =>
    intro hne
    have hr : ¬ p <:+ [x.name] := by
      intro hs
      rcases List.suffix_cons_iff.mp hs with hp' | hnil
      · exact hne (h.entry_unique (At.top hx hp) (hp' ▸ he))
      · exact he.ne_nil (List.suffix_nil.mp hnil)
    rw [Tree.relocate_not_below hr, reparent_ne (by simp [hp])]
    exact h.at_moved_else he (At.top hx hp) hr
  | @under r d x hd hdir hx hp ih =>
    intro hne
    have hpath : p ≠ x.name :: r := fun hs =>
      hne (h.entry_unique (At.under hd hdir hx hp) (hs ▸ he))
    rw [Tree.relocate_cons hpath]
    by_cases hde : d = e
    · subst hde
      rw [← h.path_unique he hd, Tree.relocate_self, ← reparent_name d.id n.id x]
      exact At.under (h.at_moved_new he hq hpq) (hkind.trans hdir) (mem_moved hx hne)
        (reparent_parent hp)
    · have hid : d.id ≠ e.id := fun hid => hde (h.ids d hd.mem e he.mem hid)
      rw [← reparent_name e.id n.id x]
      refine At.under (ih hde) (by simpa using hdir) (mem_moved hx hne) ?_
      rw [reparent_ne (by simpa [hp] using hid), hp, reparent_id]

/-- A file that gets another name or another directory, with all below it. -/
theorem move [DecidableEq ν] (h : Mirrors dir E T) (he : At dir E p e) (hid : ∀ x ∈ E, x.id ≠ n.id)
    (hname : ∀ x ∈ E, x.name ≠ n.name) (hq : Spot dir E q n.parent) (hkind : n.kind = e.kind)
    (hpq : ¬ p <:+ q) : Mirrors dir (moved E e n) (T.move p (n.name :: q)) := by
  have hnew := h.at_moved_new he hq hpq
  have hfree : ∀ {r x}, At dir E r x → ¬ n.name :: q <:+ r := by
    rintro r x hx hs
    obtain ⟨s, rfl⟩ := hs
    have hT : T (n.name :: q) = none := h.free hname q
    match s with
    | [] => exact absurd ((h.kind hx).symm.trans hT) (by simp)
    | y :: s =>
      have hno : T (n.name :: q) ≠ some dir := by simp [hT]
      have hnone := h.leaf hno (List.cons_ne_nil y s)
      exact absurd ((h.kind hx).symm.trans hnone) (by simp)
  -- what is at a path of the old list is at its new path in the new tree
  have hT : ∀ {r x}, At dir E r x →
      T.move p (n.name :: q) (Tree.relocate p (n.name :: q) r) = some x.kind := by
    intro r x hx
    by_cases hr : p <:+ r
    · obtain ⟨s, rfl⟩ := hr
      rw [Tree.relocate_below, Tree.move_below]
      exact h.kind hx
    · rw [Tree.relocate_not_below hr, Tree.move_else (hfree hx) hr]
      exact h.kind hx
  refine ⟨?_, ?_, ?_, ?_, ?_⟩
  · rintro a (rfl | ⟨x, hx, rfl⟩) b (rfl | ⟨y, hy, rfl⟩) heq
    · rfl
    · exact absurd (by simpa using heq.symm) (hid y hy.1)
    · exact absurd (by simpa using heq) (hid x hx.1)
    · rw [h.ids x hx.1 y hy.1 (by simpa using heq)]
  · rintro a (rfl | ⟨x, hx, rfl⟩) b (rfl | ⟨y, hy, rfl⟩) heq
    · rfl
    · exact absurd (by simpa using heq.symm) (hname y hy.1)
    · exact absurd (by simpa using heq) (hname x hx.1)
    · rw [h.names x hx.1 y hy.1 (by simpa using heq)]
  · rw [Tree.move_else (by simp) (fun hs => he.ne_nil (List.suffix_nil.mp hs))]
    exact h.root
  · rintro x (rfl | ⟨x, hx, rfl⟩)
    · refine ⟨_, hnew, ?_⟩
      have := hT he
      rwa [Tree.relocate_self, ← hkind] at this
    · obtain ⟨r, hr, -⟩ := h.listed x hx.1
      exact ⟨_, h.at_moved he hq hkind hpq hr hx.2, by simpa using hT hr⟩
  · intro x r hx
    by_cases hb : n.name :: q <:+ x :: r
    · obtain ⟨s, hs⟩ := hb
      rw [← hs, Tree.move_below] at hx
      rw [← hs]
      match hsp : s ++ p with
      | [] => exact absurd (List.append_eq_nil_iff.mp hsp).2 he.ne_nil
      | y :: r' =>
        rw [hsp] at hx
        obtain ⟨z, hz⟩ := h.found y r' hx
        by_cases hze : z = e
        · subst hze
          have hnil : s = [] := by
            have := h.path_unique hz he
            rw [← hsp] at this
            simpa using this
          exact ⟨n, by simpa [hnil] using hnew⟩
        · refine ⟨reparent e.id n.id z, ?_⟩
          have hmoved := h.at_moved he hq hkind hpq hz hze
          rwa [← hsp, Tree.relocate_below] at hmoved
    · by_cases hp : p <:+ x :: r
      · exact absurd (Tree.move_away hb hp) hx
      · rw [Tree.move_else hb hp] at hx
        obtain ⟨z, hz⟩ := h.found x r hx
        exact ⟨z, h.at_moved_else he hz hp⟩

/-! ### Two directories change places -/

end Mirrors

/-- An entry in one of two directories is in the other. -/
def crossParent (a b : ι) (x : Entry ι ν κ) : Entry ι ν κ :=
  if x.parent = some a then { x with parent := some b }
  else if x.parent = some b then { x with parent := some a } else x

@[simp] theorem crossParent_id (a b : ι) (x : Entry ι ν κ) : (crossParent a b x).id = x.id := by
  unfold crossParent
  split_ifs <;> rfl

@[simp] theorem crossParent_name (a b : ι) (x : Entry ι ν κ) : (crossParent a b x).name = x.name := by
  unfold crossParent
  split_ifs <;> rfl

@[simp] theorem crossParent_kind (a b : ι) (x : Entry ι ν κ) : (crossParent a b x).kind = x.kind := by
  unfold crossParent
  split_ifs <;> rfl

theorem crossParent_ne {a b : ι} {x : Entry ι ν κ} (ha : x.parent ≠ some a) (hb : x.parent ≠ some b) :
    crossParent a b x = x := by
  rw [crossParent, if_neg ha, if_neg hb]

theorem crossParent_left {a b : ι} {x : Entry ι ν κ} (h : x.parent = some a) :
    (crossParent a b x).parent = some b := by
  rw [crossParent, if_pos h]

theorem crossParent_right {a b : ι} {x : Entry ι ν κ} (h : x.parent = some b) (hab : b ≠ a) :
    (crossParent a b x).parent = some a := by
  have ha : x.parent ≠ some a := by simpa [h] using hab
  rw [crossParent, if_neg ha, if_pos h]

namespace Mirrors

variable {a b : Entry ι ν κ} {p q : List ν}

/-- The list with what is in `a` in `b`, and the other way. -/
def crossed (E : Set (Entry ι ν κ)) (a b : Entry ι ν κ) : Set (Entry ι ν κ) :=
  crossParent a.id b.id '' E

theorem mem_crossed_same (hm : Mirrors dir E T) (h : Apart dir E a b p q) {r : List ν}
    {x : Entry ι ν κ} (hx : x ∈ E) (hspot : Spot dir E r x.parent) (hp : ¬ p <:+ r)
    (hq : ¬ q <:+ r) : x ∈ crossed E a b := by
  have hne : ∀ {c s}, At dir E s c → ¬ s <:+ r → x.parent ≠ some c.id := by
    rintro c s hc hs heq
    rcases hspot with ⟨-, hnone⟩ | ⟨d, hd, -, hsome⟩
    · exact absurd (heq.symm.trans hnone) (by simp)
    · have hcd := hm.ids c hc.mem d hd.mem (Option.some.inj (heq.symm.trans hsome))
      exact hs (hm.path_unique hc (hcd ▸ hd) ▸ List.suffix_refl _)
  exact ⟨x, hx, crossParent_ne (hne h.left hp) (hne h.right hq)⟩

/-- What is in neither stays. -/
theorem at_crossed_else (hm : Mirrors dir E T) (h : Apart dir E a b p q) {r : List ν}
    {x : Entry ι ν κ} (hx : At dir E r x) : ¬ p <:+ r → ¬ q <:+ r → At dir (crossed E a b) r x := by
  induction hx with
  | top hx hp =>
    intro _ _
    refine At.top (mem_crossed_same hm h hx (Or.inl ⟨rfl, hp⟩) ?_ ?_) hp
    · exact fun hs => h.left.ne_nil (List.suffix_nil.mp hs)
    · exact fun hs => h.right.ne_nil (List.suffix_nil.mp hs)
  | @under r d x hd hdir hx hp ih =>
    intro h1 h2
    have h1' : ¬ p <:+ r := fun hs => h1 (hs.trans (List.suffix_cons _ _))
    have h2' : ¬ q <:+ r := fun hs => h2 (hs.trans (List.suffix_cons _ _))
    exact At.under (ih h1' h2') hdir
      (mem_crossed_same hm h hx (Or.inr ⟨d, hd, hdir, hp⟩) h1' h2') hp

/-- The two themselves stay. -/
theorem at_crossed_left (hm : Mirrors dir E T) (h : Apart dir E a b p q) :
    At dir (crossed E a b) p a := by
  obtain ⟨r, rfl, hspot⟩ := h.left.spot
  have h1 : ¬ a.name :: r <:+ r := fun hs => absurd hs.length_le (by simp)
  have h2 : ¬ q <:+ r := fun hs => h.not_left (hs.trans (List.suffix_cons _ _))
  refine Spot.at ?_ (mem_crossed_same hm h h.left.mem hspot h1 h2)
  rcases hspot with hr | ⟨d, hd, hdir, hp⟩
  · exact Or.inl hr
  · exact Or.inr ⟨d, at_crossed_else hm h hd h1 h2, hdir, hp⟩

theorem crossed_comm (hm : Mirrors dir E T) (h : Apart dir E a b p q) :
    crossed E b a = crossed E a b := by
  refine Set.image_congr fun x _ => ?_
  have hne := h.id_ne hm
  unfold crossParent
  by_cases ha : x.parent = some a.id
  · simp [ha, hne.symm]
  · by_cases hb : x.parent = some b.id
    · simp [hb, hne]
    · simp [ha, hb]

theorem at_crossed_right (hm : Mirrors dir E T) (h : Apart dir E a b p q) :
    At dir (crossed E a b) q b :=
  crossed_comm hm h ▸ at_crossed_left hm h.symm

theorem crossed_stays (hm : Mirrors dir E T) {x : Entry ι ν κ} (hx : x ∈ E)
    (h : x ∈ crossed E a b) : crossParent a.id b.id x = x := by
  obtain ⟨y, hy, hyx⟩ := h
  have hid : y.id = x.id := by simpa using congrArg Entry.id hyx
  rwa [hm.ids y hy x hx hid] at hyx

/-- What is in the one is in the other. -/
theorem at_crossed [DecidableEq ν] (hm : Mirrors dir E T) (h : Apart dir E a b p q) {r : List ν}
    {x : Entry ι ν κ} (hx : At dir E r x) : x ≠ a → x ≠ b →
      At dir (crossed E a b) (Tree.swap p q r) (crossParent a.id b.id x) := by
  induction hx with
  | @top x hx hp =>
    intro hxa hxb
    have hout : ∀ {c s}, At dir E s c → x ≠ c → ¬ s <:+ [x.name] := by
      rintro c s hc hne hs
      rcases List.suffix_cons_iff.mp hs with hs | hs
      · exact hne (hm.entry_unique (At.top hx hp) (hs ▸ hc))
      · exact hc.ne_nil (List.suffix_nil.mp hs)
    have h1 := hout h.left hxa
    have h2 := hout h.right hxb
    rw [Tree.swap_neither h1 h2, crossParent_ne (by simp [hp]) (by simp [hp])]
    exact at_crossed_else hm h (At.top hx hp) h1 h2
  | @under r d x hd hdir hx hp ih =>
    intro hxa hxb
    have hmem : crossParent a.id b.id x ∈ crossed E a b := ⟨x, hx, rfl⟩
    have hpr : p ≠ x.name :: r := fun hs =>
      hxa (hm.entry_unique (At.under hd hdir hx hp) (hs ▸ h.left))
    have hqr : q ≠ x.name :: r := fun hs =>
      hxb (hm.entry_unique (At.under hd hdir hx hp) (hs ▸ h.right))
    rw [Tree.swap_cons hpr hqr, ← crossParent_name a.id b.id x]
    by_cases hda : d = a
    · rw [hm.path_unique hd (hda ▸ h.left), Tree.swap_left_self]
      exact At.under (at_crossed_right hm h) h.right_dir hmem (crossParent_left (hda ▸ hp))
    · by_cases hdb : d = b
      · rw [hm.path_unique hd (hdb ▸ h.right), Tree.swap_right_self h.not_right h.not_left]
        exact At.under (at_crossed_left hm h) h.left_dir hmem
          (crossParent_right (hdb ▸ hp) (h.id_ne hm))
      · refine At.under (ih hda hdb) (by simpa using hdir) hmem ?_
        have h1 : d.id ≠ a.id := fun hid => hda (hm.ids d hd.mem a h.left.mem hid)
        have h2 : d.id ≠ b.id := fun hid => hdb (hm.ids d hd.mem b h.right.mem hid)
        rw [crossParent_ne (by simpa [hp] using h1) (by simpa [hp] using h2), hp, crossParent_id]

/-- Two directories exchanged, each with all below it. -/
theorem exchange [DecidableEq ν] (hm : Mirrors dir E T) (h : Apart dir E a b p q) :
    Mirrors dir (crossed E a b) (T.exchange p q) := by
  have hleft : Tree.swap p q p = q := Tree.swap_left_self
  have hright : Tree.swap p q q = p := Tree.swap_right_self h.not_right h.not_left
  have hnil : Tree.swap p q [] = [] := Tree.swap_neither
    (fun hs => h.left.ne_nil (List.suffix_nil.mp hs))
    fun hs => h.right.ne_nil (List.suffix_nil.mp hs)
  refine ⟨?_, ?_, ?_, ?_, ?_⟩
  · rintro _ ⟨x, hx, rfl⟩ _ ⟨y, hy, rfl⟩ heq
    rw [hm.ids x hx y hy (by simpa using heq)]
  · rintro _ ⟨x, hx, rfl⟩ _ ⟨y, hy, rfl⟩ heq
    rw [hm.names x hx y hy (by simpa using heq)]
  · rw [Tree.exchange, hnil]
    exact hm.root
  · rintro _ ⟨x, hx, rfl⟩
    rw [crossParent_kind]
    obtain ⟨r, hr, hT⟩ := hm.listed x hx
    by_cases hxa : x = a
    · have hmem := at_crossed_left hm h
      rw [hxa, crossed_stays hm h.left.mem hmem.mem]
      refine ⟨p, hmem, ?_⟩
      rw [Tree.exchange, hleft, hm.kind h.right, h.right_dir, h.left_dir]
    · by_cases hxb : x = b
      · have hmem := at_crossed_right hm h
        rw [hxb, crossed_stays hm h.right.mem hmem.mem]
        refine ⟨q, hmem, ?_⟩
        rw [Tree.exchange, hright, hm.kind h.left, h.right_dir, h.left_dir]
      · refine ⟨_, at_crossed hm h hr hxa hxb, ?_⟩
        rw [Tree.exchange, Tree.swap_swap h.not_right h.not_left, hT]
  · intro y r hy
    rw [Tree.exchange] at hy
    match hsw : Tree.swap p q (y :: r) with
    | [] =>
      have hback := Tree.swap_eq h.not_right h.not_left hsw
      exact absurd (hback.trans hnil) (List.cons_ne_nil _ _)
    | z :: r' =>
      have hback := Tree.swap_eq h.not_right h.not_left hsw
      rw [hsw] at hy
      rw [hback]
      obtain ⟨x, hx⟩ := hm.found z r' hy
      by_cases hxa : x = a
      · rw [hm.path_unique hx (hxa ▸ h.left), hleft]
        exact ⟨b, at_crossed_right hm h⟩
      · by_cases hxb : x = b
        · rw [hm.path_unique hx (hxb ▸ h.right), hright]
          exact ⟨a, at_crossed_left hm h⟩
        · exact ⟨_, at_crossed hm h hx hxa hxb⟩

end Mirrors
end
end
end Longan
