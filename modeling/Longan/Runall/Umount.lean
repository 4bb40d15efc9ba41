/-
# `umount_vdb_vdc`: freeing the data disks

Before each item `runall.sh` unmounts what is mounted from `/dev/vdb` and
`/dev/vdc`: it takes the mount points of the `df -T` lines that mention
`vdb`, unmounts them if `[ $mount_point ]` holds, does the same for `vdc`, and
then both once more with `umount -fl`.

`[ $mount_point ]` holds for one word and is an error for several, `grep`
finds `vdb` anywhere in the line, and the unquoted mount points go through
pathname expansion. So a pass has a target only where a single word comes out
(`target`): two mounted partitions of `vdb` stay (`two_partitions_stay`), and a
lone foreign line with `vdb` in its mount point goes. A plain `umount` of a
target fails where something is mounted below it; `umount -fl` takes all of
that along (`left`). `exact_iff` says which tables come out right.
-/
import Mathlib.Data.List.Nodup
import Longan.Lib.Text

namespace Longan
namespace Runall

open Text

/-! ### The mount table -/

abbrev Word := {w : Text // IsWord w}

/-- A line of `df -T`: its seven columns. -/
structure Row where
  device : Word
  fstype : Word
  blocks : Word
  used : Word
  available : Word
  usePercent : Word
  mountedOn : Word
  deriving DecidableEq

/-- The file systems `df -T` reports, no mount point twice. -/
structure MountTable where
  rows : List Row
  nodup : (rows.map (·.mountedOn)).Nodup

namespace Row

def columns (r : Row) : List Text :=
  [r.device, r.fstype, r.blocks, r.used, r.available, r.usePercent, r.mountedOn]

def line (r : Row) : Text := unwords r.columns

/-- The line mentions the disk. -/
def mentions (disk : Text) (r : Row) : Prop := disk <:+: r.line

instance (disk : Text) (r : Row) : Decidable (r.mentions disk) :=
  inferInstanceAs (Decidable (disk <:+: r.line))

/-- The device is the disk or a partition of it. -/
def onDisk (disk : Text) (r : Row) : Bool :=
  ("/dev/".toList ++ disk).isPrefixOf r.device &&
    (r.device.1.drop ("/dev/".toList ++ disk).length).all Char.isDigit

theorem isWord_columns (r : Row) : ∀ w ∈ r.columns, IsWord w := by
  intro w hw
  simp only [columns, List.mem_cons, List.not_mem_nil, or_false] at hw
  rcases hw with rfl | rfl | rfl | rfl | rfl | rfl | rfl <;> exact Subtype.prop _

/-- awk's `$7`. -/
theorem field_line (r : Row) : field 7 r.line = r.mountedOn := field_unwords _ r.isWord_columns 7

end Row

def vdb : Text := "vdb".toList

def vdc : Text := "vdc".toList

def header : Text := "Filesystem Type 1K-blocks Used Available Use% Mounted on".toList

/-- `df -T`. -/
def df (t : List Row) : List Text := header :: t.map Row.line

/-! ### The function -/

/-- `[ $x ]` on the words of `x`, none of them an operator: one word is true,
no word false, and several are an error. -/
def test : List Text → Bool
  | [w] => w ≠ []
  | _ => false

namespace Row

/-- The file system is mounted at the path or below it. -/
def under (path : Text) (r : Row) : Prop :=
  r.mountedOn.1 = path ∨ (path.rdropWhile (· = '/') ++ ['/']) <+: r.mountedOn.1

instance (path : Text) (r : Row) : Decidable (r.under path) := inferInstanceAs (Decidable (_ ∨ _))

end Row

/-- Nothing but what is mounted at the path itself is below it. -/
def Free (t : List Row) (path : Text) : Prop := ∀ r ∈ t, r.under path → r.mountedOn.1 = path

instance (t : List Row) (path : Text) : Decidable (Free t path) :=
  inferInstanceAs (Decidable (∀ r ∈ t, _))

def mounted (t : List Row) (path : Text) : Bool := t.any fun r => r.mountedOn.1 = path

/-- `umount`: it succeeds, or nothing changes; it cannot where something is
mounted below. -/
def umount (ok : Bool) (t : List Row) (path : Text) : List Row :=
  if ok ∧ Free t path then t.filter fun r => r.mountedOn.1 ≠ path else t

/-- `umount -fl`: what is mounted below goes as well. -/
def umountFl (t : List Row) (path : Text) : List Row :=
  if mounted t path then t.filter fun r => ¬ r.under path else t

/-- Pathname expansion, which may depend on what is mounted. -/
structure Glob where
  expand : List Row → Text → List Text
  plain : ∀ t w, (∀ c ∈ w, c ∉ ['*', '?', '[', '\\']) → expand t w = [w]

variable (g : Glob)

/-- ``mount_point=`df -T | grep disk | awk '{print $7}'` `` and what follows. -/
def pass (disk : Text) (command : List Row → Text → List Row) (t : List Row) : List Row :=
  let mountPoint := commandSubst ((grep disk (df t)).map (field 7))
  let words := (fields mountPoint).flatMap (g.expand t)
  if test words then words.foldl command t else t

/-- `umount_vdb_vdc`; `b` and `c` tell whether the plain `umount`s succeed
where they can. -/
def umountVdbVdc (b c : Bool) (t : List Row) : List Row :=
  pass g vdc umountFl (pass g vdb umountFl (pass g vdc (umount c) (pass g vdb (umount b) t)))

/-! ### A pass -/

/-- The path that `umount` gets: the words of the lines that mention the disk
are this one. -/
def target (disk : Text) (t : List Row) : Option Text :=
  match (t.filter fun r => r.mentions disk).flatMap fun r => g.expand t r.mountedOn.1 with
  | [w] => if w = [] then none else some w
  | _ => none

/-- The row is taken by `umount -fl`. -/
def Takes (disk : Text) (t : List Row) (r : Row) : Prop :=
  ∃ w ∈ target g disk t, mounted t w = true ∧ r.under w

instance (disk : Text) (t : List Row) (r : Row) : Decidable (Takes g disk t r) :=
  decidable_of_iff ((target g disk t).any fun w => mounted t w && decide (r.under w)) (by
    cases h : target g disk t <;> simp [Takes, h])

/-- The table that it leaves. -/
def left (disk : Text) (t : List Row) : List Row := t.filter fun r => ¬ Takes g disk t r

/-- A plain `umount` can succeed: there is a target, and nothing below it. -/
def CanUmount (disk : Text) (t : List Row) : Prop := ∃ w ∈ target g disk t, Free t w

variable {g}

theorem mem_left {disk : Text} {t : List Row} {r : Row} :
    r ∈ left g disk t ↔ r ∈ t ∧ ¬ Takes g disk t r := by
  simp [left]

/-- Without pattern characters the target is the mount point of the one line
that mentions the disk. -/
theorem target_plain {disk : Text} {t : List Row}
    (hp : ∀ r ∈ t, ∀ c ∈ r.mountedOn.1, c ∉ ['*', '?', '[', '\\']) (w : Text) :
    target g disk t = some w ↔
      ∃ r, (t.filter fun r => r.mentions disk) = [r] ∧ r.mountedOn.1 = w := by
  have hwords : ((t.filter fun r => r.mentions disk).flatMap fun r => g.expand t r.mountedOn.1) =
      (t.filter fun r => r.mentions disk).map fun r => r.mountedOn.1 := by
    rw [List.map_eq_flatMap]
    exact List.flatMap_congr fun r hr => g.plain t _ (hp r (List.mem_of_mem_filter hr))
  rw [target, hwords]
  cases t.filter fun r => r.mentions disk with
  | nil => simp
  | cons r rs =>
    cases rs with
    | nil => simp [r.mountedOn.2.1]
    | cons r' rs => simp

/-- The words a pass reads: the mount points of the lines that mention the
disk. -/
theorem words_eq {disk : Text} (hd : ¬ disk <:+: header) (t : List Row) :
    fields (commandSubst ((grep disk (df t)).map (field 7))) =
      (t.filter fun r => r.mentions disk).map fun r => r.mountedOn.1 := by
  have hg : (grep disk (df t)).map (field 7) =
      (t.filter fun r => r.mentions disk).map fun r => r.mountedOn.1 := by
    simp only [grep, df, List.filter_cons, hd, decide_false, Bool.false_eq_true, ↓reduceIte,
      List.filter_map, List.map_map]
    exact List.map_congr_left fun r _ => r.field_line
  rw [hg]
  refine fields_commandSubst_words _ fun w hw => ?_
  obtain ⟨r, -, rfl⟩ := List.mem_map.mp hw
  exact r.mountedOn.2

/-- A pass is its command on the target, if there is one. -/
theorem pass_eq {disk : Text} (hd : ¬ disk <:+: header) (command : List Row → Text → List Row)
    (t : List Row) : pass g disk command t = (target g disk t).elim t (command t) := by
  unfold pass target
  simp only [words_eq hd, List.flatMap_map]
  cases (t.filter fun r => r.mentions disk).flatMap fun r => g.expand t r.mountedOn.1 with
  | nil => rfl
  | cons w ws =>
    cases ws with
    | nil =>
      by_cases hw : w = []
      · simp [test, hw]
      · simp [test, hw]
    | cons w' ws => rfl

theorem pass_umountFl {disk : Text} (hd : ¬ disk <:+: header) (t : List Row) :
    pass g disk umountFl t = left g disk t := by
  rw [pass_eq hd, left]
  cases ht : target g disk t with
  | none =>
    refine (List.filter_eq_self.mpr fun r _ => ?_).symm
    simp [Takes, ht]
  | some w =>
    show umountFl t w = _
    rw [umountFl]
    by_cases hm : mounted t w = true
    · rw [if_pos hm]
      refine List.filter_congr fun r _ => ?_
      simp [Takes, ht, hm]
    · rw [if_neg hm]
      refine (List.filter_eq_self.mpr fun r _ => ?_).symm
      simp [Takes, ht, hm]

/-- Where it can succeed, a plain `umount` leaves what `umount -fl` leaves. -/
theorem pass_umount {disk : Text} (hd : ¬ disk <:+: header) (ok : Bool) (t : List Row) :
    (¬ (ok = true ∧ CanUmount g disk t) ∧ pass g disk (umount ok) t = t) ∨
      (ok = true ∧ CanUmount g disk t ∧ pass g disk (umount ok) t = left g disk t) := by
  rw [← pass_umountFl hd, pass_eq hd, pass_eq hd]
  cases ht : target g disk t with
  | none =>
    refine .inl ⟨fun h => ?_, rfl⟩
    obtain ⟨w, hw, -⟩ := h.2
    rw [ht] at hw
    cases hw
  | some w =>
    have hcan : CanUmount g disk t ↔ Free t w := by simp [CanUmount, ht]
    rw [hcan]
    show (_ ∧ umount ok t w = t) ∨ (_ ∧ _ ∧ umount ok t w = umountFl t w)
    by_cases h : ok = true ∧ Free t w
    · refine .inr ⟨h.1, h.2, ?_⟩
      rw [umount, if_pos h, umountFl]
      have hunder : ∀ r ∈ t, (r.mountedOn.1 = w ↔ r.under w) := fun r hr => ⟨.inl, h.2 r hr⟩
      by_cases hm : mounted t w = true
      · rw [if_pos hm]
        exact List.filter_congr fun r hr => decide_eq_decide.mpr (not_congr (hunder r hr))
      · rw [if_neg hm]
        refine List.filter_eq_self.mpr fun r hr => decide_eq_true fun he => ?_
        exact hm (List.any_eq_true.mpr ⟨r, hr, decide_eq_true he⟩)
    · exact .inl ⟨h, by rw [umount, if_neg h]⟩

theorem pass_umount_false {disk : Text} (hd : ¬ disk <:+: header) (t : List Row) :
    pass g disk (umount false) t = t := by
  rcases pass_umount (g := g) hd false t with ⟨-, h⟩ | ⟨h, -⟩
  · exact h
  · cases h

theorem pass_umount_true {disk : Text} (hd : ¬ disk <:+: header) {t : List Row}
    (hc : CanUmount g disk t) : pass g disk (umount true) t = left g disk t := by
  rcases pass_umount (g := g) hd true t with ⟨h, -⟩ | ⟨-, -, h⟩
  · exact absurd ⟨rfl, hc⟩ h
  · exact h

/-! ### Four passes -/

theorem not_vdb_header : ¬ vdb <:+: header := by decide

theorem not_vdc_header : ¬ vdc <:+: header := by decide

/-- The file system is on one of the two disks. -/
def Row.onDisks (r : Row) : Bool := r.onDisk vdb || r.onDisk vdc

/-- What should be left. -/
def others (t : List Row) : List Row := t.filter fun r => ¬ r.onDisks

variable (g) in
/-- Of the table `t` the rows are left that `t'` has, and the two `umount -fl`
take the others on the disks and nothing else. -/
def TakesRest (t t' : List Row) : Prop :=
  ∀ r ∈ t, r.onDisks ↔ r ∉ t' ∨ Takes g vdb t' r ∨ Takes g vdc (left g vdb t') r

variable (g) in
/-- The file systems on the disks are those below the target of `vdb`, and then
below that of `vdc`: whatever of it the plain `umount`s have done before. -/
structure AloneOnDisks (t : List Row) : Prop where
  refused : TakesRest g t t
  first : CanUmount g vdb t → TakesRest g t (left g vdb t)
  second : CanUmount g vdc t → TakesRest g t (left g vdc t)
  both : CanUmount g vdb t → CanUmount g vdc (left g vdb t) →
    TakesRest g t (left g vdc (left g vdb t))

/-- Some rows of a table, in its order. -/
def IsPart (t t' : List Row) : Prop := t' = t.filter (· ∈ t')

theorem isPart_self (t : List Row) : IsPart t t :=
  (List.filter_eq_self.mpr fun _ hr => decide_eq_true hr).symm

theorem IsPart.left {t t' : List Row} (h : IsPart t t') (disk : Text) : IsPart t (left g disk t') := by
  have hfilter : Runall.left g disk t' =
      (t.filter (· ∈ t')).filter fun r => ¬ Takes g disk t' r :=
    congrArg (List.filter fun r => decide ¬ Takes g disk t' r) h
  rw [IsPart]
  conv_lhs => rw [hfilter, List.filter_filter]
  refine List.filter_congr fun r _ => ?_
  rw [← Bool.decide_and]
  exact decide_eq_decide.mpr (and_comm.trans mem_left.symm)

/-- The two forced passes leave the others. -/
theorem left_left_eq_others {t t' : List Row} (h : IsPart t t') :
    left g vdc (left g vdb t') = others t ↔ TakesRest g t t' := by
  have hpart : IsPart t (left g vdc (left g vdb t')) := (h.left vdb).left vdc
  have hmem : ∀ r ∈ t, (r ∈ left g vdc (left g vdb t') ↔
      ¬ (r ∉ t' ∨ Takes g vdb t' r ∨ Takes g vdc (left g vdb t') r)) := fun r _ => by
    rw [mem_left, mem_left]
    tauto
  have hoth : ∀ r ∈ t, (r ∈ others t ↔ ¬ r.onDisks) := fun r hr => by simp [others, hr]
  constructor
  · intro heq r hr
    exact not_iff_not.mp (by rw [← hoth r hr, ← hmem r hr, heq])
  · intro hrest
    rw [hpart]
    refine List.filter_congr fun r hr => decide_eq_decide.mpr ?_
    rw [hmem r hr, hrest r hr]

/-- **Exactness.** Whatever becomes of the plain `umount`s, just the file
systems on `/dev/vdb`, `/dev/vdc` and their partitions are gone if and only if
`AloneOnDisks`. -/
theorem exact_iff (g : Glob) (t : MountTable) :
    (∀ b c, umountVdbVdc g b c t.rows = others t.rows) ↔ AloneOnDisks g t.rows := by
  have hself := isPart_self t.rows
  have hforced : ∀ b c, umountVdbVdc g b c t.rows = others t.rows ↔
      left g vdc (left g vdb (pass g vdc (umount c) (pass g vdb (umount b) t.rows))) = others t.rows :=
    fun b c => by rw [umountVdbVdc, pass_umountFl not_vdb_header, pass_umountFl not_vdc_header]
  constructor
  · intro h
    refine ⟨?_, fun hb => ?_, fun hc => ?_, fun hb hc => ?_⟩
    · have hff := (hforced false false).mp (h false false)
      rw [pass_umount_false not_vdb_header, pass_umount_false not_vdc_header] at hff
      exact (left_left_eq_others hself).mp hff
    · have htf := (hforced true false).mp (h true false)
      rw [pass_umount_true not_vdb_header hb, pass_umount_false not_vdc_header] at htf
      exact (left_left_eq_others (hself.left vdb)).mp htf
    · have hft := (hforced false true).mp (h false true)
      rw [pass_umount_false not_vdb_header, pass_umount_true not_vdc_header hc] at hft
      exact (left_left_eq_others (hself.left vdc)).mp hft
    · have htt := (hforced true true).mp (h true true)
      rw [pass_umount_true not_vdb_header hb, pass_umount_true not_vdc_header hc] at htt
      exact (left_left_eq_others ((hself.left vdb).left vdc)).mp htt
  · intro h b c
    rw [hforced]
    rcases pass_umount (g := g) not_vdb_header b t.rows with ⟨-, hb⟩ | ⟨-, hcan, hb⟩
    · rw [hb]
      rcases pass_umount (g := g) not_vdc_header c t.rows with ⟨-, hc⟩ | ⟨-, hcan', hc⟩
      · rw [hc]
        exact (left_left_eq_others hself).mpr h.refused
      · rw [hc]
        exact (left_left_eq_others (hself.left vdc)).mpr (h.second hcan')
    · rw [hb]
      rcases pass_umount (g := g) not_vdc_header c (left g vdb t.rows) with ⟨-, hc⟩ | ⟨-, hcan', hc⟩
      · rw [hc]
        exact (left_left_eq_others (hself.left vdb)).mpr (h.first hcan)
      · rw [hc]
        exact (left_left_eq_others ((hself.left vdb).left vdc)).mpr (h.both hcan hcan')

/-! ### A table that comes out wrong -/

/-- A row for a device and a mount point. -/
def exampleRow (device mountedOn : Word) : Row :=
  ⟨device, ⟨"ext4".toList, by decide⟩, ⟨"41152832".toList, by decide⟩, ⟨"49176".toList, by decide⟩,
    ⟨"38990264".toList, by decide⟩, ⟨"1%".toList, by decide⟩, mountedOn⟩

/-- The system disk and two mounted partitions of `/dev/vdb`. -/
def twoPartitions : MountTable where
  rows := [exampleRow ⟨"/dev/vda1".toList, by decide⟩ ⟨"/".toList, by decide⟩,
    exampleRow ⟨"/dev/vdb1".toList, by decide⟩ ⟨"/data1".toList, by decide⟩,
    exampleRow ⟨"/dev/vdb2".toList, by decide⟩ ⟨"/data2".toList, by decide⟩]
  nodup := by decide

/-- Every word stays as it is. -/
def noGlob : Glob := ⟨fun _ w => [w], fun _ _ _ => rfl⟩

/-- `[ /data1 /data2 ]` is an error, so both partitions stay mounted. -/
theorem two_partitions_stay : ¬ ∀ (g : Glob) (t : MountTable) (b c : Bool),
    umountVdbVdc g b c t.rows = others t.rows := fun h =>
  absurd (h noGlob twoPartitions true true) (by decide +kernel)

end Runall
end Longan
