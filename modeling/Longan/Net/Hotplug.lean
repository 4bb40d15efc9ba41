/-
# `kvm_vhost_hotplug_test.sh` and `kvm_vhost_hotunplug_test.sh`

Both scripts go through the pairs of `vmlist[i]` and `maclist[i]` twice. The
first loop asks `virsh dumpxml` whether the VM has an interface with the MAC,
prints what it finds and goes on to the next pair; the second one attaches, or
detaches, an interface for every pair. The name and the MAC are not quoted, so
a command gets their words (`plugArgs`, `unplugArgs`).

What `virsh` answers, and which interfaces a command adds to a VM or takes
away, is a parameter (`Virsh`). `touches_exactly_iff` says when the commands
are the right ones, when a second `hotplug` changes nothing, and when
`hotunplug` undoes a `hotplug`; with a `virsh` that does what it is asked for it
does (`restores_of_works`).
-/
import Mathlib.Algebra.Order.Group.Multiset
import Mathlib.Data.List.Count
import Longan.Lib.Bracket
import Longan.Lib.Triple

namespace Longan
namespace Net
namespace Hotplug

open Text

/-! ### Commands -/

/-- The arguments of `virsh attach-interface` for some words. -/
def attachArgs (vm mac : List Text) : List Text :=
  vm ++ (["--type".toList, "bridge".toList, "--source".toList, "br1".toList, "--model".toList,
    "virtio".toList, "--mac".toList] ++ mac)

/-- The arguments of `virsh detach-interface`. -/
def detachArgs (vm mac : List Text) : List Text :=
  vm ++ (["--type".toList, "bridge".toList, "--mac".toList] ++ mac)

/-- A MAC as `virsh` prints it. -/
def lower (mac : Text) : Text := mac.map Char.toLower

/-- The MACs that some pairs have for a VM. -/
def macs (ps : List (Text × Text)) (vm : Text) : Multiset Text := ((ps.filter fun p => p.1 = vm).map Prod.snd : List Text)

/-- `virsh`, on a state that gives each VM the MACs of its interfaces, in small
letters, and `grep`. A command for a name that is no option and a MAC adds that
interface or takes it away, if it succeeds; others do what they do. -/
structure Virsh (σ : Type) where
  interfaces : σ → Text → Multiset Text
  dumpxml : σ → List Text → List Text
  grep : List Text → List Text → Bool
  attach : σ → List Text → Bool × σ
  detach : σ → List Text → Bool × σ
  added : σ → List Text → List (Text × Text)
  removed : σ → List Text → List (Text × Text)
  attached : ∀ s args vm, interfaces (attach s args).2 vm = interfaces s vm + macs (added s args) vm
  detached : ∀ s args vm, interfaces (detach s args).2 vm = interfaces s vm - macs (removed s args) vm
  added_one : ∀ s vm mac, vm.head? ≠ some '-' → added s (attachArgs [vm] [mac]) =
    if (attach s (attachArgs [vm] [mac])).1 then [(vm, lower mac)] else []
  removed_one : ∀ s vm mac, vm.head? ≠ some '-' → removed s (detachArgs [vm] [mac]) =
    if (detach s (detachArgs [vm] [mac])).1 then [(vm, lower mac)] else []

/-- A command with its arguments. -/
inductive Command where
  | attachInterface (args : List Text)
  | detachInterface (args : List Text)
  deriving DecidableEq

/-- The hypervisor, the commands issued and what was printed. -/
structure World (σ : Type) where
  hypervisor : σ
  issued : List Command
  printed : List Text

variable {σ : Type} (v : Virsh σ) (o : Outside)

/-! ### The scripts -/

def puts (t : Text) : StateM (World σ) Unit := fun w => ((), { w with printed := w.printed ++ [t] })

/-- A command, with its status. -/
def issue (c : Command) (f : σ → Bool × σ) : StateM (World σ) ℕ := fun w =>
  (if (f w.hypervisor).1 then 0 else 1,
    { w with hypervisor := (f w.hypervisor).2, issued := w.issued ++ [c] })

/-- 1 if the MAC is found in the VM's description. -/
def checkNicExist (vm mac : Text) : StateM (World σ) ℕ := do
  let w ← get
  if v.grep (o.words mac) (v.dumpxml w.hypervisor (o.words vm)) then
    return 1
  return 0

/-- The arguments of the commands for a pair. -/
def plugArgs (p : Text × Text) : List Text := attachArgs (o.words p.1) (o.words p.2)

def unplugArgs (p : Text × Text) : List Text := detachArgs (o.words p.1) (o.words p.2)

def plugNic (vm mac : Text) : StateM (World σ) ℕ := do
  let st ← issue (.attachInterface (plugArgs o (vm, mac))) fun s => v.attach s (plugArgs o (vm, mac))
  if st ≠ 0 then
    puts "plug failed".toList
    return 1
  return 0

def unplugNic (vm mac : Text) : StateM (World σ) ℕ := do
  let st ← issue (.detachInterface (unplugArgs o (vm, mac))) fun s => v.detach s (unplugArgs o (vm, mac))
  if st ≠ 0 then
    puts "unplug failed".toList
    return 1
  return 0

/-- `vmlist[i]` and `maclist[i]`, for every index of `vmlist`. -/
def pairs (vmlist maclist : List Text) : List (Text × Text) :=
  vmlist.zipIdx.map fun x => (x.1, maclist.getD x.2 [])

def plugCheck : List (Text × Text) → StateM (World σ) Unit
  | [] => return
  | p :: ps => do
    let st ← checkNicExist v o p.1 p.2
    if st = 1 then
      puts ("hotplug vm ".toList ++ p.1 ++ " existing nic ".toList ++ p.2)
    plugCheck ps

def plugLoop : List (Text × Text) → StateM (World σ) Unit
  | [] => return
  | p :: ps => do
    let st ← plugNic v o p.1 p.2
    if st ≠ 0 then
      puts ("hotplug vm ".toList ++ p.1 ++ " nic ".toList ++ p.2 ++ " failed".toList)
    else
      let st ← checkNicExist v o p.1 p.2
      if st ≠ 0 then
        puts ("plug ".toList ++ p.1 ++ " success ".toList ++ p.2)
    plugLoop ps

def hotplug (vmlist maclist : List Text) : StateM (World σ) Unit := do
  puts (decimal vmlist.length)
  plugCheck v o (pairs vmlist maclist)
  puts "plug nic".toList
  puts (o.echo (vmlist.headD []))
  plugLoop v o (pairs vmlist maclist)

def unplugCheck : List (Text × Text) → StateM (World σ) Unit
  | [] => return
  | p :: ps => do
    puts p.1
    puts p.2
    let st ← checkNicExist v o p.1 p.2
    if st = 0 then
      puts ("hotpunlug vm ".toList ++ p.1 ++ " not existing nic ".toList ++ p.2)
    unplugCheck ps

def unplugLoop : List (Text × Text) → StateM (World σ) Unit
  | [] => return
  | p :: ps => do
    let st ← unplugNic v o p.1 p.2
    if st ≠ 0 then
      puts ("hotunplug vm ".toList ++ p.1 ++ " nic ".toList ++ p.2 ++ " failed".toList)
    let st ← checkNicExist v o p.1 p.2
    if st = 0 then
      puts ("unplug ".toList ++ p.1 ++ " ".toList ++ p.2 ++ " success ".toList)
    unplugLoop ps

def hotunplug (vmlist maclist : List Text) : StateM (World σ) Unit := do
  unplugCheck v o (pairs vmlist maclist)
  puts "unplug nic".toList
  unplugLoop v o (pairs vmlist maclist)

/-! ### What a run comes to -/

/-- The commands `cs` have been issued and the hypervisor is in state `s`. -/
def Issued (cs : List Command) (s : σ) (w : World σ) : Prop := w.issued = cs ∧ w.hypervisor = s

/-- The state after the commands for all the pairs. -/
def attachAll (s : σ) (ps : List (Text × Text)) : σ :=
  ps.foldl (fun s p => (v.attach s (plugArgs o p)).2) s

def detachAll (s : σ) (ps : List (Text × Text)) : σ :=
  ps.foldl (fun s p => (v.detach s (unplugArgs o p)).2) s

variable {v o} {cs : List Command} {s : σ}

theorem puts_keeps {t : Text} : Keeps (Issued cs s) (puts t) := fun _ hw => hw

theorem checkNicExist_keeps {vm mac : Text} : Keeps (Issued cs s) (checkNicExist v o vm mac) := by
  unfold checkNicExist
  have hget : Keeps (Issued cs s) (get : StateM (World σ) (World σ)) := fun _ hw => hw
  refine hget.bind fun w => ?_
  exact Triple.ite (fun _ => Triple.pure fun _ hw => hw) fun _ => Triple.pure fun _ hw => hw

theorem issue_spec {c : Command} {f : σ → Bool × σ} :
    Triple (Issued cs s) (issue c f) fun _ => Issued (cs ++ [c]) (f s).2 := by
  rintro w ⟨rfl, rfl⟩
  exact ⟨rfl, rfl⟩

/-- A command whose failure is reported. -/
theorem reported_spec {c : Command} {f : σ → Bool × σ} {t : Text} :
    Triple (Issued cs s)
      (do
        let st ← issue c f
        if st ≠ 0 then
          puts t
          return 1
        return 0 : StateM (World σ) ℕ)
      fun _ => Issued (cs ++ [c]) (f s).2 := by
  refine issue_spec.bind fun st => ?_
  refine Triple.ite (fun _ => puts_keeps.bind fun _ => ?_) fun _ => ?_
  · exact Triple.pure fun _ hw => hw
  · exact Triple.pure fun _ hw => hw

theorem plugNic_spec {vm mac : Text} : Triple (Issued cs s) (plugNic v o vm mac) fun _ =>
    Issued (cs ++ [.attachInterface (plugArgs o (vm, mac))]) (v.attach s (plugArgs o (vm, mac))).2 := by
  unfold plugNic
  exact reported_spec

theorem unplugNic_spec {vm mac : Text} : Triple (Issued cs s) (unplugNic v o vm mac) fun _ =>
    Issued (cs ++ [.detachInterface (unplugArgs o (vm, mac))]) (v.detach s (unplugArgs o (vm, mac))).2 := by
  unfold unplugNic
  exact reported_spec

/-! ### The loops -/

/-- The checking loop issues nothing. -/
theorem plugCheck_keeps : ∀ ps : List (Text × Text), Keeps (Issued cs s) (plugCheck v o ps)
  | [] => Triple.pure fun _ hw => hw
  | _ :: ps => by
    unfold plugCheck
    refine checkNicExist_keeps.bind fun st => ?_
    refine Triple.ite (fun _ => ?_) fun _ => plugCheck_keeps ps
    exact puts_keeps.bind fun _ => plugCheck_keeps ps

theorem unplugCheck_keeps : ∀ ps : List (Text × Text), Keeps (Issued cs s) (unplugCheck v o ps)
  | [] => Triple.pure fun _ hw => hw
  | _ :: ps => by
    unfold unplugCheck
    refine puts_keeps.bind fun _ => puts_keeps.bind fun _ => ?_
    refine checkNicExist_keeps.bind fun st => ?_
    refine Triple.ite (fun _ => ?_) fun _ => unplugCheck_keeps ps
    exact puts_keeps.bind fun _ => unplugCheck_keeps ps

/-- The other one issues a command for every pair, whatever was found. -/
theorem plugLoop_spec : ∀ (ps : List (Text × Text)) (cs : List Command) (s : σ),
    Triple (Issued cs s) (plugLoop v o ps) fun _ =>
      Issued (cs ++ ps.map fun p => .attachInterface (plugArgs o p)) (attachAll v o s ps)
  | [], cs, s => Triple.pure fun w hw => by rwa [List.map_nil, List.append_nil]
  | p :: ps, cs, s => by
    have ih := plugLoop_spec ps (cs ++ [.attachInterface (plugArgs o p)]) (v.attach s (plugArgs o p)).2
    rw [List.append_assoc] at ih
    unfold plugLoop
    refine plugNic_spec.bind fun st => ?_
    refine Triple.ite (fun _ => puts_keeps.bind fun _ => ih) fun _ => ?_
    refine checkNicExist_keeps.bind fun st => ?_
    exact Triple.ite (fun _ => puts_keeps.bind fun _ => ih) fun _ => ih

theorem unplugLoop_spec : ∀ (ps : List (Text × Text)) (cs : List Command) (s : σ),
    Triple (Issued cs s) (unplugLoop v o ps) fun _ =>
      Issued (cs ++ ps.map fun p => .detachInterface (unplugArgs o p)) (detachAll v o s ps)
  | [], cs, s => Triple.pure fun w hw => by rwa [List.map_nil, List.append_nil]
  | p :: ps, cs, s => by
    have ih := unplugLoop_spec ps (cs ++ [.detachInterface (unplugArgs o p)]) (v.detach s (unplugArgs o p)).2
    rw [List.append_assoc] at ih
    have hcheck : Triple (Issued (cs ++ [.detachInterface (unplugArgs o p)]) (v.detach s (unplugArgs o p)).2)
        (do
          let st ← checkNicExist v o p.1 p.2
          if st = 0 then
            puts ("unplug ".toList ++ p.1 ++ " ".toList ++ p.2 ++ " success ".toList)
          unplugLoop v o ps)
        fun _ => Issued (cs ++ ([.detachInterface (unplugArgs o p)] ++ ps.map fun p => .detachInterface (unplugArgs o p)))
          (detachAll v o (v.detach s (unplugArgs o p)).2 ps) := by
      refine checkNicExist_keeps.bind fun st => ?_
      exact Triple.ite (fun _ => puts_keeps.bind fun _ => ih) fun _ => ih
    unfold unplugLoop
    refine unplugNic_spec.bind fun st => ?_
    exact Triple.ite (fun _ => puts_keeps.bind fun _ => hcheck) fun _ => hcheck

theorem hotplug_spec (vmlist maclist : List Text) : Triple (Issued cs s) (hotplug v o vmlist maclist)
    fun _ => Issued (cs ++ (pairs vmlist maclist).map fun p => .attachInterface (plugArgs o p))
      (attachAll v o s (pairs vmlist maclist)) := by
  unfold hotplug
  refine puts_keeps.bind fun _ => ?_
  refine (plugCheck_keeps _).bind fun _ => ?_
  refine puts_keeps.bind fun _ => puts_keeps.bind fun _ => ?_
  exact plugLoop_spec _ cs s

theorem hotunplug_spec (vmlist maclist : List Text) : Triple (Issued cs s) (hotunplug v o vmlist maclist)
    fun _ => Issued (cs ++ (pairs vmlist maclist).map fun p => .detachInterface (unplugArgs o p))
      (detachAll v o s (pairs vmlist maclist)) := by
  unfold hotunplug
  refine (unplugCheck_keeps _).bind fun _ => ?_
  refine puts_keeps.bind fun _ => ?_
  exact unplugLoop_spec _ cs s

/-! ### Interfaces -/

variable (v o) in
/-- What the commands for all the pairs add, one after the other. -/
def addedBy : σ → List (Text × Text) → List (Text × Text)
  | _, [] => []
  | s, p :: ps => v.added s (plugArgs o p) ++ addedBy (v.attach s (plugArgs o p)).2 ps

variable (v o) in
def removedBy : σ → List (Text × Text) → List (Text × Text)
  | _, [] => []
  | s, p :: ps => v.removed s (unplugArgs o p) ++ removedBy (v.detach s (unplugArgs o p)).2 ps

theorem macs_append (ps qs : List (Text × Text)) (vm : Text) :
    macs (ps ++ qs) vm = macs ps vm + macs qs vm := by
  rw [macs, List.filter_append, List.map_append]
  rfl

theorem count_macs : ∀ (ps : List (Text × Text)) (vm mac : Text), (macs ps vm).count mac = ps.count (vm, mac)
  | [], _, _ => rfl
  | p :: ps, vm, mac => by
    have ih := count_macs ps vm mac
    have hcons : macs (p :: ps) vm = macs [p] vm + macs ps vm := macs_append [p] ps vm
    have hone : (macs [p] vm).count mac = [p].count (vm, mac) := by
      by_cases hvm : p.1 = vm
      · by_cases hmac : p.2 = mac
        · simp [macs, ← hvm, ← hmac]
        · simp [macs, hvm, Prod.ext_iff, hmac, Ne.symm hmac]
      · simp [macs, hvm, Prod.ext_iff]
    rw [hcons, Multiset.count_add, hone, ih, ← List.count_append]
    rfl

theorem macs_eq_zero_iff {ps : List (Text × Text)} : (∀ vm, macs ps vm = 0) ↔ ps = [] := by
  constructor
  · intro h
    refine List.eq_nil_iff_forall_not_mem.mpr fun p hp => ?_
    have hcount := count_macs ps p.1 p.2
    rw [h p.1, Multiset.count_zero] at hcount
    exact List.count_eq_zero.mp hcount.symm hp
  · rintro rfl vm
    rfl

theorem interfaces_attachAll : ∀ (ps : List (Text × Text)) (s : σ) (vm : Text),
    v.interfaces (attachAll v o s ps) vm = v.interfaces s vm + macs (addedBy v o s ps) vm
  | [], s, vm => (add_zero (v.interfaces s vm)).symm
  | p :: ps, s, vm => by
    rw [addedBy, macs_append, ← add_assoc, ← v.attached]
    exact interfaces_attachAll ps _ vm

theorem interfaces_detachAll : ∀ (ps : List (Text × Text)) (s : σ) (vm : Text),
    v.interfaces (detachAll v o s ps) vm = v.interfaces s vm - macs (removedBy v o s ps) vm
  | [], s, vm => (tsub_zero (v.interfaces s vm)).symm
  | p :: ps, s, vm => by
    rw [removedBy, macs_append, ← tsub_tsub, ← v.detached]
    exact interfaces_detachAll ps _ vm

/-! ### What the scripts are for -/

/-- Nothing issued or printed yet. -/
def start (s : σ) : World σ := ⟨s, [], []⟩

/-- The name and the MAC are one word each, which pathname expansion leaves
alone. -/
def Single (o : Outside) (p : Text × Text) : Prop := o.words p.1 = [p.1] ∧ o.words p.2 = [p.2]

instance (o : Outside) (p : Text × Text) : Decidable (Single o p) := inferInstanceAs (Decidable (_ ∧ _))

/-- The VM has an interface with the MAC. -/
def Attached (v : Virsh σ) (s : σ) (p : Text × Text) : Prop := lower p.2 ∈ v.interfaces s p.1

instance (v : Virsh σ) (s : σ) (p : Text × Text) : Decidable (Attached v s p) :=
  inferInstanceAs (Decidable (_ ∈ _))

variable (v o) (vmlist maclist : List Text) (s : σ)

/-- The commands of a `hotplug`. -/
def plugged : List Command := (hotplug v o vmlist maclist (start s)).2.issued

/-- The state after it. -/
def afterPlug : σ := (hotplug v o vmlist maclist (start s)).2.hypervisor

def unplugged : List Command := (hotunplug v o vmlist maclist (start s)).2.issued

def afterUnplug : σ := (hotunplug v o vmlist maclist (start s)).2.hypervisor

/-- `attach-interface` for exactly the pairs whose MAC the VM does not have. -/
def PlugsMissing : Prop := plugged v o vmlist maclist s =
  ((pairs vmlist maclist).filter fun p => ¬ Attached v s p).map fun p =>
    .attachInterface (attachArgs [p.1] [p.2])

/-- `detach-interface` for exactly the pairs whose MAC it has. -/
def UnplugsAttached : Prop := unplugged v o vmlist maclist s =
  ((pairs vmlist maclist).filter fun p => Attached v s p).map fun p =>
    .detachInterface (detachArgs [p.1] [p.2])

/-- A second `hotplug` leaves the interfaces as they are. -/
def Idempotent : Prop :=
  v.interfaces (afterPlug v o vmlist maclist (afterPlug v o vmlist maclist s)) =
    v.interfaces (afterPlug v o vmlist maclist s)

/-- `hotunplug` gives the VMs the interfaces that they had before `hotplug`. -/
def Restores : Prop :=
  v.interfaces (afterUnplug v o vmlist maclist (afterPlug v o vmlist maclist s)) = v.interfaces s

theorem hotplug_issued : plugged v o vmlist maclist s =
      ((pairs vmlist maclist).map fun p => .attachInterface (plugArgs o p)) ∧
    afterPlug v o vmlist maclist s = attachAll v o s (pairs vmlist maclist) :=
  hotplug_spec vmlist maclist (start s) ⟨rfl, rfl⟩

theorem hotunplug_issued : unplugged v o vmlist maclist s =
      ((pairs vmlist maclist).map fun p => .detachInterface (unplugArgs o p)) ∧
    afterUnplug v o vmlist maclist s = detachAll v o s (pairs vmlist maclist) :=
  hotunplug_spec vmlist maclist (start s) ⟨rfl, rfl⟩

/-! ### The right commands -/

/-- All the commands are the right ones if none is to be left out and each is
the one that it should be. -/
theorem map_eq_map_filter_iff {f g : Text × Text → Command} {P : Text × Text → Bool}
    {ps : List (Text × Text)} : ps.map f = (ps.filter P).map g ↔ ∀ p ∈ ps, P p = true ∧ f p = g p := by
  constructor
  · intro h
    have hlen : (ps.filter P).length = ps.length := by
      have hl := congrArg List.length h
      rw [List.length_map, List.length_map] at hl
      exact hl.symm
    have hall := List.length_filter_eq_length_iff.mp hlen
    rw [List.filter_eq_self.mpr hall] at h
    exact fun p hp => ⟨hall p hp, List.map_inj_left.mp h p hp⟩
  · intro h
    rw [List.filter_eq_self.mpr fun p hp => (h p hp).1]
    exact List.map_inj_left.mpr fun p hp => (h p hp).2

/-- Words around others of which the first two differ stand where they are. -/
theorem around_inj {a b mid : List Text} {x y u w : Text} (hne : u ≠ w)
    (h : a ++ (u :: w :: mid ++ b) = [x] ++ (u :: w :: mid ++ [y])) : a = [x] ∧ b = [y] := by
  rcases a with _ | ⟨a, _ | ⟨a', as⟩⟩
  · simp only [List.nil_append, List.cons_append, List.cons.injEq] at h
    exact absurd h.2.1.symm hne
  · simpa using h
  · have hlen := congrArg List.length h
    simp only [List.cons_append, List.nil_append, List.length_cons, List.length_append,
      List.length_nil] at hlen
    obtain rfl : as = [] := List.eq_nil_of_length_eq_zero (by omega)
    simp only [List.nil_append, List.cons_append, List.cons.injEq] at h
    exact absurd h.2.2.1 hne

variable {o} in
theorem plugArgs_eq_iff {p : Text × Text} : plugArgs o p = attachArgs [p.1] [p.2] ↔ Single o p := by
  refine ⟨fun h => around_inj ?_ h, fun h => ?_⟩
  · decide
  · rw [plugArgs, h.1, h.2]

variable {o} in
theorem unplugArgs_eq_iff {p : Text × Text} : unplugArgs o p = detachArgs [p.1] [p.2] ↔ Single o p := by
  refine ⟨fun h => around_inj ?_ h, fun h => ?_⟩
  · decide
  · rw [unplugArgs, h.1, h.2]

/-- **Only missing interfaces, only attached ones.** `hotplug` issues the
right commands if and only if no listed pair is attached before, `hotunplug`
if and only if all of them are, and the names and MACs are single words; a
second `hotplug` changes nothing if and only if none of its commands adds an
interface; and `hotunplug` undoes `hotplug` if and only if, for each VM and MAC,
its commands take away as many interfaces as were added, or at least as many
where the VM had none with the MAC before. -/
theorem touches_exactly_iff :
    (PlugsMissing v o vmlist maclist s ↔
      ∀ p ∈ pairs vmlist maclist, ¬ Attached v s p ∧ Single o p) ∧
    (UnplugsAttached v o vmlist maclist s ↔
      ∀ p ∈ pairs vmlist maclist, Attached v s p ∧ Single o p) ∧
    (Idempotent v o vmlist maclist s ↔
      addedBy v o (afterPlug v o vmlist maclist s) (pairs vmlist maclist) = []) ∧
    (Restores v o vmlist maclist s ↔ ∀ p : Text × Text,
      let added := (addedBy v o s (pairs vmlist maclist)).count p
      let removed := (removedBy v o (afterPlug v o vmlist maclist s) (pairs vmlist maclist)).count p
      removed = added ∨ (added ≤ removed ∧ p.2 ∉ v.interfaces s p.1)) := by
  refine ⟨?_, ?_, ?_, ?_⟩
  · rw [PlugsMissing, (hotplug_issued v o vmlist maclist s).1, map_eq_map_filter_iff]
    simp only [decide_eq_true_eq, Command.attachInterface.injEq, plugArgs_eq_iff]
  · rw [UnplugsAttached, (hotunplug_issued v o vmlist maclist s).1, map_eq_map_filter_iff]
    simp only [decide_eq_true_eq, Command.detachInterface.injEq, unplugArgs_eq_iff]
  · rw [Idempotent, (hotplug_issued v o vmlist maclist (afterPlug v o vmlist maclist s)).2, funext_iff,
      ← macs_eq_zero_iff]
    exact forall_congr' fun vm => by rw [interfaces_attachAll, add_eq_left]
  · rw [Restores, (hotunplug_issued v o vmlist maclist _).2, funext_iff, Prod.forall]
    refine forall_congr' fun vm => ?_
    rw [interfaces_detachAll, (hotplug_issued v o vmlist maclist s).2, interfaces_attachAll, Multiset.ext]
    refine forall_congr' fun mac => ?_
    rw [Multiset.count_sub, Multiset.count_add, count_macs, count_macs, ← Multiset.count_eq_zero]
    dsimp only
    omega

/-! ### A hypervisor that does what it is asked for -/

/-- `virsh` attaches an interface that is missing and detaches one that is
there once. -/
structure Works (v : Virsh σ) : Prop where
  attach : ∀ s vm mac, lower mac ∉ v.interfaces s vm → (v.attach s (attachArgs [vm] [mac])).1 = true
  detach : ∀ s vm mac, (v.interfaces s vm).count (lower mac) = 1 →
    (v.detach s (detachArgs [vm] [mac])).1 = true

/-- The pair as `virsh` has it. -/
def printedPair (p : Text × Text) : Text × Text := (p.1, lower p.2)

variable {v o s} {vmlist maclist}

theorem added_of_works (hv : Works v) (d : Text → Multiset Text) : ∀ (ps done : List (Text × Text)) (s : σ),
    (∀ vm, v.interfaces s vm = d vm + macs done vm) → (done ++ ps.map printedPair).Nodup →
    (∀ p ∈ ps, Single o p ∧ p.1.head? ≠ some '-' ∧ lower p.2 ∉ d p.1) →
      addedBy v o s ps = ps.map printedPair
  | [], _, _, _, _, _ => rfl
  | p :: ps, done, s, hs, hnodup, hd => by
    obtain ⟨hsingle, hoption, hmissing⟩ := hd p List.mem_cons_self
    have hargs : plugArgs o p = attachArgs [p.1] [p.2] := plugArgs_eq_iff.mpr hsingle
    have hnone : lower p.2 ∉ v.interfaces s p.1 := by
      rw [hs, Multiset.mem_add, not_or]
      refine ⟨hmissing, fun hm => ?_⟩
      have hcount : (macs done p.1).count (lower p.2) ≠ 0 := Multiset.count_ne_zero.mpr hm
      rw [count_macs] at hcount
      have hmem := List.count_pos_iff.mp (Nat.pos_of_ne_zero hcount)
      exact (List.nodup_append.mp hnodup).2.2 _ hmem _ List.mem_cons_self rfl
    have hone : v.added s (plugArgs o p) = [printedPair p] := by
      rw [hargs, v.added_one s p.1 p.2 hoption, if_pos (hv.attach s p.1 p.2 hnone)]
      rfl
    have ih := added_of_works hv d ps (done ++ [printedPair p]) (v.attach s (plugArgs o p)).2
      (fun vm => by rw [v.attached, hone, hs, macs_append, add_assoc])
      (by rwa [List.append_assoc]) fun q hq => hd q (List.mem_cons_of_mem p hq)
    rw [addedBy, hone, ih]
    rfl

theorem removed_of_works (hv : Works v) (d : Text → Multiset Text) : ∀ (ps : List (Text × Text)) (s : σ),
    (∀ vm, v.interfaces s vm = d vm + macs (ps.map printedPair) vm) → (ps.map printedPair).Nodup →
    (∀ p ∈ ps, Single o p ∧ p.1.head? ≠ some '-' ∧ lower p.2 ∉ d p.1) →
      removedBy v o s ps = ps.map printedPair
  | [], _, _, _, _ => rfl
  | p :: ps, s, hs, hnodup, hd => by
    obtain ⟨hsingle, hoption, hmissing⟩ := hd p List.mem_cons_self
    have hargs : unplugArgs o p = detachArgs [p.1] [p.2] := unplugArgs_eq_iff.mpr hsingle
    have hcount : (v.interfaces s p.1).count (lower p.2) = 1 := by
      have hfirst := List.count_eq_one_of_mem hnodup (List.mem_cons_self : printedPair p ∈ _)
      rw [hs, Multiset.count_add, Multiset.count_eq_zero_of_notMem hmissing, zero_add, count_macs]
      exact hfirst
    have hone : v.removed s (unplugArgs o p) = [printedPair p] := by
      rw [hargs, v.removed_one s p.1 p.2 hoption, if_pos (hv.detach s p.1 p.2 hcount)]
      rfl
    have hrest : ∀ vm, v.interfaces (v.detach s (unplugArgs o p)).2 vm =
        d vm + macs (ps.map printedPair) vm := by
      intro vm
      have hcons : macs (printedPair p :: ps.map printedPair) vm =
          macs [printedPair p] vm + macs (ps.map printedPair) vm := macs_append [printedPair p] _ vm
      rw [v.detached, hone, hs, List.map_cons, hcons, add_left_comm, add_tsub_cancel_left]
    have ih := removed_of_works hv d ps _ hrest (List.nodup_cons.mp hnodup).2 fun q hq =>
      hd q (List.mem_cons_of_mem p hq)
    rw [removedBy, hone, ih]
    rfl

/-- With distinct pairs none of which is attached, `hotunplug` undoes
`hotplug`. -/
theorem restores_of_works (hv : Works v) (hnodup : ((pairs vmlist maclist).map printedPair).Nodup)
    (hd : ∀ p ∈ pairs vmlist maclist, Single o p ∧ p.1.head? ≠ some '-' ∧ ¬ Attached v s p) :
    Restores v o vmlist maclist s := by
  have hadded := added_of_works hv (v.interfaces s) (pairs vmlist maclist) [] s
    (fun vm => (add_zero _).symm) hnodup hd
  have hafter : ∀ vm, v.interfaces (afterPlug v o vmlist maclist s) vm =
      v.interfaces s vm + macs ((pairs vmlist maclist).map printedPair) vm := fun vm => by
    rw [(hotplug_issued v o vmlist maclist s).2, interfaces_attachAll, hadded]
  have hremoved := removed_of_works hv (v.interfaces s) (pairs vmlist maclist) _ hafter hnodup hd
  funext vm
  rw [(hotunplug_issued v o vmlist maclist _).2, interfaces_detachAll, hremoved, hafter,
    add_tsub_cancel_right]

/-- The name and the MAC of a command for one word each. -/
def parse (args : List Text → List Text → List Text) (ws : List Text) : Option (Text × Text) :=
  if ws = args [ws.headD []] [ws.getLastD []] then some (ws.headD [], ws.getLastD []) else none

theorem parse_attachArgs (vm mac : Text) : parse attachArgs (attachArgs [vm] [mac]) = some (vm, mac) := by
  have hhead : (attachArgs [vm] [mac]).headD [] = vm := rfl
  have hlast : (attachArgs [vm] [mac]).getLastD [] = mac := rfl
  rw [parse, hhead, hlast, if_pos rfl]

theorem parse_detachArgs (vm mac : Text) : parse detachArgs (detachArgs [vm] [mac]) = some (vm, mac) := by
  have hhead : (detachArgs [vm] [mac]).headD [] = vm := rfl
  have hlast : (detachArgs [vm] [mac]).getLastD [] = mac := rfl
  rw [parse, hhead, hlast, if_pos rfl]

theorem macs_one (p : Text × Text) (vm : Text) : macs [p] vm = if vm = p.1 then {p.2} else 0 := by
  by_cases hvm : p.1 = vm
  · simp [macs, ← hvm]
  · simp [macs, hvm, Ne.symm hvm]

/-- A MAC that the VM has once, in a command to detach it. -/
def parseOne (d : Text → List Text) (ws : List Text) : Option (Text × Text) :=
  (parse detachArgs ws).filter fun p => (d p.1 : Multiset Text).count (lower p.2) = 1

/-- The list without one of its elements. -/
def without {α : Type} [DecidableEq α] (a : α) (l : List α) : List α := l.erase a

theorem parseOne_detachArgs (d : Text → List Text) (vm mac : Text) : parseOne d (detachArgs [vm] [mac]) =
    if (d vm : Multiset Text).count (lower mac) = 1 then some (vm, mac) else none := by
  rw [parseOne, parse_detachArgs]
  split_ifs with hcount
  · exact Option.filter_some_pos (decide_eq_true hcount)
  · exact Option.filter_some_neg (by simpa using hcount)

/-- The MACs of each VM. A command for one word each of name and MAC attaches
an interface, also a second one, or detaches one that is there once. -/
def obliging : Virsh (Text → List Text) where
  interfaces d vm := d vm
  dumpxml d args := args.flatMap fun vm => (d vm).map fun mac => "<mac address='".toList ++ mac ++ "'/>".toList
  grep args ls := match args with
    | [w] => Text.grep w ls ≠ []
    | _ => false
  attach d args := match parse attachArgs args with
    | some p => (true, Function.update d p.1 (d p.1 ++ [lower p.2]))
    | none => (false, d)
  detach d args := match parseOne d args with
    | some p => (true, Function.update d p.1 (without (lower p.2) (d p.1)))
    | none => (false, d)
  added _ args := ((parse attachArgs args).map printedPair).toList
  removed d args := ((parseOne d args).map printedPair).toList
  attached d args vm := by
    cases parse attachArgs args with
    | none => exact (add_zero _).symm
    | some p =>
      show ((Function.update d p.1 _ vm : List Text) : Multiset Text) = _ + macs [printedPair p] vm
      rw [macs_one]
      by_cases hvm : vm = p.1
      · subst hvm
        rw [Function.update_self, if_pos (show p.1 = (printedPair p).1 from rfl)]
        rfl
      · rw [Function.update_of_ne hvm]
        exact ((congrArg _ (if_neg hvm)).trans (add_zero _)).symm
  detached d args vm := by
    cases parseOne d args with
    | none => exact (tsub_zero _).symm
    | some p =>
      show ((Function.update d p.1 _ vm : List Text) : Multiset Text) = _ - macs [printedPair p] vm
      rw [macs_one]
      by_cases hvm : vm = p.1
      · subst hvm
        rw [Function.update_self, if_pos (show p.1 = (printedPair p).1 from rfl), Multiset.sub_singleton,
          Multiset.coe_erase]
        rfl
      · rw [Function.update_of_ne hvm]
        exact ((congrArg _ (if_neg hvm)).trans (tsub_zero _)).symm
  added_one d vm mac _ := by
    rw [parse_attachArgs]
    rfl
  removed_one d vm mac _ := by
    rw [parseOne_detachArgs]
    by_cases hcount : (d vm : Multiset Text).count (lower mac) = 1
    · rw [if_pos hcount]
      rfl
    · rw [if_neg hcount]
      rfl

theorem works_obliging : Works obliging where
  attach d vm mac _ := by
    show (match parse attachArgs (attachArgs [vm] [mac]) with
      | some p => (true, Function.update d p.1 (d p.1 ++ [lower p.2]))
      | none => (false, d)).1 = true
    rw [parse_attachArgs]
  detach d vm mac h := by
    have hcount : (d vm : Multiset Text).count (lower mac) = 1 := h
    show (match parseOne d (detachArgs [vm] [mac]) with
      | some p => (true, Function.update d p.1 (without (lower p.2) (d p.1)))
      | none => (false, d)).1 = true
    rw [parseOne_detachArgs, if_pos hcount]

/-- Two VMs without interfaces. -/
example : Restores obliging Outside.inert ["vm1".toList, "vm2".toList]
    ["52:54:00:01:02:03".toList, "52:54:00:01:02:04".toList] fun _ => [] :=
  restores_of_works works_obliging (by decide +kernel) (by decide +kernel)

/-- **An interface that is there is attached once more.** -/
theorem existing_nic_attached : ¬ ∀ (σ : Type) (v : Virsh σ) (o : Outside) (vmlist maclist : List Text) (s : σ),
    PlugsMissing v o vmlist maclist s := by
  intro h
  have hp := h _ obliging Outside.inert ["vm1".toList] ["52:54:00:01:02:03".toList]
    fun _ => ["52:54:00:01:02:03".toList]
  rw [PlugsMissing, (hotplug_issued _ _ _ _ _).1] at hp
  exact absurd hp (by decide +kernel)

end Hotplug
end Net
end Longan
