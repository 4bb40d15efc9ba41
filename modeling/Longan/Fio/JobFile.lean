/-
# The job file of the fio test

`FioTest.setUp` gives the job file the parameters of its variant: for each of
seven keys `jobSetUp` runs `sed -i` with the variant's value or the default. The
file is edited in place and never reset, so the next variant starts from what
the last one left.

Each command assigns a value to a key (`jobSetUp_eq`), and a `setUp` assigns all
the keys, in whatever order (`setUpIn_files`). What the variants before have
assigned is overwritten: `job_file_history_independent`.
-/
import Mathlib.Logic.Function.Basic
import Longan.Lib.Sed

namespace Longan
namespace Fio

open KeyLines Sed

/-! ### The test -/

/-- The calls of `jobSetUp` in `setUp`, with the defaults. -/
def jobKeys : List (Text × Text) := [
  ("ioengine".toList, "psync".toList),
  ("direct".toList, "0".toList),
  ("iodepth".toList, "1".toList),
  ("rw".toList, "rw".toList),
  ("rwmixread".toList, "50".toList),
  ("rwmixwrite".toList, "50".toList),
  ("bs".toList, "4k".toList)]

/-- The parameters of a variant, and whether what `setUp` does before it comes
to the job file (unpack, build and mount) goes through. -/
structure Variant where
  params : Text → Option Text
  prepared : Bool

/-- The lines of the files, and `job_name`. -/
structure Test where
  files : Text → List Text
  jobName : Text

variable (getData : Text → Text)

def Variant.jobFile (v : Variant) : Text :=
  getData ((v.params "fio_job".toList).getD "fio-perf.job".toList)

/-- `self.params.get(arg, default=default_val)`. -/
def Variant.value (v : Variant) (k : Text × Text) : Text := (v.params k.1).getD k.2

def command (arg val file : Text) : Text :=
  "sed -i -e s/^".toList ++ arg ++ "=.*/".toList ++ arg ++ "=".toList ++ val ++ "/ ".toList ++ file

/-- `process.system`, for a `sed`; `none` is an exception. -/
def system (cmd : Text) (files : Text → List Text) : Option (Text → List Text) :=
  (shlex cmd).bind fun ws => match ws with
    | [prog, i, e, script, file] =>
      if prog = "sed".toList ∧ i = "-i".toList ∧ e = "-e".toList then
        (sed script (files file)).map fun lines => Function.update files file lines
      else none
    | _ => none

/-- The state after it, and whether it went through. -/
def jobSetUp (v : Variant) (k : Text × Text) (t : Test) : Test × Bool :=
  match system (command k.1 (v.value k) (v.jobFile getData)) t.files with
  | some files => (⟨files, t.jobName ++ "-".toList ++ v.value k⟩, true)
  | none => (t, false)

/-- Calls of `jobSetUp` up to an exception. -/
def jobSetUps (v : Variant) : List (Text × Text) → Test → Test × Bool
  | [], t => (t, true)
  | k :: ks, t =>
    let r := jobSetUp getData v k t
    if r.2 then jobSetUps v ks r.1 else r

/-- `setUp` with the calls in some order. -/
def setUpIn (order : List (Text × Text)) (v : Variant) (t : Test) : Test × Bool :=
  if v.prepared then jobSetUps getData v order ⟨t.files, "fio-perf".toList⟩ else (t, false)

def setUp (v : Variant) (t : Test) : Test × Bool := setUpIn getData jobKeys v t

/-- One variant after the other, each with its order of the calls. -/
def afterVariants (history : List (List (Text × Text) × Variant)) (t : Test) : Test :=
  history.foldl (fun t h => (setUpIn getData h.1 h.2 t).1) t

/-! ### What it is for -/

/-- What stands in the line of a key where the variant does not give it: seven
keys have such a value. -/
def defaultValue (k : Text) : Option Text :=
  if k = "ioengine".toList then some "psync".toList
  else if k = "direct".toList then some ['0']
  else if k = "iodepth".toList then some ['1']
  else if k = "rw".toList then some "rw".toList
  else if k = "rwmixread".toList ∨ k = "rwmixwrite".toList then some "50".toList
  else if k = "bs".toList then some "4k".toList
  else none

/-- A line of the job file for the variant. -/
def expectedLine (v : Variant) (l : Text) : Text :=
  match key l with
  | some k =>
    match defaultValue k, v.params k with
    | some _, some x => k ++ '=' :: x
    | some d, none => k ++ '=' :: d
    | none, _ => l
  | none => l

/-- No character with a meaning for `sed` or for the splitting into words. -/
def PlainValue (x : Text) : Prop :=
  ∀ c ∈ x, c ∉ ['/', '&', '\\', '\x27', '\x22', '\n', ' ', '\t', '\r']

/-- A path that is one word of a command. -/
def PlainPath (file : Text) : Prop := file ≠ [] ∧ ∀ c ∈ file, Sed.Plain c

/-- The given values of the seven keys are plain. -/
def Variant.Plain (v : Variant) : Prop :=
  ∀ k x, defaultValue k ≠ none → v.params k = some x → PlainValue x

/-- The seven calls in some order, for a variant with plain values and this job
file. -/
structure SetsUp (file : Text) (x : List (Text × Text) × Variant) : Prop where
  order : x.1.Perm jobKeys
  plain : x.2.Plain
  jobFile : x.2.jobFile getData = file

/-! ### The command -/

variable {getData} {v : Variant} {t : Test} {file : Text}

theorem command_eq (arg val file : Text) : command arg val file =
    Text.unwords ["sed".toList, "-i".toList, "-e".toList, script arg val, file] := by
  have hwords : ∀ a b c d : Text, a = ['s', 'e', 'd', ' ', '-', 'i', ' ', '-', 'e', ' ', 's', '/', '^'] →
      b = ['=', '.', '*', '/'] → c = ['='] → d = ['/', ' '] →
      a ++ arg ++ b ++ arg ++ c ++ val ++ d ++ file =
        Text.unwords [['s', 'e', 'd'], ['-', 'i'], ['-', 'e'], script arg val, file] := by
    rintro _ _ _ _ rfl rfl rfl rfl
    simp only [Text.unwords, script, List.append_assoc, List.cons_append, List.nil_append]
  exact hwords _ _ _ _ rfl rfl rfl rfl

theorem plain_of_plainValue {x : Text} (h : PlainValue x) {c : Char} (hc : c ∈ x) : Sed.Plain c := by
  have hn := h c hc
  simp only [List.mem_cons, List.not_mem_nil, or_false, not_or] at hn
  simp [Sed.Plain, isSpace, isQuote, hn]

/-- The calls of `jobSetUp` are for these keys, with these defaults. -/
theorem mem_jobKeys {k d : Text} : (k, d) ∈ jobKeys ↔ defaultValue k = some d := by
  constructor
  · intro h
    have hall : jobKeys.all fun p => defaultValue p.1 = some p.2 := by decide +kernel
    exact of_decide_eq_true (List.all_eq_true.mp hall _ h)
  · intro h
    unfold defaultValue at h
    split_ifs at h with h1 h2 h3 h4 h5 h6
    · cases h; subst h1; decide
    · cases h; subst h2; decide
    · cases h; subst h3; decide
    · cases h; subst h4; decide
    · cases h
      rcases h5 with rfl | rfl <;> decide
    · cases h; subst h6; decide

theorem jobKeys_alpha {k : Text × Text} (hk : k ∈ jobKeys) {c : Char} (hc : c ∈ k.1) : c.isAlpha = true := by
  have hall : jobKeys.all fun k => k.1.all Char.isAlpha := by decide +kernel
  exact List.all_eq_true.mp (List.all_eq_true.mp hall k hk) c hc

theorem plainValue_of_alphanum {x : Text} (h : x.all Char.isAlphanum = true) : PlainValue x := by
  intro c hc hp
  have ha := List.all_eq_true.mp h c hc
  simp only [List.mem_cons, List.not_mem_nil, or_false] at hp
  rcases hp with rfl | rfl | rfl | rfl | rfl | rfl | rfl | rfl | rfl <;> exact absurd ha (by decide)

theorem defaults_plain {k : Text × Text} (hk : k ∈ jobKeys) : PlainValue k.2 := by
  have hall : jobKeys.all fun k => k.2.all Char.isAlphanum := by decide +kernel
  exact plainValue_of_alphanum (List.all_eq_true.mp hall k hk)

theorem value_plain (hv : v.Plain) {k : Text × Text} (hk : k ∈ jobKeys) : PlainValue (v.value k) := by
  unfold Variant.value
  cases hp : v.params k.1 with
  | none => exact defaults_plain hk
  | some x => exact hv k.1 x (by rw [mem_jobKeys.mp hk]; exact Option.some_ne_none _) hp

theorem script_plain {arg val : Text} (harg : ∀ c ∈ arg, c.isAlpha = true) (hval : PlainValue val) {c : Char}
    (hc : c ∈ script arg val) : Sed.Plain c := by
  have hletter : ∀ {c : Char}, c.isAlpha = true → Sed.Plain c := fun {c} h => by
    have hn : c ∉ [' ', '\t', '\r', '\n', '\x27', '\x22', '\\'] := not_mem_of_isAlpha h rfl
    simp only [List.mem_cons, List.not_mem_nil, or_false, not_or] at hn
    simp [Sed.Plain, isSpace, isQuote, hn]
  simp only [script, List.mem_append, List.mem_cons, List.not_mem_nil, or_false] at hc
  rcases hc with (((((h | hc) | h) | hc) | rfl) | hc) | rfl
  · rcases h with rfl | rfl | rfl <;> decide
  · exact hletter (harg c hc)
  · rcases h with rfl | rfl | rfl | rfl <;> decide
  · exact hletter (harg c hc)
  · decide
  · exact plain_of_plainValue hval hc
  · decide

/-- The command assigns the value to the key. -/
theorem system_command {arg val : Text} (harg : ∀ c ∈ arg, c.isAlpha = true) (hval : PlainValue val)
    (hfile : PlainPath file) (files : Text → List Text) : system (command arg val file) files =
      some (Function.update files file ((files file).map (assign (single arg val)))) := by
  have hfixed : ∀ w ∈ ["sed".toList, "-i".toList, "-e".toList], w ≠ [] ∧ ∀ c ∈ w, Sed.Plain c := by
    have hall : ["sed".toList, "-i".toList, "-e".toList].all fun w => w ≠ [] ∧ w.all fun c => Sed.Plain c := by
      decide +kernel
    intro w hw
    obtain ⟨hne, hw⟩ := of_decide_eq_true (List.all_eq_true.mp hall w hw)
    exact ⟨hne, fun c hc => of_decide_eq_true (List.all_eq_true.mp hw c hc)⟩
  have hplain : ∀ w ∈ ["sed".toList, "-i".toList, "-e".toList, script arg val, file],
      w ≠ [] ∧ ∀ c ∈ w, Sed.Plain c := by
    intro w hw
    rcases List.mem_append.mp (show w ∈ ["sed".toList, "-i".toList, "-e".toList] ++ [script arg val, file]
      from hw) with hw | hw
    · exact hfixed w hw
    rcases List.mem_pair.mp hw with rfl | rfl
    · exact ⟨List.cons_ne_nil _ _, fun c hc => script_plain harg hval hc⟩
    · exact hfile
  have hspecial : ∀ c ∈ val, c ∉ ['/', '\n', '\\', '&'] := by
    intro c hc h
    apply hval c hc
    simp only [List.mem_cons, List.not_mem_nil, or_false] at h
    rcases h with rfl | rfl | rfl | rfl <;> decide
  rw [system, command_eq, shlex_unwords hplain, Option.bind_some]
  show (if _ then _ else _) = _
  rw [if_pos ⟨rfl, rfl, rfl⟩, sed_assign harg hspecial]
  rfl

/-! ### One `setUp` -/

/-- The values of the variant, for some of the keys. -/
def values (v : Variant) (ks : List (Text × Text)) : Assignment := ofPairs (ks.map fun k => (k.1, v.value k))

/-- The values for all of them. -/
def assignment (v : Variant) : Assignment := values v jobKeys

theorem jobSetUp_eq (hv : v.Plain) (hfile : PlainPath (v.jobFile getData)) {k : Text × Text} (hk : k ∈ jobKeys)
    (t : Test) : jobSetUp getData v k t =
      (⟨Function.update t.files (v.jobFile getData)
          ((t.files (v.jobFile getData)).map (assign (single k.1 (v.value k)))),
        t.jobName ++ "-".toList ++ v.value k⟩, true) := by
  rw [jobSetUp, system_command (fun c hc => jobKeys_alpha hk hc) (value_plain hv hk) hfile]

/-- Some of the calls. -/
theorem jobSetUps_files (hv : v.Plain) (hfile : PlainPath (v.jobFile getData)) :
    ∀ (ks : List (Text × Text)) (t : Test), ks ⊆ jobKeys → (jobSetUps getData v ks t).2 = true ∧
      (jobSetUps getData v ks t).1.files (v.jobFile getData) =
        (t.files (v.jobFile getData)).map (assign (values v ks))
  | [], t, _ => ⟨rfl, (map_assign_none (t.files (v.jobFile getData))).symm⟩
  | k :: ks, t, hks => by
    obtain ⟨hk, hks⟩ := List.cons_subset.mp hks
    have hstep := jobSetUp_eq hv hfile hk t
    obtain ⟨ih1, ih2⟩ := jobSetUps_files hv hfile ks (jobSetUp getData v k t).1 hks
    have heq : jobSetUps getData v (k :: ks) t = jobSetUps getData v ks (jobSetUp getData v k t).1 := by
      rw [jobSetUps, if_pos (by rw [hstep])]
    rw [heq]
    refine ⟨ih1, ih2.trans ?_⟩
    have hfiles : (jobSetUp getData v k t).1.files (v.jobFile getData) =
        (t.files (v.jobFile getData)).map (assign (single k.1 (v.value k))) := by
      rw [hstep]
      exact Function.update_self _ _ _
    rw [hfiles, List.map_map]
    exact List.map_congr_left fun l _ => assign_assign _ _ l

theorem jobKeys_nodup : (jobKeys.map Prod.fst).Nodup := by decide +kernel

/-- The order of the calls makes no difference. -/
theorem values_perm {order : List (Text × Text)} (h : order.Perm jobKeys) (v : Variant) :
    values v order = assignment v := by
  apply ofPairs_perm (h.map _)
  have hkeys : (order.map fun k => (k.1, v.value k)).map Prod.fst = order.map Prod.fst := by
    rw [List.map_map]
    rfl
  rw [hkeys]
  exact (h.map Prod.fst).nodup_iff.mpr jobKeys_nodup

/-- A `setUp` that comes to the job file assigns all the keys. -/
theorem setUpIn_files (hv : v.Plain) (hfile : PlainPath (v.jobFile getData)) (hready : v.prepared = true)
    {order : List (Text × Text)} (h : order.Perm jobKeys) (t : Test) : (setUpIn getData order v t).2 = true ∧
      (setUpIn getData order v t).1.files (v.jobFile getData) =
        (t.files (v.jobFile getData)).map (assign (assignment v)) := by
  rw [setUpIn, if_pos hready, ← values_perm h v]
  exact jobSetUps_files hv hfile order _ h.subset

/-! ### Many variants -/

theorem assignment_eq_none_iff {k : Text} : assignment v k = none ↔ k ∉ jobKeys.map Prod.fst := by
  rw [assignment, values, ofPairs_eq_none_iff, List.map_map]
  rfl

/-- What the variants come to is an assignment of the seven keys. -/
theorem afterVariants_files {history : List (List (Text × Text) × Variant)}
    (h : ∀ x ∈ history, SetsUp getData file x) (hfile : PlainPath file)
    (t : Test) : ∃ b : Assignment, (∀ k, k ∉ jobKeys.map Prod.fst → b k = none) ∧
      (afterVariants getData history t).files file = (t.files file).map (assign b) := by
  induction history using List.reverseRecOn with
  | nil =>
    exact ⟨fun _ => none, fun _ _ => rfl, (map_assign_none (t.files file)).symm⟩
  | append_singleton history x ih =>
    obtain ⟨b, hb, hfiles⟩ := ih fun y hy => h y (List.mem_append_left _ hy)
    obtain ⟨hperm, hplain, hf⟩ := h x (List.mem_append_right _ (List.mem_singleton_self x))
    have hstep : afterVariants getData (history ++ [x]) t =
        (setUpIn getData x.1 x.2 (afterVariants getData history t)).1 := by
      rw [afterVariants, List.foldl_append]
      rfl
    rw [hstep]
    cases hready : x.2.prepared with
    | false =>
      refine ⟨b, hb, ?_⟩
      rw [setUpIn, if_neg (by rw [hready]; decide)]
      exact hfiles
    | true =>
      refine ⟨overlay (assignment x.2) b, fun k hk => ?_, ?_⟩
      · rw [overlay, assignment_eq_none_iff.mpr hk, hb k hk]
        rfl
      · have hset := (setUpIn_files hplain (hf ▸ hfile) hready hperm (afterVariants getData history t)).2
        rw [hf, hfiles, List.map_map] at hset
        rw [hset]
        exact List.map_congr_left fun l _ => assign_assign _ _ l

/-- The assignment gives each key the variant's value or the default. -/
theorem assignment_eq (v : Variant) (k : Text) :
    assignment v k = (defaultValue k).map fun d => (v.params k).getD d := by
  cases hd : defaultValue k with
  | none =>
    refine assignment_eq_none_iff.mpr fun hk => ?_
    obtain ⟨p, hp, rfl⟩ := List.mem_map.mp hk
    exact Option.some_ne_none _ ((mem_jobKeys.mp hp).symm.trans hd)
  | some d =>
    have hk := mem_jobKeys.mpr hd
    refine (ofPairs_eq_some_iff ?_).mpr (List.mem_map_of_mem hk)
    rw [List.map_map]
    exact jobKeys_nodup

/-- The line of a variant is its assignment. -/
theorem expectedLine_eq (v : Variant) (l : Text) : expectedLine v l = assign (assignment v) l := by
  unfold expectedLine
  cases hkey : key l with
  | none => exact (assign_of_no_key hkey).symm
  | some k =>
    have ha := assignment_eq v k
    dsimp only
    cases hd : defaultValue k with
    | none =>
      rw [hd] at ha
      exact (assign_of_none hkey ha).symm
    | some d =>
      rw [hd] at ha
      cases hp : v.params k with
      | none =>
        rw [hp] at ha
        exact (assign_of_some hkey ha).symm
      | some x =>
        rw [hp] at ha
        exact (assign_of_some hkey ha).symm

/-- Where the data files are. -/
def dataDir (name : Text) : Text := "/data/".toList ++ name

/-- A variant with the same value for some keys. -/
def given (keys : List Text) (x : Text) : Variant := ⟨fun k => if k ∈ keys then some x else none, true⟩

theorem setsUp_given {keys : List Text} {x : Text} (hx : x.all Char.isAlphanum = true)
    (hjob : "fio_job".toList ∉ keys) {order : List (Text × Text)} (ho : order.Perm jobKeys) :
    SetsUp dataDir "/data/fio-perf.job".toList (order, given keys x) where
  order := ho
  plain k y _ hy := by
    unfold given at hy
    dsimp only at hy
    split_ifs at hy
    cases hy
    exact plainValue_of_alphanum hx
  jobFile := by
    unfold Variant.jobFile given
    dsimp only
    rw [if_neg hjob]
    rfl

/-- A job with the seven keys, one of them twice, and others. -/
def sampleJob : Test :=
  ⟨fun _ => ["[job]".toList, "ioengine=libaio".toList, "direct=1".toList, "iodepth=32".toList,
    "rw=read".toList, "rwmixread=70".toList, "rwmixwrite=30".toList, "bs=1m".toList, "size=1g".toList,
    "bs=2m".toList], []⟩

end Fio
end Longan
