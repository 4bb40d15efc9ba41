/-
# The xfstests wrapper

`xfstests.py` makes a list of tests from the parameter `test_range` in `setUp`
and runs `./check` on each of them in `test`. With an empty list it runs
`./check -g auto` once instead, after `setUp` has appended the tests of
`exclude`, `gen_exclude` and `share_exclude` to the file `exclude` of the
source directory; that file and `extra_exclude.file` are passed with `-E`.

The source directory outlives a variant of the test, and unpacking it again
removes nothing: its two exclude files may be there from before. What the
`./check` runs return and print is the input.
-/
import Longan.Lib.Python

namespace Longan
namespace Xfstests

open Python

/-! ### The input -/

/-- The parameters that choose tests; `none` for one that is not given. -/
structure Params where
  skipDangerous : Bool
  testRange : Option Text
  exclude : Option Text
  genExclude : Option Text
  shareExclude : Option Text
  fs : Text

/-- The files below `tests/`, each with its directory. `_get_available_tests`
would drop a `.linux` from a directory's name too. -/
structure Tree where
  files : List (Text × Text)
  plain : ∀ f ∈ files, ¬ ".linux".toList <:+: f.1

/-- The wrapper's own files: what decoding `group` gives, and the lines of
`exclude_ext4` and `exclude_xfs`. -/
structure Data where
  group : Except PyError Text
  excludeExt4 : List Text
  excludeXfs : List Text

/-- The exclude files of the source directory, where they exist. -/
structure Sourcedir where
  exclude : Option (List Text)
  extraExclude : Option (List Text)

/-- What a `./check` run came to. -/
structure Result where
  exitStatus : ℤ
  stdout : List UInt8

/-! ### The tests there are -/

/-- The test a file `???.out` or `???.out.linux` belongs to, if its script is
there. -/
def testOf (files : List (Text × Text)) (f : Text × Text) : Option (Text × Text) :=
  let n := f.2.take 3
  if n.length = 3 ∧ f.1.head? ≠ some '.' ∧ n.head? ≠ some '.' ∧
      (f.2.drop 3 = ".out".toList ∨ f.2.drop 3 = ".out.linux".toList) ∧ (f.1, n) ∈ files then
    some (f.1, n)
  else none

/-- The tests, each with its directory. -/
def Tree.tests (t : Tree) : List (Text × Text) := t.files.filterMap (testOf t.files)

/-- `_get_available_tests`: their numbers, from all directories at once. -/
def getAvailableTests (t : Tree) : List Text := t.tests.map Prod.snd

def isTestValid (t : Tree) (testNumber : Text) : Bool :=
  testNumber ≠ "000".toList ∧ testNumber ∈ getAvailableTests t

/-- The match of `(\d{3})\s(.*)` at the start of a line. -/
def groupTestLine : Text → Option (Text × Text)
  | a :: b :: c :: s :: r =>
    if isDigit a && isDigit b && isDigit c && isSpace s then
      some ([a, b, c], r.takeWhile (· ≠ '\n'))
    else none
  | _ => none

def getTestsForGroup (file : Except PyError Text) (group : Text) : Except PyError (List Text) :=
  file.map fun content => (readlines content).filterMap fun l =>
    (groupTestLine l).bind fun m => if group ∈ split m.2 then some m.1 else none

/-! ### The list of tests -/

/-- `if r:`: a parameter that is given and not empty. -/
def given (r : Option Text) : Bool := r.getD [] ≠ []

/-- The numbers of one part of a range text. -/
def rangeValues (value : Text) : Except PyError (List ℤ) :=
  if '-' ∈ value then
    match splitOn '-' value with
    | [start, stop] => do
      let a ← int start
      let b ← int stop
      .ok (range a (b + 1))
    | _ => .error .valueError
  else (int value).map fun z => [z]

/-- `comma_separated_ranges_to_list`. -/
def commaSeparatedRangesToList (t : Text) : Except PyError (List ℤ) :=
  (splitOn ',' t).foldlM (fun values value => (rangeValues value).map (values ++ ·)) []

variable (p : Params) (d : Data) (t : Tree)

/-- The tests that `_create_test_list` skips as dangerous. -/
def dangerousTests : Except PyError (List Text) :=
  if p.skipDangerous then getTestsForGroup d.group "dangerous".toList else .ok []

/-- `_create_test_list`, without the exclude file. -/
def createTestList (testRange : Option Text) (dangerous : Bool) : Except PyError (List Text) := do
  let dangerousTests ← dangerousTests p d
  if given testRange then
    let values ← commaSeparatedRangesToList (testRange.getD [])
    .ok ((values.map pad3).filter fun test =>
      !(dangerous && decide (test ∈ dangerousTests)) && isTestValid t test)
  else .ok []

/-- `'%s/%s' % (test_type, test)`. -/
def path (testType test : Text) : Text := testType ++ '/' :: test

/-- `_create_test_list` with a `test_type`: it appends to the exclude file. -/
def excludeTests (testRange : Option Text) (testType : Text) (sd : Sourcedir) :
    Except PyError Sourcedir :=
  if given testRange then do
    let tests ← createTestList p d t testRange false
    .ok { sd with exclude := some (sd.exclude.getD [] ++ tests.map (path testType)) }
  else .ok sd

/-! ### `setUp` and `test` -/

/-- The attributes that `setUp` leaves and the source directory. The three
exclude parameters are `none` where the attributes are not set. -/
structure Attrs where
  testList : List Text
  excludes : Option (Option Text × Option Text × Option Text)
  sourcedir : Sourcedir

/-- The extra exclude file of a file system that has one. -/
def shipped : Option (List Text) :=
  if p.fs = "ext4".toList then some d.excludeExt4
  else if p.fs = "xfs".toList then some d.excludeXfs
  else none

def setUp (sd : Sourcedir) : Except PyError Attrs := do
  let sd := { sd with extraExclude := (shipped p d).or sd.extraExclude }
  let testList ← createTestList p d t p.testRange true
  if given p.testRange then .ok ⟨testList, none, sd⟩
  else
    let sd ← excludeTests p d t p.exclude p.fs sd
    let sd ← excludeTests p d t p.genExclude "generic".toList sd
    let sd ← excludeTests p d t p.shareExclude "shared".toList sd
    .ok ⟨testList, some (p.exclude, p.genExclude, p.shareExclude), sd⟩

/-- The match of `Failed \d+ of \d+ tests` at the start of a line. -/
def failedRe (l : Text) : Bool :=
  let number (l : Text) : Option Text :=
    if (l.takeWhile isDigit) = [] then none else some (l.dropWhile isDigit)
  let after (w l : Text) : Option Text := if w <+: l then some (l.drop w.length) else none
  ((after "Failed ".toList l).bind number |>.bind (after " of ".toList) |>.bind number
    |>.bind (after " tests".toList)).isSome

/-- The third group of `(\d{3})\s*(\[not run\])\s*(.*)` at the start of a line. -/
def naDetailRe (l : Text) : Option Text :=
  if (l.take 3).length = 3 ∧ (l.take 3).all isDigit then
    let r := (l.drop 3).dropWhile isSpace
    if "[not run]".toList <+: r then some ((r.drop 9).dropWhile isSpace) else none
  else none

def parseErrorMessage (output : List UInt8) : Except PyError Text := do
  let text ← decode output
  let lines := splitOn '\n' text
  match lines.reverse[2]? with
  | none => .error .indexError
  | some resultLine =>
    if "Passed all 0 tests".toList <+: resultLine then
      .ok ((naDetailRe resultLine).getD "Test dependency failed, test will not run.".toList)
    else if failedRe resultLine then .ok ("Test error. ".toList ++ resultLine ++ ['.'])
    else .ok "Could not verify test result. Please check the logs.".toList

/-- A file passed with `-E`: its name in the source directory and its lines. -/
structure ExcludeFile where
  name : Text
  lines : List Text

/-- The `./check` commands: `./check -E ... -g auto` and `./check <dir>/<test>`. -/
inductive Check
  | auto (excludeFiles : List ExcludeFile)
  | test (dir test : Text)

/-- The loop over the list, from the `i`-th run on. -/
def runSpecified (fs : Text) (run : ℕ → Result) :
    ℕ → Bool → List Text → List Check × Except PyError Bool
  | _, failures, [] => ([], .ok failures)
  | i, failures, test :: tests =>
    if (run i).exitStatus = 0 then
      let rest := runSpecified fs run (i + 1) failures tests
      (.test fs test :: rest.1, rest.2)
    else
      match parseErrorMessage (run i).stdout with
      | .error e => ([.test fs test], .error e)
      | .ok _ =>
        let rest := runSpecified fs run (i + 1) true tests
        (.test fs test :: rest.1, rest.2)

/-- The files that `test` passes with `-E`. -/
def excludeFiles (exclude genExclude : Option Text) (sd : Sourcedir) : List ExcludeFile :=
  (if given exclude || given genExclude then [⟨"exclude".toList, sd.exclude.getD []⟩] else []) ++
    (match sd.extraExclude with
      | some ls => [⟨"extra_exclude.file".toList, ls⟩]
      | none => [])

/-- `test`: the commands it issues, and whether it then calls `self.fail`. -/
def test (run : ℕ → Result) (a : Attrs) : List Check × Except PyError Bool :=
  if a.testList = [] then
    match a.excludes with
    | none => ([], .error .attributeError)
    | some (exclude, genExclude, _) =>
      ([.auto (excludeFiles exclude genExclude a.sourcedir)],
        if (run 0).exitStatus = 0 then .ok false
        else (parseErrorMessage (run 0).stdout).map fun _ => true)
  else runSpecified p.fs run 0 false a.testList

/-- `setUp` and, when it goes through, `test`. -/
def wrapper (sd : Sourcedir) (run : ℕ → Result) : List Check × Except PyError Bool :=
  match setUp p d t sd with
  | .error e => ([], .error e)
  | .ok a => test p run a

/-! ### The numbers of a parameter -/

/-- The numbers of a range text, as `%03d` writes them. -/
def numbers (r : Option Text) : Except PyError (List Text) :=
  if given r then (commaSeparatedRangesToList (r.getD [])).map (·.map pad3) else .ok []

/-- The text is no range text at all, or one that can be read. -/
def Parses (r : Option Text) : Prop := ∃ ns, numbers r = .ok ns

/-- The numbers of a parameter that can be read. -/
def numbersOf (r : Option Text) : List Text :=
  match numbers r with
  | .ok ns => ns
  | .error _ => []

/-- The numbers that the group file places in a group, none where it cannot be
decoded. -/
def groupTests (group : Text) : List Text := (getTestsForGroup d.group group).toOption.getD []

/-- The group file places the number in the group `dangerous`. -/
def isDangerous (test : Text) : Bool := test ∈ groupTests d "dangerous".toList

/-- The group file can be decoded, should the wrapper read it. -/
def GroupReads : Prop := p.skipDangerous = true → ∃ content, d.group = .ok content

theorem Parses.eq {r : Option Text} (h : Parses r) : numbers r = .ok (numbersOf r) := by
  obtain ⟨ns, hn⟩ := h
  rw [numbersOf, hn]

theorem not_parses {r : Option Text} (h : ¬ Parses r) : ∃ e, numbers r = .error e := by
  cases hn : numbers r with
  | error e => exact ⟨e, rfl⟩
  | ok ns => exact absurd ⟨ns, hn⟩ h

theorem parses_of_not_given {r : Option Text} (h : given r = false) : Parses r :=
  ⟨[], by rw [numbers, h]; rfl⟩

theorem numbersOf_of_not_given {r : Option Text} (h : given r = false) : numbersOf r = [] := by
  rw [numbersOf, numbers, h]
  rfl

variable {p d} in
/-- `_create_test_list` keeps the valid numbers; unless told otherwise, and
with `skip_dangerous`, those that are not dangerous. -/
theorem createTestList_eq (h : GroupReads p d) (r : Option Text) (dangerous : Bool) :
    createTestList p d t r dangerous = (numbers r).map fun ns => ns.filter fun test =>
      !(dangerous && p.skipDangerous && isDangerous d test) && isTestValid t test := by
  have hlist : ∃ tests, dangerousTests p d = .ok tests ∧
      ∀ test, decide (test ∈ tests) = (p.skipDangerous && isDangerous d test) := by
    unfold dangerousTests
    cases hs : p.skipDangerous with
    | false => exact ⟨[], rfl, fun _ => rfl⟩
    | true =>
      obtain ⟨content, hc⟩ := h hs
      refine ⟨groupTests d "dangerous".toList, ?_, fun _ => rfl⟩
      rw [if_pos rfl, groupTests, getTestsForGroup, hc]
      rfl
  obtain ⟨tests, htests, hmem⟩ := hlist
  unfold createTestList numbers
  rw [htests]
  simp only [bind, Except.bind]
  by_cases hg : given r = true
  · simp only [hg, ↓reduceIte]
    cases commaSeparatedRangesToList (r.getD []) with
    | error e => rfl
    | ok values =>
      refine congrArg Except.ok (List.filter_congr fun test _ => ?_)
      rw [hmem, Bool.and_assoc]
  · simp only [hg]
    rfl

variable {p d} in
/-- A group file that cannot be decoded ends it. -/
theorem createTestList_unread (h : ¬ GroupReads p d) (r : Option Text) (dangerous : Bool) :
    ∃ e, createTestList p d t r dangerous = .error e := by
  obtain ⟨hs, hg⟩ := Classical.not_imp.mp h
  cases hd : d.group with
  | ok content => exact absurd ⟨content, hd⟩ hg
  | error e =>
    refine ⟨e, ?_⟩
    rw [createTestList, dangerousTests, hs, if_pos rfl, getTestsForGroup, hd]
    rfl

/-! ### The exclude files -/

/-- The lines that a parameter adds to the exclude file. -/
def excludedLines (testType : Text) (r : Option Text) : List Text :=
  ((numbersOf r).filter (isTestValid t)).map (path testType)

variable {p d} in
theorem excludeTests_ok (hd : GroupReads p d) {r : Option Text} (h : Parses r) (testType : Text)
    (sd : Sourcedir) :
    ∃ sd', excludeTests p d t r testType sd = .ok sd' ∧
      sd'.exclude.getD [] = sd.exclude.getD [] ++ excludedLines t testType r ∧
      sd'.extraExclude = sd.extraExclude := by
  unfold excludeTests excludedLines
  by_cases hg : given r = true
  · rw [if_pos hg, createTestList_eq t hd, h.eq]
    refine ⟨_, rfl, ?_, rfl⟩
    simp
  · have hg := Bool.eq_false_iff.mpr hg
    rw [if_neg (by simp [hg]), numbersOf_of_not_given hg]
    exact ⟨sd, rfl, by simp, rfl⟩

variable {p d} in
theorem excludeTests_error (hd : GroupReads p d) {r : Option Text} (h : ¬ Parses r) (testType : Text)
    (sd : Sourcedir) :
    ∃ e, excludeTests p d t r testType sd = .error e := by
  obtain ⟨e, he⟩ := not_parses h
  have hg : given r = true := by
    by_contra hg
    exact h (parses_of_not_given (Bool.eq_false_iff.mpr hg))
  refine ⟨e, ?_⟩
  rw [excludeTests, if_pos hg, createTestList_eq t hd, he]
  rfl

/-- All three exclude parameters can be read. -/
def ExcludesParse : Prop := Parses p.exclude ∧ Parses p.genExclude ∧ Parses p.shareExclude

/-- The lines of the three exclude parameters. -/
def ownLines : List Text :=
  excludedLines t p.fs p.exclude ++ excludedLines t "generic".toList p.genExclude ++
    excludedLines t "shared".toList p.shareExclude

/-- The lines of the extra exclude file: the file system's own, else what is
in the source directory. -/
def extraLines (sd : Sourcedir) : List Text := ((shipped p d).or sd.extraExclude).getD []

/-- The lines of the files passed with `-E`. -/
def passedLines (sd : Sourcedir) : List Text :=
  (if given p.exclude || given p.genExclude then sd.exclude.getD [] ++ ownLines p t else []) ++
    extraLines p d sd

variable {p d} in
theorem createTestList_of_not_given (hd : GroupReads p d) {r : Option Text} (h : given r = false)
    (dangerous : Bool) : createTestList p d t r dangerous = .ok [] := by
  rw [createTestList_eq t hd, numbers, h]
  rfl

theorem excludeFiles_lines (exclude genExclude : Option Text) (sd : Sourcedir) :
    (excludeFiles exclude genExclude sd).flatMap (·.lines) =
      (if given exclude || given genExclude then sd.exclude.getD [] else []) ++
        sd.extraExclude.getD [] := by
  unfold excludeFiles
  rw [List.flatMap_append]
  congr 1
  · split <;> simp
  · cases sd.extraExclude <;> simp

/-- The source directory with the extra exclude file copied to it. -/
def withExtra (sd : Sourcedir) : Sourcedir :=
  { sd with extraExclude := (shipped p d).or sd.extraExclude }

variable {p d} in
/-- Nothing is run when the group file cannot be decoded. -/
theorem wrapper_unread (hd : ¬ GroupReads p d) (sd : Sourcedir) (run : ℕ → Result) :
    ∃ e, wrapper p d t sd run = ([], .error e) := by
  obtain ⟨e, he⟩ := createTestList_unread t hd p.testRange true
  refine ⟨e, ?_⟩
  rw [wrapper, setUp, he]
  rfl

variable {p d}

/-- Without a test range the three exclude parameters are read one after the
other. -/
theorem setUp_auto (hd : GroupReads p d) (hr : given p.testRange = false) (sd : Sourcedir) :
    setUp p d t sd = (excludeTests p d t p.exclude p.fs (withExtra p d sd)).bind fun sd =>
      (excludeTests p d t p.genExclude "generic".toList sd).bind fun sd =>
        (excludeTests p d t p.shareExclude "shared".toList sd).bind fun sd =>
          .ok ⟨[], some (p.exclude, p.genExclude, p.shareExclude), sd⟩ := by
  unfold setUp
  rw [createTestList_of_not_given t hd hr]
  simp only [hr]
  rfl

/-- Without a test range one command is issued, with `passedLines`. -/
theorem wrapper_auto (hd : GroupReads p d) (hr : given p.testRange = false) (hp : ExcludesParse p)
    (sd : Sourcedir) (run : ℕ → Result) :
    ∃ files, (wrapper p d t sd run).1 = [.auto files] ∧
      files.flatMap (·.lines) = passedLines p d t sd := by
  obtain ⟨sd1, h1, e1, x1⟩ := excludeTests_ok t hd hp.1 p.fs (withExtra p d sd)
  obtain ⟨sd2, h2, e2, x2⟩ := excludeTests_ok t hd hp.2.1 "generic".toList sd1
  obtain ⟨sd3, h3, e3, x3⟩ := excludeTests_ok t hd hp.2.2 "shared".toList sd2
  refine ⟨excludeFiles p.exclude p.genExclude sd3, ?_, ?_⟩
  · rw [wrapper, setUp_auto t hd hr]
    simp only [h1, h2, h3, Except.bind]
    rfl
  · rw [excludeFiles_lines, passedLines, e3, e2, e1, x3, x2, x1, ownLines, extraLines]
    simp only [List.append_assoc]
    rfl

/-- Without a test range nothing is run when an exclude parameter cannot be
read. -/
theorem wrapper_error (hd : GroupReads p d) (hr : given p.testRange = false) (hp : ¬ ExcludesParse p)
    (sd : Sourcedir) (run : ℕ → Result) : (wrapper p d t sd run).1 = [] := by
  have hset : ∃ e, setUp p d t sd = .error e := by
    rw [setUp_auto t hd hr]
    by_cases h1 : Parses p.exclude
    · obtain ⟨sd1, e1, -⟩ := excludeTests_ok t hd h1 p.fs (withExtra p d sd)
      by_cases h2 : Parses p.genExclude
      · obtain ⟨sd2, e2, -⟩ := excludeTests_ok t hd h2 "generic".toList sd1
        obtain ⟨e, he⟩ := excludeTests_error t hd (fun h3 => hp ⟨h1, h2, h3⟩) "shared".toList sd2
        exact ⟨e, by simp only [e1, e2, he, Except.bind]⟩
      · obtain ⟨e, he⟩ := excludeTests_error t hd h2 "generic".toList sd1
        exact ⟨e, by simp only [e1, he, Except.bind]⟩
    · obtain ⟨e, he⟩ := excludeTests_error t hd h1 p.fs (withExtra p d sd)
      exact ⟨e, by simp only [he, Except.bind]⟩
  obtain ⟨e, he⟩ := hset
  rw [wrapper, he]

/-! ### A test range -/

variable (p d) in
/-- The tests that `setUp` puts in the list. -/
def selected (r : Option Text) : List Text :=
  (numbersOf r).filter fun test => !(p.skipDangerous && isDangerous d test) && isTestValid t test

theorem createTestList_of_parses (hd : GroupReads p d) {r : Option Text} (h : Parses r) :
    createTestList p d t r true = .ok (selected p d t r) := by
  rw [createTestList_eq t hd, h.eq]
  rfl

theorem setUp_range (hd : GroupReads p d) (hr : given p.testRange = true) (hp : Parses p.testRange)
    (sd : Sourcedir) :
    setUp p d t sd = .ok ⟨selected p d t p.testRange, none, withExtra p d sd⟩ := by
  unfold setUp
  rw [createTestList_of_parses t hd hp]
  simp only [hr]
  rfl

theorem setUp_range_error (hd : GroupReads p d) (hp : ¬ Parses p.testRange) (sd : Sourcedir) :
    ∃ e, setUp p d t sd = .error e := by
  obtain ⟨e, he⟩ := not_parses hp
  refine ⟨e, ?_⟩
  unfold setUp
  rw [createTestList_eq t hd, he]
  rfl

/-- With a list that is not empty, `test` goes through it. -/
theorem wrapper_range (hd : GroupReads p d) (hr : given p.testRange = true) (hp : Parses p.testRange)
    (sd : Sourcedir) (run : ℕ → Result) (hne : selected p d t p.testRange ≠ []) :
    wrapper p d t sd run = runSpecified p.fs run 0 false (selected p d t p.testRange) := by
  rw [wrapper, setUp_range t hd hr hp]
  simp only [test, if_neg hne]

theorem wrapper_range_nil (hd : GroupReads p d) (hr : given p.testRange = true) (hp : Parses p.testRange)
    (sd : Sourcedir) (run : ℕ → Result) (hnil : selected p d t p.testRange = []) :
    wrapper p d t sd run = ([], .error .attributeError) := by
  rw [wrapper, setUp_range t hd hr hp]
  simp only [test, if_pos hnil]

/-- The loop issues the commands in order, all of them unless the message of
a failed one cannot be read. -/
theorem runSpecified_initial (fs : Text) (run : ℕ → Result) : ∀ (i : ℕ) (b : Bool) (tests : List Text),
    (runSpecified fs run i b tests).1 <+: tests.map (.test fs)
  | _, _, [] => List.prefix_rfl
  | i, b, test :: tests => by
    unfold runSpecified
    split_ifs
    · exact List.cons_prefix_cons.mpr ⟨rfl, runSpecified_initial fs run (i + 1) b tests⟩
    · split
      · exact List.cons_prefix_cons.mpr ⟨rfl, List.nil_prefix⟩
      · exact List.cons_prefix_cons.mpr ⟨rfl, runSpecified_initial fs run (i + 1) true tests⟩

/-- A failed check whose message can be read, or one that did not fail. -/
def Result.Readable (r : Result) : Prop := r.exitStatus = 0 ∨ ∃ m, parseErrorMessage r.stdout = .ok m

theorem runSpecified_ok (fs : Text) (run : ℕ → Result) : ∀ (i : ℕ) (b : Bool) (tests : List Text),
    (∃ f, (runSpecified fs run i b tests).2 = .ok f) ↔ ∀ k < tests.length, (run (i + k)).Readable
  | _, b, [] => ⟨fun _ _ h => absurd h (Nat.not_lt_zero _), fun _ => ⟨b, rfl⟩⟩
  | i, b, test :: tests => by
    have hshift : (∀ k < tests.length, (run (i + 1 + k)).Readable) ↔
        ∀ k < tests.length, (run (i + (k + 1))).Readable := by
      simp only [Nat.add_assoc, Nat.add_comm 1]
    rw [List.length_cons, Nat.forall_lt_succ_left, ← hshift]
    unfold runSpecified
    split_ifs with h0
    · rw [runSpecified_ok fs run (i + 1) b tests]
      exact (and_iff_right (.inl h0)).symm
    · split
      · rename_i e he
        refine ⟨fun ⟨f, hf⟩ => (nomatch hf), fun ⟨hr, _⟩ => ?_⟩
        rcases hr with hr | ⟨m, hm⟩
        · exact absurd hr h0
        · rw [Nat.add_zero, he] at hm
          cases hm
      · rename_i m hm
        rw [runSpecified_ok fs run (i + 1) true tests]
        exact (and_iff_right (.inr ⟨m, hm⟩)).symm

theorem runSpecified_all (fs : Text) (run : ℕ → Result) : ∀ (i : ℕ) (b : Bool) (tests : List Text),
    (∃ f, (runSpecified fs run i b tests).2 = .ok f) →
    (runSpecified fs run i b tests).1 = tests.map (.test fs)
  | _, _, [], _ => rfl
  | i, b, test :: tests, h => by
    unfold runSpecified at h ⊢
    split_ifs at h ⊢ with h0
    · rw [List.map_cons, ← runSpecified_all fs run (i + 1) b tests h]
    · split at h
      · obtain ⟨f, hf⟩ := h
        cases hf
      · rw [List.map_cons, ← runSpecified_all fs run (i + 1) true tests h]

/-! ### A small tree -/

/-- A tree with one test. -/
def singleTest (dir test : Text) (h : ¬ ".linux".toList <:+: dir) : Tree where
  files := [(dir, test), (dir, test ++ ".out".toList)]
  plain f hf := by
    rcases List.mem_cons.mp hf with rfl | hf
    · exact h
    · rw [List.mem_singleton.mp hf]
      exact h

/-- The file system `ext4`, `skip_dangerous`, and nothing else given. -/
def plainParams : Params := ⟨true, none, none, none, none, "ext4".toList⟩

end Xfstests
end Longan
