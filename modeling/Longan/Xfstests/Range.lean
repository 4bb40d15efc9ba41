/-
# Runs of a test range

With a test range `./check` is to run once on each test of the file system
whose number is in the range, in the order of the range, dangerous ones
excepted (`RunsExactly`). `CleanRange` says when it does (`runs_exactly_iff`):
the wrapper asks whether a test of that number is in any directory, not in the
file system's; a list that comes out empty makes it look for attributes that
only a run of the whole suite has; the message of a failed check is read from
the third line from the end, which may not be there; and the group file may be
one that cannot be decoded.
-/
import Longan.Xfstests.Wrapper

namespace Longan
namespace Xfstests

open Python

variable (p : Params) (d : Data) (t : Tree) (sd : Sourcedir) (run : ℕ → Result)

/-- The file system has the test, and it is not skipped as dangerous. -/
def due (test : Text) : Bool :=
  decide ((p.fs, test) ∈ t.tests) && !(p.skipDangerous && isDangerous d test)

/-- The numbers of the range that are due, in its order. -/
def dueTests : List Text := (numbersOf p.testRange).filter (due p d t)

/-- Every due test of the range is run once, in the order of the range, and
nothing else; and no exception comes up. -/
def RunsExactly : Prop := ∃ tests : List Text,
  (wrapper p d t sd run).1 = tests.map (.test p.fs) ∧ tests.Nodup ∧
    tests.Sublist (numbersOf p.testRange) ∧
    (∀ n, n ∈ tests ↔ n ∈ numbersOf p.testRange ∧ due p d t n = true) ∧
    ∃ failures, (wrapper p d t sd run).2 = .ok failures

/-- When a range is run exactly. -/
structure CleanRange : Prop where
  group : GroupReads p d
  parses : Parses p.testRange
  some_due : dueTests p d t ≠ []
  once : (dueTests p d t).Nodup
  /-- No number is there in another directory only. -/
  own : ∀ n ∈ numbersOf p.testRange, (p.skipDangerous && isDangerous d n) = false →
    isTestValid t n = true → (p.fs, n) ∈ t.tests
  not_zero : "000".toList ∉ dueTests p d t
  readable : ∀ k < (dueTests p d t).length, (run k).Readable

/-- A test of the file system is available, unless it is number 000. -/
theorem isTestValid_of_mem {n : Text} (h : (p.fs, n) ∈ t.tests) (h0 : n ≠ "000".toList) :
    isTestValid t n = true := by
  have : n ∈ getAvailableTests t := List.mem_map.mpr ⟨_, h, rfl⟩
  rw [isTestValid, decide_eq_true_eq]
  exact ⟨h0, this⟩

theorem not_isTestValid_zero : isTestValid t "000".toList = false := by
  rw [isTestValid, decide_eq_false_iff_not]
  exact fun h => h.1 rfl

theorem mem_selected {n : Text} : n ∈ selected p d t p.testRange ↔
    n ∈ numbersOf p.testRange ∧ (p.skipDangerous && isDangerous d n) = false ∧
      isTestValid t n = true := by
  rw [selected, List.mem_filter, Bool.and_eq_true, Bool.not_eq_true']

theorem mem_dueTests {n : Text} : n ∈ dueTests p d t ↔
    n ∈ numbersOf p.testRange ∧ due p d t n = true := by
  rw [dueTests, List.mem_filter]

/-- The tests in the list are the due ones when validity is decided in the
file system's own directory, and number 000 is not due. -/
theorem selected_eq_dueTests : selected p d t p.testRange = dueTests p d t ↔
    (∀ n ∈ numbersOf p.testRange, (p.skipDangerous && isDangerous d n) = false →
      isTestValid t n = true → (p.fs, n) ∈ t.tests) ∧ "000".toList ∉ dueTests p d t := by
  constructor
  · intro h
    refine ⟨fun n hn hs hv => ?_, fun h0 => ?_⟩
    · have hm : n ∈ dueTests p d t := h ▸ (mem_selected p d t).mpr ⟨hn, hs, hv⟩
      have hd := ((mem_dueTests p d t).mp hm).2
      rw [due, Bool.and_eq_true, decide_eq_true_eq] at hd
      exact hd.1
    · rw [← h] at h0
      have hv := ((mem_selected p d t).mp h0).2.2
      rw [not_isTestValid_zero] at hv
      cases hv
  · rintro ⟨hown, h0⟩
    refine List.filter_congr fun n hn => ?_
    cases hs : p.skipDangerous && isDangerous d n with
    | true => simp [due, hs]
    | false =>
      have hiff : isTestValid t n = true ↔ (p.fs, n) ∈ t.tests := by
        refine ⟨hown n hn hs, fun hm => isTestValid_of_mem p t hm ?_⟩
        rintro rfl
        refine h0 ((mem_dueTests p d t).mpr ⟨hn, ?_⟩)
        rw [due, hs, Bool.and_eq_true, decide_eq_true_eq]
        exact ⟨hm, rfl⟩
      rw [due, hs, Bool.eq_iff_iff, Bool.and_eq_true, Bool.and_eq_true, decide_eq_true_eq, hiff]
      exact and_comm

theorem test_injective (fs : Text) : Function.Injective (Check.test fs) := fun a b h => by
  cases h
  rfl

theorem exactly_of_clean {p : Params} {d : Data} (hr : given p.testRange = true)
    (h : CleanRange p d t run) :
    RunsExactly p d t sd run := by
  have heq := (selected_eq_dueTests p d t).mpr ⟨h.own, h.not_zero⟩
  have hw := wrapper_range t h.group hr h.parses sd run (heq ▸ h.some_due)
  rw [heq] at hw
  have hok : ∃ f, (runSpecified p.fs run 0 false (dueTests p d t)).2 = .ok f := by
    rw [runSpecified_ok]
    simpa using h.readable
  refine ⟨dueTests p d t, ?_, h.once, List.filter_sublist, fun n => mem_dueTests p d t, ?_⟩
  · rw [hw, runSpecified_all _ _ _ _ _ hok]
  · rw [hw]
    exact hok

theorem clean_of_exactly {p : Params} {d : Data} (hr : given p.testRange = true)
    (h : RunsExactly p d t sd run) : CleanRange p d t run := by
  obtain ⟨tests, hc, hnd, -, hmem, f, hf⟩ := h
  have hd : GroupReads p d := by
    by_contra hd
    obtain ⟨e, he⟩ := wrapper_unread t hd sd run
    rw [he] at hf
    cases hf
  have hp : Parses p.testRange := by
    by_contra hp
    obtain ⟨e, he⟩ := setUp_range_error t hd hp sd
    rw [wrapper, he] at hf
    cases hf
  have hne : selected p d t p.testRange ≠ [] := by
    intro hnil
    rw [wrapper_range_nil t hd hr hp sd run hnil] at hf
    cases hf
  rw [wrapper_range t hd hr hp sd run hne] at hc hf
  have htests : selected p d t p.testRange = tests := by
    rw [runSpecified_all _ _ _ _ _ ⟨f, hf⟩] at hc
    exact List.map_injective_iff.mpr (test_injective p.fs) hc
  -- what is selected is what is due, so both filters keep the same numbers
  have heq : selected p d t p.testRange = dueTests p d t := by
    refine List.filter_congr fun n hn => ?_
    have hiff : n ∈ selected p d t p.testRange ↔ due p d t n = true := by
      rw [htests, hmem n]
      exact and_iff_right hn
    rw [mem_selected] at hiff
    rw [Bool.eq_iff_iff, Bool.and_eq_true, Bool.not_eq_true', ← hiff]
    exact (and_iff_right hn).symm
  obtain ⟨hown, h0⟩ := (selected_eq_dueTests p d t).mp heq
  have hread := (runSpecified_ok p.fs run 0 false _).mp ⟨f, hf⟩
  rw [heq] at hread hne htests
  exact ⟨hd, hp, hne, htests ▸ hnd, hown, h0, by simpa using hread⟩

/-- **A test range.** It is run exactly if and only if it is clean: it can be
read, and the group file where the dangerous tests are looked up, some number of it is due, none is due twice or is 000 or is there in
another directory only, and every check that fails prints a message that can
be read. -/
theorem runs_exactly_iff : (given p.testRange = true → RunsExactly p d t sd run) ↔
    (given p.testRange = true → CleanRange p d t run) :=
  forall_congr' fun hr => ⟨clean_of_exactly t sd run hr, exactly_of_clean t sd run hr⟩

/-- No test has the number 001: the list is empty, and the attribute
`exclude` is not there. -/
theorem empty_list_raises : ¬ ∀ (p : Params) (d : Data) (t : Tree) (sd : Sourcedir)
    (run : ℕ → Result), given p.testRange = true → RunsExactly p d t sd run := by
  intro h
  let t := singleTest "ext4".toList "002".toList (by decide)
  obtain ⟨-, -, -, -, -, f, hf⟩ := h { plainParams with testRange := some "1".toList } ⟨.ok [], [], []⟩ t
    ⟨none, none⟩ (fun _ => ⟨0, []⟩) (by decide)
  have hraise : (wrapper { plainParams with testRange := some "1".toList } ⟨.ok [], [], []⟩ t ⟨none, none⟩
      fun _ => ⟨0, []⟩).2 = .error .attributeError := by decide +kernel
  rw [hraise] at hf
  cases hf

end Xfstests
end Longan
