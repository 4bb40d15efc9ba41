/-
# Runs of the whole suite: what is excluded

Without a test range one `./check -g auto` is issued. What it leaves out is
what the files passed with `-E` list (`passedLines`).

The file with the tests of the three exclude parameters is passed only if
`exclude` or `gen_exclude` is given, so `share_exclude` alone does not reach
the runner; and what earlier variants left in the source directory does
(`excludes_reach_iff`). `skip_dangerous` plays no part in this mode: a
dangerous test of the group `auto` is run unless one of those files lists it
(`dangerous_skipped_iff`). With it the wrapper reads the group file, though,
and one that cannot be decoded ends everything.
-/
import Longan.Xfstests.Wrapper

namespace Longan
namespace Xfstests

open Python

variable (p : Params) (d : Data) (t : Tree) (sd : Sourcedir) (run : ℕ → Result)

/-! ### The exclude parameters -/

/-- A line that should be listed: of one of the three parameters, or of the
file system's extra exclude file. -/
def Expected (l : Text) : Prop := l ∈ ownLines p t ∨ l ∈ (shipped p d).getD []

/-- One `./check -g auto` is issued, and its files list just what they should. -/
def ExcludesReach : Prop := ∃ files, (wrapper p d t sd run).1 = [.auto files] ∧
  ∀ l, l ∈ files.flatMap (·.lines) ↔ Expected p d t l

/-- What has to be so for that, beyond the parameters being range texts. -/
structure NothingLost : Prop where
  group : GroupReads p d
  parses : ExcludesParse p
  leftover : given p.exclude = true ∨ given p.genExclude = true →
    ∀ l ∈ sd.exclude.getD [], Expected p d t l
  shared : given p.exclude = false → given p.genExclude = false →
    ∀ l ∈ excludedLines t "shared".toList p.shareExclude, l ∈ extraLines p d sd
  stale : shipped p d = none → ∀ l ∈ sd.extraExclude.getD [], Expected p d t l

theorem excludedLines_of_not_given {r : Option Text} (h : given r = false) (testType : Text) :
    excludedLines t testType r = [] := by
  rw [excludedLines, numbersOf_of_not_given h]
  rfl

/-- The extra exclude file lists the shipped lines, or has stale ones. -/
theorem mem_extraLines {l : Text} : l ∈ extraLines p d sd ↔
    l ∈ (shipped p d).getD [] ∨ (shipped p d = none ∧ l ∈ sd.extraExclude.getD []) := by
  unfold extraLines
  cases shipped p d <;> simp

theorem mem_passedLines {l : Text} : l ∈ passedLines p d t sd ↔
    ((given p.exclude = true ∨ given p.genExclude = true) ∧
      (l ∈ sd.exclude.getD [] ∨ l ∈ ownLines p t)) ∨ l ∈ extraLines p d sd := by
  unfold passedLines
  rw [List.mem_append, ← Bool.or_eq_true]
  cases given p.exclude || given p.genExclude <;> simp

/-- The lines passed are the expected ones, when nothing is lost or left
over. -/
theorem passed_iff_expected {p : Params} {d : Data} (hd : GroupReads p d) (hp : ExcludesParse p) :
    (∀ l, l ∈ passedLines p d t sd ↔ Expected p d t l) ↔ NothingLost p d t sd := by
  constructor
  · intro h
    refine ⟨hd, hp, fun hg l hl => ?_, fun he hg l hl => ?_, fun hs l hl => ?_⟩
    · exact (h l).mp ((mem_passedLines p d t sd).mpr (.inl ⟨hg, .inl hl⟩))
    · have hown : l ∈ ownLines p t := List.mem_append_right _ hl
      rcases (mem_passedLines p d t sd).mp ((h l).mpr (.inl hown)) with ⟨hor, -⟩ | hx
      · rw [he, hg] at hor
        simp at hor
      · exact hx
    · refine (h l).mp ((mem_passedLines p d t sd).mpr (.inr ?_))
      exact (mem_extraLines p d sd).mpr (.inr ⟨hs, hl⟩)
  · rintro ⟨-, -, hleft, hshare, hstale⟩ l
    constructor
    · intro hl
      rcases (mem_passedLines p d t sd).mp hl with ⟨hg, hl | hl⟩ | hl
      · exact hleft hg l hl
      · exact .inl hl
      · rcases (mem_extraLines p d sd).mp hl with hl | ⟨hs, hl⟩
        · exact .inr hl
        · exact hstale hs l hl
    · intro hl
      apply (mem_passedLines p d t sd).mpr
      rcases hl with hl | hl
      · by_cases hg : given p.exclude = true ∨ given p.genExclude = true
        · exact .inl ⟨hg, .inr hl⟩
        · -- only `share_exclude` is left
          simp only [not_or, Bool.not_eq_true] at hg
          rw [ownLines, excludedLines_of_not_given t hg.1, excludedLines_of_not_given t hg.2] at hl
          exact .inr (hshare hg.1 hg.2 l hl)
      · exact .inr ((mem_extraLines p d sd).mpr (.inl hl))

/-- **The exclusions.** Without a test range the files passed with `-E` list
just what they should if and only if the parameters can be read, and the group
file where the dangerous tests are looked up, nothing that is not expected was left in the source directory, and `share_exclude` does not
stand alone (or what it lists is in the extra exclude file anyway). -/
theorem excludes_reach_iff : (given p.testRange = false → ExcludesReach p d t sd run) ↔
    (given p.testRange = false → NothingLost p d t sd) := by
  refine forall_congr' fun hr => ?_
  by_cases hd : GroupReads p d
  swap
  · obtain ⟨e, he⟩ := wrapper_unread t hd sd run
    refine ⟨fun ⟨files, hw, _⟩ => ?_, fun h => absurd h.group hd⟩
    rw [he] at hw
    cases hw
  by_cases hp : ExcludesParse p
  · obtain ⟨files, hw, hl⟩ := wrapper_auto t hd hr hp sd run
    rw [← passed_iff_expected t sd hd hp, ← hl, ExcludesReach, hw]
    constructor
    · rintro ⟨files', he, h⟩
      cases he
      exact h
    · exact fun h => ⟨files, rfl, h⟩
  · refine ⟨fun ⟨files, hw, _⟩ => ?_, fun h => absurd h.parses hp⟩
    rw [wrapper_error t hd hr hp] at hw
    cases hw

/-- `share_exclude` alone: the list is written and not passed, and
`shared/001` is left to run. -/
theorem share_exclude_alone : ¬ ∀ (p : Params) (d : Data) (t : Tree) (sd : Sourcedir)
    (run : ℕ → Result), given p.testRange = false → ExcludesReach p d t sd run := by
  intro h
  let p : Params := { plainParams with shareExclude := some "1".toList }
  let t := singleTest "shared".toList "001".toList (by decide)
  obtain ⟨files, hw, hl⟩ := h p ⟨.ok [], [], []⟩ t ⟨none, none⟩ (fun _ => ⟨0, []⟩) rfl
  have hfiles : files.flatMap (·.lines) = [] := by
    cases hw
    rfl
  have hmem : path "shared".toList "001".toList ∈ ownLines p t := by decide +kernel
  have := (hl _).mpr (.inl hmem)
  rw [hfiles] at this
  cases this

/-! ### Dangerous tests -/

/-- The tests a command runs, by their directory and number. -/
def Check.Selects : Check → Text × Text → Prop
  | .auto files, x => x ∈ t.tests ∧ x.2 ∈ groupTests d "auto".toList ∧
      path x.1 x.2 ∉ files.flatMap (·.lines)
  | .test dir n, x => x = (dir, n)

/-- No command runs a dangerous test. -/
def DangerousSkipped : Prop :=
  ∀ c ∈ (wrapper p d t sd run).1, ∀ x, c.Selects d t x → isDangerous d x.2 = false

/-- With a test range the dangerous tests are not in the list. -/
theorem skipped_of_range {p : Params} (hs : p.skipDangerous = true) (hr : given p.testRange = true) :
    DangerousSkipped p d t sd run := by
  intro c hc x hx
  by_cases hd : GroupReads p d
  swap
  · obtain ⟨e, he⟩ := wrapper_unread t hd sd run
    rw [he] at hc
    cases hc
  by_cases hp : Parses p.testRange
  · by_cases hnil : selected p d t p.testRange = []
    · rw [wrapper_range_nil t hd hr hp sd run hnil] at hc
      cases hc
    · rw [wrapper_range t hd hr hp sd run hnil] at hc
      obtain ⟨n, hn, rfl⟩ := List.mem_map.mp ((runSpecified_initial _ _ _ _ _).subset hc)
      have hsel := (List.mem_filter.mp hn).2
      rw [hs] at hsel
      cases hx
      simp only [Bool.true_and, Bool.and_eq_true, Bool.not_eq_true'] at hsel
      exact hsel.1
  · obtain ⟨e, he⟩ := setUp_range_error t hd hp sd
    rw [wrapper, he] at hc
    cases hc

/-- **`skip_dangerous`.** With it no command runs a dangerous test if and only
if there is a test range, or the group file or an exclude parameter cannot be
read, or the files passed with `-E` list every dangerous test of the group
`auto`. -/
theorem dangerous_skipped_iff : (p.skipDangerous = true → DangerousSkipped p d t sd run) ↔
    (p.skipDangerous = true → given p.testRange = true ∨ ¬ GroupReads p d ∨ ¬ ExcludesParse p ∨
      ∀ x ∈ t.tests, x.2 ∈ groupTests d "auto".toList → isDangerous d x.2 = true →
        path x.1 x.2 ∈ passedLines p d t sd) := by
  refine forall_congr' fun hs => ?_
  by_cases hr : given p.testRange = true
  · exact ⟨fun _ => .inl hr, fun _ => skipped_of_range d t sd run hs hr⟩
  have hr' := Bool.eq_false_iff.mpr hr
  by_cases hd : GroupReads p d
  swap
  · obtain ⟨e, he⟩ := wrapper_unread t hd sd run
    refine ⟨fun _ => .inr (.inl hd), fun _ c hc => ?_⟩
    rw [he] at hc
    cases hc
  by_cases hp : ExcludesParse p
  · obtain ⟨files, hw, hl⟩ := wrapper_auto t hd hr' hp sd run
    unfold DangerousSkipped
    rw [hw, ← hl]
    simp only [List.mem_singleton, forall_eq, Check.Selects, and_imp]
    constructor
    · intro h
      refine .inr (.inr (.inr fun x hx ha hdang => ?_))
      by_contra hn
      have := h x hx ha hn
      rw [hdang] at this
      cases this
    · rintro (h | h | h | h) x hx ha hn
      · exact absurd h hr
      · exact absurd hd h
      · exact absurd hp h
      · by_contra hdang
        exact hn (h x hx ha (Bool.not_eq_false _ ▸ hdang))
  · refine ⟨fun _ => .inr (.inr (.inl hp)), fun _ c hc => ?_⟩
    rw [wrapper_error t hd hr' hp] at hc
    cases hc

/-- `generic/068` is in the groups `auto` and `dangerous`, and is run. -/
theorem dangerous_in_auto : ¬ ∀ (p : Params) (d : Data) (t : Tree) (sd : Sourcedir)
    (run : ℕ → Result), p.skipDangerous = true → DangerousSkipped p d t sd run := by
  intro h
  let d : Data := ⟨.ok "068 other auto freeze dangerous\n".toList, [], []⟩
  let t := singleTest "generic".toList "068".toList (by decide)
  let x := ("generic".toList, "068".toList)
  obtain ⟨files, hw, hl⟩ := wrapper_auto (p := plainParams) (d := d) t
    (fun _ => ⟨_, rfl⟩) rfl ⟨parses_of_not_given rfl, parses_of_not_given rfl, parses_of_not_given rfl⟩ ⟨none, none⟩
    fun _ => ⟨0, []⟩
  have hsel : (Check.auto files).Selects d t x := by
    refine ⟨by decide +kernel, by decide +kernel, ?_⟩
    rw [hl]
    decide +kernel
  have hskip := h plainParams d t ⟨none, none⟩ _ rfl (.auto files) (hw ▸ List.mem_cons_self) x hsel
  have hdang : isDangerous d x.2 = true := by decide +kernel
  rw [hdang] at hskip
  cases hskip

end Xfstests
end Longan
