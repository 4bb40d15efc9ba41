/-
# fsx: the record of a run

`book` is the log a run has to leave: the outcomes of what was chosen, one
after the other, each from the size of the file the one before has left. A run
leaves its book, and what `logdump` writes of it at the end, or where the run
stops, is its last `LOGSIZE` entries, in a file that reads back whole
(`runTests_recorded`).
-/
import Longan.Fsx.Book
import Longan.Fsx.OpsFile
import Longan.Fsx.Verdict

namespace Longan
namespace Fsx

/-- The entries of a run from call `t` and a file of size `s` on, each choice
with what `closeopen` was, and the size of the file after it. -/
def book (C : Config) : ℕ → ℕ → List (Choice × Bool) → List LogEntry × ℕ
  | _, s, [] => ([], s)
  | t, s, (ch, b) :: chs =>
    let o := outcome C (decide (C.simulatedopcount < t + 1)) s ch
    (o.entries s b ++ (book C (t + 1) o.size chs).1, (book C (t + 1) o.size chs).2)

/-- Each choice can be done where it is made. -/
def Bookable (C : Config) : ℕ → ℕ → List (Choice × Bool) → Prop
  | _, _, [] => True
  | t, s, (ch, _) :: chs => ch.Ok C s ∧
    Bookable C (t + 1) (outcome C (decide (C.simulatedopcount < t + 1)) s ch).size chs

/-- What `logdump` leaves in a list of entries. -/
def kept (es : List LogEntry) : List LogEntry := es.drop (es.length - logSize)

theorem ranged_args {C : Config} {live on : Bool} {s size : ℕ} {ch : Choice}
    (h : opArgsCount ch.op = 4) : (rangedOutcome C live s on ch size).args.length + 1 =
      opArgsCount (rangedOutcome C live s on ch size).op := by
  unfold rangedOutcome
  by_cases hc : on = false ∨ ch.size = 0 ∨ C.maxfilelen < ch.offset2 + ch.size
  · rw [if_pos hc]
    exact h.symm
  · rw [if_neg hc]
    exact h.symm

theorem outcome_args (C : Config) (live : Bool) (s : ℕ) (ch : Choice) :
    (outcome C live s ch).args.length + 1 = opArgsCount (outcome C live s ch).op := by
  unfold outcome
  cases hop : ch.op with
  | read => rfl
  | write => rfl
  | mapread => cases h : C.mappedReads <;> simp only [cut] <;> rfl
  | mapwrite => cases h : C.mappedWrites <;> simp only [cut] <;> rfl
  | truncate => rfl
  | fallocate => cases h : C.fallocateCalls <;> rfl
  | punchHole => cases h : C.punchHoleCalls <;> rfl
  | zeroRange => cases h : C.zeroRangeCalls <;> rfl
  | collapseRange => cases h : C.collapseRangeCalls <;> rfl
  | insertRange => cases h : C.insertRangeCalls <;> rfl
  | fsync => rfl
  | cloneRange => exact ranged_args (by rw [hop]; rfl)
  | dedupeRange => exact ranged_args (by rw [hop]; rfl)
  | copyRange => exact ranged_args (by rw [hop]; rfl)

theorem entry_sized (C : Config) (live : Bool) (s : ℕ) (ch : Choice) (b : Bool) :
    ((outcome C live s ch).entry s b).sized = true := by
  have h := outcome_args C live s ch
  simp only [LogEntry.sized, Outcome.entry, List.length_map, List.length_append,
    List.length_singleton, beq_iff_eq]
  exact h

theorem entry_fits (C : Config) (live : Bool) (s : ℕ) (ch : Choice) (b : Bool) :
    ((outcome C live s ch).entry s b).Fits where
  count := by
    have h := outcome_args C live s ch
    have h4 : ∀ op, opArgsCount op ≤ 4 := fun op => by cases op <;> decide
    have := h4 (outcome C live s ch).op
    simp only [Outcome.entry, List.length_map, List.length_append, List.length_singleton]
    omega
  words a ha := by
    obtain ⟨x, -, rfl⟩ := List.mem_map.mp ha
    exact Nat.mod_lt _ (by decide)

/-- All entries of a book read back. -/
theorem book_entries (C : Config) : ∀ (chs : List (Choice × Bool)) (t s : ℕ),
    ∀ e ∈ (book C t s chs).1, e.sized = true ∧ e.Fits
  | [], _, _, e, he => absurd he List.not_mem_nil
  | (ch, b) :: chs, t, s, e, he => by
    simp only [book, List.mem_append] at he
    rcases he with he | he
    · unfold Outcome.entries at he
      by_cases hs : (outcome C (decide (C.simulatedopcount < t + 1)) s ch).silent = true
      · rw [if_pos hs] at he
        exact absurd he List.not_mem_nil
      · rw [if_neg hs, List.mem_singleton] at he
        rw [he]
        exact ⟨entry_sized _ _ _ _ _, entry_fits _ _ _ _ _⟩
    · exact book_entries C chs _ _ e he

section

variable {φ : Type} {F : FileSystem φ} {C : Config}

/-- The log has seen these entries, and has counted them in an `int`. -/
structure Logged (es : List LogEntry) (w : World φ) : Prop where
  holds : Ring.Holds logSize w.oplog w.logptr es.length es
  logcount : w.logcount = int32 es.length

theorem Logged.nil {w : World φ} (hptr : w.logptr = 0) (hcount : w.logcount = 0) : Logged [] w :=
  ⟨hptr ▸ Ring.Holds.nil, hcount⟩

theorem Logged.log {es : List LogEntry} {w : World φ} (h : Logged es w) (e : LogEntry) :
    Logged (es ++ [e]) (w.log e) := by
  refine ⟨?_, ?_⟩
  · rw [List.length_append]
    exact Ring.Holds.push (by decide) h.holds e
  · show int32 (w.logcount + 1) = _
    rw [h.logcount, int32, int32, Int.bmod_add_bmod, List.length_append]
    rfl

theorem Logged.noted : ∀ (es' : List LogEntry) {es : List LogEntry} {w : World φ},
    Logged es w → Logged (es ++ es') (w.noted es')
  | [], es, w, h => by
    rw [List.append_nil]
    exact h
  | e :: es', es, w, h => by
    have h2 := (h.log e).noted es'
    rwa [List.append_assoc] at h2

theorem Logged.since {es : List LogEntry} {w0 w : World φ} {s : ℕ} (h : Logged es w0)
    (hw : Since w0 s w) : Logged es w := by
  refine ⟨?_, hw.logcount.trans h.logcount⟩
  rw [hw.oplog, hw.logptr]
  exact h.holds

theorem Logged.stopped {es : List LogEntry} {w0 w : World φ} {e : Stop} (h : Logged es w0)
    (hw : StoppedAt w0 e w) : Logged es w := hw.elim fun _ hw => h.since hw

/-- Before call `t + 1`, with these entries in the log. -/
structure Before (t s : ℕ) (es : List LogEntry) (w : World φ) : Prop where
  testcalls : w.testcalls = t
  size : w.fileSize = s
  logged : Logged es w

theorem writefileimage_takes {w0 : World φ} {s : ℕ} : Takes w0 s s (writefileimage F C) :=
  Ends.bind askOrReport_takes fun _ => Takes.get_bind fun _ _ =>
    Ends.bind writeOrReport_takes fun _ => onlyIf_takes askOrReport_takes

theorem begin_takes {w0 : World φ} {s : ℕ} :
    Ends (Since w0 s) (begin F C)
      (fun _ => Since { w0 with testcalls := w0.testcalls + 1 } s) (StoppedAt w0) := by
  refine Ends.get_bind fun w hw => Ends.weaken (P := Since w0 s) (E := StoppedAt w0)
    (Ends.bind (onlyIf_takes writefileimage_takes) fun _ => Ends.modify fun w hw => ?_)
    (fun _ he => he ▸ hw) (fun _ _ h => h) fun _ _ h => h
  exact ⟨hw.oplog, hw.logptr, hw.logcount, hw.closeopen, congrArg (· + 1) hw.testcalls, hw.size⟩

/-- The next choice, wherever `closeopen` may be set to. -/
theorem choose_since {w0 : World φ} {s : ℕ} (hmax : 0 < C.maxfilelen) :
    Ends (Since w0 s) (choose C)
      (fun ch w => (∃ b, Since { w0 with closeopen := b } s w) ∧ ch.Ok C s)
      (fun e w => ∃ b, StoppedAt { w0 with closeopen := b } e w) := by
  refine (choose_ok (P := fun w => ∃ b, Since { w0 with closeopen := b } s w) hmax ?_ ?_).weaken
    (fun w hw => ⟨w0.closeopen, hw⟩) (fun _ _ h => h) fun _ _ h => h
  · refine ⟨?_, ?_, ?_⟩
    · rintro w rs ⟨b, hw⟩
      exact ⟨b, hw.oplog, hw.logptr, hw.logcount, hw.closeopen, hw.testcalls, hw.size⟩
    · rintro w b ⟨_, hw⟩
      exact ⟨b, hw.oplog, hw.logptr, hw.logcount, rfl, hw.testcalls, hw.size⟩
    · rintro w ⟨b, hw⟩
      exact ⟨b, s, hw⟩
  · rintro w ⟨b, hw⟩
    exact hw.size

theorem noted_testcalls (es : List LogEntry) (w : World φ) : (w.noted es).testcalls = w.testcalls := by
  induction es generalizing w with
  | nil => rfl
  | cons e es ih => exact ih (w.log e)

/-- One call: a choice that can be done, and its entry. -/
theorem test_books {patience t s : ℕ} {es : List LogEntry} (hmax : 0 < C.maxfilelen) :
    Ends (Before t s es) (test F C patience)
      (fun _ w => ∃ ch b, ch.Ok C s ∧
        Before (t + 1) (outcome C (decide (C.simulatedopcount < t + 1)) s ch).size
          (es ++ (outcome C (decide (C.simulatedopcount < t + 1)) s ch).entries s b) w)
      (fun _ w => Logged es w ∨ ∃ ch b, ch.Ok C s ∧
        Logged (es ++ (outcome C (decide (C.simulatedopcount < t + 1)) s ch).entries s b) w) := by
  refine Ends.of_eq fun w0 h0 => ?_
  have hlive : ∀ b, C.live { w0 with testcalls := w0.testcalls + 1, closeopen := b } =
      decide (C.simulatedopcount < t + 1) := fun b => by
    unfold Config.live
    rw [h0.testcalls]
  have hlog : ∀ b, Logged es { w0 with testcalls := w0.testcalls + 1, closeopen := b } :=
    fun _ => ⟨h0.logged.holds, h0.logged.logcount⟩
  have htakes : Ends (Since w0 s) (begin F C) _ _ := begin_takes
  refine Ends.bind (htakes.weaken ?_ (fun _ _ h => h) fun _ _ h => Or.inl (h0.logged.stopped h))
    fun _ => ?_
  · rintro w rfl
    exact ⟨rfl, rfl, rfl, rfl, rfl, h0.size⟩
  refine Ends.bind ((choose_since hmax).weaken (fun _ h => h) (fun _ _ h => h) ?_) fun ch => ?_
  · rintro e w ⟨b, hw⟩
    exact Or.inl ((hlog b).stopped hw)
  rintro w ⟨⟨b, hw⟩, hch⟩
  have hbooks : Books { w0 with testcalls := w0.testcalls + 1, closeopen := b } s _
      (perform F C patience ch) := perform_books ch
  have hp := hbooks w hw
  rw [hlive b] at hp
  refine hp.mono (fun _ v hv => ⟨ch, b, hch, ?_⟩) fun e v hv => ?_
  · refine ⟨?_, hv.size, ((hlog b).noted _).since hv⟩
    rw [hv.testcalls, noted_testcalls]
    exact congrArg (· + 1) h0.testcalls
  · rcases hv with hv | hv
    · exact Or.inl ((hlog b).stopped hv)
    · exact Or.inr ⟨ch, b, hch, ((hlog b).noted _).stopped hv⟩

theorem runTests_books {patience : ℕ} (hmax : 0 < C.maxfilelen) : ∀ (n t s : ℕ) (es : List LogEntry),
    Ends (Before t s es) (runTests F C patience n)
      (fun _ w => ∃ chs, chs.length = n ∧ Bookable C t s chs ∧
        Before (t + n) (book C t s chs).2 (es ++ (book C t s chs).1) w)
      (fun _ w => ∃ chs, chs.length ≤ n ∧ Bookable C t s chs ∧ Logged (es ++ (book C t s chs).1) w)
  | 0, t, s, es => Ends.pure fun w hw => ⟨[], rfl, trivial, by
      rw [book, List.append_nil]
      exact hw⟩
  | n + 1, t, s, es => by
    refine Ends.bind ((test_books hmax).weaken (fun _ h => h) (fun _ _ h => h) ?_) fun _ => ?_
    · rintro e w (hw | ⟨ch, b, hch, hw⟩)
      · refine ⟨[], Nat.zero_le _, trivial, ?_⟩
        rwa [book, List.append_nil]
      · refine ⟨[(ch, b)], by simp, ⟨hch, trivial⟩, ?_⟩
        simpa [book] using hw
    · rintro w ⟨ch, b, hch, hw⟩
      refine (runTests_books hmax n _ _ _ w hw).mono ?_ ?_
      · rintro _ v ⟨chs, hlen, hok, hv⟩
        refine ⟨(ch, b) :: chs, congrArg (· + 1) hlen, ⟨hch, hok⟩, ?_⟩
        rw [show t + (n + 1) = t + 1 + n by omega]
        simpa [book] using hv
      · rintro _ v ⟨chs, hlen, hok, hv⟩
        refine ⟨(ch, b) :: chs, Nat.succ_le_succ hlen, ⟨hch, hok⟩, ?_⟩
        simpa [book] using hv

/-- The log of a world is the kept part of some entries, and what `logdump`
writes of it reads back whole. -/
structure Dumped (es : List LogEntry) (w : World φ) : Prop where
  entries : w.entries = kept es
  readable : ∀ (star : LogEntry → Bool) (fuel : ℕ), logSize < fuel →
    readOps fuel (opsFile star w.entries) = (kept es, true)

theorem Logged.entries {es : List LogEntry} {w : World φ} (h : Logged es w)
    (hlt : es.length < 2 ^ 31) : w.entries = kept es := by
  have hcount : w.logcount.toNat = es.length := by
    rw [h.logcount, int32, Int.bmod_eq_of_le (by omega) (by omega), Int.toNat_natCast]
  rw [World.entries, hcount]
  exact Ring.oldest_first (by decide) h.holds

theorem Logged.dumped {es : List LogEntry} {w : World φ} (h : Logged es w) (hlt : es.length < 2 ^ 31)
    (hes : ∀ e ∈ es, e.sized = true ∧ e.Fits) : Dumped es w := by
  have he := h.entries hlt
  have hsized : ∀ e ∈ kept es, e.sized = true := fun e h => (hes e (List.mem_of_mem_drop h)).1
  refine ⟨he, fun star fuel hf => ?_⟩
  have hfits : ∀ e ∈ kept es, e.Fits := fun e h => (hes e (List.mem_of_mem_drop h)).2
  have hlen : (kept es).length ≤ logSize := by
    rw [kept, List.length_drop]
    omega
  rw [he, readOps_opsFile star _ _ hfits (by omega),
    List.all_eq_true.mpr hsized, List.takeWhile_eq_self_iff.mpr hsized]

/-- A book has at most one entry for each choice. -/
theorem book_length_le (C : Config) : ∀ (chs : List (Choice × Bool)) (t s : ℕ),
    (book C t s chs).1.length ≤ chs.length
  | [], _, _ => Nat.le_refl _
  | (ch, b) :: chs, t, s => by
    have ih := book_length_le C chs (t + 1) (outcome C (decide (C.simulatedopcount < t + 1)) s ch).size
    have hone : ((outcome C (decide (C.simulatedopcount < t + 1)) s ch).entries s b).length ≤ 1 := by
      unfold Outcome.entries
      split_ifs
      · exact Nat.zero_le _
      · exact Nat.le_refl _
    simp only [book, List.length_append, List.length_cons]
    omega

end

theorem emptyWorld_before (random : List ℕ) : Before 0 0 [] (emptyWorld random) :=
  ⟨rfl, rfl, Logged.nil rfl rfl⟩

end Fsx
end Longan
