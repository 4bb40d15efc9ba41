/-
# fsx: watching changes nothing

What `watch` adds is never looked at: a run beside the watched file system,
with the file and the notes taken away from its states, is the run beside the
file system itself (`runTests_under`). So what is shown of watched runs is
shown of runs. There is one lemma for each operation, by the construction of
its program.
-/
import Longan.Fsx.Watch

namespace Longan
namespace Fsx

section

variable {φ : Type} {F : FileSystem φ} {C : Config}

/-- The world without the file and the notes. -/
def World.under (w : World (Watched φ)) : World φ where
  goodBuf := w.goodBuf
  fileSize := w.fileSize
  testcalls := w.testcalls
  oplog := w.oplog
  logptr := w.logptr
  logcount := w.logcount
  closeopen := w.closeopen
  badoff := w.badoff
  random := w.random
  fs := w.fs.under

abbrev Same {α : Type} (m : Run (Watched φ) α) (n : Run φ α) : Prop := Maps World.under m n

theorem ask_under {ρ : Type} (c : Call ρ) : Same (ask (watch F) c) (ask F c) := fun _ => rfl

theorem askOr_under {c : Call Bool} {e : Stop} : Same (askOr (watch F) c e) (askOr F c e) :=
  Maps.bind (ask_under c) fun _ => Maps.ite (fun _ => Maps.pure) fun _ => Maps.stop

theorem askOrReport_under {c : Call Bool} {status : ℕ} :
    Same (askOrReport (watch F) c status) (askOrReport F c status) := askOr_under

theorem writeOrReport_under {off : ℕ} {data : List UInt8} {status : ℕ} :
    Same (writeOrReport (watch F) off data status) (writeOrReport F off data status) := by
  refine Maps.bind (ask_under _) fun r => ?_
  cases r with
  | none => exact Maps.stop
  | some n => exact Maps.ite (fun _ => Maps.pure) fun _ => Maps.stop

theorem log4_under {op : Op} {a b : ℕ} {fl : Flags} :
    Same (log4 op a b fl : Run (Watched φ) Unit) (log4 op a b fl) := Maps.modify fun _ => rfl

theorem log5_under {op : Op} {a b d : ℕ} {fl : Flags} :
    Same (log5 op a b d fl : Run (Watched φ) Unit) (log5 op a b d fl) := Maps.modify fun _ => rfl

theorem within_under {cap off n : ℕ} :
    Same (within cap off n : Run (Watched φ) Unit) (within cap off n) :=
  Maps.ite (fun _ => Maps.pure) fun _ => Maps.stop

theorem memset_under {off n : ℕ} :
    Same (memset C off n : Run (Watched φ) Unit) (memset C off n) :=
  Maps.bind within_under fun _ => Maps.modify fun _ => rfl

theorem memmove_under {dest src n : ℕ} :
    Same (memmove C dest src n : Run (Watched φ) Unit) (memmove C dest src n) :=
  Maps.bind within_under fun _ => Maps.bind within_under fun _ => Maps.modify fun _ => rfl

theorem genAndExtend_under {off size : ℕ} :
    Same (genAndExtend C off size : Run (Watched φ) Unit) (genAndExtend C off size) := by
  refine Maps.bind within_under fun _ => Maps.bind (Maps.modify fun _ => rfl) fun _ => ?_
  refine Maps.get_bind fun w => ?_
  exact Maps.onlyIf (Maps.bind (Maps.onlyIf memset_under) fun _ => Maps.modify fun _ => rfl)

theorem checkBuffers_under {bytes : List UInt8} {off size : ℕ} :
    Same (checkBuffers C bytes off size : Run (Watched φ) Unit) (checkBuffers C bytes off size) := by
  refine Maps.bind within_under fun _ => Maps.get_bind fun w => ?_
  have hw : (World.under w).differing bytes off size = w.differing bytes off size := rfl
  simp only [hw]
  cases (w.differing bytes off size).getLast? with
  | none => exact Maps.pure
  | some i => exact Maps.bind (Maps.modify fun _ => rfl) fun _ => Maps.stop

theorem checkSize_under : Same (checkSize (watch F)) (checkSize F) :=
  Maps.bind (ask_under _) fun _ => Maps.bind (ask_under _) fun _ => Maps.get_bind fun _ =>
    Maps.ite (fun _ => Maps.pure) fun _ => Maps.stop

theorem checkEofpage_under {off size : ℕ} :
    Same (checkEofpage (watch F) C off size) (checkEofpage F C off size) := by
  refine Maps.get_bind fun w => Maps.ite (fun _ => Maps.pure) fun _ => ?_
  exact Maps.bind (ask_under _) fun _ => Maps.ite (fun _ => Maps.pure) fun _ => Maps.stop

theorem unlessSimulated_under {m : Run (Watched φ) Unit} {n : Run φ Unit} (h : Same m n) :
    Same (unlessSimulated C m) (unlessSimulated C n) :=
  Maps.get_bind fun _ => Maps.ite (fun _ => Maps.pure) fun _ => h

theorem readAndCheck_under {off size : ℕ} :
    Same (readAndCheck (watch F) C off size) (readAndCheck F C off size) := by
  refine Maps.bind askOrReport_under fun _ => Maps.bind (ask_under _) fun r => ?_
  cases r with
  | none => exact Maps.stop
  | some bytes => exact Maps.ite (fun _ => checkBuffers_under) fun _ => Maps.stop

theorem checkContents_under : Same (checkContents (watch F) C) (checkContents F C) := by
  refine Maps.get_bind fun w => Maps.ite (fun _ => Maps.pure) fun _ => ?_
  refine Maps.bind readAndCheck_under fun _ => Maps.bind askOrReport_under fun _ => ?_
  exact Maps.bind checkEofpage_under fun _ => askOrReport_under

/-! ### The operations -/

section Operations

variable {off n dest : ℕ} {keepSize : Bool}

theorem doread_under : Same (doread (watch F) C off n) (doread F C off n) := by
  refine Maps.get_bind fun w => Maps.ite (fun _ => log4_under) fun _ =>
    Maps.ite (fun _ => log4_under) fun _ => ?_
  exact Maps.bind log4_under fun _ => unlessSimulated_under <|
    Maps.bind within_under fun _ => readAndCheck_under

theorem domapread_under : Same (domapread (watch F) C off n) (domapread F C off n) := by
  refine Maps.get_bind fun w => Maps.ite (fun _ => log4_under) fun _ =>
    Maps.ite (fun _ => log4_under) fun _ => ?_
  refine Maps.bind log4_under fun _ => unlessSimulated_under ?_
  refine Maps.bind askOrReport_under fun _ => Maps.bind within_under fun _ => ?_
  refine Maps.bind (ask_under _) fun _ => Maps.bind checkEofpage_under fun _ => ?_
  exact Maps.bind askOrReport_under fun _ => checkBuffers_under

theorem doflush_under : Same (doflush (watch F) C off n) (doflush F C off n) :=
  Maps.ite (fun _ => Maps.pure) fun _ => Maps.bind askOrReport_under fun _ =>
    Maps.bind askOrReport_under fun _ => askOrReport_under

theorem dowrite_under : Same (dowrite (watch F) C off n) (dowrite F C off n) := by
  refine Maps.ite (fun _ => log4_under) fun _ => Maps.bind log4_under fun _ => ?_
  refine Maps.get_bind fun _ => Maps.bind genAndExtend_under fun _ => ?_
  refine Maps.ite (fun _ => Maps.stop) fun _ => unlessSimulated_under ?_
  refine Maps.bind askOrReport_under fun _ => Maps.get_bind fun _ => ?_
  refine Maps.bind writeOrReport_under fun _ => Maps.bind (Maps.onlyIf askOrReport_under) fun _ => ?_
  exact Maps.onlyIf doflush_under

theorem domapwrite_under : Same (domapwrite (watch F) C off n) (domapwrite F C off n) := by
  refine Maps.ite (fun _ => log4_under) fun _ => Maps.bind log4_under fun _ => ?_
  refine Maps.get_bind fun _ => Maps.bind genAndExtend_under fun _ => ?_
  refine Maps.ite (fun _ => Maps.stop) fun _ => unlessSimulated_under ?_
  refine Maps.get_bind fun _ => Maps.bind (Maps.onlyIf askOr_under) fun _ => ?_
  refine Maps.bind askOrReport_under fun _ => Maps.bind (ask_under _) fun _ => ?_
  refine Maps.bind askOrReport_under fun _ => Maps.bind checkEofpage_under fun _ => ?_
  exact askOrReport_under

theorem dotruncate_under : Same (dotruncate (watch F) C n) (dotruncate F C n) := by
  refine Maps.bind log4_under fun _ => Maps.bind ?_ fun _ =>
    unlessSimulated_under askOrReport_under
  exact Maps.get_bind fun _ => Maps.bind (Maps.onlyIf memset_under) fun _ => Maps.modify fun _ => rfl

theorem doPunchHole_under : Same (doPunchHole (watch F) C off n) (doPunchHole F C off n) := by
  refine Maps.get_bind fun w => Maps.ite (fun _ => log4_under) fun _ =>
    Maps.ite (fun _ => log4_under) fun _ => ?_
  exact Maps.bind log4_under fun _ => unlessSimulated_under <|
    Maps.bind askOrReport_under fun _ => memset_under

theorem doZeroRange_under :
    Same (doZeroRange (watch F) C off n keepSize) (doZeroRange F C off n keepSize) := by
  refine Maps.ite (fun _ => log4_under) fun _ => Maps.bind log4_under fun _ => ?_
  exact unlessSimulated_under <| Maps.bind askOrReport_under fun _ => memset_under

theorem doCollapseRange_under :
    Same (doCollapseRange (watch F) C off n) (doCollapseRange F C off n) := by
  refine Maps.get_bind fun w => Maps.ite (fun _ => log4_under) fun _ =>
    Maps.ite (fun _ => log4_under) fun _ => ?_
  refine Maps.bind log4_under fun _ => unlessSimulated_under <|
    Maps.bind askOrReport_under fun _ => ?_
  exact Maps.get_bind fun _ => Maps.bind memmove_under fun _ => Maps.modify fun _ => rfl

theorem doInsertRange_under :
    Same (doInsertRange (watch F) C off n) (doInsertRange F C off n) := by
  refine Maps.get_bind fun w => Maps.ite (fun _ => log4_under) fun _ =>
    Maps.ite (fun _ => log4_under) fun _ => ?_
  refine Maps.bind log4_under fun _ => unlessSimulated_under <|
    Maps.bind askOrReport_under fun _ => ?_
  exact Maps.get_bind fun _ => Maps.bind memmove_under fun _ => Maps.bind memset_under fun _ =>
    Maps.modify fun _ => rfl

theorem copyGood_under :
    Same (copyGood C off n dest : Run (Watched φ) Unit) (copyGood C off n dest) :=
  Maps.bind memmove_under fun _ => Maps.get_bind fun _ =>
    Maps.bind (Maps.onlyIf memset_under) fun _ => Maps.onlyIf (Maps.modify fun _ => rfl)

theorem doCloneRange_under :
    Same (doCloneRange (watch F) C off n dest) (doCloneRange F C off n dest) := by
  refine Maps.get_bind fun w => Maps.ite (fun _ => log5_under) fun _ =>
    Maps.ite (fun _ => log5_under) fun _ => ?_
  exact Maps.bind log5_under fun _ => unlessSimulated_under <|
    Maps.bind askOrReport_under fun _ => copyGood_under

theorem doDedupeRange_under :
    Same (doDedupeRange (watch F) C off n dest) (doDedupeRange F C off n dest) := by
  refine Maps.get_bind fun w => Maps.ite (fun _ => log5_under) fun _ =>
    Maps.ite (fun _ => log5_under) fun _ => ?_
  exact Maps.bind log5_under fun _ => unlessSimulated_under askOrReport_under

theorem copyLoop_under : ∀ patience o1 o2 olen tries : ℕ,
    Same (copyLoop (watch F) patience o1 o2 olen tries) (copyLoop F patience o1 o2 olen tries)
  | 0, _, _, _, _ => Maps.stop
  | patience + 1, o1, o2, olen, tries => by
    refine Maps.ite (fun _ => Maps.pure) fun _ => Maps.bind (ask_under _) fun r => ?_
    cases r with
    | failed => exact Maps.stop
    | again => exact Maps.ite (fun _ => Maps.stop) fun _ => copyLoop_under patience o1 o2 olen _
    | bytes nr => exact Maps.ite (fun _ => Maps.stop) fun _ => copyLoop_under patience _ _ _ tries

theorem doCopyRange_under {patience : ℕ} :
    Same (doCopyRange (watch F) C patience off n dest) (doCopyRange F C patience off n dest) := by
  refine Maps.get_bind fun w => Maps.ite (fun _ => log5_under) fun _ =>
    Maps.ite (fun _ => log5_under) fun _ => ?_
  exact Maps.bind log5_under fun _ => unlessSimulated_under <|
    Maps.bind (copyLoop_under patience off dest n 0) fun _ => copyGood_under

theorem doPreallocate_under :
    Same (doPreallocate (watch F) C off n keepSize) (doPreallocate F C off n keepSize) := by
  refine Maps.ite (fun _ => log4_under) fun _ => Maps.bind log4_under fun _ => ?_
  refine Maps.bind ?_ fun _ => unlessSimulated_under askOrReport_under
  exact Maps.get_bind fun _ => Maps.onlyIf <|
    Maps.bind memset_under fun _ => Maps.modify fun _ => rfl

theorem writefileimage_under : Same (writefileimage (watch F) C) (writefileimage F C) :=
  Maps.bind askOrReport_under fun _ => Maps.get_bind fun _ =>
    Maps.bind writeOrReport_under fun _ => Maps.onlyIf askOrReport_under

theorem docloseopen_under : Same (docloseopen (watch F) C) (docloseopen F C) :=
  unlessSimulated_under <| Maps.bind askOrReport_under fun _ => askOrReport_under

theorem dofsync_under : Same (dofsync (watch F) C) (dofsync F C) :=
  unlessSimulated_under <| Maps.bind log4_under fun _ => Maps.bind askOrReport_under fun _ =>
    Maps.bind askOr_under fun _ => askOr_under

end Operations

/-! ### The whole run -/

theorem random_under : Same (random : Run (Watched φ) ℕ) random := by
  intro w
  have hw : (World.under w).random = w.random := rfl
  simp only [random, hw]
  cases w.random with
  | nil => rfl
  | cons r rs => rfl

theorem draw_under {α : Type} {f : List ℕ → Option (α × List ℕ)} :
    Same (draw f : Run (Watched φ) α) (draw f) := by
  intro w
  have hw : (World.under w).random = w.random := rfl
  simp only [draw, hw]
  cases f w.random with
  | none => rfl
  | some r => rfl

theorem oplen_under : Same (oplen C : Run (Watched φ) ℕ) (oplen C) :=
  Maps.ite (fun _ => Maps.bind random_under fun _ => Maps.pure) fun _ => Maps.pure

theorem keepOrNot_under {c : Prop} [Decidable c] :
    Same (keepOrNot c : Run (Watched φ) Bool) (keepOrNot c) :=
  Maps.ite (fun _ => Maps.bind random_under fun _ => Maps.pure) fun _ => Maps.pure

theorem choose_under : Same (choose C : Run (Watched φ) Choice) (choose C) := by
  refine Maps.bind random_under fun rv => Maps.bind (Maps.onlyIf (Maps.modify fun _ => rfl)) fun _ =>
    Maps.bind random_under fun offset => Maps.bind oplen_under fun size => Maps.get_bind fun w => ?_
  cases opOf (rv % C.opMax) with
  | truncate => exact Maps.bind random_under fun _ => Maps.pure
  | fallocate => exact Maps.bind keepOrNot_under fun _ => Maps.pure
  | zeroRange => exact Maps.bind keepOrNot_under fun _ => Maps.pure
  | cloneRange => exact Maps.bind draw_under fun _ => Maps.pure
  | dedupeRange => exact Maps.bind draw_under fun _ => Maps.pure
  | copyRange => exact Maps.bind draw_under fun _ => Maps.pure
  | _ => exact Maps.pure

theorem skip4_under {op : Op} {offset size : ℕ} :
    Same (skip4 op offset size : Run (Watched φ) Bool) (skip4 op offset size) :=
  Maps.bind log4_under fun _ => Maps.pure

theorem skip5_under {op : Op} {offset size offset2 : ℕ} :
    Same (skip5 op offset size offset2 : Run (Watched φ) Bool) (skip5 op offset size offset2) :=
  Maps.bind log5_under fun _ => Maps.pure

theorem performed_under {m : Run (Watched φ) Unit} {n : Run φ Unit} (h : Same m n) :
    Same (performed m) (performed n) := Maps.bind h fun _ => Maps.pure

theorem ranged_under {op : Op} {c : Choice} {m : Run (Watched φ) Unit} {n : Run φ Unit}
    (h : Same m n) : Same (ranged C op c m) (ranged C op c n) :=
  Maps.ite (fun _ => skip5_under) fun _ => Maps.ite (fun _ => skip5_under) fun _ =>
    performed_under h

theorem ifEnabled_under {on : Bool} {skip m : Run (Watched φ) Bool} {skip' m' : Run φ Bool}
    (hs : Same skip skip') (hm : Same m m') : Same (ifEnabled on skip m) (ifEnabled on skip' m') :=
  Maps.ite (fun _ => hm) fun _ => hs

theorem dispatch_under {patience : ℕ} (c : Choice) :
    Same (dispatch (watch F) C patience c) (dispatch F C patience c) := by
  refine Maps.get_bind fun w => ?_
  cases c.op with
  | read => exact performed_under doread_under
  | write => exact performed_under dowrite_under
  | mapread =>
    cases C.mappedReads with
    | true => exact performed_under domapread_under
    | false => exact performed_under doread_under
  | mapwrite =>
    cases C.mappedWrites with
    | true => exact performed_under domapwrite_under
    | false => exact performed_under dowrite_under
  | truncate => exact performed_under dotruncate_under
  | fallocate => exact ifEnabled_under skip4_under (performed_under doPreallocate_under)
  | punchHole => exact ifEnabled_under skip4_under (performed_under doPunchHole_under)
  | zeroRange => exact ifEnabled_under skip4_under (performed_under doZeroRange_under)
  | collapseRange =>
    exact ifEnabled_under skip4_under <| Maps.ite (fun _ => skip4_under) fun _ =>
      performed_under doCollapseRange_under
  | insertRange =>
    exact ifEnabled_under skip4_under <| Maps.ite (fun _ => skip4_under) fun _ =>
      Maps.ite (fun _ => skip4_under) fun _ => performed_under doInsertRange_under
  | cloneRange => exact ifEnabled_under skip5_under (ranged_under doCloneRange_under)
  | dedupeRange => exact ifEnabled_under skip5_under (ranged_under doDedupeRange_under)
  | copyRange => exact ifEnabled_under skip5_under (ranged_under doCopyRange_under)
  | fsync => exact performed_under dofsync_under

theorem perform_under {patience : ℕ} (c : Choice) :
    Same (perform (watch F) C patience c) (perform F C patience c) := by
  refine Maps.bind (dispatch_under c) fun _ => ?_
  refine Maps.bind (Maps.onlyIf (unlessSimulated_under checkContents_under)) fun _ => ?_
  refine Maps.bind (Maps.onlyIf (unlessSimulated_under checkSize_under)) fun _ => ?_
  exact Maps.get_bind fun _ => Maps.onlyIf docloseopen_under

theorem begin_under : Same (begin (watch F) C) (begin F C) :=
  Maps.get_bind fun _ => Maps.bind (Maps.onlyIf writefileimage_under) fun _ =>
    Maps.modify fun _ => rfl

theorem test_under {patience : ℕ} : Same (test (watch F) C patience) (test F C patience) :=
  Maps.bind begin_under fun _ => Maps.bind choose_under perform_under

/-- A run beside the watched file system is the run beside the file system. -/
theorem runTests_under {patience : ℕ} : ∀ numops : ℕ,
    Same (runTests (watch F) C patience numops) (runTests F C patience numops)
  | 0 => Maps.pure
  | numops + 1 => Maps.bind test_under fun _ => runTests_under numops

end

end Fsx
end Longan
