/-
# `scp.exp`

After the connect loop up to three dialogues follow. With `yesnoflag` 1 the
script waits for a password prompt or a second yes/no prompt, which sets the
flag to 2; with 2 it waits for a password prompt; and in the end for a password
prompt, which is an error, or for the end of the output, at which it prints
`ABS_OK_SCP`. A timeout has no clause there: the script goes on, and where
nothing is left it ends with status 0. After the end of the output an `expect`
is an error, since the connection is closed.

Which of the four commands of `rsync` and `scp` is spawned makes no difference
to the dialogue. The script never asks for the exit status of the process.
`success_sound_iff` says for which connections its success is one.
-/
import Longan.Net.Connect

namespace Longan
namespace Net
namespace Scp

open Expect Connect

/-- A spawned `rsync` or `scp`: what it does, whether it is let in, and its exit
status if it has ended. -/
structure Process where
  signals : List (Signal Pattern)
  authenticated : Bool
  status : Option ℕ

/-! ### The script -/

section Script

variable (ip passwd : Text)

/-- `send "$passwd\r"`. -/
def answerPassword : Action := ⟨some (passwd ++ ['\r']), none, none, .resume⟩

/-- With `yesnoflag` 1. -/
def secondClauses : Clauses Pattern Action := [
  (.text .assword, answerPassword passwd),
  (.text .yesNo, ⟨some "yes\r".toList, none, some 2, .resume⟩)]

/-- With `yesnoflag` 2. -/
def thirdClauses : Clauses Pattern Action := [(.text .assword, answerPassword passwd)]

def lastClauses : Clauses Pattern Action := [
  (.text .assword, ⟨some (passwd ++ ['\r']),
    some ("\nPASSWORDERROR: ".toList ++ ip ++ " PASSWORD ERROR!!!\n".toList), none, .exit 1⟩),
  (.eof, ⟨none, some ("ABS_OK_SCP: ".toList ++ ip ++ "\n".toList), none, .exit 0⟩)]

/-- The flag, what the process still does, and whether its output was closed. -/
structure Session where
  flag : ℕ
  signals : List (Signal Pattern)
  closed : Bool

/-- How the script ends. -/
structure Exit where
  status : ℕ
  printed : List Text

/-- One `expect`. -/
def expectIn (cs : Clauses Pattern Action) (s : Session) : Except Exit Session :=
  if s.closed then .error ⟨1, []⟩
  else
    let r := await cs s.signals
    match action cs r.1 with
    | some ⟨_, puts, flag, control⟩ => match control with
      | .exit status => .error ⟨status, puts.toList⟩
      | _ => .ok ⟨flag.getD s.flag, r.2, r.1 = .eof⟩
    | none => .ok ⟨s.flag, r.2, r.1 = .eof⟩

/-- The dialogues after the loop. -/
def dialogues (s : Session) : Except Exit Session := do
  let s ← if s.flag = 1 then expectIn (secondClauses passwd) s else pure s
  let s ← if s.flag = 2 then expectIn (thirdClauses passwd) s else pure s
  expectIn (lastClauses ip passwd) s

/-- At the end of the script the status is 0. -/
def exitOf : Except Exit Session → Exit
  | .error e => e
  | .ok _ => ⟨0, []⟩

/-- How the first `expect` ends on a connection. -/
def outcome (p : Process) : Event Pattern := (await (scpClauses ip passwd) p.signals).1

/-- What the passes of the loop print. -/
def loopPrints (conns : ℕ → Process) (passes : ℕ) : List Text :=
  (List.range passes).filterMap fun n =>
    (action (scpClauses ip passwd) (outcome ip passwd (conns n))).bind Action.puts

/-- The number of the connection the loop is left with, and the end of the
script. -/
structure Outcome where
  connection : ℕ
  status : ℕ
  printed : List Text

/-- The script, where `conns n` is the process that pass `n` of the loop
spawns; no outcome if the loop is not left in `fuel` passes. -/
def scp (conns : ℕ → Process) (fuel : ℕ) : Option Outcome :=
  let loop := connect .scp ip passwd (fun n => outcome ip passwd (conns n)) fuel
  loop.2.map fun a =>
    let n := loop.1 - 1
    let e : Exit := match a.control with
      | .exit status => ⟨status, []⟩
      | _ => exitOf (dialogues ip passwd
          ⟨a.flag.getD 0, (await (scpClauses ip passwd) (conns n).signals).2, false⟩)
    ⟨n, e.status, loopPrints ip passwd conns loop.1 ++ e.printed⟩

end Script

/-! ### Which dialogues end well -/

/-- Status 0, or the line that the callers look for. -/
def Reports (status : ℕ) (printed : List Text) : Prop :=
  status = 0 ∨ ∃ t ∈ printed, "ABS_OK_SCP".toList <+: t

/-- No password prompt before a timeout or the end. -/
def Unprompted : List (Signal Pattern) → Prop
  | [] => True
  | .timeout :: _ => True
  | .text .assword :: _ => False
  | .text _ :: r => Unprompted r

/-- After two yes/no prompts: a password prompt or a timeout, and no password
prompt then. -/
def ThirdPasses : List (Signal Pattern) → Prop
  | [] => False
  | .timeout :: r => Unprompted r
  | .text .assword :: r => Unprompted r
  | .text _ :: r => ThirdPasses r

/-- After a yes/no prompt: the same, or another one. -/
def SecondPasses : List (Signal Pattern) → Prop
  | [] => False
  | .timeout :: r => Unprompted r
  | .text .assword :: r => Unprompted r
  | .text .yesNo :: r => ThirdPasses r
  | .text _ :: r => SecondPasses r

/-- The connection asks for the password or for a yes, and goes on so that
the script ends well. -/
def Passes : List (Signal Pattern) → Prop
  | .text .assword :: r => Unprompted r
  | .text .yesNo :: r => SecondPasses r
  | _ => False

/-- The loop goes on to the next connection. -/
def Ignored : List (Signal Pattern) → Prop
  | [] => True
  | .text .interruptedSystemCall :: _ => True
  | _ => False

/-- The transfer is done. -/
def Completed (p : Process) : Prop := p.authenticated = true ∧ p.status = some 0

variable {ip passwd : Text}

theorem await_skip {cs : Clauses Pattern Action} {p : Pattern} (h : Event.text p ∉ cs.map Prod.fst)
    (r : List (Signal Pattern)) : await cs (.text p :: r) = await cs r := if_neg h

theorem expectIn_skip {cs : Clauses Pattern Action} {p : Pattern} (h : Event.text p ∉ cs.map Prod.fst)
    (f : ℕ) (r : List (Signal Pattern)) :
    expectIn cs ⟨f, .text p :: r, false⟩ = expectIn cs ⟨f, r, false⟩ := by
  unfold expectIn
  rw [await_skip h]

theorem not_reports_of_newline {t : Text} : ¬ Reports 1 ['\n' :: t] := by
  rintro (h | ⟨u, hu, h⟩)
  · cases h
  · rw [List.mem_singleton.mp hu] at h
    exact absurd (List.cons_prefix_cons.mp h).1 (by decide)

theorem not_mem_secondClauses {p : Pattern} (h : p ≠ .assword) (h' : p ≠ .yesNo) :
    Event.text p ∉ (secondClauses passwd).map Prod.fst := by
  simp [secondClauses, h, h']

theorem not_mem_thirdClauses {p : Pattern} (h : p ≠ .assword) :
    Event.text p ∉ (thirdClauses passwd).map Prod.fst := by
  simp [thirdClauses, h]

theorem not_mem_lastClauses {p : Pattern} (h : p ≠ .assword) :
    Event.text p ∉ (lastClauses ip passwd).map Prod.fst := by
  simp [lastClauses, h]

theorem not_reports_silent : ¬ Reports 1 [] := by
  rintro (h | ⟨u, hu, -⟩)
  · cases h
  · cases hu

/-- The end of the script, after whatever dialogues there were. -/
def ReportsAfter (e : Except Exit Session) : Prop := Reports (exitOf e).status (exitOf e).printed

theorem last_reports (f : ℕ) : ∀ r : List (Signal Pattern),
    ReportsAfter (expectIn (lastClauses ip passwd) ⟨f, r, false⟩) ↔ Unprompted r
  | [] => iff_of_true (.inl rfl) trivial
  | .timeout :: _ => iff_of_true (.inl rfl) trivial
  | .text p :: r => by
    have ih := last_reports f r
    cases p with
    | assword => exact iff_of_false not_reports_of_newline fun h => h
    | _ => rw [expectIn_skip (not_mem_lastClauses (by decide))]; exact ih

/-- The dialogue with `yesnoflag` 2 and the last one. -/
def thirdAndLast (ip passwd : Text) (r : List (Signal Pattern)) : Except Exit Session := do
  let s ← expectIn (thirdClauses passwd) ⟨2, r, false⟩
  expectIn (lastClauses ip passwd) s

theorem third_reports : ∀ r : List (Signal Pattern),
    ReportsAfter (thirdAndLast ip passwd r) ↔ ThirdPasses r
  | [] => iff_of_false not_reports_silent fun h => h
  | .timeout :: r => last_reports 2 r
  | .text p :: r => by
    have ih := third_reports r
    cases p with
    | assword => exact last_reports 2 r
    | _ => rw [thirdAndLast, expectIn_skip (not_mem_thirdClauses (by decide))]; exact ih

theorem second_reports : ∀ r : List (Signal Pattern),
    ReportsAfter (dialogues ip passwd ⟨1, r, false⟩) ↔ SecondPasses r
  | [] => iff_of_false not_reports_silent fun h => h
  | .timeout :: r => last_reports 1 r
  | .text p :: r => by
    have ih := second_reports r
    cases p with
    | assword => exact last_reports 1 r
    | yesNo => exact third_reports r
    | _ =>
      show ReportsAfter (expectIn (secondClauses passwd) _ >>= _) ↔ _
      rw [expectIn_skip (not_mem_secondClauses (by decide) (by decide))]
      exact ih

/-! ### The loop -/

theorem mem_scpClauses (p : Pattern) : Event.text p ∈ (scpClauses ip passwd).map Prod.fst := by
  cases p <;> simp [scpClauses]

theorem await_text (q : Pattern) (r : List (Signal Pattern)) :
    await (scpClauses ip passwd) (.text q :: r) = (.text q, r) := if_pos (mem_scpClauses q)

/-- How the loop is left with a connection and the script then ends. -/
def leave (ip passwd : Text) (a : Action) (p : Process) : Exit :=
  match a.control with
  | .exit status => ⟨status, []⟩
  | _ => exitOf (dialogues ip passwd ⟨a.flag.getD 0, (await (scpClauses ip passwd) p.signals).2, false⟩)

theorem pass_none_iff : ∀ p : Process, pass (scpClauses ip passwd) (outcome ip passwd p) = none ↔
    Ignored p.signals
  | ⟨[], _, _⟩ => iff_of_true rfl trivial
  | ⟨.timeout :: _, _, _⟩ => iff_of_false (Option.some_ne_none _) fun h => h
  | ⟨.text q :: r, auth, st⟩ => by
    have houtcome : outcome ip passwd ⟨.text q :: r, auth, st⟩ = .text q := congrArg Prod.fst (await_text q r)
    rw [houtcome]
    apply (pass_eq_none_iff .scp ip passwd _).trans
    cases q with
    | interruptedSystemCall => exact iff_of_true (.inl rfl) trivial
    | _ => exact iff_of_false (by decide) fun h => h

/-- Whether a connection that the loop is left with is reported as a success. -/
theorem leave_reports : ∀ {p : Process} {a : Action},
    pass (scpClauses ip passwd) (outcome ip passwd p) = some a →
      (Reports (leave ip passwd a p).status (leave ip passwd a p).printed ↔ Passes p.signals)
  | ⟨[], _, _⟩, _, h => by cases h
  | ⟨.timeout :: _, _, _⟩, _, h => by
    cases h
    exact iff_of_false not_reports_silent fun h => h
  | ⟨.text q :: r, _, _⟩, a, h => by
    unfold outcome at h
    unfold leave
    rw [await_text] at *
    cases q with
    | assword =>
      cases h
      exact last_reports 0 r
    | yesNo =>
      cases h
      exact second_reports r
    | interruptedSystemCall => cases h
    | _ =>
      cases h
      exact iff_of_false not_reports_silent fun h => h

/-- What the loop prints begins with a newline. -/
theorem newline_of_mem_loopPrints {conns : ℕ → Process} {n : ℕ} {t : Text}
    (h : t ∈ loopPrints ip passwd conns n) : ∃ u, t = '\n' :: u := by
  obtain ⟨i, -, hi⟩ := List.mem_filterMap.mp h
  obtain ⟨a, ha, ht⟩ := Option.bind_eq_some_iff.mp hi
  cases he : outcome ip passwd (conns i) with
  | eof =>
    rw [he] at ha
    cases ha
  | timeout =>
    rw [he] at ha
    cases ha
    cases ht
    exact ⟨_, rfl⟩
  | text q =>
    rw [he] at ha
    cases q <;> cases ha <;> cases ht <;> exact ⟨_, rfl⟩

theorem reports_append {conns : ℕ → Process} {n status : ℕ} {printed : List Text} :
    Reports status (loopPrints ip passwd conns n ++ printed) ↔ Reports status printed := by
  refine or_congr_right ⟨fun ⟨t, ht, h⟩ => ?_, fun ⟨t, ht, h⟩ => ⟨t, List.mem_append_right _ ht, h⟩⟩
  rcases List.mem_append.mp ht with ht | ht
  · obtain ⟨u, rfl⟩ := newline_of_mem_loopPrints ht
    exact absurd (List.cons_prefix_cons.mp h).1 (by decide)
  · exact ⟨t, ht, h⟩

theorem not_ignored_of_passes : ∀ {s : List (Signal Pattern)}, Passes s → ¬ Ignored s
  | [], h => fun _ => h
  | .timeout :: _, h => fun _ => h
  | .text q :: _, h => by
    cases q with
    | assword => exact fun h => h
    | yesNo => exact fun h => h
    | _ => exact fun _ => h

/-- The script ends with the first connection that is not ignored. -/
theorem scp_ends (ip passwd : Text) (conns : ℕ → Process) {k : ℕ} (hk : ∀ i < k, Ignored (conns i).signals)
    (h : ¬ Ignored (conns k).signals) {fuel : ℕ} (hf : k < fuel) : ∃ a out,
      pass (scpClauses ip passwd) (outcome ip passwd (conns k)) = some a ∧
      scp ip passwd conns fuel = some out ∧ out.connection = k ∧
      (Reports out.status out.printed ↔ Passes (conns k).signals) := by
  have hsome : pass (scpClauses ip passwd) (outcome ip passwd (conns k)) ≠ none := fun hn =>
    h ((pass_none_iff _).mp hn)
  obtain ⟨a, ha⟩ := Option.ne_none_iff_exists'.mp hsome
  have hloop : connect .scp ip passwd (fun n => outcome ip passwd (conns n)) fuel = (k + 1, some a) :=
    forever_leaves (fun i hi => (pass_none_iff _).mpr (hk i hi)) ha hf
  refine ⟨a, ⟨k, (leave ip passwd a (conns k)).status,
    loopPrints ip passwd conns (k + 1) ++ (leave ip passwd a (conns k)).printed⟩, ha, ?_, rfl, ?_⟩
  · unfold scp
    rw [hloop]
    rfl
  · exact reports_append.trans (leave_reports ha)

/-- Without such a connection it does not end. -/
theorem scp_of_ignored {conns : ℕ → Process} {fuel : ℕ} (h : ∀ i < fuel, Ignored (conns i).signals) :
    scp ip passwd conns fuel = none := by
  have hloop : connect .scp ip passwd (fun n => outcome ip passwd (conns n)) fuel = (fuel, none) :=
    forever_goes_on fun i hi => (pass_none_iff _).mpr (h i hi)
  unfold scp
  rw [hloop]
  rfl

/-! ### What the success is worth -/

/-- **Success.** What the script reports is a completed transfer if and only
if the first connection that is not ignored is one, or its dialogue is not one
that the script ends well with. -/
theorem success_sound_iff (ip passwd : Text) (conns : ℕ → Process) :
    (∀ fuel out, scp ip passwd conns fuel = some out → Reports out.status out.printed →
      Completed (conns out.connection)) ↔
      ∀ k, (∀ i < k, Ignored (conns i).signals) → Passes (conns k).signals → Completed (conns k) := by
  constructor
  · intro h k hk hp
    obtain ⟨a, out, -, hout, hc, hr⟩  := scp_ends ip passwd conns hk
      (not_ignored_of_passes hp) (Nat.lt_succ_self k)
    exact hc ▸ h (k + 1) out hout (hr.mpr hp)
  · intro h fuel out hout hr
    rcases leaves_or_goes_on (fun n => pass (scpClauses ip passwd) (outcome ip passwd (conns n))) fuel with
      ⟨k, b, hf, hk, hb⟩ | hall
    · have hbefore : ∀ i < k, Ignored (conns i).signals := fun i hi => (pass_none_iff _).mp (hk i hi)
      have hfirst : ¬ Ignored (conns k).signals := fun hi =>
        absurd (hb.symm.trans ((pass_none_iff _).mpr hi)) (Option.some_ne_none b)
      obtain ⟨a, out', -, hout', hc, hr'⟩ := scp_ends ip passwd conns hbefore hfirst hf
      cases hout.symm.trans hout'
      rw [hc]
      exact h k hbefore (hr'.mp hr)
    · rw [scp_of_ignored fun i hi => (pass_none_iff _).mp (hall i hi)] at hout
      cases hout

/-- **The exit status is not asked for.** A copy that ends with status 1 after
the password was taken is reported as done. -/
theorem failed_copy_reported : ¬ ∀ (ip passwd : Text) (conns : ℕ → Process) (fuel : ℕ) (out : Outcome),
    scp ip passwd conns fuel = some out → Reports out.status out.printed →
      Completed (conns out.connection) := by
  intro h
  obtain ⟨a, out, -, hout, hc, hr⟩ := scp_ends "10.0.0.2".toList "secret".toList
    (fun _ => ⟨[.text .assword], true, some 1⟩) (k := 0) (fun i hi => absurd hi (Nat.not_lt_zero i))
    (fun h => h) (Nat.lt_succ_self 0)
  exact absurd (h _ _ _ 1 out hout (hr.mpr trivial)).2 (by decide)

end Scp
end Net
end Longan
