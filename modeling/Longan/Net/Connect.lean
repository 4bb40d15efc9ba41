/-
# The connect loops of `scp.exp` and `ssh.exp`

Both scripts spawn a connection in a loop that, as its comment says, is only
used to retry after an `Interrupted system call`. The loop has no condition;
it is left by the `break` of a password or yes/no prompt and by the `exit` of
an error text or a timeout.

A connection that closes its output without one of the listed texts meets no
clause, and the loop spawns the next one. `retries_only_interrupted_iff` says
that this is the only way to a retry that was not meant.
-/
import Longan.Lib.Expect
import Longan.Lib.Text

namespace Longan
namespace Net
namespace Connect

open Expect

/-- The texts that the clauses of the scripts wait for: `assword:`, `yes/no)?`,
`FATAL`, `No route to host`, the two spellings `Connection Refused` and
`Connection refused`, and the others as they are named. -/
inductive Pattern where
  | assword
  | yesNo
  | fatal
  | noRouteToHost
  | connectionRefusedTitle
  | connectionRefused
  | hostKeyVerificationFailed
  | destinationUnreachable
  | illegalHostKey
  | connectionTimedOut
  | interruptedSystemCall
  deriving DecidableEq

/-- How an action ends. -/
inductive Control where
  | resume
  | leave
  | exit (status : ℕ)
  deriving DecidableEq

/-- What an action sends, prints and sets `yesnoflag` to. -/
structure Action where
  send : Option Text
  puts : Option Text
  flag : Option ℕ
  control : Control

/-! ### The clauses -/

section Clauses

variable (ip passwd : Text)

/-- `send "$passwd\r"; break`. -/
def sendPassword : Action := ⟨some (passwd ++ ['\r']), none, none, .leave⟩

/-- `set yesnoflag 1; send "yes\r"; break`. -/
def sendYes : Action := ⟨some "yes\r".toList, none, some 1, .leave⟩

/-- `puts "\nCONNECTERROR: $ip ...!!!\n"; exit 1`. -/
def connectError (message : Text) : Action :=
  ⟨none, some ("\nCONNECTERROR: ".toList ++ ip ++ message), none, .exit 1⟩

def retry : Action := ⟨none, some ("\n".toList ++ ip ++ " Interrupted system call!!!\n".toList), none, .resume⟩

def scpClauses : Clauses Pattern Action := [
  (.text .assword, sendPassword passwd),
  (.text .yesNo, sendYes),
  (.text .fatal, connectError ip " occur FATAL ERROR!!!\n".toList),
  (.timeout, connectError ip " logon TIMEOUT!!!\n".toList),
  (.text .noRouteToHost, connectError ip " No route to host!!!\n".toList),
  (.text .connectionRefusedTitle, connectError ip " Connection Refused!!!\n".toList),
  (.text .connectionRefused, connectError ip " Connection Refused!!!\n".toList),
  (.text .hostKeyVerificationFailed, connectError ip " Host key verification failed!!!\n".toList),
  (.text .destinationUnreachable, connectError ip " Destination Unreachable!!!\n".toList),
  (.text .illegalHostKey, connectError ip " Illegal host key!!!\n".toList),
  (.text .connectionTimedOut, connectError ip " logon TIMEOUT!!!\n".toList),
  (.text .interruptedSystemCall, retry ip)]

def sshClauses : Clauses Pattern Action := [
  (.text .assword, sendPassword passwd),
  (.text .yesNo, sendYes),
  (.text .fatal, connectError ip " occur FATAL ERROR!!!\n".toList),
  (.timeout, connectError ip " logon TIMEOUT!!!\n".toList),
  (.text .noRouteToHost, connectError ip " No route to host!!!\n".toList),
  (.text .connectionRefusedTitle, connectError ip " Connection Refused!!!\n".toList),
  (.text .connectionRefused, connectError ip " Connection Refused!!!\n".toList),
  (.text .hostKeyVerificationFailed, connectError ip " Host key verification failed!!!\n".toList),
  (.text .illegalHostKey, connectError ip " Illegal host key!!!\n".toList),
  (.text .connectionTimedOut, connectError ip " logon TIMEOUT!!!\n".toList),
  (.text .destinationUnreachable, connectError ip " Destination Unreachable!!!\n".toList),
  (.text .interruptedSystemCall, retry ip)]

end Clauses

inductive Script where
  | scp
  | ssh

def Script.clauses : Script → Text → Text → Clauses Pattern Action
  | .scp => scpClauses
  | .ssh => sshClauses

/-! ### The loop -/

/-- One pass: the action that leaves the loop, if the outcome of the
connection has one. -/
def pass (cs : Clauses Pattern Action) (outcome : Event Pattern) : Option Action :=
  (action cs outcome).filter fun a => a.control ≠ .resume

/-- `outcomes n` is that of the connection that is spawned in pass `n`: how
many are spawned and the action that leaves the loop. -/
def connect (script : Script) (ip passwd : Text) (outcomes : ℕ → Event Pattern) (fuel : ℕ) :
    ℕ × Option Action :=
  forever (fun n => pass (script.clauses ip passwd) (outcomes n)) fuel

/-- The loop goes on after an interruption, and where there is no clause. -/
theorem pass_eq_none_iff (script : Script) (ip passwd : Text) (e : Event Pattern) :
    pass (script.clauses ip passwd) e = none ↔ e = .text .interruptedSystemCall ∨ e = .eof := by
  -- each event has its one clause, or none
  have hleave : ∀ {a : Action}, pass (script.clauses ip passwd) e = some a →
      e ≠ .text .interruptedSystemCall → e ≠ .eof → (pass (script.clauses ip passwd) e = none ↔
        e = .text .interruptedSystemCall ∨ e = .eof) := fun ha h1 h2 => by
    rw [ha]
    exact iff_of_false (Option.some_ne_none _) (not_or.mpr ⟨h1, h2⟩)
  cases e with
  | eof => cases script <;> exact iff_of_true rfl (.inr rfl)
  | timeout => cases script <;> exact hleave rfl (by decide) (by decide)
  | text p =>
    cases p with
    | interruptedSystemCall => cases script <;> exact iff_of_true rfl (.inl rfl)
    | _ => cases script <;> exact hleave rfl (by decide) (by decide)

/-- A connection is spawned after the first one only if the one before it was
interrupted, and `k` interruptions are followed by one connection, with which
the loop is left. -/
structure RetriesInterrupted (loop : ℕ → ℕ × Option Action) (outcomes : ℕ → Event Pattern) : Prop where
  only : ∀ fuel n, n + 1 < (loop fuel).1 → outcomes n = .text .interruptedSystemCall
  ends : ∀ k, (∀ i < k, outcomes i = .text .interruptedSystemCall) →
    outcomes k ≠ .text .interruptedSystemCall →
      ∀ fuel, k < fuel → (loop fuel).1 = k + 1 ∧ (loop fuel).2.isSome

/-- **Retries.** The loops of both scripts retry after interruptions only, and
end otherwise, if and only if the first connection that is not interrupted
does not close its output without a listed text. -/
theorem retries_only_interrupted_iff (script : Script) (ip passwd : Text) (outcomes : ℕ → Event Pattern) :
    RetriesInterrupted (connect script ip passwd outcomes) outcomes ↔
      ∀ k, (∀ i < k, outcomes i = .text .interruptedSystemCall) → outcomes k ≠ .eof := by
  constructor
  · intro h k hk heof
    have hne : outcomes k ≠ .text .interruptedSystemCall := by
      rw [heof]
      decide
    have hgo : ∀ i < k + 1, pass (script.clauses ip passwd) (outcomes i) = none := by
      intro i hi
      apply (pass_eq_none_iff script ip passwd _).mpr
      rcases Nat.lt_succ_iff_lt_or_eq.mp hi with hi | rfl
      · exact .inl (hk i hi)
      · exact .inr heof
    have hend := (h.ends k hk hne (k + 1) (by omega)).2
    rw [connect, forever_goes_on hgo] at hend
    cases hend
  · intro h
    -- up to the first connection that is not interrupted there is none without a clause
    have hinterrupted : ∀ n, (∀ i ≤ n, pass (script.clauses ip passwd) (outcomes i) = none) →
        ∀ i ≤ n, outcomes i = .text .interruptedSystemCall := by
      intro n hn i
      induction i using Nat.strong_induction_on with
      | _ i ih =>
        intro hi
        have hbefore := h i fun j hj => ih j hj (by omega)
        exact ((pass_eq_none_iff script ip passwd _).mp (hn i hi)).resolve_right hbefore
    refine ⟨fun fuel n hn => ?_, fun k hk hne fuel hf => ?_⟩
    · refine hinterrupted n (fun i hi => ?_) n le_rfl
      have hlt : i + 1 ≤ n + 1 := by omega
      exact goes_on_of_lt_forever (lt_of_le_of_lt hlt hn)
    · have hleave : pass (script.clauses ip passwd) (outcomes k) ≠ none := fun hn =>
        ((pass_eq_none_iff script ip passwd _).mp hn).elim hne (h k hk)
      obtain ⟨a, ha⟩ := Option.ne_none_iff_exists'.mp hleave
      have hgo : ∀ i < k, pass (script.clauses ip passwd) (outcomes i) = none := fun i hi =>
        (pass_eq_none_iff script ip passwd _).mpr (.inl (hk i hi))
      rw [connect, forever_leaves hgo ha hf]
      exact ⟨rfl, rfl⟩

/-- **Spawned for ever.** A host that closes every connection at once is
connected to again and again. -/
theorem closed_connections_respawn : ¬ ∀ (script : Script) (ip passwd : Text)
    (outcomes : ℕ → Event Pattern), RetriesInterrupted (connect script ip passwd outcomes) outcomes := by
  intro h
  have hend := (h .scp [] [] fun _ => .eof).ends 0 (by omega) (by decide) 1 (by decide)
  exact absurd hend.2 (by decide)

end Connect
end Net
end Longan
