/-
  Pulse.Dispatch.Round
  ────────────────────
  **WHAT A ROUND STORES.**

  The attributes and records that the two delivery paths hand to their commit,
  without the sessions around them.

    • `RoundRecords`    — the records of one round,
    • `retryOutcome_eq` — the attributes after a retry,
    • `isRound_retry`   — what a finished retry stores is a proper round.
-/
import Pulse.Dispatch.Course
import Pulse.Dispatch.Footprint

namespace Pulse

open Pulse.Async Pulse.Store

/-! ## §1. A database that does not fail. -/

/-- No fault is injected. -/
def Input.Healthy (inp : Input) : Prop := inp.fault = none

/-- The database does not fail, whatever is asked of it. -/
def Healthy {ι : Type} (_ : Op) (inp : Input) (_ : World ι) : Prop := inp.Healthy

/-! ## §2. The records of a round. -/

/-- The records of round `n` on alert `a`, `k` of them successes. -/
def RoundRecords (a : AlertId) (n k : Nat) (records : List AlertDeliveryAttempt) : Prop :=
  (∀ r ∈ records, r.alertId = a ∧ r.attemptNo = n) ∧
    records.countP AlertDeliveryAttempt.succeeded = k

theorem RoundRecords.nil (a : AlertId) (n : Nat) : RoundRecords a n 0 [] :=
  ⟨fun r h => absurd h (by simp), rfl⟩

theorem RoundRecords.concat {a : AlertId} {n k : Nat} {b : Bool}
    {records : List AlertDeliveryAttempt} {r : AlertDeliveryAttempt}
    (h : RoundRecords a n k records) (ha : r.alertId = a) (hn : r.attemptNo = n)
    (hb : r.succeeded = b) : RoundRecords a n (k + b.toNat) (records ++ [r]) := by
  refine ⟨?_, ?_⟩
  · intro r' hmem
    rcases List.mem_append.mp hmem with hmem | hmem
    · exact h.1 r' hmem
    · rw [List.mem_singleton.mp hmem]
      exact ⟨ha, hn⟩
  · rw [List.countP_append, h.2, List.countP_singleton, hb]
    cases b <;> rfl

/-- The record of a finished attempt. -/
@[simp] theorem succeeded_update (attempt : AlertDeliveryAttempt) (b : Bool) (c : Option Nat)
    (l : Int) (e : Option String) :
    (updateDeliveryAttempt attempt b c l e).succeeded = b := by
  cases b <;> rfl

/-- The record of the one attempt of a retry. -/
theorem roundRecords_single {a : AlertId} {n : Nat} {attempt : AlertDeliveryAttempt}
    {success : Bool} {code : Option Nat} {ms : Int} {error : Option String}
    (ha : attempt.alertId = a) (hn : attempt.attemptNo = n) :
    RoundRecords a n success.toNat [updateDeliveryAttempt attempt success code ms error] := by
  have hone := (RoundRecords.nil a n).concat (b := success)
    (r := updateDeliveryAttempt attempt success code ms error) ha hn (succeeded_update ..)
  rw [Nat.zero_add] at hone
  exact hone

/-! ## §3. The attributes after a round. -/

section Attributes

variable {M : Nat} {row : Alert}

/-- The attributes of a finished round, flushed into the row that was loaded. -/
theorem flushInto_afterRound (row : Alert) (s : DeliveryStatus) (t : Time) :
    (AlertObj.mk row (row.afterRound s t)).flushInto row = row.afterRound s t :=
  AlertObj.flushInto_loaded row s _ (some t)

/-- An alert that was never tried is due at any time. -/
theorem due_of_untried (hlast : row.lastDeliveryAttempt = none) (t : Time) :
    ∀ last, row.lastDeliveryAttempt = some last →
      last + backoffBase row.deliveryAttempts ≤ t := by
  intro last hl
  rw [hlast] at hl
  exact absurd hl (by simp)

/-- The attributes of a retried alert when the round is over. -/
theorem retryOutcome_eq (hp : row.deliveryStatus = .pending) (now : Time) (success : Bool) :
    retryOutcome M (((AlertObj.ofRow row).setDeliveryAttempts
        ((AlertObj.ofRow row).row.deliveryAttempts + 1)).setLastDeliveryAttempt now) success
      = ⟨row, row.afterRound (if success = true then .delivered
          else if M ≤ row.deliveryAttempts + 1 then .failed else .pending) now⟩ := by
  unfold retryOutcome
  split
  next => rfl
  next =>
    by_cases hM : M ≤ row.deliveryAttempts + 1
    · rw [if_pos hM]
      exact if_pos hM
    · rw [if_neg hM, ← hp]
      exact if_neg hM

/-- **What a finished retry stores is a proper round.** -/
theorem isRound_retry {now : Time} {success : Bool} {record : AlertDeliveryAttempt}
    (hp : row.deliveryStatus = .pending) (hM : row.deliveryAttempts < M)
    (hdue : ∀ last, row.lastDeliveryAttempt = some last →
      last + backoffBase row.deliveryAttempts ≤ now)
    (hrecord : RoundRecords row.id (row.deliveryAttempts + 1) success.toNat [record]) :
    IsRound M success row (if success = true then .delivered
      else if M ≤ row.deliveryAttempts + 1 then .failed else .pending) now [record] := by
  have hround : IsRound (max M 1) success row
      (Path.retry.outcome M row.deliveryAttempts success) now [record] :=
    Path.isRound hp hM hdue (fun r hr => (hrecord.1 r hr).2) hrecord.2
  rw [show max M 1 = M by omega] at hround
  exact hround

end Attributes

end Pulse
