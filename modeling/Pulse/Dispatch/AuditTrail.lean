/-
  Pulse.Dispatch.AuditTrail
  ─────────────────────────
  **THE AUDIT TRAIL, AND WHEN IT IS FAITHFUL.**

  A sender answers a boolean, so the paths know neither the status nor the
  exception of an exchange: they write 200 or nothing.  A retry writes one record
  whatever it sent.

    • `audit_trail_faithful`       — the records mirror the requests when every
                                     request is answered with a 200 and a retry
                                     has somewhere to send,
    • `audit_trail_faithful_fails` — a 500 leaves a record without a status.
-/
import Mathlib.Data.List.Forall2
import Pulse.Dispatch.Life

namespace Pulse

open Pulse.Async Pulse.Store

/-! ## §1. Records that mirror requests. -/

/-- The status that the client received. -/
def Reply.statusCode : Reply → Option Nat
  | .response c => some c
  | .error _ | .late _ => none

/-- The client received a status that is not a client or server error. -/
def Reply.nonError : Reply → Bool
  | .response c => !(400 ≤ c ∧ c ≤ 599)
  | .error _ | .late _ => false

/-- What record `r` of request `q` should say. -/
structure Faithful (r : AlertDeliveryAttempt) (q : Request) : Prop where
  status : r.status = .success ↔ q.reply.nonError = true
  responseCode : r.responseCode = q.reply.statusCode
  error : q.reply.statusCode = none → r.error ≠ none

instance (r : AlertDeliveryAttempt) (q : Request) : Decidable (Faithful r q) :=
  decidable_of_iff ((r.status = .success ↔ q.reply.nonError = true) ∧
      r.responseCode = q.reply.statusCode ∧ (q.reply.statusCode = none → r.error ≠ none))
    ⟨fun h => ⟨h.1, h.2.1, h.2.2⟩, fun h => ⟨h.1, h.2, h.3⟩⟩

/-- The record of a success mirrors a request answered with a 200. -/
theorem Sums.faithful {r : AlertDeliveryAttempt} {q : Request} (h : Sums r true)
    (hq : q.reply = .response 200) : Faithful r q where
  status := by
    have hs : r.status = .success := by simpa [AlertDeliveryAttempt.succeeded] using h.status
    rw [hq]
    exact ⟨fun _ => by decide, fun _ => hs⟩
  responseCode := by
    rw [h.responseCode, hq]
    rfl
  error := by
    intro hnone
    rw [hq] at hnone
    exact absurd hnone (by simp [Reply.statusCode])

/-- Payloads are built, retries have a URL, and receivers answer with a 200. -/
def Terms.plain : Terms := ⟨True, True, fun reply => reply = .response 200⟩

/-- Records and requests agree up to the round in progress, which has sent one
request at most. -/
structure Course.Mirrored (c : Course) : Prop where
  kept : ∃ kept, c.ledger.requests = kept ++ c.round ∧
    List.Forall₂ Faithful c.ledger.records kept
  plain : ∀ q ∈ c.round, q.reply = .response 200
  single : c.round.length ≤ 1

/-- A round with a 200 in it is over. -/
theorem Course.Mirrored.round_nil {c : Course} (h : c.Mirrored) (hs : c.sent = false) :
    c.round = [] := by
  cases hround : c.round with
  | nil => rfl
  | cons q qs =>
      rw [Course.sent, hround, List.any_cons, h.plain q (by rw [hround]; simp)] at hs
      exact absurd hs (by simp [Reply.ok, isSuccess])

/-- What a round leaves mirrors what it sent. -/
theorem Course.Mirrored.writes {c : Course} (h : c.Mirrored) {p : Path}
    {records : List AlertDeliveryAttempt} (hrec : p.writes c.round records)
    (hurl : p = .retry → c.round ≠ []) : List.Forall₂ Faithful records c.round := by
  cases p with
  | dispatch =>
      have hboth := (List.forall₂_and_left _ _).mpr ⟨h.plain, List.Forall₂.flip hrec⟩
      refine List.Forall₂.flip (List.Forall₂.imp ?_ hboth)
      rintro q r ⟨hq, hsums⟩
      have hsums : Sums r q.reply.ok := hsums
      rw [hq] at hsums
      exact hsums.faithful hq
  | retry =>
      obtain ⟨r, rfl, hsums⟩ := hrec
      -- one record, and one request it can stand for
      match hround : c.round with
      | [] => exact absurd hround (hurl rfl)
      | [q] =>
          have hq := h.plain q (by rw [hround]; simp)
          rw [hround, List.any_cons, List.any_nil, hq] at hsums
          exact .cons (hsums.faithful hq) .nil
      | _ :: _ :: _ =>
          have hsingle := h.single
          rw [hround] at hsingle
          exact absurd hsingle (by simp)

/-- **Plain exchanges are mirrored round by round.** -/
theorem Course.mirrored_invariant (M : Nat) :
    Course.Invariant M .plain (fun _ => False) Course.Mirrored where
  unborn := ⟨⟨[], rfl, .nil⟩, fun _ h => absurd h (by simp [Course.unborn]), by
    simp [Course.unborn]⟩
  fresh := fun _ _ _ => ⟨⟨[], rfl, .nil⟩, fun _ h => absurd h (by simp [Course.fresh]), by
    simp [Course.fresh]⟩
  step := by
    intro c c' hI hstep
    obtain ⟨kept, hreq, hmirror⟩ := hI.kept
    cases hstep with
    | stay => exact hI
    | start _ _ _ _ _ => exact ⟨⟨kept, hreq, hmirror⟩, hI.plain, hI.single⟩
    | post q _ _ _ _ hs hreply =>
        -- plain replies are all 200, and so nothing was sent before in this round
        have hnil := hI.round_nil hs
        refine ⟨⟨kept, ?_, hmirror⟩, ?_, ?_⟩
        · show c.ledger.requests ++ [q] = kept ++ (c.round ++ [q])
          rw [hreq, List.append_assoc]
        · intro q' hq'
          have hq' : q' ∈ c.round ++ [q] := hq'
          rw [hnil, List.nil_append, List.mem_singleton] at hq'
          rw [hq']
          exact hreply
        · show (c.round ++ [q]).length ≤ 1
          rw [hnil]
          simp
    | commit _ _ _ _ hrec hurl =>
        refine ⟨⟨c.ledger.requests, (List.append_nil _).symm, ?_⟩, ?_, Nat.zero_le 1⟩
        · show List.Forall₂ Faithful (c.ledger.records ++ _) c.ledger.requests
          rw [hreq]
          exact List.rel_append hmirror
            (hI.writes (hrec trivial) (hurl trivial trivial))
        · exact fun q hq => absurd hq (by simp [Course.commit])
  crash := fun _ _ hfalse => hfalse.elim

/-! ## §2. Runs. -/

namespace Life

open Delivery (WorkerTask firstDelivery)

variable {ι : Type}

/-- The answer to an operation on alert `a` is plain: a payload that can be built, a
200, a rule with a webhook URL for a retry. -/
def PlainAnswer (a : AlertId) (retrying : Bool) (w : World ι) (inp : Input) : Op → Prop
  | .payload _ alert _ => alert.id = a → inp.broken = none
  | .post _ alert _ => alert.id = a → inp.reply = .response 200
  | .selectRule alert => retrying = true → ∀ row ∈ w.alerts.get a, row.ruleId = alert.ruleId →
      ∀ rule ∈ w.rules.get alert.ruleId, rule.hasUrl = true
  | _ => True

/-- Nobody dies, no overlap on alert `a`, and plain answers to whoever has it in hand. -/
def Plain (a : AlertId) (c : Life ι) : Event ι → Prop
  | .act (.answer i inp) => Exclusive a c (.act (.answer i inp)) ∧ (c.InHand i a →
      ∀ o ∈ awaited (c.task i), PlainAnswer a (c.retrying i) c.world inp o)
  | .crash _ => False
  | .act _ => True

theorem Plain.within {a : AlertId} {c : Life ι} {e : Event ι} (h : Plain a c e) :
    Exclusive a c e ∧ Within .plain a c e ∧ Spares (fun _ => False) a c e := by
  cases e with
  | crash i => exact h.elim
  | act act =>
      cases act with
      | answer i inp =>
          refine ⟨h.1, fun hhand o ho => ?_, trivial⟩
          have hplain := h.2 hhand o ho
          cases o with
          | payload ch alert rule => exact fun _ => hplain
          | post ch alert rule => exact hplain
          | selectRule alert =>
              intro _ hr row hrow hid rule hrule
              exact hplain hr row hrow hid rule hrule
          | _ => trivial
      | _ => exact ⟨trivial, trivial, trivial⟩

/-- **A faithful audit trail.**  Where nobody works on the alert, its records mirror
the requests sent for it, one to one and in order. -/
theorem audit_trail_faithful [DecidableEq ι] {M : Nat} {a : AlertId} {c₀ c : Life ι}
    (h₀ : Start a c₀) (hrun : Reaches (step M) (Plain a) c₀ c) (hidle : Idle a c) :
    List.Forall₂ Faithful (c.world.ledger a).records (c.world.ledger a).requests := by
  have hinv := Course.mirrored_invariant M
  have htended : Tended M .plain Course.Mirrored a c :=
    Tended.run hinv (fun _ _ hplain => hplain.within) hrun (.init hinv h₀)
  obtain ⟨kept, hreq, hmirror⟩ := (htended.at_rest hidle).kept
  rw [show (c.world.ledger a).requests = kept from hreq.trans (List.append_nil kept)]
  exact hmirror

instance (a : AlertId) (retrying : Bool) (w : World ι) (inp : Input) :
    (o : Op) → Decidable (PlainAnswer a retrying w inp o)
  | .payload _ alert _ => inferInstanceAs (Decidable (alert.id = a → inp.broken = none))
  | .post _ alert _ => inferInstanceAs (Decidable (alert.id = a → inp.reply = .response 200))
  | .selectRule alert => inferInstanceAs (Decidable (retrying = true →
      ∀ row ∈ w.alerts.get a, row.ruleId = alert.ruleId →
        ∀ rule ∈ w.rules.get alert.ruleId, rule.hasUrl = true))
  | .openSession | .rollback | .utcnow | .uniform _ | .call _ | .selectPending _
  | .commitDelivery _ _ | .selectLastAlert _ _ | .selectCandles _ | .savepoint
  | .insertAlert _ | .commitAlert | .refreshAlert _ | .insertCandle _ | .selectCursor _
  | .commitCursor _ _ _ => inferInstanceAs (Decidable True)

instance (a : AlertId) (c : Life WorkerTask) :
    (e : Event WorkerTask) → Decidable (Plain a c e)
  | .act (.answer i inp) => inferInstanceAs (Decidable (Exclusive a c (.act (.answer i inp)) ∧
      (c.InHand i a → ∀ o ∈ awaited (c.task i), PlainAnswer a (c.retrying i) c.world inp o)))
  | .crash _ => inferInstanceAs (Decidable False)
  | .act (.create _ _) | .act (.orphan _) | .act (.retry _) | .act (.edit _) =>
      inferInstanceAs (Decidable True)

theorem audit_trail_faithful_ok : ∃ c : Life WorkerTask,
    (c.world.ledger 7).requests = [⟨7, .discord, .response 200⟩] ∧
      List.Forall₂ Faithful (c.world.ledger 7).records (c.world.ledger 7).requests := by
  have hrun : (runs (fun c e => if Plain 7 c e then step 5 c e else none)
      ((firstDelivery (.response 200)).map .act) (initial sampleRules)).any (fun c =>
        decide (Idle 7 c) && decide ((c.world.ledger 7).requests
          = [⟨7, .discord, .response 200⟩])) = true := by decide
  obtain ⟨c, hc, htest⟩ := Reaches.exists_of_runs hrun
  rw [Bool.and_eq_true, decide_eq_true_eq, decide_eq_true_eq] at htest
  obtain ⟨hidle, hreq⟩ := htest
  exact ⟨c, hreq, audit_trail_faithful (start_initial sampleRules 7) hc hidle⟩

/-- Nobody dies. -/
def NoCrash : Event ι → Prop
  | .crash _ => False
  | _ => True

instance : (e : Event ι) → Decidable (NoCrash e)
  | .crash _ => inferInstanceAs (Decidable False)
  | .act _ => inferInstanceAs (Decidable True)

/-- **A 500 is recorded as no status at all.** -/
theorem audit_trail_faithful_fails : ¬ ∀ c : Life WorkerTask,
    Reaches (step 5) (fun c e => Exclusive 7 c e ∧ NoCrash e) (initial sampleRules) c →
      Idle 7 c →
        List.Forall₂ Faithful (c.world.ledger 7).records (c.world.ledger 7).requests := by
  intro h
  have hrun : (runs (fun c e => if Exclusive 7 c e ∧ NoCrash e then step 5 c e else none)
      ((firstDelivery (.response 500)).map .act) (initial sampleRules)).any (fun c =>
        decide (Idle 7 c) && decide (¬ List.Forall₂ Faithful (c.world.ledger 7).records
          (c.world.ledger 7).requests)) = true := by decide
  obtain ⟨c, hc, htest⟩ := Reaches.exists_of_runs hrun
  rw [Bool.and_eq_true, decide_eq_true_eq, decide_eq_true_eq] at htest
  exact htest.2 (h c hc htest.1)

end Life

end Pulse
