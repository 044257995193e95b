/-
  Pulse.Dispatch.Course
  ─────────────────────
  **THE COURSE OF AN ALERT, ROUND BY ROUND.**

  The ledger says what is stored and sent for an alert.  Its course adds what the
  database does not know: how many rounds began, whether one is in progress, its
  requests, which a crash leaves without a commit, and the number of rounds that
  sent something.

    • `Path`             — the two delivery paths and what each makes of a round,
    • `Course.Step`      — a round begins, a request goes out, a round is committed,
    • `Course.Invariant` — what the steps and the crashes of a run keep.
-/
import Pulse.Dispatch.Ledger

namespace Pulse

/-! ## §1. The two paths. -/

/-- The paths that deliver an alert and count an attempt. -/
inductive Path where
  | dispatch
  | retry
  deriving DecidableEq, Repr

/-- The attempts an alert can have made when path `p` takes it up. -/
def Path.takes (M : Nat) : Path → Nat → Prop
  | .dispatch, attempts => attempts = 0
  | .retry, attempts => attempts < M

/-- The status after a round on an alert that had made `attempts`. -/
def Path.outcome (M : Nat) (p : Path) (attempts : Nat) (success : Bool) : DeliveryStatus :=
  if success then .delivered
  else
    match p with
    | .dispatch => .pending
    -- only this path ends in `failed`
    | .retry => if M ≤ attempts + 1 then .failed else .pending

theorem Path.takes_lt {M : Nat} {p : Path} {attempts : Nat} (h : p.takes M attempts) :
    attempts < max M 1 := by
  cases p with
  | dispatch =>
      have hzero : attempts = 0 := h
      omega
  | retry =>
      have hlt : attempts < M := h
      omega

/-- What a record says of a send that ended in `success`. -/
structure Sums (r : AlertDeliveryAttempt) (success : Bool) : Prop where
  status : r.succeeded = success
  responseCode : r.responseCode = responseCodeOf success
  error : r.error = none

/-- The records that a round leaves: one for each request, or one for all. -/
def Path.writes : Path → List Request → List AlertDeliveryAttempt → Prop
  | .dispatch, round, records => List.Forall₂ (fun r q => Sums r q.reply.ok) records round
  | .retry, round, records => ∃ r, records = [r] ∧ Sums r (round.any fun q => q.reply.ok)

/-- A round ends in `delivered` exactly when something got through. -/
theorem Path.outcome_delivered_iff {M : Nat} {p : Path} {attempts : Nat} {sent : Bool} :
    p.outcome M attempts sent = .delivered ↔ sent = true := by
  cases sent with
  | true => simp [outcome]
  | false =>
      cases p with
      | dispatch => simp [outcome]
      | retry =>
          simp only [outcome, Bool.false_eq_true, if_false, iff_false]
          split <;> simp

/-- Only the last attempt ends in `failed`. -/
theorem Path.outcome_failed {M : Nat} {p : Path} {attempts : Nat} {sent : Bool}
    (htakes : p.takes M attempts) (hfailed : p.outcome M attempts sent = .failed) :
    attempts + 1 = max M 1 := by
  cases sent with
  | true => exact absurd hfailed (by simp [outcome])
  | false =>
      cases p with
      | dispatch => exact absurd hfailed (by simp [outcome])
      | retry =>
          have hlt : attempts < M := htakes
          have hlast : M ≤ attempts + 1 := by
            by_contra hmore
            simp [outcome, hmore] at hfailed
          omega

/-- **Either path commits proper rounds.** -/
theorem Path.isRound {M : Nat} {p : Path} {row : Alert} {sent : Bool} {t : Time}
    {records : List AlertDeliveryAttempt} (hp : row.deliveryStatus = .pending)
    (htakes : p.takes M row.deliveryAttempts)
    (hdue : ∀ last, row.lastDeliveryAttempt = some last →
      last + backoffBase row.deliveryAttempts ≤ t)
    (hno : ∀ r ∈ records, r.attemptNo = row.deliveryAttempts + 1)
    (hsucc : records.countP AlertDeliveryAttempt.succeeded = sent.toNat) :
    IsRound (max M 1) sent row (p.outcome M row.deliveryAttempts sent) t records where
  pending := hp
  below := Path.takes_lt htakes
  delivered_iff := Path.outcome_delivered_iff
  failed_last := Path.outcome_failed htakes
  due := hdue
  attempt_no := hno
  successes := by
    rw [hsucc]
    cases sent with
    | true => rfl
    | false =>
        rw [if_neg fun hdelivered => absurd (Path.outcome_delivered_iff.mp hdelivered) (by decide)]
        rfl

/-! ## §2. Courses and their steps. -/

/-- An alert's ledger and its rounds. -/
structure Course where
  ledger : Ledger
  /-- The requests of the round in progress. -/
  round : List Request
  /-- The rounds that have sent a request. -/
  rounds : Nat
  /-- The rounds that have begun. -/
  begun : Nat
  /-- A round is in progress. -/
  opened : Bool

namespace Course

/-- The course of an alert that does not exist. -/
def unborn : Course := ⟨Ledger.empty, [], 0, 0, false⟩

/-- The course of an alert that was just stored. -/
def fresh (row : Alert) : Course := ⟨Ledger.fresh row, [], 0, 0, false⟩

/-- A round begins. -/
def start (c : Course) : Course := { c with begun := c.begun + 1, opened := true }

/-- A request goes out; the first of a round makes it count. -/
def post (c : Course) (q : Request) : Course :=
  { c with
    ledger := c.ledger.post q
    round := c.round ++ [q]
    rounds := if c.round = [] then c.rounds + 1 else c.rounds }

/-- The round is committed. -/
def commit (c : Course) (row : Alert) (records : List AlertDeliveryAttempt) : Course :=
  { c with ledger := c.ledger.commit row records, round := [], opened := false }

/-- The round is lost. -/
def crash (c : Course) : Course := { c with round := [], opened := false }

/-- Some request of the round was answered with success. -/
def sent (c : Course) : Bool := c.round.any fun q => q.reply.ok

end Course

/-- What is supposed of the exchanges of a run. -/
structure Terms where
  /-- Payloads are built without an exception. -/
  intact : Prop
  /-- A retry finds a webhook URL. -/
  linked : Prop
  /-- The outcomes of the requests. -/
  reply : Reply → Prop

/-- Nothing is supposed. -/
def Terms.any : Terms := ⟨False, False, fun _ => True⟩

/-- What can happen to an alert in the hands of one session. -/
inductive Course.Step (M : Nat) (T : Terms) (c : Course) : Course → Prop
  /-- Something else happened. -/
  | stay : Step M T c c
  /-- The rule was found: a round begins. -/
  | start {row : Alert} {p : Path} : c.ledger.row = some row →
      row.deliveryStatus = .pending → p.takes M row.deliveryAttempts → c.opened = false →
      c.round = [] → Step M T c c.start
  /-- A request goes out; none of its round got through before. -/
  | post {row : Alert} {p : Path} (q : Request) : c.ledger.row = some row →
      row.deliveryStatus = .pending → p.takes M row.deliveryAttempts → c.opened = true →
      c.sent = false → T.reply q.reply → Step M T c (c.post q)
  /-- A round is committed. -/
  | commit {row : Alert} {p : Path} {t : Time} {records : List AlertDeliveryAttempt} :
      c.ledger.row = some row → p.takes M row.deliveryAttempts → c.opened = true →
      IsRound (max M 1) c.sent row (p.outcome M row.deliveryAttempts c.sent) t records →
      (T.intact → p.writes c.round records) →
      (T.intact → T.linked → p = .retry → c.round ≠ []) →
      Step M T c (c.commit
        (row.afterRound (p.outcome M row.deliveryAttempts c.sent) t) records)

/-- Nothing removes an alert, and it keeps its rule. -/
theorem Course.Step.row {M : Nat} {T : Terms} {c c' : Course} (h : Course.Step M T c c')
    {row : Alert} (hrow : c.ledger.row = some row) :
    ∃ row', c'.ledger.row = some row' ∧ row'.ruleId = row.ruleId := by
  cases h with
  | stay => exact ⟨row, hrow, rfl⟩
  | start _ _ _ _ _ => exact ⟨row, hrow, rfl⟩
  | post q _ _ _ _ _ _ => exact ⟨row, hrow, rfl⟩
  | commit hr _ _ _ _ _ =>
      rw [hr, Option.some.injEq] at hrow
      subst hrow
      exact ⟨_, rfl, rfl⟩

/-- **Settled is final**: nothing is sent or stored for an alert that is not pending. -/
theorem Course.Step.final {M : Nat} {T : Terms} {c c' : Course} (h : Course.Step M T c c')
    {row : Alert} (hrow : c.ledger.row = some row) (hs : row.deliveryStatus ≠ .pending) :
    c'.ledger = c.ledger := by
  cases h with
  | stay => rfl
  | start _ _ _ _ _ => rfl
  | post q hr hp _ _ _ _ =>
      rw [hrow, Option.some.injEq] at hr
      exact absurd (hr ▸ hp) hs
  | commit hr _ _ hround _ _ =>
      rw [hrow, Option.some.injEq] at hr
      exact absurd (hr ▸ hround.pending) hs

/-! ## §3. Invariants. -/

/-- `I` holds of an alert that is not there yet and of one just stored, and it is
kept by every step and by the crashes in which `C` holds of the course before. -/
structure Course.Invariant (M : Nat) (T : Terms) (C I : Course → Prop) : Prop where
  unborn : I Course.unborn
  fresh : ∀ row : Alert, row.deliveryStatus = .pending → row.deliveryAttempts = 0 →
    I (Course.fresh row)
  step : ∀ c c', I c → Course.Step M T c c' → I c'
  crash : ∀ c, I c → C c → I c.crash

end Pulse
