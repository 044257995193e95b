/-
  Pulse.Dispatch.Retry
  ────────────────────
  `worker/dispatch/retry.py`: one pass over the pending alerts.  The pass loads
  up to 50 rows once, in a session of its own, and works on what it loaded.
-/
import Pulse.Dispatch.Dispatcher

namespace Pulse

open Pulse.Async

/-- `min(2 ** (attempts - 1), 32)` seconds; `2 ** -1` is half a second. -/
def backoffBase : Nat → Nat
  | 0 => 500000
  | attempts + 1 => min (2 ^ attempts) 32 * 1000000

/-- `calculate_backoff`: the base and up to half of it in jitter. -/
def calculateBackoff (attempts : Nat) : Prog Nat := do
  let jitter ← uniform (backoffBase attempts / 2)
  pure (backoffBase attempts + jitter)

/-- The `try` of a delivery round: success, response code, error text. -/
def retrySend (alert : Alert) (rule : Rule) :
    Prog (Bool × Option Nat × Option String) := do
  try
    let success ←
      (if isSet (rule.url .discord) then sendDiscordWebhook alert rule else pure false)
    let success ←
      (if !success && isSet (rule.url .generic) then sendGenericWebhook alert rule
      else pure success)
    pure (success, responseCodeOf success, none)
  catch e => pure (false, none, some e.msg)

/-- The status after a round: delivered, or failed at the limit, else as it was. -/
def retryOutcome (retryBackoffMax : Nat) (alert : AlertObj) (success : Bool) : AlertObj :=
  if success then alert.setDeliveryStatus .delivered
  else if retryBackoffMax ≤ alert.row.deliveryAttempts then alert.setDeliveryStatus .failed
  else alert

theorem retryOutcome_id (retryBackoffMax : Nat) (alert : AlertObj) (success : Bool) :
    (retryOutcome retryBackoffMax alert success).row.id = alert.row.id := by
  unfold retryOutcome
  split
  next => rfl
  next => split <;> rfl

/-- The delivery round of `process_pending_alerts` on one alert, once its rule
was found. -/
def retryRound (retryBackoffMax : Nat) (alert : AlertObj) (rule : Rule) (now : Time) :
    Prog Unit := do
  let alert := alert.setDeliveryAttempts (alert.row.deliveryAttempts + 1)
  let alert := alert.setLastDeliveryAttempt now
  let attemptNo := alert.row.deliveryAttempts
  let startTime ← utcnow
  let attempt := createDeliveryAttempt alert.row attemptNo startTime
  let (success, responseCode, error) ← retrySend alert.row rule
  let endTime ← utcnow
  let attempt := updateDeliveryAttempt attempt success responseCode
    (latency startTime endTime) error
  commitDelivery (retryOutcome retryBackoffMax alert success) [attempt]

/-- After the backoff check: look the rule up and make the round. -/
def retryDue (retryBackoffMax : Nat) (alert : AlertObj) (now : Time) : Prog Unit := do
  match ← selectRule alert.row with
  | none => commitDelivery (alert.setDeliveryStatus .failed) []
  | some rule => retryRound retryBackoffMax alert rule now

/-- One iteration of the loop in `process_pending_alerts`. -/
def retryAlert (retryBackoffMax : Nat) (row : Alert) : Prog Unit := do
  let alert := AlertObj.ofRow row
  let now ← utcnow
  match alert.row.lastDeliveryAttempt with
  | some last =>
      let backoff ← calculateBackoff alert.row.deliveryAttempts
      if now < last + backoff then pure ()
      else retryDue retryBackoffMax alert now
  | none => retryDue retryBackoffMax alert now

/-- `process_pending_alerts`. -/
def processPendingAlerts (retryBackoffMax : Nat) : Prog Unit := do
  openSession
  let alerts ← selectPending retryBackoffMax
  Coro.forEach alerts (retryAlert retryBackoffMax)

end Pulse
