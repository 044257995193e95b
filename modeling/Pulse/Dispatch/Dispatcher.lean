/-
  Pulse.Dispatch.Dispatcher
  ─────────────────────────
  `worker/dispatch/{discord,webhook,dispatcher}.py`: the two senders, which
  turn a failed request into `False`, and the first delivery of an alert.

  The two senders differ in the URL they read and in the payload they build;
  the two halves of `dispatch` differ in the sender.  Each is one definition
  over the channel, and the source's functions are its instances.
-/
import Pulse.Worker.Op

namespace Pulse

open Pulse.Async

/-! ## §1. Senders. -/

/-- `response.raise_for_status()`. -/
def raiseForStatus (statusCode : Nat) : Prog Unit :=
  if isSuccess statusCode then pure ()
  else throw ⟨.httpError, "HTTPStatusError"⟩

/-- The body of both senders: no URL, no request; the payload is built outside
the `try`; a failed request is `False`. -/
def sendWebhook (ch : Channel) (alert : Alert) (rule : Rule) : Prog Bool :=
  if isSet (rule.url ch) then do
    payload ch alert rule
    try
      let statusCode ← post ch alert rule
      raiseForStatus statusCode
      pure true
    catch _ => pure false
  else pure false

/-- `send_discord_webhook`. -/
def sendDiscordWebhook (alert : Alert) (rule : Rule) : Prog Bool :=
  sendWebhook .discord alert rule

/-- `send_generic_webhook`. -/
def sendGenericWebhook (alert : Alert) (rule : Rule) : Prog Bool :=
  sendWebhook .generic alert rule

/-! ## §2. Delivery-attempt records. -/

/-- `int((end - start).total_seconds() * 1000)`. -/
def latency (startTime endTime : Time) : Int := millis (endTime - startTime)

/-- `_create_delivery_attempt`. -/
def createDeliveryAttempt (alert : Alert) (attemptNo : Nat) (startTime : Time) :
    AlertDeliveryAttempt where
  alertId := alert.id
  attemptNo := attemptNo
  status := .failed
  responseCode := none
  latencyMs := none
  error := none
  createdAt := startTime

/-- `_update_delivery_attempt`. -/
def updateDeliveryAttempt (attempt : AlertDeliveryAttempt) (success : Bool)
    (responseCode : Option Nat) (latencyMs : Int) (error : Option String) :
    AlertDeliveryAttempt :=
  { attempt with
    status := if success then .success else .failed
    responseCode := responseCode
    latencyMs := some latencyMs
    error := error }

/-- `200 if success else None`. -/
def responseCodeOf (success : Bool) : Option Nat := if success then some 200 else none

/-! ## §3. The first delivery. -/

/-- One half of `dispatch`: record and try one channel.  Answers whether the
alert was delivered and committed, and the records still to be committed. -/
def dispatchChannel (ch : Channel) (send : Alert → Rule → Prog Bool)
    (alert : AlertObj) (rule : Rule) (attemptNo : Nat) (startTime : Time)
    (records : List AlertDeliveryAttempt) :
    Prog (Bool × List AlertDeliveryAttempt) :=
  if isSet (rule.url ch) then do
    let attempt := createDeliveryAttempt alert.row attemptNo startTime
    try
      let success ← send alert.row rule
      let endTime ← utcnow
      let attempt := updateDeliveryAttempt attempt success (responseCodeOf success)
        (latency startTime endTime) none
      if success then do
        let alert := (alert.setDeliveryStatus .delivered).setDeliveryAttempts attemptNo
        commitDelivery alert (records ++ [attempt])
        pure (true, [])
      else pure (false, records ++ [attempt])
    catch e =>
      let endTime ← utcnow
      let attempt := updateDeliveryAttempt attempt false none
        (latency startTime endTime) (some e.msg)
      pure (false, records ++ [attempt])
  else pure (false, records)

/-- `AlertDispatcher.dispatch`: Discord first, then the generic webhook; when
neither took the alert it stays pending, with the attempt counted. -/
def dispatch (alert : AlertObj) : Prog Unit := do
  match ← selectRule alert.row with
  | none => pure ()
  | some rule =>
      let attemptNo := alert.row.deliveryAttempts + 1
      let startTime ← utcnow
      let alert := alert.setLastDeliveryAttempt startTime
      let (delivered, records) ←
        dispatchChannel .discord sendDiscordWebhook alert rule attemptNo startTime []
      if delivered then pure ()
      else
        let (delivered, records) ←
          dispatchChannel .generic sendGenericWebhook alert rule attemptNo startTime records
        if delivered then pure ()
        else
          commitDelivery
            ((alert.setDeliveryStatus .pending).setDeliveryAttempts attemptNo) records

/-- What the main loop does once the new alert `id` is committed: `refresh` ends
`_create_alert`, its failure makes `evaluate` return `None`, and an alert that
was returned is dispatched.  A refresh reads the row by its identity. -/
def deliver (id : AlertId) : Prog Unit := do
  let alert ←
    try
      let row ← refreshAlert id
      pure (some (AlertObj.ofRow { row with id := id }))
    catch _ => pure none
  match alert with
  | none => pure ()
  | some alert => dispatch alert

end Pulse
