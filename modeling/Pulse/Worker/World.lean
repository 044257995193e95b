/-
  Pulse.Worker.World
  ──────────────────
  **WHAT THE OPERATIONS DO.**

  The world holds the committed tables, the uncommitted alert rows of each
  session, and which sessions are in a failed transaction.  Next to it stand
  records that only statements about runs read: the webhook requests, the
  committed versions of alerts, the calls made and the faults injected.

  An `Input` settles every choice of one operation: how much time passes, what
  the receiver answers, which of several tied rows a query returns, whether
  the statement fails.
-/
import Pulse.Worker.Op

namespace Pulse

open Pulse.Async Pulse.Store

/-! ## §1. The state. -/

/-- The statements that can fail. -/
inductive Site where
  | ruleQuery
  | pendingQuery
  | deliveryCommit
  | cooldownQuery
  | historyQuery
  | savepoint
  | alertInsert
  | alertCommit
  | alertRefresh
  | candleCommit
  | cursorQuery
  | cursorCommit
  deriving DecidableEq, Repr

/-- A webhook request that was sent, and its outcome. -/
structure Request where
  alertId : AlertId
  channel : Channel
  reply : Reply
  deriving DecidableEq, Repr

/-- The columns of `uq_candle_symbol_time_interval`. -/
def Candle.key (c : Candle) : String × Time × Nat :=
  (c.symbol, c.timestamp, c.intervalSeconds)

/-- The database, its sessions `ι`, the clock, and the records about a run. -/
structure World (ι : Type) where
  rules : Table Rule.id
  alerts : Table Alert.id
  attempts : List AlertDeliveryAttempt
  candles : Table Candle.key
  cursors : String → Option Time
  /-- Alert rows inserted by a session and not committed yet. -/
  inflight : List (ι × Alert)
  /-- In a failed transaction, until `rollback`. -/
  failed : ι → Bool
  clock : Time
  /-- Every webhook request sent, in order. -/
  requests : List Request
  /-- Every version of an alert row that a delivery commit stored, in order. -/
  commits : List Alert
  calls : List (ι × Call)
  /-- The statements that were made to fail. -/
  faults : List (ι × Site)

/-- A database with the given rules and nothing else, at the epoch. -/
def World.initial {ι : Type} (rules : Table Rule.id) : World ι where
  rules := rules
  alerts := .empty
  attempts := []
  candles := .empty
  cursors := fun _ => none
  inflight := []
  failed := fun _ => false
  clock := 0
  requests := []
  commits := []
  calls := []
  faults := []

/-- A rule with a Discord URL. -/
def sampleRule : Rule where
  id := 1
  symbol := "BTC"
  ruleType := .priceThreshold
  config := []
  cooldownSeconds := some 0
  discordWebhookUrl := some "https://discord"
  genericWebhookUrl := none
  isActive := true

/-- The rule table with that rule alone. -/
def sampleRules : Table Rule.id := Table.empty.insertNew sampleRule

/-- A bar of the sample rule's symbol. -/
def sampleCandle : Candle where
  symbol := "BTC"
  timestamp := 0
  openPrice := .fin 1
  high := .fin 1
  low := .fin 1
  close := .fin 1
  volume := none
  intervalSeconds := 900

/-- The choices of one operation. -/
structure Input where
  /-- Microseconds that pass before the answer. -/
  elapsed : Nat := 0
  jitter : Nat := 0
  reply : Reply := .response 200
  /-- The answer of a query whose order leaves ties. -/
  rows : List Alert := []
  uuid : AlertId := 0
  /-- The statement fails with this. -/
  fault : Option PyErr := none
  /-- Building the payload fails with this. -/
  broken : Option PyErr := none

namespace World

variable {ι : Type} [DecidableEq ι]

/-- Time passes. -/
def tick (w : World ι) (n : Nat) : World ι := { w with clock := w.clock + n }

/-- Session `i` enters a failed transaction. -/
def fail (w : World ι) (i : ι) : World ι :=
  { w with failed := Function.update w.failed i true }

/-- Session `i` drops its transaction: `rollback`, `close`, or the end of its
process. -/
def abort (w : World ι) (i : ι) : World ι :=
  { w with
    failed := Function.update w.failed i false
    inflight := w.inflight.filter (fun e => e.1 ≠ i) }

/-- One statement of session `i`: refused in a failed transaction, or failing
as the input says, or carried out. -/
def statement {α : Type} (w : World ι) (i : ι) (site : Site) (inp : Input)
    (body : Option (Except PyErr α × World ι)) : Option (Except PyErr α × World ι) :=
  if w.failed i then
    some (.error ⟨.pendingRollbackError, "transaction has been rolled back"⟩, w)
  else
    match inp.fault with
    | some e => some (.error e, { w.fail i with faults := w.faults ++ [(i, site)] })
    | none => body

/-- `select(Alert).where(pending, delivery_attempts < max)`. -/
def pendingAlerts (w : World ι) (retryBackoffMax : Nat) : List Alert :=
  w.alerts.rows.filter fun a =>
    a.deliveryStatus = .pending ∧ a.deliveryAttempts < retryBackoffMax

/-- `select(Alert).where(rule_id, symbol)`. -/
def alertsOf (w : World ι) (ruleId : RuleId) (symbol : String) : List Alert :=
  w.alerts.rows.filter fun a => a.ruleId = ruleId ∧ a.symbol = symbol

/-- The `INSERT` of an alert inside a savepoint.  A committed or own row of the
same window, or a missing rule, is an integrity error; another session's
uncommitted row makes the statement wait.  Identifiers do not collide. -/
def insertRow (w : World ι) (i : ι) (row : Alert) :
    Option (Except PyErr AlertId × World ι) :=
  if (w.rules.get row.ruleId).isNone then
    some (.error ⟨.integrityError, "alerts_rule_id_fkey"⟩, w)
  else if w.alerts.rows.any (fun a => a.windowKey = row.windowKey)
      || w.inflight.any (fun e => e.1 = i ∧ e.2.windowKey = row.windowKey) then
    some (.error ⟨.integrityError, "uq_alert_window"⟩, w)
  else if w.inflight.any (fun e => e.2.windowKey = row.windowKey)
      || w.alerts.rows.any (fun a => a.id = row.id)
      || w.inflight.any (fun e => e.2.id = row.id) then none
  else some (.ok row.id, { w with inflight := w.inflight ++ [(i, row)] })

/-- Make the uncommitted alerts of session `i` permanent. -/
def commitRows (w : World ι) (i : ι) : World ι :=
  { w with
    alerts := ((w.inflight.filter (fun e => e.1 = i)).map Prod.snd).foldl
      Table.insertNew w.alerts
    inflight := w.inflight.filter (fun e => e.1 ≠ i) }

/-- The flush of a delivery commit; an `UPDATE` that matches no row is an error. -/
def storeDelivery (w : World ι) (i : ι) (alert : AlertObj)
    (attempts : List AlertDeliveryAttempt) : Except PyErr Unit × World ι :=
  match w.alerts.get alert.row.id with
  | none => (.error ⟨.staleDataError, "0 rows were matched"⟩, w.fail i)
  | some stored =>
      (.ok (), { w with
        alerts := w.alerts.modify alert.row.id alert.flushInto alert.flushInto_id
        attempts := w.attempts ++ attempts
        commits := w.commits ++ [alert.flushInto stored] })

/-! ## §2. The handler. -/

/-- Answer operation `o` of session `i`. -/
def perform (i : ι) : (o : Op) → Input → World ι → Option (Resp o × World ι)
  | .openSession, inp, w => some ((), (w.tick inp.elapsed).abort i)
  | .rollback, inp, w => some ((), (w.tick inp.elapsed).abort i)
  | .utcnow, inp, w => some ((w.tick inp.elapsed).clock, w.tick inp.elapsed)
  | .uniform hi, inp, w =>
      if inp.jitter ≤ hi then some (inp.jitter, w.tick inp.elapsed) else none
  | .call c, inp, w =>
      some ((), { w.tick inp.elapsed with calls := w.calls ++ [(i, c)] })
  | .payload _ _ _, inp, w =>
      some (match inp.broken with
        | some e => .error e
        | none => .ok (), w.tick inp.elapsed)
  | .post ch alert _, inp, w =>
      some (inp.reply, { w.tick inp.elapsed with
        requests := w.requests ++ [⟨alert.id, ch, inp.reply⟩] })
  | .selectRule alert, inp, w =>
      let w := w.tick inp.elapsed
      w.statement i .ruleQuery inp (some (.ok (w.rules.get alert.ruleId), w))
  | .selectPending n, inp, w =>
      let w := w.tick inp.elapsed
      w.statement i .pendingQuery inp
        (if IsPage Alert.createdAt 50 (w.pendingAlerts n) inp.rows then
          some (.ok inp.rows, w)
        else none)
  | .commitDelivery alert attempts, inp, w =>
      let w := w.tick inp.elapsed
      w.statement i .deliveryCommit inp (some (w.storeDelivery i alert attempts))
  | .selectLastAlert ruleId symbol, inp, w =>
      let w := w.tick inp.elapsed
      w.statement i .cooldownQuery inp
        (if IsPage (fun a => OrderDual.toDual a.triggeredAt) 1
            (w.alertsOf ruleId symbol) inp.rows then
          some (.ok inp.rows.head?, w)
        else none)
  | .selectCandles query, inp, w =>
      let w := w.tick inp.elapsed
      w.statement i .historyQuery inp (some (.ok (query w.candles.rows), w))
  | .savepoint, inp, w =>
      let w := w.tick inp.elapsed
      w.statement i .savepoint inp (some (.ok (), w))
  | .insertAlert alert, inp, w =>
      let w := w.tick inp.elapsed
      if w.failed i then
        some (.error ⟨.pendingRollbackError, "transaction has been rolled back"⟩, w)
      else
        match inp.fault with
        -- undone to the savepoint: the transaction stays usable
        | some e => some (.error e, { w with faults := w.faults ++ [(i, .alertInsert)] })
        | none => w.insertRow i { alert with id := inp.uuid, createdAt := w.clock }
  | .commitAlert, inp, w =>
      let w := w.tick inp.elapsed
      w.statement i .alertCommit inp (some (.ok (), w.commitRows i))
  | .refreshAlert id, inp, w =>
      let w := w.tick inp.elapsed
      w.statement i .alertRefresh inp
        (some (match w.alerts.get id with
          | some row => .ok row
          | none => .error ⟨.invalidRequestError, "Could not refresh instance"⟩, w))
  | .insertCandle c, inp, w =>
      let w := w.tick inp.elapsed
      w.statement i .candleCommit inp
        (match w.candles.get c.key with
        | some _ =>
            some (.error ⟨.integrityError, "uq_candle_symbol_time_interval"⟩, w.fail i)
        | none => some (.ok (), { w with candles := w.candles.insertNew c }))
  | .selectCursor symbol, inp, w =>
      let w := w.tick inp.elapsed
      w.statement i .cursorQuery inp (some (.ok (w.cursors symbol), w))
  | .commitCursor present symbol timestamp, inp, w =>
      let w := w.tick inp.elapsed
      w.statement i .cursorCommit inp
        (if !present && (w.cursors symbol).isSome then
          some (.error ⟨.integrityError, "uq_worker_cursor"⟩, w.fail i)
        else
          some (.ok (), { w with
            cursors := Function.update w.cursors symbol (some timestamp) }))

end World

end Pulse
