/-
  Pulse.Worker.Op
  ───────────────
  The operations a worker awaits: database statements and commits, webhook
  requests, the clock and the random generator.  Everything between two of
  them is ordinary computation, so the worker's functions are coroutines over
  `Op`, written as in the source.

  Reading the clock and drawing a random number do not yield to the event loop
  in the program; treating them as operations only adds schedules.
-/
import Pulse.Async.Pool
import Pulse.Db.Models

namespace Pulse

open Pulse.Async

/-- Where an alert can be sent. -/
inductive Channel where
  | discord
  | generic
  deriving DecidableEq, Repr

/-- The configured URL of a channel. -/
def Rule.url (r : Rule) : Channel → Option String
  | .discord => r.discordWebhookUrl
  | .generic => r.genericWebhookUrl

/-- What becomes of one webhook request. -/
inductive Reply where
  /-- The receiver answered in time. -/
  | response (statusCode : Nat)
  /-- No answer: refused, broken off, or timed out. -/
  | error (msg : String)
  /-- The receiver answered with success, but the client had given up. -/
  | late (msg : String)
  deriving DecidableEq, Repr

/-- The client's `is_success`, on which `raise_for_status` decides. -/
def isSuccess (statusCode : Nat) : Bool := 200 ≤ statusCode ∧ statusCode ≤ 299

/-- The client saw a success. -/
def Reply.ok : Reply → Bool
  | .response c => isSuccess c
  | _ => false

/-- The receiver answered with success. -/
def Reply.answered : Reply → Bool
  | .response c => isSuccess c
  | .error _ => false
  | .late _ => true

/-- Entering a function of the worker: nothing is awaited, the record lets
statements about runs speak of its calls. -/
inductive Call where
  | evaluate (rule : Rule) (candle : Candle)
  | createAlert (ruleId : RuleId) (windowStart : Time)

/-- `evaluate` was entered for a rule and a candle. -/
def Call.Evaluates (ruleId : RuleId) (candle : Candle) : Call → Prop
  | .evaluate rule c => rule.id = ruleId ∧ c = candle
  | .createAlert _ _ => False

instance (ruleId : RuleId) (candle : Candle) : (c : Call) → Decidable (c.Evaluates ruleId candle)
  | .evaluate rule c => inferInstanceAs (Decidable (rule.id = ruleId ∧ c = candle))
  | .createAlert _ _ => inferInstanceAs (Decidable False)

/-- The operations. -/
inductive Op where
  /-- `AsyncSessionLocal()`. -/
  | openSession
  | rollback
  | utcnow
  /-- `random.uniform(0, hi)`, in microseconds. -/
  | uniform (hi : Nat)
  | call (c : Call)
  /-- Building a payload; raises if an attribute cannot be rendered. -/
  | payload (ch : Channel) (alert : Alert) (rule : Rule)
  | post (ch : Channel) (alert : Alert) (rule : Rule)
  /-- The rule of an alert. -/
  | selectRule (alert : Alert)
  /-- The pending alerts below the attempt limit, oldest first, at most 50. -/
  | selectPending (retryBackoffMax : Nat)
  /-- `commit` with one changed alert and new delivery attempts. -/
  | commitDelivery (alert : AlertObj) (attempts : List AlertDeliveryAttempt)
  /-- The alert of a rule and symbol with the latest `triggered_at`. -/
  | selectLastAlert (ruleId : RuleId) (symbol : String)
  /-- A `SELECT` over the candle table. -/
  | selectCandles (query : List Candle → List Candle)
  /-- `begin_nested`: `SAVEPOINT`. -/
  | savepoint
  /-- Leaving `begin_nested`: flush the new alert, `RELEASE`. -/
  | insertAlert (alert : Alert)
  /-- `commit` after the savepoint was released. -/
  | commitAlert
  | refreshAlert (id : AlertId)
  /-- `add` and `commit` of a candle row. -/
  | insertCandle (candle : Candle)
  | selectCursor (symbol : String)
  /-- `commit` of an updated (`present`) or new cursor row. -/
  | commitCursor (present : Bool) (symbol : String) (timestamp : Time)

/-- The answers. -/
def Resp : Op → Type
  | .openSession | .rollback | .call _ => Unit
  | .utcnow => Time
  | .uniform _ => Nat
  | .payload _ _ _ => Except PyErr Unit
  | .post _ _ _ => Reply
  | .selectRule _ => Except PyErr (Option Rule)
  | .selectPending _ => Except PyErr (List Alert)
  | .commitDelivery _ _ => Except PyErr Unit
  | .selectLastAlert _ _ => Except PyErr (Option Alert)
  | .selectCandles _ => Except PyErr (List Candle)
  | .savepoint => Except PyErr Unit
  | .insertAlert _ => Except PyErr AlertId
  | .commitAlert => Except PyErr Unit
  | .refreshAlert _ => Except PyErr Alert
  | .insertCandle _ => Except PyErr Unit
  | .selectCursor _ => Except PyErr (Option Time)
  | .commitCursor _ _ _ => Except PyErr Unit

/-- The worker's coroutines. -/
abbrev Prog (α : Type) := Coro Resp PyErr α

/-! ## One function per operation; an error answer raises. -/

def openSession : Prog Unit := .await .openSession .pure

def rollback : Prog Unit := .await .rollback .pure

def utcnow : Prog Time := .await .utcnow .pure

def uniform (hi : Nat) : Prog Nat := .await (.uniform hi) .pure

def call (c : Call) : Prog Unit := .await (.call c) .pure

def payload (ch : Channel) (alert : Alert) (rule : Rule) : Prog Unit :=
  .await (.payload ch alert rule) .ofExcept

/-- `client.post`: the status code, or the transport's exception. -/
def post (ch : Channel) (alert : Alert) (rule : Rule) : Prog Nat :=
  .await (.post ch alert rule) fun
    | .response c => .pure c
    | .error msg | .late msg => .raise ⟨.httpError, msg⟩

def selectRule (alert : Alert) : Prog (Option Rule) := .await (.selectRule alert) .ofExcept

def selectPending (retryBackoffMax : Nat) : Prog (List Alert) :=
  .await (.selectPending retryBackoffMax) .ofExcept

def commitDelivery (alert : AlertObj) (attempts : List AlertDeliveryAttempt) : Prog Unit :=
  .await (.commitDelivery alert attempts) .ofExcept

def selectLastAlert (ruleId : RuleId) (symbol : String) : Prog (Option Alert) :=
  .await (.selectLastAlert ruleId symbol) .ofExcept

def selectCandles (query : List Candle → List Candle) : Prog (List Candle) :=
  .await (.selectCandles query) .ofExcept

def savepoint : Prog Unit := .await .savepoint .ofExcept

def insertAlert (alert : Alert) : Prog AlertId := .await (.insertAlert alert) .ofExcept

def commitAlert : Prog Unit := .await .commitAlert .ofExcept

def refreshAlert (id : AlertId) : Prog Alert := .await (.refreshAlert id) .ofExcept

def insertCandle (candle : Candle) : Prog Unit := .await (.insertCandle candle) .ofExcept

def selectCursor (symbol : String) : Prog (Option Time) :=
  .await (.selectCursor symbol) .ofExcept

def commitCursor (present : Bool) (symbol : String) (timestamp : Time) : Prog Unit :=
  .await (.commitCursor present symbol timestamp) .ofExcept

end Pulse
