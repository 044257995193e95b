/-
  Pulse.Db.Models
  ───────────────
  The rows of `db/models`, with the columns that the worker reads or writes,
  and the ORM's view of a row: the attributes as loaded and as they are now.
  A flush writes the columns in which the two differ.
-/
import Pulse.Ingest.Candle
import Pulse.Store.Table

namespace Pulse

abbrev RuleId := Nat
abbrev AlertId := Nat

/-- A rule's JSON configuration. -/
abbrev Config := List (String × Json)

/-- `rule_type_enum`. -/
inductive RuleType where
  | priceThreshold
  | percentMove
  | candleClose
  | macdCross
  | rsi
  | bollingerBands
  deriving DecidableEq, Repr

/-- `rules`. -/
structure Rule where
  id : RuleId
  symbol : String
  ruleType : RuleType
  config : Config
  /-- Nullable in the schema. -/
  cooldownSeconds : Option Int
  discordWebhookUrl : Option String
  genericWebhookUrl : Option String
  isActive : Bool

/-- `delivery_status_enum`. -/
inductive DeliveryStatus where
  | pending
  | delivered
  | failed
  deriving DecidableEq, Repr

/-- `alerts`. -/
structure Alert where
  id : AlertId
  ruleId : RuleId
  symbol : String
  ruleType : RuleType
  triggeredAt : Time
  triggerValue : Rat
  windowStart : Time
  windowEnd : Time
  deliveryStatus : DeliveryStatus
  deliveryAttempts : Nat
  lastDeliveryAttempt : Option Time
  createdAt : Time
  deriving DecidableEq, Repr

/-- The columns of `uq_alert_window`. -/
def Alert.windowKey (a : Alert) : RuleId × Time × Time :=
  (a.ruleId, a.windowStart, a.windowEnd)

/-- `alert_delivery_attempts.status`. -/
inductive AttemptStatus where
  | success
  | failed
  deriving DecidableEq, Repr

/-- `alert_delivery_attempts`. -/
structure AlertDeliveryAttempt where
  alertId : AlertId
  attemptNo : Nat
  status : AttemptStatus
  responseCode : Option Nat
  latencyMs : Option Int
  error : Option String
  createdAt : Time
  deriving DecidableEq, Repr

/-! ## The ORM's view of an alert. -/

/-- A mapped alert in a session. -/
structure AlertObj where
  /-- The column values as loaded. -/
  loaded : Alert
  /-- The attribute values now. -/
  row : Alert
  deriving Repr

namespace AlertObj

/-- Freshly loaded. -/
def ofRow (a : Alert) : AlertObj := ⟨a, a⟩

def setDeliveryStatus (o : AlertObj) (s : DeliveryStatus) : AlertObj :=
  { o with row := { o.row with deliveryStatus := s } }

def setDeliveryAttempts (o : AlertObj) (n : Nat) : AlertObj :=
  { o with row := { o.row with deliveryAttempts := n } }

def setLastDeliveryAttempt (o : AlertObj) (t : Time) : AlertObj :=
  { o with row := { o.row with lastDeliveryAttempt := some t } }

/-- The `UPDATE` of a flush: a column is written if its attribute differs from
the value the session loaded, whatever the stored row says by then. -/
def flushInto (o : AlertObj) (stored : Alert) : Alert :=
  { stored with
    deliveryStatus :=
      if o.row.deliveryStatus = o.loaded.deliveryStatus then stored.deliveryStatus
      else o.row.deliveryStatus
    deliveryAttempts :=
      if o.row.deliveryAttempts = o.loaded.deliveryAttempts then stored.deliveryAttempts
      else o.row.deliveryAttempts
    lastDeliveryAttempt :=
      if o.row.lastDeliveryAttempt = o.loaded.lastDeliveryAttempt then
        stored.lastDeliveryAttempt
      else o.row.lastDeliveryAttempt }

theorem flushInto_id (o : AlertObj) (stored : Alert) :
    (o.flushInto stored).id = stored.id := rfl

/-- Flushing into the very row that was loaded stores the attributes. -/
theorem flushInto_loaded (a : Alert) (s : DeliveryStatus) (n : Nat) (t : Option Time) :
    (AlertObj.mk a { a with
      deliveryStatus := s, deliveryAttempts := n, lastDeliveryAttempt := t }).flushInto a
      = { a with deliveryStatus := s, deliveryAttempts := n, lastDeliveryAttempt := t } := by
  have hs : (if s = a.deliveryStatus then a.deliveryStatus else s) = s := by
    split
    next h => exact h.symm
    next => rfl
  have hn : (if n = a.deliveryAttempts then a.deliveryAttempts else n) = n := by
    split
    next h => exact h.symm
    next => rfl
  have ht : (if t = a.lastDeliveryAttempt then a.lastDeliveryAttempt else t) = t := by
    split
    next h => exact h.symm
    next => rfl
  simp only [flushInto, hs, hn, ht]

end AlertObj

end Pulse
