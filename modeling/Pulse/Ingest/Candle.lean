/-
  Pulse.Ingest.Candle
  ───────────────────
  The OHLCV candle and its parser, `_candle_from_dict`: REST and WebSocket
  payloads share one shape with short or long keys.  A missing field gives
  `None`; a conversion that raises `ValueError` or `TypeError` gives `None`;
  any other exception escapes.
-/
import Pulse.Core.Time

namespace Pulse

/-- `Candle`: one bar, `timestamp` is its open time. -/
structure Candle where
  symbol : String
  timestamp : Time
  openPrice : Dec
  high : Dec
  low : Dec
  close : Dec
  volume : Option Dec
  intervalSeconds : Nat
  deriving DecidableEq, Repr

/-- `Candle.__init__`: the symbol is upper-cased, a zero volume is dropped. -/
def Candle.init (symbol : String) (timestamp : Time)
    (openPrice high low close volume : Dec) (intervalSeconds : Nat) : Candle where
  symbol := upper symbol
  timestamp := timestamp
  openPrice := openPrice
  high := high
  low := low
  close := close
  volume := if volume.truthy then some volume else none
  intervalSeconds := intervalSeconds

/-- The end of the bar's interval `[timestamp, timestamp + interval_seconds)`. -/
def Candle.endTime (c : Candle) : Time := c.timestamp + seconds c.intervalSeconds

/-- `_get_timestamp_ms`. -/
def getTimestampMs (data : List (String × Json)) : Json :=
  ((Json.get data "t").or (Json.get data "time")).or (Json.get data "timestamp")

/-- `except (ValueError, TypeError): return None`. -/
def exceptValueOrType {α : Type} : Except PyErr α → Except PyErr (Option α)
  | .ok a => .ok (some a)
  | .error e =>
      if e.cls = .valueError ∨ e.cls = .typeError then .ok none else .error e

/-- `_candle_from_dict` on a JSON object. -/
def candleFromDict (symbol : String) (data : List (String × Json))
    (intervalSeconds : Nat) : Except PyErr (Option Candle) :=
  let ts := getTimestampMs data
  if ts.isNone then .ok none
  else
    let o := (Json.get data "o").or (Json.get data "open")
    let h := (Json.get data "h").or (Json.get data "high")
    let l := (Json.get data "l").or (Json.get data "low")
    let c := (Json.get data "c").or (Json.get data "close")
    let v := ((Json.get data "v").or (Json.get data "volume")).or (.int 0)
    if o.isNone || h.isNone || l.isNone || c.isNone then .ok none
    else exceptValueOrType do
      let ms ← ts.toInt
      let timestamp ← fromMs ms
      let openPrice ← o.toDec
      let high ← h.toDec
      let low ← l.toDec
      let close ← c.toDec
      let volume ← v.toDec
      return Candle.init (upper symbol) timestamp openPrice high low close volume
        intervalSeconds

/-! ## What a parsed candle looks like. -/

theorem exceptValueOrType_some {α : Type} {r : Except PyErr α} {a : α}
    (h : exceptValueOrType r = .ok (some a)) : r = .ok a := by
  cases r with
  | ok b =>
      simp only [exceptValueOrType, Except.ok.injEq, Option.some.injEq] at h
      rw [h]
  | error e =>
      simp only [exceptValueOrType] at h
      split at h <;> exact absurd h (by simp)

/-- `from_ms(int(ts_ms))`. -/
def timestampOf (ts : Json) : Except PyErr Time := ts.toInt >>= fromMs

/-- A candle that parses carries the caller's symbol and interval, and its open
time is the payload's timestamp. -/
theorem candleFromDict_some {symbol : String} {data : List (String × Json)}
    {n : Nat} {c : Candle} (h : candleFromDict symbol data n = .ok (some c)) :
    c.symbol = upper symbol ∧ c.intervalSeconds = n ∧
      timestampOf (getTimestampMs data) = .ok c.timestamp := by
  unfold candleFromDict at h
  simp only at h
  split at h
  next => exact absurd h (by simp)
  next =>
    split at h
    next => exact absurd h (by simp)
    next =>
      obtain ⟨ms, hms, hc⟩ := bind_ok (exceptValueOrType_some h)
      obtain ⟨t, ht, hc⟩ := bind_ok hc
      obtain ⟨_, -, hc⟩ := bind_ok hc
      obtain ⟨_, -, hc⟩ := bind_ok hc
      obtain ⟨_, -, hc⟩ := bind_ok hc
      obtain ⟨_, -, hc⟩ := bind_ok hc
      obtain ⟨_, -, hc⟩ := bind_ok hc
      obtain rfl := Except.ok.inj hc
      refine ⟨upper_upper symbol, rfl, ?_⟩
      unfold timestampOf
      rw [hms]
      exact ht

end Pulse
