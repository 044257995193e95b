/-
  Pulse.Ingest.Reply
  ──────────────────
  What the client reads out of a REST reply or a WebSocket message: ordinary
  computation on JSON, whose exceptions the callers catch.

    • `candlesOfReply` — `fetch_candles`,
    • `latestOfReply`  — `fetch_latest_candle`,
    • `handleMessage`  — a round of `_stream_ws`.
-/
import Pulse.Ingest.Candle
import Mathlib.Data.List.Sort
import Mathlib.Order.WithBot

namespace Pulse.Ingest

/-! ## §1. Replies and messages. -/

/-- A JSON object that describes a candle. -/
abbrev Payload := List (String × Json)

/-- What becomes of one REST request. -/
inductive RestReply where
  /-- The body, if it is JSON. -/
  | response (statusCode : Nat) (body : Option Json)
  | error (e : PyErr)

/-- What becomes of one `recv`, within `ws_heartbeat_timeout`. -/
inductive Frame where
  | message (msg : Json)
  /-- `json.JSONDecodeError`. -/
  | badJson
  | timeout
  | error (e : PyErr)

/-- `_interval_to_seconds`. -/
def intervalToSeconds (interval : String) : Nat :=
  match interval with
  | "1m" => 60
  | "5m" => 300
  | "15m" => 900
  | "30m" => 1800
  | "1h" => 3600
  | "4h" => 14400
  | "1d" => 86400
  | _ => 900

/-- What `for item in x` runs over. -/
def iterate : Json → Except PyErr (List Json)
  | .arr items => .ok items
  | .str s => .ok (s.toList.map fun c => .str (String.singleton c))
  | .obj entries => .ok (entries.map fun e => .str e.1)
  | .null | .bool _ | .int _ | .num _ => .error ⟨.typeError, "object is not iterable"⟩

/-- A method that only dictionaries have. -/
def asDict : Json → Except PyErr Payload
  | .obj entries => .ok entries
  | _ => .error ⟨.attributeError, "object has no attribute 'get'"⟩

/-- `data if isinstance(data, list) else data.get("data", [])`, where `data` is the
body of the reply; `none` if the status is not 200. -/
def dataOfReply : RestReply → Except PyErr (Option Json)
  | .error e => .error e
  | .response statusCode body =>
      if statusCode ≠ 200 then .ok none
      else
        match body with
        | none => .error ⟨.valueError, "Expecting value"⟩
        | some (.arr items) => .ok (some (.arr items))
        | some data => do
            let dict ← asDict data
            match dict.find? (fun e => e.1 = "data") with
            | some e => return some e.2
            | none => return some (.arr [])

/-- `_candle_from_dict` on an item that need not be a dictionary. -/
def candleFromItem (coin : String) (item : Json) (intervalSeconds : Nat) :
    Except PyErr (Option Candle) := do
  candleFromDict coin (← asDict item) intervalSeconds

/-- What `fetch_candles` reads out of a reply. -/
def candlesOfReply (coin : String) (intervalSeconds : Nat) (reply : RestReply) :
    Except PyErr (List Candle) := do
  match ← dataOfReply reply with
  | none => return []
  | some data =>
      let items ← iterate data
      let candles ← items.mapM fun item => candleFromItem coin item intervalSeconds
      return (candles.filterMap id).insertionSort fun c d => c.timestamp ≤ d.timestamp

/-- A double on the line of the numbers. -/
def onLine : Double → WithBot (WithTop Rat)
  | .fin neg x => ((Double.value neg x : Rat) : WithTop Rat)
  | .inf true => ⊥
  | .inf false => (⊤ : WithTop Rat)

/-- The number that a JSON value compares as. -/
def number : Json → Option (WithBot (WithTop Rat))
  | .int i => some ((i : Rat) : WithTop Rat)
  | .num q => some (onLine (Double.ofRat q))
  | .bool b => some ((if b then 1 else 0 : Rat) : WithTop Rat)
  | _ => none

/-- `a < b`. -/
def lessThan (a b : Json) : Except PyErr Bool :=
  match number a, number b with
  | some x, some y => .ok (x < y)
  | _, _ =>
      match a, b with
      | .str s, .str t => .ok (s < t)
      | _, _ => .error ⟨.typeError, "'<' not supported between instances"⟩

/-- `sorted(items, key=lambda x: _get_timestamp_ms(x) or 0)[-1]`: the last of the
greatest. -/
def latestItem (items : List Json) : Except PyErr Json := do
  let keyed ← items.mapM fun item => do
    return ((getTimestampMs (← asDict item)).or (.int 0), item)
  match keyed with
  | [] => throw ⟨.other, "list index out of range"⟩
  | first :: rest =>
      let latest ← rest.foldlM (fun best x => do
        return if ← lessThan x.1 best.1 then best else x) first
      return latest.2

/-- What `fetch_latest_candle` reads out of a reply. -/
def latestOfReply (coin : String) (reply : RestReply) : Except PyErr (Option Candle) := do
  match ← dataOfReply reply with
  | none => return none
  | some data =>
      if !data.truthy then return none
      candleFromItem coin (← latestItem (← iterate data)) 900

/-- `(data.get("s") or data.get("coin") or data.get("symbol") or "").upper()`. -/
def coinOf (data : Payload) : Except PyErr String :=
  match ((Json.get data "s").or (Json.get data "coin")).or
      ((Json.get data "symbol").or (.str "")) with
  | .str s => .ok (upper s)
  | _ => .error ⟨.attributeError, "object has no attribute 'upper'"⟩

/-- The payload marks its candle closed. -/
def markedClosed (data : Payload) : Bool := (Json.get data "closed").truthy

/-- `end_ms`. -/
def endMs (data : Payload) : Json := (Json.get data "T").or (Json.get data "endMs")

/-- `is_closed`, when `now_ms()` is `now`. -/
def isClosed (now : Int) (data : Payload) : Except PyErr Bool :=
  if markedClosed data then .ok true
  else if (endMs data).isNone then .ok false
  else do
    return decide ((← (endMs data).toInt) ≤ now)

/-- Newer than the last candle seen, if there was one. -/
def isNewer (last : Option Time) (candle : Candle) : Bool :=
  match last with
  | none => true
  | some prev => prev < candle.timestamp

/-- The dictionary under `data` of a message on the candle channel. -/
def candlePayload : Json → Option Payload
  | .obj msg =>
      match Json.get msg "channel", Json.get msg "data" with
      | .str channel, .obj data => if channel = "candle" then some data else none
      | _, _ => none
  | _ => none

/-- What the stream makes of a message: nothing, or the coin and the candle to
yield. -/
def handleMessage (now : Int) (last : String → Option Time) (msg : Json) :
    Except PyErr (Option (String × Candle)) :=
  match candlePayload msg with
  | none => .ok none
  | some data => do
      let coin ← coinOf data
      if coin = "" then return none
      if !(← isClosed now data) then return none
      match ← candleFromDict coin data 900 with
      | none => return none
      | some candle => return if isNewer (last coin) candle then some (coin, candle) else none

/-! ## §2. What they return. -/

theorem mapM_ok {α β ε : Type} {f : α → Except ε β} {xs : List α} {ys : List β}
    (h : xs.mapM f = .ok ys) : ∀ y ∈ ys, ∃ x ∈ xs, f x = .ok y := by
  have hall := mapM_forall₂ h
  clear h
  induction hall with
  | nil => exact fun y hy => absurd hy (by simp)
  | cons hxy _ ih =>
      intro y hy
      rcases List.mem_cons.mp hy with rfl | hy
      · exact ⟨_, List.mem_cons_self, hxy⟩
      · obtain ⟨x, hx, hfx⟩ := ih _ hy
        exact ⟨x, List.mem_cons_of_mem _ hx, hfx⟩

/-- Parsing upper-cases the coin itself. -/
theorem candleFromDict_upper (symbol : String) (data : Payload) (n : Nat) :
    candleFromDict (upper symbol) data n = candleFromDict symbol data n := by
  unfold candleFromDict
  rw [upper_upper]

theorem candlesOfReply_upper (coin : String) (n : Nat) (reply : RestReply) :
    candlesOfReply (upper coin) n reply = candlesOfReply coin n reply := by
  have hitem : ∀ item, candleFromItem (upper coin) item n = candleFromItem coin item n := by
    intro item
    unfold candleFromItem
    simp only [candleFromDict_upper]
  unfold candlesOfReply
  simp only [hitem]

/-- An answer of another status has no candles. -/
theorem candlesOfReply_status {coin : String} {n : Nat} {statusCode : Nat} {body : Option Json}
    (h : statusCode ≠ 200) : candlesOfReply coin n (.response statusCode body) = .ok [] := by
  have hdata : dataOfReply (.response statusCode body) = .ok none := if_pos h
  unfold candlesOfReply
  rw [hdata]
  rfl

/-- The candles are parsed from the reply for the coin, and in order. -/
theorem candlesOfReply_ok {coin : String} {n : Nat} {reply : RestReply} {candles : List Candle}
    (h : candlesOfReply coin n reply = .ok candles) :
    (∀ c ∈ candles, c.symbol = upper coin ∧ c.intervalSeconds = n) ∧
      candles.Pairwise fun c d => c.timestamp ≤ d.timestamp := by
  unfold candlesOfReply at h
  obtain ⟨data, -, h⟩ := bind_ok h
  cases data with
  | none =>
      obtain rfl := Except.ok.inj h
      exact ⟨fun c hc => absurd hc (by simp), List.Pairwise.nil⟩
  | some data =>
      obtain ⟨items, -, h⟩ := bind_ok h
      obtain ⟨parsed, hparsed, h⟩ := bind_ok h
      obtain rfl := Except.ok.inj h
      refine ⟨fun c hc => ?_, ?_⟩
      · rw [List.mem_insertionSort, List.mem_filterMap] at hc
        obtain ⟨_, hc, rfl⟩ := hc
        obtain ⟨item, -, hitem⟩ := mapM_ok hparsed _ hc
        obtain ⟨dict, -, hitem⟩ := bind_ok hitem
        obtain ⟨hsymbol, hinterval, -⟩ := candleFromDict_some hitem
        exact ⟨hsymbol, hinterval⟩
      · have : Std.Total fun c d : Candle => c.timestamp ≤ d.timestamp :=
          ⟨fun c d => le_total c.timestamp d.timestamp⟩
        have : IsTrans Candle fun c d => c.timestamp ≤ d.timestamp :=
          ⟨fun _ _ _ => le_trans⟩
        exact List.pairwise_insertionSort _ _

/-- The candle of a poll is parsed from the reply for the coin. -/
theorem latestOfReply_some {coin : String} {reply : RestReply} {c : Candle}
    (h : latestOfReply coin reply = .ok (some c)) :
    c.symbol = upper coin ∧ c.intervalSeconds = 900 := by
  unfold latestOfReply at h
  obtain ⟨data, -, h⟩ := bind_ok h
  cases data with
  | none => exact absurd h (by simp [pure, Except.pure])
  | some data =>
      simp only at h
      split at h
      next => exact absurd h (by simp [pure, Except.pure])
      next =>
        obtain ⟨items, -, h⟩ := bind_ok h
        obtain ⟨item, -, h⟩ := bind_ok h
        obtain ⟨dict, -, h⟩ := bind_ok h
        obtain ⟨hsymbol, hinterval, -⟩ := candleFromDict_some h
        exact ⟨hsymbol, hinterval⟩

/-- A payload that counts as closed is marked so, or its end has come. -/
theorem isClosed_true {now : Int} {data : Payload} (h : isClosed now data = .ok true) :
    markedClosed data = true ∨ ∃ ms, (endMs data).toInt = .ok ms ∧ ms ≤ now := by
  unfold isClosed at h
  split at h
  next hmarked => exact Or.inl hmarked
  next =>
    split at h
    next => exact absurd h (by simp)
    next =>
      obtain ⟨ms, hms, h⟩ := bind_ok h
      exact Or.inr ⟨ms, hms, of_decide_eq_true (Except.ok.inj h)⟩

/-- A message on the candle channel whose payload is closed and parses. -/
theorem handleMessage_closed {now : Int} {last : String → Option Time} {msg : Json}
    {data : Payload} {coin : String} {candle : Candle} (hdata : candlePayload msg = some data)
    (hcoin : coinOf data = .ok coin) (hne : coin ≠ "") (hclosed : isClosed now data = .ok true)
    (hparsed : candleFromDict coin data 900 = .ok (some candle)) :
    handleMessage now last msg =
      .ok (if isNewer (last coin) candle then some (coin, candle) else none) := by
  simp only [handleMessage, hdata, hcoin, ok_bind, hne, if_false, hclosed, hparsed,
    Bool.not_true, Bool.false_eq_true]
  rfl

/-- A message yields a candle of its coin that is newer than the last one. -/
theorem handleMessage_some {now : Int} {last : String → Option Time} {msg : Json}
    {coin : String} {candle : Candle}
    (h : handleMessage now last msg = .ok (some (coin, candle))) :
    ∃ data, candlePayload msg = some data ∧ isClosed now data = .ok true ∧
      candleFromDict coin data 900 = .ok (some candle) ∧ (coinOf data = .ok coin ∧ coin ≠ "") ∧
      isNewer (last coin) candle = true := by
  unfold handleMessage at h
  split at h
  next => exact absurd h (by simp)
  next data hdata =>
    obtain ⟨coin', hcoin, h⟩ := bind_ok h
    split at h
    next => exact absurd h (by simp [pure, Except.pure])
    next hne =>
      obtain ⟨closed, hclosed, h⟩ := bind_ok h
      cases closed with
      | false => exact absurd h (by simp [pure, Except.pure])
      | true =>
          obtain ⟨parsed, hparsed, h⟩ := bind_ok h
          cases parsed with
          | none => exact absurd h (by simp [pure, Except.pure])
          | some parsed =>
              have hend := Except.ok.inj h
              split at hend
              next hnewer =>
                cases hend
                exact ⟨data, hdata, hclosed, hparsed, ⟨hcoin, hne⟩, hnewer⟩
              next => exact absurd hend (by simp)

/-- A coin is in upper case. -/
theorem upper_coinOf {data : Payload} {coin : String} (h : coinOf data = .ok coin) :
    upper coin = coin := by
  unfold coinOf at h
  split at h
  next => rw [← Except.ok.inj h, upper_upper]
  next => exact absurd h (by simp)

end Pulse.Ingest
