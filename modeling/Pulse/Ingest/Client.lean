/-
  Pulse.Ingest.Client
  ───────────────────
  **THE MARKET DATA CLIENT.**

  `HyperliquidClient` of `worker/ingest/hyperliquid.py`: candles from a WebSocket
  with a REST backfill on every reconnect, or from REST polls.  `stream()` is a
  loop around one program per phase; the exchange's answers and the passing of
  time are choices of the run.

    • `fetchLatestCandle`, `fetchCandles`, `backfill` — REST,
    • `stream`      — the loop's body,
    • `Client.step` — the loop.
-/
import Pulse.Async.Loop
import Pulse.Ingest.Reply

namespace Pulse.Ingest

open Pulse.Async

/-! ## §1. The operations. -/

inductive Op where
  | utcnow
  /-- Reading `_last_candle_ts`. -/
  | lastSeen
  /-- A `candleSnapshot` request. -/
  | post (coin interval : String) (startMs endMs : Int)
  | connect
  /-- Subscribing to the candles of a coin. -/
  | send (coin interval : String)
  | recv
  | close
  | sleep (ms : Nat)
  /-- `_last_candle_ts[coin] = candle.timestamp`, and then `yield candle`. -/
  | emit (coin : String) (candle : Candle)

def Resp : Op → Type
  | .utcnow => Time
  | .lastSeen => String → Option Time
  | .post _ _ _ _ => RestReply
  | .connect | .send _ _ | .close => Except PyErr Unit
  | .recv => Frame
  | .sleep _ | .emit _ _ => Unit

abbrev ClientProg (α : Type) := Coro Resp PyErr α

def utcnow : ClientProg Time := .await .utcnow .pure

def lastSeen : ClientProg (String → Option Time) := .await .lastSeen .pure

def post (coin interval : String) (startMs endMs : Int) : ClientProg RestReply :=
  .await (.post coin interval startMs endMs) .pure

def connect : ClientProg Unit := .await .connect .ofExcept

def send (coin interval : String) : ClientProg Unit := .await (.send coin interval) .ofExcept

def recv : ClientProg Frame := .await .recv .pure

def close : ClientProg Unit := .await .close .ofExcept

def sleep (ms : Nat) : ClientProg Unit := .await (.sleep ms) .pure

def emit (coin : String) (candle : Candle) : ClientProg Unit :=
  .await (.emit coin candle) .pure

/-! ## §2. REST. -/

/-- `fetch_latest_candle`. -/
def fetchLatestCandle (coin : String) : ClientProg (Option Candle) := do
  let endTimeMs := nowMs (← utcnow)
  let startTimeMs := endTimeMs - 200 * (15 * 60 * 1000)
  try
    let reply ← post (upper coin) "15m" startTimeMs endTimeMs
    Coro.ofExcept (latestOfReply coin reply)
  catch _ => pure none

/-- `fetch_candles`. -/
def fetchCandles (coin : String) (startTime endTime : Time) (interval : String) :
    ClientProg (List Candle) := do
  try
    let reply ← post (upper coin) interval (toMs startTime) (toMs endTime)
    Coro.ofExcept (candlesOfReply coin (intervalToSeconds interval) reply)
  catch _ => pure []

/-- `backfill`. -/
def backfill (coin : String) (lastTimestamp : Time) (interval : String) :
    ClientProg (List Candle) := do
  let candles ← fetchCandles coin lastTimestamp (← utcnow) interval
  return candles.filter fun c => lastTimestamp < c.timestamp

/-! ## §3. The stream. -/

/-- `settings.symbol_list`: between commas, stripped and upper-cased. -/
def symbolList (symbols : String) : List String :=
  (symbols.toList.splitOn ',').filterMap fun part =>
    if strip part = [] then none else some (upper (String.ofList (strip part)))

theorem upper_of_mem_symbolList {symbols coin : String} (h : coin ∈ symbolList symbols) :
    upper coin = coin := by
  obtain ⟨part, -, hcoin⟩ := List.mem_filterMap.mp h
  split at hcoin
  next => exact absurd hcoin (by simp)
  next => rw [← Option.some.inj hcoin, upper_upper]

example : symbolList "BTC, eth,," = ["BTC", "ETH"] := by decide

/-- Where the loop is; `backoff` is in seconds. -/
inductive Phase where
  | connecting (backoff : Nat)
  /-- Before the subscriptions. -/
  | connected
  | listening
  | polling
  deriving DecidableEq, Repr

/-- `settings.ingest_mode`. -/
inductive Mode where
  | ws
  | poll
  deriving DecidableEq, Repr

/-- `stream` starts one of two loops. -/
def Mode.start : Mode → Phase
  | .ws => .connecting 1
  | .poll => .polling

/-- After an exception. -/
def reconnect (backoff : Nat) : ClientProg Phase := do
  sleep (1000 * min backoff 60)
  return .connecting (min (backoff * 2) 60)

/-- The backfill of one coin on a new connection. -/
def backfillCoin (coin : String) : ClientProg Unit := do
  match (← lastSeen) (upper coin) with
  | none => pure ()
  | some last =>
      let missed ← tryCatch (backfill coin last "15m") fun _ => pure []
      Coro.forEach missed fun c => emit c.symbol c

/-- What is done with a message. -/
def onMessage (msg : Json) : ClientProg Unit := do
  let now ← utcnow
  let last ← lastSeen
  match ← Coro.ofExcept (handleMessage (nowMs now) last msg) with
  | none => pure ()
  | some (coin, candle) => emit coin candle

/-- One round of the inner loop of `_stream_ws`. -/
def listen : ClientProg Phase := do
  match ← recv with
  | .timeout =>
      close
      return .connecting 1
  | .error e => throw e
  | .badJson => return .listening
  | .message msg =>
      onMessage msg
      return .listening

/-- One coin of a poll.  The loop's own `last_candles` is a copy of the map that is
written together with it. -/
def pollCoin (coin : String) : ClientProg Unit := do
  match ← fetchLatestCandle coin with
  | none => sleep 500
  | some candle =>
      let last ← lastSeen
      if isNewer (last coin) candle then
        emit coin candle
      sleep 500

/-- One round of the loop that `stream` is in. -/
def stream (symbols : List String) : Phase → ClientProg Phase
  | .connecting backoff =>
      tryCatch (do connect; return .connected) fun _ => reconnect backoff
  | .connected =>
      tryCatch (do
        Coro.forEach symbols fun coin => send (upper coin) "15m"
        Coro.forEach symbols backfillCoin
        return .listening) fun _ => reconnect 1
  | .listening => tryCatch listen fun _ => reconnect 1
  | .polling =>
      tryCatch (do
        Coro.forEach symbols pollCoin
        sleep 60000
        return .polling) fun _ => do
          sleep 60000
          return .polling

/-! ## §4. What the operations do. -/

/-- A candle that `stream()` yielded, and when. -/
structure Yielded where
  candle : Candle
  time : Time
  deriving DecidableEq, Repr

/-- What the client met on the network. -/
inductive Event where
  /-- The socket was opened. -/
  | opened (time : Time)
  /-- A request for the candles of a coin up to `endMs` was answered. -/
  | answered (coin : String) (endMs : Int) (reply : RestReply)
  | message (time : Time) (msg : Json)

/-- The client and its clock, and the records about a run: what was yielded, and
what came over the network. -/
structure Client where
  lastCandleTs : String → Option Time
  clock : Time
  yielded : List Yielded
  log : List Event

/-- The choices of one operation. -/
structure Input where
  elapsed : Nat := 0
  reply : RestReply := .response 200 (some (.arr []))
  frame : Frame := .timeout
  /-- The socket fails. -/
  fault : Option PyErr := none

/-- The objects among the items of a reply. -/
def RestReply.payloads (reply : RestReply) : List Payload :=
  match dataOfReply reply with
  | .ok (some (.arr items)) => items.filterMap fun item => (asDict item).toOption
  | _ => []

def Frame.payloads : Frame → List Payload
  | .message msg => (candlePayload msg).toList
  | _ => []

def Event.payloads : Event → List Payload
  | .opened _ => []
  | .answered _ _ reply => reply.payloads
  | .message _ msg => (candlePayload msg).toList

namespace Client

/-- Every candle payload received. -/
def payloads (w : Client) : List Payload := w.log.flatMap Event.payloads

/-- Time passes. -/
def tick (w : Client) (n : Nat) : Client := { w with clock := w.clock + n }

/-- Something is met on the network. -/
def meet (w : Client) (e : Event) : Client := { w with log := w.log ++ [e] }

/-- A frame arrives. -/
def hear (w : Client) : Frame → Client
  | .message msg => w.meet (.message w.clock msg)
  | _ => w

@[simp] theorem clock_hear (w : Client) (frame : Frame) : (w.hear frame).clock = w.clock := by
  cases frame <;> rfl

@[simp] theorem payloads_tick (w : Client) (n : Nat) : (w.tick n).payloads = w.payloads := rfl

@[simp] theorem payloads_meet (w : Client) (e : Event) :
    (w.meet e).payloads = w.payloads ++ e.payloads := by
  simp [payloads, meet]

@[simp] theorem payloads_hear (w : Client) (frame : Frame) :
    (w.hear frame).payloads = w.payloads ++ frame.payloads := by
  cases frame with
  | message msg => exact payloads_meet w _
  | badJson | timeout | error e => simp [hear, Frame.payloads]

/-- What the socket answers. -/
def socket (inp : Input) : Except PyErr Unit :=
  match inp.fault with
  | some e => .error e
  | none => .ok ()

/-- After an attempt to open the socket. -/
def dialled (w : Client) (inp : Input) : Client :=
  match inp.fault with
  | some _ => w
  | none => w.meet (.opened w.clock)

/-- Time passes where the program awaits. -/
def perform : (o : Op) → Input → Client → Option (Resp o × Client)
  | .utcnow, _, w => some (w.clock, w)
  | .lastSeen, _, w => some (w.lastCandleTs, w)
  | .post coin _ _ endMs, inp, w =>
      some (inp.reply, (w.tick inp.elapsed).meet (.answered coin endMs inp.reply))
  | .connect, inp, w => some (socket inp, (w.tick inp.elapsed).dialled inp)
  | .send _ _, inp, w | .close, inp, w => some (socket inp, w.tick inp.elapsed)
  | .recv, inp, w => some (inp.frame, (w.tick inp.elapsed).hear inp.frame)
  | .sleep _, inp, w => some ((), w.tick inp.elapsed)
  | .emit coin candle, inp, w =>
      some ((), { w with
        lastCandleTs := Function.update w.lastCandleTs coin (some candle.timestamp)
        clock := w.clock + inp.elapsed
        yielded := w.yielded ++ [⟨candle, w.clock⟩] })

/-- What every operation but a yield leaves alone. -/
structure Quiet (w w' : Client) : Prop where
  lastCandleTs : w'.lastCandleTs = w.lastCandleTs
  yielded : w'.yielded = w.yielded
  clock : w.clock ≤ w'.clock
  log : w.log <+: w'.log

theorem Quiet.refl (w : Client) : Quiet w w := ⟨rfl, rfl, le_refl _, List.prefix_refl _⟩

theorem Quiet.trans {w w' w'' : Client} (h : Quiet w w') (h' : Quiet w' w'') : Quiet w w'' where
  lastCandleTs := h'.lastCandleTs.trans h.lastCandleTs
  yielded := h'.yielded.trans h.yielded
  clock := h.clock.trans h'.clock
  log := h.log.trans h'.log

theorem Quiet.payloads {w w' : Client} (h : Quiet w w') : w.payloads <+: w'.payloads := by
  obtain ⟨rest, hrest⟩ := h.log
  unfold Client.payloads
  rw [← hrest, List.flatMap_append]
  exact List.prefix_append _ _

theorem quiet_tick (w : Client) (n : Nat) : Quiet w (w.tick n) where
  lastCandleTs := rfl
  yielded := rfl
  clock := by simp [tick]
  log := List.prefix_refl _

theorem quiet_meet (w : Client) (n : Nat) (e : Event) : Quiet w ((w.tick n).meet e) where
  lastCandleTs := rfl
  yielded := rfl
  clock := by simp [tick, meet]
  log := List.prefix_append _ _

theorem quiet_hear (w : Client) (n : Nat) (frame : Frame) :
    Quiet w ((w.tick n).hear frame) := by
  cases frame with
  | message msg => exact quiet_meet w n _
  | badJson | timeout | error e => exact quiet_tick w n

theorem quiet_dialled (w : Client) (n : Nat) (inp : Input) :
    Quiet w ((w.tick n).dialled inp) := by
  unfold dialled
  split
  · exact quiet_tick w n
  · exact quiet_meet w n _

end Client

/-- Not a yield. -/
def Op.quiet : Op → Prop
  | .emit _ _ => False
  | _ => True

namespace Client

theorem perform_quiet {o : Op} {inp : Input} {w w' : Client} {r : Resp o} (ho : o.quiet)
    (h : perform o inp w = some (r, w')) : Quiet w w' := by
  cases o with
  | utcnow | lastSeen =>
      cases h
      exact .refl w
  | post _ _ _ _ =>
      cases h
      exact quiet_meet w _ _
  | recv =>
      cases h
      exact quiet_hear w _ _
  | connect =>
      cases h
      exact quiet_dialled w _ _
  | send _ _ | close | sleep _ =>
      cases h
      exact quiet_tick w _
  | emit _ _ => exact ho.elim

/-- Time does not go back. -/
theorem perform_later {o : Op} {inp : Input} {w w' : Client} {r : Resp o}
    (h : perform o inp w = some (r, w')) : w.clock ≤ w'.clock := by
  by_cases ho : o.quiet
  · exact (perform_quiet ho h).clock
  · cases o with
    | emit coin candle =>
        cases h
        simp
    | _ => exact absurd trivial ho

/-! ## §5. The loop. -/

/-- The stream, in the middle of a round. -/
abbrev Stream := Loop Resp PyErr Phase Client

/-- One action of the stream. -/
abbrev step (symbols : List String) : Stream → Loop.Action Input → Option Stream :=
  Loop.step perform (stream symbols)

/-- The stream starts: `seed_last_seen` was called and nothing was yielded yet. -/
structure Start (mode : Mode) (c : Stream) : Prop where
  task : c.task = .pure mode.start
  yielded : c.world.yielded = []

end Client

/-! ## §6. A sample stream. -/

/-- A candle that opens at `t` seconds. -/
def samplePayload (t : Int) : Payload :=
  [("s", .str "BTC"), ("t", .int (t * 1000)), ("T", .int ((t + 900) * 1000 - 1)),
   ("o", .int 1), ("h", .int 1), ("l", .int 1), ("c", .int 1)]

def sampleMessage (t : Int) : Json :=
  .obj [("channel", .str "candle"), ("data", .obj (samplePayload t))]

/-- The candle at 900 was seen; now it is 3000 seconds. -/
def sampleStream : Client.Stream where
  world :=
    { lastCandleTs := fun symbol => if symbol = "BTC" then some (seconds 900) else none
      clock := seconds 3000
      yielded := []
      log := [] }
  task := .pure (.connecting 1)

/-- A connection, its backfill answered by `reply`, whose candles are yielded. -/
def sampleConnection (reply : RestReply) (emitted : List Input) : List (Loop.Action Input) :=
  [.again, .answer {}, .again, .answer {}, .answer {}, .answer {},
    .answer { reply := reply }] ++ emitted.map .answer

/-- The candle at 2700 arrives when it has closed. -/
def sampleLive : List (Loop.Action Input) :=
  [.again, .answer { elapsed := 600000000, frame := .message (sampleMessage 2700) },
    .answer {}, .answer {}, .answer {}]

/-- The opening times of the candles yielded. -/
def opened (c : Client.Stream) : List Time := c.world.yielded.map fun y => y.candle.timestamp

end Pulse.Ingest
