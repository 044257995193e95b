/-
  Pulse.Api.RateLimit
  ───────────────────
  **THE FIXED-WINDOW COUNTER.**

  `api/ratelimit.py`: a request reads the clock, increments the key of its bucket
  and minute in Redis, and sets a TTL when it was the first.  Requests of any
  number of clients interleave at these commands, and Redis drops a key once its
  TTL is over.

    • `checkRateLimit`   — the source's function, one operation per command,
    • `Limiter.perform`  — the module's client and Redis,
    • `System.step`      — requests, answers, time and dropped keys.
-/
import Pulse.Api.Middleware
import Pulse.Async.Pool

namespace Pulse.RateLimit

open Pulse.Async Pulse.Api

/-! ## §1. The function. -/

inductive Op where
  /-- `_redis_client is not None`. -/
  | cachedClient
  /-- Import the package, `from_url`, `ping`. -/
  | connect (redisUrl : Option String)
  /-- `_redis_client = client`. -/
  | cacheClient
  /-- `time.time()`. -/
  | time
  /-- `INCR`. -/
  | incr (key : String)
  /-- `EXPIRE`, in seconds. -/
  | expire (key : String) (ttl : Nat)

abbrev Resp : Op → Type
  | .cachedClient => Bool
  | .connect _ => Except PyErr Unit
  | .cacheClient => Unit
  | .time => Time
  | .incr _ => Except PyErr Nat
  | .expire _ _ => Except PyErr Unit

abbrev Prog := Coro Resp PyErr

def cachedClient : Prog Bool := .await .cachedClient .pure

def connect (redisUrl : Option String) : Prog Unit := .await (.connect redisUrl) .ofExcept

def cacheClient : Prog Unit := .await .cacheClient .pure

def time : Prog Time := .await .time .pure

def incr (key : String) : Prog Nat := .await (.incr key) .ofExcept

def expire (key : String) (ttl : Nat) : Prog Unit := .await (.expire key ttl) .ofExcept

/-- `_get_client`: is there a client? -/
def getClient (redisUrl : Option String) : Prog Bool := do
  if ← cachedClient then pure true
  else if !isSet redisUrl then pure false
  else
    try
      connect redisUrl
      cacheClient
      pure true
    catch _ => pure false

/-- `int(time.time())`. -/
def secondsOf (t : Time) : Int := t.tdiv second

/-- `now // 60`, the divisor being positive. -/
def windowOf (t : Time) : Int := secondsOf t / 60

/-- `f"rl:{bucket_id}:{window}"`. -/
def keyOf (bucketId : String) (window : Int) : String := s!"rl:{bucketId}:{window}"

/-- What is answered when nothing was counted. -/
def failOpen (limitPerMinute resetIn : Int) : RateLimitResult :=
  ⟨true, limitPerMinute, limitPerMinute, resetIn⟩

/-- What is answered to the `count`-th request of a window. -/
def verdict (limitPerMinute : Int) (count : Nat) (resetIn : Int) : RateLimitResult where
  allowed := count ≤ limitPerMinute
  limit := limitPerMinute
  remaining := max 0 (limitPerMinute - count)
  resetIn := resetIn

/-- The two commands; `None` for an exception. -/
def countRequest (key : String) : Prog (Option Nat) := do
  try
    let count ← incr key
    if count = 1 then
      expire key 61
    pure (some count)
  catch _ => pure none

/-- `check_rate_limit`. -/
def checkRateLimit (redisUrl : Option String) (bucketId : String) (limitPerMinute : Int) :
    Prog RateLimitResult := do
  if !(← getClient redisUrl) then pure (failOpen limitPerMinute 60)
  else
    let t ← time
    let now := secondsOf t
    let window := windowOf t
    let resetIn := 60 - now % 60
    match ← countRequest (keyOf bucketId window) with
    | none => pure (failOpen limitPerMinute resetIn)
    | some count => pure (verdict limitPerMinute count resetIn)

/-! ## §2. The client and Redis. -/

/-- A counter and the time its TTL is over. -/
structure Entry where
  count : Nat
  expiresAt : Option Time
  deriving DecidableEq, Repr

/-- Redis, the clock that it shares with the application, and the module's cached
client; next to them what each request read and what its `INCR` answered. -/
structure Limiter (ι : Type) where
  keys : String → Option Entry
  clock : Time
  cached : Bool
  /-- The clock reading of a request. -/
  reading : ι → Option Time
  /-- The key a request incremented, and the answer. -/
  counted : ι → Option (String × Nat)

namespace Limiter

variable {ι : Type} [DecidableEq ι]

/-- The TTL of an entry is over. -/
def overdue (s : Limiter ι) (e : Entry) : Bool := e.expiresAt.any fun t => t ≤ s.clock

/-- What Redis finds under a key. -/
def live (s : Limiter ι) (key : String) : Option Entry :=
  (s.keys key).filter fun e => !s.overdue e

/-- The count after one more `INCR`. -/
def next (s : Limiter ι) (key : String) : Nat := ((s.live key).map Entry.count).getD 0 + 1

/-- The entry under `key` becomes `e`. -/
def put (s : Limiter ι) (key : String) (e : Entry) : Limiter ι :=
  { s with keys := Function.update s.keys key (some e) }

/-- Request `i` reads the clock. -/
def read (s : Limiter ι) (i : ι) : Limiter ι :=
  { s with reading := Function.update s.reading i (some s.clock) }

/-- Request `i` increments `key`. -/
def count (s : Limiter ι) (i : ι) (key : String) : Limiter ι :=
  { s.put key ⟨s.next key, (s.live key).bind Entry.expiresAt⟩ with
    counted := Function.update s.counted i (some (key, s.next key)) }

/-- The TTL of `key` is set, if the key is there. -/
def touch (s : Limiter ι) (key : String) (ttl : Nat) : Limiter ι :=
  match s.live key with
  | none => s
  | some e => s.put key { e with expiresAt := some (s.clock + seconds ttl) }

/-- A command of Redis may fail without effect. -/
structure Input where
  fault : Option PyErr := none

/-- Answer an operation of request `i`. -/
def perform (i : ι) : (o : Op) → Input → Limiter ι → Option (Resp o × Limiter ι)
  | .cachedClient, _, s => some (s.cached, s)
  | .connect _, inp, s =>
      some (match inp.fault with
        | some e => (.error e, s)
        | none => (.ok (), s))
  | .cacheClient, _, s => some ((), { s with cached := true })
  | .time, _, s => some (s.clock, s.read i)
  | .incr key, inp, s =>
      some (match inp.fault with
        | some e => (.error e, s)
        | none => (.ok (s.next key), s.count i key))
  | .expire key ttl, inp, s =>
      some (match inp.fault with
        | some e => (.error e, s)
        | none => (.ok (), s.touch key ttl))

end Limiter

/-! ## §3. Requests that interleave. -/

/-- The arguments of one call. -/
structure Query where
  redisUrl : Option String
  bucketId : String
  limitPerMinute : Int
  deriving DecidableEq, Repr

/-- The requests `ι`, those that were made and how far they have come. -/
structure System (ι : Type) where
  pool : Pool ι Resp PyErr RateLimitResult (Limiter ι)
  asked : ι → Option Query

namespace System

inductive Action (ι : Type) where
  /-- Request `i` comes in. -/
  | request (i : ι) (q : Query)
  /-- The operation that request `i` awaits is answered. -/
  | answer (i : ι) (inp : Limiter.Input)
  /-- Time passes. -/
  | tick (n : Nat)
  /-- Redis drops a key whose TTL is over. -/
  | drop (key : String)

variable {ι : Type} [DecidableEq ι]

abbrev limiter (c : System ι) : Limiter ι := c.pool.world

abbrev task (c : System ι) (i : ι) : Prog RateLimitResult := c.pool.task i

/-- Redis and the clock become `s`. -/
def env (c : System ι) (s : Limiter ι) : System ι :=
  { c with pool := { c.pool with world := s } }

/-- One action. -/
def step (c : System ι) : Action ι → Option (System ι)
  | .request i q =>
      if (c.asked i).isNone then
        some
          { pool := c.pool.assign i (checkRateLimit q.redisUrl q.bucketId q.limitPerMinute)
            asked := Function.update c.asked i (some q) }
      else none
  | .answer i inp =>
      (c.pool.answer Limiter.perform i inp).map fun pool => { c with pool := pool }
  | .tick n => some (c.env { c.limiter with clock := c.limiter.clock + n })
  | .drop key =>
      if (c.limiter.keys key).any c.limiter.overdue then
        some (c.env { c.limiter with keys := Function.update c.limiter.keys key none })
      else none

section Cases

variable {c c' : System ι} {i : ι}

/-- Request `i` comes in for the first time, and `check_rate_limit` is called. -/
theorem request_cases {q : Query} (hstep : step c (.request i q) = some c') :
    c.asked i = none ∧ c' =
      { pool := c.pool.assign i (checkRateLimit q.redisUrl q.bucketId q.limitPerMinute)
        asked := Function.update c.asked i (some q) } := by
  simp only [step] at hstep
  split at hstep
  next hnone => exact ⟨Option.isNone_iff_eq_none.mp hnone, (Option.some.inj hstep).symm⟩
  next => exact absurd hstep (by simp)

/-- Request `i` is answered what it awaits, and the others stay where they are. -/
theorem answer_cases {inp : Limiter.Input} (hstep : step c (.answer i inp) = some c') :
    ∃ o k r pool, c' = { c with pool := pool } ∧ c.task i = .await o k ∧
      Limiter.perform i o inp c.limiter = some (r, pool.world) ∧ pool.task i = k r ∧
      ∀ j, j ≠ i → pool.task j = c.task j := by
  obtain ⟨pool, hpool, rfl⟩ := Option.map_eq_some_iff.mp hstep
  obtain ⟨o, k, r, ht, hperf, htask, hother⟩ := Pool.answer_cases hpool
  exact ⟨o, k, r, pool, rfl, ht, hperf, htask, hother⟩

/-- A key is dropped, and its TTL was over. -/
theorem drop_cases {key : String} (hstep : step c (.drop key) = some c') :
    (c.limiter.keys key).any c.limiter.overdue = true ∧
      c' = c.env { c.limiter with keys := Function.update c.limiter.keys key none } := by
  simp only [step] at hstep
  split at hstep
  next hover => exact ⟨hover, (Option.some.inj hstep).symm⟩
  next => exact absurd hstep (by simp)

end Cases

/-- The task is about to increment. -/
def increments : Prog RateLimitResult → Bool
  | .await (.incr _) _ => true
  | _ => false

/-- Redis is configured and answers, and an `INCR` is executed at most one second
after its request read the time. -/
def Prompt (c : System ι) : Action ι → Prop
  | .request _ q => isSet q.redisUrl = true
  | .answer i inp => inp.fault = none ∧ (increments (c.task i) = true →
      ∀ t ∈ c.limiter.reading i, c.limiter.clock ≤ t + second)
  | _ => True

/-- No request yet, nothing in Redis, and the clock is past the epoch. -/
structure Start (c : System ι) : Prop where
  asked : ∀ i, c.asked i = none
  idle : ∀ i, (c.task i).finished = true
  keys : ∀ key, c.limiter.keys key = none
  reading : ∀ i, c.limiter.reading i = none
  counted : ∀ i, c.limiter.counted i = none
  clock : 0 ≤ c.limiter.clock

/-- Nothing has happened yet, at time `t`. -/
def initial (t : Time) : System ι where
  pool :=
    { world := ⟨fun _ => none, t, false, fun _ => none, fun _ => none⟩
      task := fun _ => .pure (failOpen 0 0) }
  asked := fun _ => none

omit [DecidableEq ι] in
theorem start_initial {t : Time} (h : 0 ≤ t) : Start (initial t : System ι) :=
  ⟨fun _ => rfl, fun _ => rfl, fun _ => rfl, fun _ => rfl, fun _ => rfl, h⟩

/-- Request `i` for bucket `b` was answered with `result`. -/
def Answered (c : System ι) (b : String) (i : ι) (result : RateLimitResult) : Prop :=
  (∃ q ∈ c.asked i, q.bucketId = b) ∧ c.task i = .pure result

/-- Request `i` for bucket `b` was allowed. -/
def Allowed (c : System ι) (b : String) (i : ι) : Prop :=
  ∃ result, c.Answered b i result ∧ result.allowed = true

instance (c : System ι) : (act : Action ι) → Decidable (Prompt c act)
  | .request _ q => inferInstanceAs (Decidable (isSet q.redisUrl = true))
  | .answer i inp => inferInstanceAs (Decidable (inp.fault = none ∧
      (increments (c.task i) = true →
        ∀ t ∈ c.limiter.reading i, c.limiter.clock ≤ t + second)))
  | .tick _ | .drop _ => inferInstanceAs (Decidable True)

end System

end Pulse.RateLimit
