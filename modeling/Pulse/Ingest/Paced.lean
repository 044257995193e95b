/-
  Pulse.Ingest.Paced
  ──────────────────
  **THE CLIENT PACES ITSELF.**

  However the exchange answers, connects, breaks off or stays silent, the stream leaves
  time between its attempts.  What is assumed is that a sleep lasts as long as it was
  asked to, and that a heartbeat timeout comes no sooner than the timeout.

    • `Traced.perform`   — the handler, keeping the connects and requests made,
    • `Spaced`           — a connect waits for the backoff of the failures before it,
    • `reconnects_paced` — every run in `ws` mode is spaced,
    • `polls_paced`      — every run in `poll` mode asks for each symbol once a minute.
-/
import Pulse.Ingest.Client

namespace Pulse.Ingest.Client

open Pulse.Async

/-! ## §1. The traced client. -/

/-- A connect: when it was tried, and whether it succeeded. -/
structure Dial where
  time : Time
  ok : Bool
  deriving DecidableEq, Repr

/-- The client, its connects and the times of its REST requests, newest first. -/
structure Traced where
  client : Client
  dials : List Dial
  asks : List Time

namespace Traced

/-- The record after operation `o` was answered. -/
def after (s : Traced) (inp : Input) (w : Client) : Op → Traced
  | .connect => { s with client := w, dials := ⟨s.client.clock, inp.fault.isNone⟩ :: s.dials }
  | .post _ _ _ _ => { s with client := w, asks := s.client.clock :: s.asks }
  | _ => { s with client := w }

/-- Answer operation `o`. -/
def perform (o : Op) (inp : Input) (s : Traced) : Option (Resp o × Traced) :=
  (Client.perform o inp s.client).map fun out => (out.1, s.after inp out.2 o)

end Traced

/-- Sleeps last, and the heartbeat timeout is at least `H` microseconds. -/
def OnTime (H : Nat) : Op → Input → Traced → Prop
  | .sleep ms, inp, _ => 1000 * ms ≤ inp.elapsed
  | .recv, inp, _ =>
      match inp.frame with
      | .timeout => H ≤ inp.elapsed
      | _ => True
  | _, _, _ => True

/-- The traced stream. -/
abbrev tracedStep (symbols : List String) :
    Loop Resp PyErr Phase Traced → Loop.Action Input → Option (Loop Resp PyErr Phase Traced) :=
  Loop.step Traced.perform (stream symbols)

/-- Not a connect. -/
def NotConnect : Op → Prop
  | .connect => False
  | _ => True

/-- Not a REST request. -/
def NotPost : Op → Prop
  | .post _ _ _ _ => False
  | _ => True

variable {H : Nat} {s s' : Traced}

/-- Time does not go back. -/
theorem perform_clock {o : Op} {inp : Input} {r : Resp o}
    (h : Traced.perform o inp s = some (r, s')) : s.client.clock ≤ s'.client.clock := by
  obtain ⟨⟨r₀, w⟩, hperf, hout⟩ := Option.map_eq_some_iff.mp h
  obtain ⟨-, rfl⟩ := Prod.mk.inj hout
  have hclock := perform_later hperf
  cases o <;> exact hclock

/-- Without a connect there is no new dial. -/
theorem perform_dials {o : Op} {inp : Input} {r : Resp o} (ho : NotConnect o)
    (h : Traced.perform o inp s = some (r, s')) : s'.dials = s.dials := by
  obtain ⟨⟨r₀, w⟩, hperf, hout⟩ := Option.map_eq_some_iff.mp h
  obtain ⟨-, rfl⟩ := Prod.mk.inj hout
  cases o <;> first | exact ho.elim | rfl

theorem perform_asks {o : Op} {inp : Input} {r : Resp o} (ho : NotPost o)
    (h : Traced.perform o inp s = some (r, s')) : s'.asks = s.asks := by
  obtain ⟨⟨r₀, w⟩, hperf, hout⟩ := Option.map_eq_some_iff.mp h
  obtain ⟨-, rfl⟩ := Prod.mk.inj hout
  cases o <;> first | exact ho.elim | rfl

/-- A sleep lasts. -/
theorem perform_sleep {ms : Nat} {inp : Input} {r : Resp (.sleep ms)}
    (hok : OnTime H (.sleep ms) inp s) (h : Traced.perform (.sleep ms) inp s = some (r, s')) :
    s.client.clock + 1000 * ms ≤ s'.client.clock := by
  obtain ⟨⟨r₀, w⟩, hperf, hout⟩ := Option.map_eq_some_iff.mp h
  obtain ⟨-, rfl⟩ := Prod.mk.inj hout
  obtain ⟨-, rfl⟩ := Prod.mk.inj (Option.some.inj hperf)
  have hlong : 1000 * ms ≤ inp.elapsed := hok
  show s.client.clock + 1000 * ms ≤ s.client.clock + inp.elapsed
  exact Int.add_le_add_left (by exact_mod_cast hlong) _

/-! ## §2. Connects. -/

/-- The connects that have failed in a row. -/
def failures : List Dial → Nat
  | [] => 0
  | d :: ds => if d.ok then 0 else failures ds + 1

/-- The time to leave after the newest connect: at least a second, or the heartbeat timeout,
when it succeeded; when it failed, the backoff of the failures so far. -/
def gap (H : Nat) : List Dial → Nat
  | [] => 0
  | d :: ds => if d.ok then min 1000000 H else min (2 ^ failures ds) 60 * 1000000

/-- By `now` the newest connect is as long ago as its gap. -/
def Waited (H : Nat) (ds : List Dial) (now : Time) : Prop :=
  ∀ d ∈ ds.head?, d.time + gap H ds ≤ now

/-- Every connect waited. -/
def Spaced (H : Nat) : List Dial → Prop
  | [] => True
  | d :: ds => Waited H ds d.time ∧ Spaced H ds

/-- The invariant. -/
structure Pacing (H : Nat) (s : Traced) : Prop where
  spaced : Spaced H s.dials
  past : ∀ d ∈ s.dials.head?, d.time ≤ s.client.clock

/-- Between rounds: the next connect may be made, and another failure is waited for. -/
structure Ready (H backoff : Nat) (s : Traced) : Prop where
  pacing : Pacing H s
  waited : Waited H s.dials s.client.clock
  backoff : min (2 ^ failures s.dials) 60 ≤ backoff

/-- Something failed, and the wait to come is long enough. -/
structure Trouble (H backoff : Nat) (s : Traced) : Prop where
  pacing : Pacing H s
  gap : gap H s.dials ≤ min backoff 60 * 1000000
  backoff : min (2 ^ failures s.dials) 60 ≤ min (backoff * 2) 60

/-- The newest connect is in use. -/
structure InUse (H : Nat) (s : Traced) : Prop where
  pacing : Pacing H s
  ok : ∃ d ds, s.dials = d :: ds ∧ d.ok = true

theorem Pacing.later (h : Pacing H s) (hdials : s'.dials = s.dials)
    (hclock : s.client.clock ≤ s'.client.clock) : Pacing H s' := by
  refine ⟨?_, ?_⟩
  · rw [hdials]
    exact h.spaced
  · rw [hdials]
    exact fun d hd => (h.past d hd).trans hclock

theorem InUse.later (h : InUse H s) (hdials : s'.dials = s.dials)
    (hclock : s.client.clock ≤ s'.client.clock) : InUse H s' := by
  refine ⟨h.pacing.later hdials hclock, ?_⟩
  rw [hdials]
  exact h.ok

theorem InUse.failures (h : InUse H s) : failures s.dials = 0 := by
  obtain ⟨d, ds, hdials, hok⟩ := h.ok
  rw [hdials]
  exact if_pos hok

theorem InUse.gap (h : InUse H s) : gap H s.dials = min 1000000 H := by
  obtain ⟨d, ds, hdials, hok⟩ := h.ok
  rw [hdials]
  exact if_pos hok

/-- A connection that breaks is waited for like a first failure. -/
theorem InUse.trouble (h : InUse H s) : Trouble H 1 s := by
  refine ⟨h.pacing, ?_, ?_⟩
  · rw [h.gap]
    exact Nat.min_le_left _ _
  · rw [h.failures]
    decide

/-! ### One program. -/

variable (H) in
/-- `p` keeps the connects spaced. -/
abbrev pacing {α : Type} (Q : α → Traced → Prop) (E : Traced → Prop) (p : ClientProg α)
    (s : Traced) : Prop :=
  Coro.wp Traced.perform (OnTime H) Eq (fun _ s' => Pacing H s') Q (fun _ => E) p s

/-- On the connection in use. -/
theorem pacing_inUse {α : Type} {ρ : α → Prop} {p : ClientProg α} (hp : p.Uses NotConnect ρ)
    (h : InUse H s) : pacing H (fun a s' => ρ a ∧ InUse H s') (InUse H) p s := by
  refine Coro.wp_of_uses (fun s s' hs hI => hs ▸ hI) (fun o inp t r t' ho _ hperf ht => ?_) hp h
  have ht' := ht.later (perform_dials ho hperf) (perform_clock hperf)
  exact ⟨ht'.pacing, ht'⟩

/-- The phase to go on with, and what is known then. -/
def Hands (H : Nat) : Phase → Traced → Prop
  | .connecting backoff, s => Ready H backoff s
  | .connected, s | .listening, s => InUse H s
  | .polling, _ => False

/-- **After trouble** the next connect has waited. -/
theorem pacing_reconnect {backoff : Nat} (h : Trouble H backoff s) :
    pacing H (Hands H) (fun _ => True) (reconnect backoff) s := by
  intro t hs inp r t' hok hperf
  subst hs
  have hdials := perform_dials (by trivial) hperf
  have hlong := perform_sleep hok hperf
  have hpacing := h.pacing.later hdials (perform_clock hperf)
  refine ⟨hpacing, hpacing, ?_, ?_⟩
  · intro d hd
    rw [hdials] at hd ⊢
    have hpast := h.pacing.past d hd
    have hgap : (gap H s.dials : Int) ≤ 1000 * (1000 * min backoff 60 : Nat) := by
      have hnat := h.gap
      have hnat' : gap H s.dials ≤ 1000 * (1000 * min backoff 60) := by omega
      exact_mod_cast hnat'
    calc d.time + gap H s.dials ≤ s.client.clock + 1000 * (1000 * min backoff 60 : Nat) :=
          Int.add_le_add hpast hgap
      _ ≤ t'.client.clock := hlong
  · rw [hdials]
    exact h.backoff

/-- **A connect** that is due. -/
theorem pacing_connect {backoff : Nat} (h : Ready H backoff s) :
    pacing H (fun _ s' => InUse H s') (Trouble H backoff) connect s := by
  intro t hs inp r t' _ hperf
  subst hs
  have hclock := perform_clock hperf
  obtain ⟨⟨r₀, w⟩, hconnect, hout⟩ := Option.map_eq_some_iff.mp hperf
  obtain ⟨rfl, rfl⟩ := Prod.mk.inj hout
  obtain ⟨hanswer, -⟩ := Prod.mk.inj (Option.some.inj hconnect)
  have hpacing : Pacing H (s.after inp w .connect) := by
    refine ⟨⟨h.waited, h.pacing.spaced⟩, fun d hd => ?_⟩
    obtain rfl := Option.some.inj hd
    exact hclock
  refine ⟨hpacing, ?_⟩
  rw [← hanswer]
  unfold socket
  cases hfault : inp.fault with
  | none => exact ⟨hpacing, _, _, rfl, by rw [hfault]; rfl⟩
  | some e =>
      refine ⟨hpacing, ?_, ?_⟩
      · show gap H (⟨s.client.clock, inp.fault.isNone⟩ :: s.dials) ≤ _
        rw [hfault]
        show min (2 ^ failures s.dials) 60 * 1000000 ≤ min backoff 60 * 1000000
        have hbackoff := h.backoff
        omega
      · show min (2 ^ failures (⟨s.client.clock, inp.fault.isNone⟩ :: s.dials)) 60 ≤ _
        rw [hfault]
        show min (2 ^ (failures s.dials + 1)) 60 ≤ min (backoff * 2) 60
        have hbackoff := h.backoff
        rw [Nat.pow_succ]
        omega

/-! ### The programs between two connects. -/

theorem notConnect_fetchCandles {coin : String} {startTime endTime : Time} {interval : String} :
    (fetchCandles coin startTime endTime interval).Uses NotConnect (fun _ => True) := by
  unfold fetchCandles
  refine Coro.Uses.tryCatch ?_ fun _ => trivial
  exact Coro.Uses.bind (ρ := fun _ => True) ⟨trivial, fun _ => trivial⟩ fun _ _ => .ofExcept _

theorem notConnect_backfillCoin {coin : String} :
    (backfillCoin coin).Uses NotConnect (fun _ => True) := by
  unfold backfillCoin
  refine Coro.Uses.bind (ρ := fun _ => True) ⟨trivial, fun _ => trivial⟩ fun last _ => ?_
  split
  next => trivial
  next last _ =>
    refine Coro.Uses.bind (ρ := fun _ => True) ?_ fun missed _ => ?_
    · refine Coro.Uses.tryCatch ?_ fun _ => trivial
      unfold backfill
      refine Coro.Uses.bind (ρ := fun _ => True) ⟨trivial, fun _ => trivial⟩ fun now _ => ?_
      exact Coro.Uses.bind notConnect_fetchCandles fun _ _ => trivial
    · exact Coro.Uses.forEach fun c _ => ⟨trivial, fun _ => trivial⟩

theorem notConnect_onMessage {msg : Json} :
    (onMessage msg).Uses NotConnect (fun _ => True) := by
  unfold onMessage
  refine Coro.Uses.bind (ρ := fun _ => True) ⟨trivial, fun _ => trivial⟩ fun now _ => ?_
  refine Coro.Uses.bind (ρ := fun _ => True) ⟨trivial, fun _ => trivial⟩ fun last _ => ?_
  refine Coro.Uses.bind (ρ := fun _ => True) (.ofExcept _) fun out _ => ?_
  split
  next => trivial
  next => exact ⟨trivial, fun _ => trivial⟩

/-- After a heartbeat timeout the next connect follows at once: the silence was the wait. -/
theorem pacing_listen (h : InUse H s) : pacing H (Hands H) (InUse H) listen s := by
  unfold listen
  intro t hs inp (frame : Frame) t' hok hperf
  subst hs
  have hinUse := h.later (perform_dials (o := .recv) (by trivial) hperf) (perform_clock hperf)
  refine ⟨hinUse.pacing, ?_⟩
  cases frame with
  | timeout =>
      obtain ⟨⟨r₀, w⟩, hrecv, hout⟩ := Option.map_eq_some_iff.mp hperf
      obtain ⟨hframe, rfl⟩ := Prod.mk.inj hout
      obtain ⟨hinput, rfl⟩ := Prod.mk.inj (Option.some.inj hrecv)
      -- `asyncio.wait_for` took the whole heartbeat
      have hlong : H ≤ inp.elapsed := by
        have hok : match inp.frame with
            | .timeout => H ≤ inp.elapsed
            | _ => True := hok
        rw [show inp.frame = .timeout from hinput.trans hframe] at hok
        exact hok
      -- no gap that is due is longer than that
      have hwaited : Waited H s.dials (s.client.clock + inp.elapsed) := by
        intro d hd
        have hpast := h.pacing.past d hd
        have hgap : gap H s.dials ≤ inp.elapsed := by
          rw [h.gap]
          exact (Nat.min_le_right _ _).trans hlong
        exact Int.add_le_add hpast (by exact_mod_cast hgap)
      show pacing H (Hands H) (InUse H) (close >>= fun _ => pure (.connecting 1)) _
      -- the old connection is closed first
      refine Coro.wp_bind ?_
      intro u hu inp' r u' _ hclose
      subst hu
      have hinUse' := hinUse.later (perform_dials (o := .close) (by trivial) hclose)
        (perform_clock hclose)
      refine ⟨hinUse'.pacing, ?_⟩
      cases r with
      | error e => exact hinUse'
      | ok v =>
          refine ⟨hinUse'.pacing, fun d hd => ?_, ?_⟩
          · rw [perform_dials (o := .close) (by trivial) hclose] at hd ⊢
            have hheard := (clock_hear (s.client.tick inp.elapsed) inp.frame).ge
            exact ((hwaited d hd).trans hheard).trans (perform_clock hclose)
          · rw [hinUse'.failures]
            decide
  | error e => exact hinUse
  | badJson => exact hinUse
  | message msg =>
      show pacing H (Hands H) (InUse H) (onMessage msg >>= fun _ => pure .listening) _
      exact Coro.wp_bind (Coro.wp_mono (fun _ _ hq => hq.2) (fun _ _ he => he)
        (pacing_inUse notConnect_onMessage hinUse))

/-- **A round of the loop.** -/
theorem pacing_stream {symbols : List String} {phase : Phase} (h : Hands H phase s) :
    pacing H (Hands H) (fun _ => True) (stream symbols phase) s := by
  cases phase with
  | polling => exact h.elim
  | connecting backoff =>
      refine Coro.wp_tryCatch (Coro.wp_bind (Coro.wp_mono (fun _ _ hq => hq)
        (fun _ _ he => pacing_reconnect he) (pacing_connect h)))
  | connected =>
      refine Coro.wp_tryCatch (Coro.wp_mono (fun phase t ht => ?_)
        (fun _ _ he => pacing_reconnect he.trouble)
        (pacing_inUse (ρ := fun phase => phase = .listening) ?_ h))
      · obtain ⟨rfl, ht⟩ := ht
        exact ht
      · refine Coro.Uses.bind (ρ := fun _ => True) ?_ fun _ _ => ?_
        · exact Coro.Uses.forEach fun coin _ => ⟨trivial, fun _ => .ofExcept _⟩
        · exact Coro.Uses.bind (ρ := fun _ => True)
            (Coro.Uses.forEach fun coin _ => notConnect_backfillCoin) fun _ _ => rfl
  | listening =>
      exact Coro.wp_tryCatch (Coro.wp_mono (fun _ _ hq => hq)
        (fun _ _ he => pacing_reconnect he.trouble) (pacing_listen h))

/-! ### The runs. -/

theorem min_le_gap (d : Dial) (ds : List Dial) : min 1000000 H ≤ gap H (d :: ds) := by
  by_cases hok : d.ok = true
  · rw [gap, if_pos hok]
  · rw [gap, if_neg hok]
    have hpos : 1 ≤ 2 ^ failures ds := Nat.one_le_two_pow
    omega

/-- In a spaced history each of `n` further connects took the least gap at least. -/
theorem Spaced.span {d : Dial} {ds : List Dial} (h : Spaced H (d :: ds)) :
    ∀ e ∈ (d :: ds).getLast?, e.time + (ds.length * min 1000000 H : Nat) ≤ d.time := by
  induction ds generalizing d with
  | nil =>
      intro e he
      obtain rfl := Option.some.inj he
      simp
  | cons d' ds ih =>
      intro e he
      have hrest := ih h.2 e (by simpa using he)
      have hgap : d'.time + gap H (d' :: ds) ≤ d.time := h.1 d' rfl
      have hleast : ((min 1000000 H : Nat) : Int) ≤ gap H (d' :: ds) := by
        exact_mod_cast min_le_gap d' ds
      calc e.time + ((d' :: ds).length * min 1000000 H : Nat)
          = e.time + (ds.length * min 1000000 H : Nat) + (min 1000000 H : Nat) := by
            rw [List.length_cons, Nat.add_mul, Nat.one_mul, Nat.cast_add, add_assoc]
        _ ≤ d'.time + gap H (d' :: ds) := Int.add_le_add hrest hleast
        _ ≤ d.time := hgap

/-- **Reconnects are paced.**  In every run in `ws` mode each connect waits for the gap after
the one before it: `min (2 ^ (r - 1)) 60` seconds after `r` failures in a row, and a second
or the heartbeat timeout after a connect that succeeded, whatever ended that connection. -/
theorem reconnects_paced {symbols : List String} {c₀ c : Loop Resp PyErr Phase Traced}
    (htask : c₀.task = .pure Mode.ws.start) (hnone : c₀.world.dials = [])
    (hrun : Reaches (tracedStep symbols) (Loop.Meets (OnTime H)) c₀ c) :
    Spaced H c.world.dials ∧
      ∀ d ∈ c.world.dials.head?, ∀ e ∈ c.world.dials.getLast?,
        e.time + ((c.world.dials.length - 1) * min 1000000 H : Nat) ≤ d.time := by
  have hpacing : Pacing H c₀.world := by
    refine ⟨?_, ?_⟩
    · rw [hnone]
      trivial
    · rw [hnone]
      exact fun d hd => absurd hd (by simp)
  -- the first connect waits for nothing
  have hready : Ready H 1 c₀.world := by
    refine ⟨hpacing, ?_, ?_⟩
    · rw [hnone]
      exact fun d hd => absurd hd (by simp)
    · rw [hnone]
      decide
  have h : Pacing H c.world := by
    refine Loop.sound (I := Hands H) (E := fun _ _ => True)
      (fun phase w _ hI => pacing_stream hI) hpacing ?_ hrun
    rw [htask]
    exact hready
  refine ⟨h.spaced, fun d hd e he => ?_⟩
  have hspaced := h.spaced
  -- the sum of the gaps, each at least a second or the heartbeat timeout
  cases hdials : c.world.dials with
  | nil =>
      rw [hdials] at hd
      exact absurd hd (by simp)
  | cons d' ds =>
      rw [hdials] at hd he hspaced
      obtain rfl := Option.some.inj hd
      exact hspaced.span e he

instance decidableOnTime (H : Nat) :
    (o : Op) → (inp : Input) → (s : Traced) → Decidable (OnTime H o inp s)
  | .sleep _, inp, _ => Nat.decLe _ inp.elapsed
  | .recv, ⟨elapsed, _, .timeout, _⟩, _ => Nat.decLe H elapsed
  | .recv, ⟨_, _, .message _, _⟩, _ | .recv, ⟨_, _, .badJson, _⟩, _
  | .recv, ⟨_, _, .error _, _⟩, _ | .utcnow, _, _ | .lastSeen, _, _ | .post _ _ _ _, _, _
  | .connect, _, _ | .send _ _, _, _ | .close, _, _ | .emit _ _, _, _ => .isTrue trivial

/-- The client starts, and nothing was tried. -/
def untried (mode : Mode) : Loop Resp PyErr Phase Traced :=
  ⟨⟨⟨fun _ => none, 0, [], []⟩, [], []⟩, .pure mode.start⟩

/-- Two connects fail, the third succeeds. -/
def thirdTime : List (Loop.Action Input) :=
  [.again, .answer { fault := some ⟨.osError, "refused"⟩ }, .answer { elapsed := 1000000 },
   .again, .answer { fault := some ⟨.osError, "refused"⟩ }, .answer { elapsed := 2000000 },
   .again, .answer {}]

theorem reconnects_paced_third : ∃ c : Loop Resp PyErr Phase Traced,
    c.world.dials = [⟨3000000, true⟩, ⟨1000000, false⟩, ⟨0, false⟩] ∧
    Spaced 45000000 c.world.dials := by
  have hend : (runs (fun c a => if Loop.Meets (OnTime 45000000) c a
      then tracedStep [] c a else none) thirdTime (untried .ws)).any
      (fun c => c.world.dials = [⟨3000000, true⟩, ⟨1000000, false⟩, ⟨0, false⟩]) = true := by
    decide
  obtain ⟨c, hc, htest⟩ := Reaches.exists_of_runs hend
  exact ⟨c, of_decide_eq_true htest, (reconnects_paced rfl rfl hc).1⟩

/-! ## §3. Polls. -/

/-- A minute and the half second after a request. -/
def pollGap : Int := 60500000

/-- A request follows the one for the same symbol in the poll before, and every older one,
at a distance. -/
def AtDistance (n : Nat) : List Time → Prop
  | [] => True
  | t :: ts => (∀ t' ∈ ts.drop (n - 1), t' + pollGap ≤ t) ∧ AtDistance n ts

/-- In a poll of `n` symbols, `k` of them were asked for. -/
structure InPoll (n k : Nat) (s : Traced) : Prop where
  apart : AtDistance n s.asks
  past : ∀ t ∈ s.asks, t ≤ s.client.clock
  before : ∀ t ∈ s.asks.drop k, t + pollGap ≤ s.client.clock

/-- The half second after the last request is over. -/
def HalfSecondOver (s : Traced) : Prop := ∀ t ∈ s.asks, t + 500000 ≤ s.client.clock

variable {n k : Nat}

theorem InPoll.later (h : InPoll n k s) (hasks : s'.asks = s.asks)
    (hclock : s.client.clock ≤ s'.client.clock) : InPoll n k s' := by
  refine ⟨?_, fun t ht => ?_, fun t ht => ?_⟩
  · rw [hasks]
    exact h.apart
  · rw [hasks] at ht
    exact (h.past t ht).trans hclock
  · rw [hasks] at ht
    exact (h.before t ht).trans hclock

/-- The next symbol's request. -/
theorem InPoll.ask (h : InPoll n k s) (hk : k < n) (hasks : s'.asks = s.client.clock :: s.asks)
    (hclock : s.client.clock ≤ s'.client.clock) : InPoll n (k + 1) s' := by
  refine ⟨?_, fun t ht => ?_, fun t ht => ?_⟩
  · rw [hasks]
    refine ⟨fun t ht => h.before t ?_, h.apart⟩
    exact (List.drop_subset_drop_left s.asks (by omega)) ht
  · rw [hasks] at ht
    rcases List.mem_cons.mp ht with rfl | hold
    · exact hclock
    · exact (h.past t hold).trans hclock
  · rw [hasks, List.drop_succ_cons] at ht
    exact (h.before t ht).trans hclock

variable (H n) in
/-- `p` raises nothing and keeps the requests apart. -/
abbrev polling {α : Type} (Q : α → Traced → Prop) (p : ClientProg α) (s : Traced) : Prop :=
  Coro.wp Traced.perform (OnTime H) Eq (fun _ s' => AtDistance n s'.asks) Q (fun _ _ => False) p s

/-- An operation that is no request. -/
theorem polling_op {α : Type} {Q : α → Traced → Prop} {o : Op} {f : Resp o → ClientProg α}
    (ho : NotPost o) (h : InPoll n k s)
    (hf : ∀ r s', InPoll n k s' → polling H n Q (f r) s') : polling H n Q (.await o f) s := by
  intro t hs inp r t' _ hperf
  subst hs
  have ht' := h.later (perform_asks ho hperf) (perform_clock hperf)
  exact ⟨ht'.apart, hf r t' ht'⟩

/-- **The request for the next symbol**; `fetch_latest_candle` raises nothing. -/
theorem polling_fetchLatestCandle {coin : String} (h : InPoll n k s) (hk : k < n) :
    polling H n (fun _ s' => InPoll n (k + 1) s') (fetchLatestCandle coin) s := by
  unfold fetchLatestCandle
  refine polling_op (by trivial) h fun now s₁ h₁ => Coro.wp_tryCatch ?_
  intro t hs inp reply t' _ hperf
  subst hs
  have hasks : t'.asks = s₁.client.clock :: s₁.asks := by
    obtain ⟨⟨r₀, w⟩, -, hout⟩ := Option.map_eq_some_iff.mp hperf
    obtain ⟨-, rfl⟩ := Prod.mk.inj hout
    rfl
  have ht' := h₁.ask hk hasks (perform_clock hperf)
  refine ⟨ht'.apart, ?_⟩
  show Coro.wp _ _ _ _ _ _ (Coro.ofExcept (latestOfReply coin reply)) t'
  cases latestOfReply coin reply with
  | ok c => exact ht'
  | error e => exact ht'

theorem polling_sleep {ms : Nat} (h : InPoll n k s) :
    polling H n (fun _ s' => InPoll n k s' ∧ s'.asks = s.asks ∧
      s.client.clock + 1000 * ms ≤ s'.client.clock) (sleep ms) s := by
  intro t hs inp r t' hok hperf
  subst hs
  have hasks := perform_asks (o := .sleep ms) (by trivial) hperf
  have ht' := h.later hasks (perform_clock hperf)
  exact ⟨ht'.apart, ht', hasks, perform_sleep hok hperf⟩

/-- One symbol of a poll. -/
theorem polling_pollCoin {coin : String} (h : InPoll n k s) (hk : k < n) :
    polling H n (fun _ s' => InPoll n (k + 1) s' ∧ HalfSecondOver s') (pollCoin coin) s := by
  have hsleep : ∀ u, InPoll n (k + 1) u →
      polling H n (fun _ s' => InPoll n (k + 1) s' ∧ HalfSecondOver s') (sleep 500) u := by
    intro u hu
    refine Coro.wp_mono (fun _ v hv => ⟨hv.1, fun t ht => ?_⟩) (fun _ _ he => he)
      (polling_sleep hu)
    rw [hv.2.1] at ht
    exact (Int.add_le_add_right (hu.past t ht) _).trans hv.2.2
  unfold pollCoin
  refine Coro.wp_bind (Coro.wp_mono (fun out u hu => ?_) (fun _ _ he => he)
    (polling_fetchLatestCandle h hk))
  cases out with
  | none => exact hsleep u hu
  | some candle =>
      refine polling_op (o := .lastSeen) (by trivial) hu fun last v hv => ?_
      show polling H n _ (if isNewer (last coin) candle = true
        then emit coin candle >>= fun _ => sleep 500 else sleep 500) v
      split
      next => exact polling_op (o := .emit coin candle) (by trivial) hv fun _ x hx => hsleep x hx
      next => exact hsleep v hv

/-- **A poll**, and the minute after it. -/
theorem polling_round {symbols : List String} (h : InPoll symbols.length 0 s) :
    polling H symbols.length (fun phase s' => phase = .polling ∧ InPoll symbols.length 0 s')
      (stream symbols .polling) s := by
  refine Coro.wp_tryCatch (Coro.wp_bind (Coro.wp_mono (fun _ u hu => ?_) (fun _ _ he => False.elim he)
    (Coro.wp_forEach (I := fun rest u => HalfSecondOver u ∧
      ∃ k, k + rest.length = symbols.length ∧ InPoll symbols.length k u) ?_ symbols s
      ⟨fun t ht => ?_, 0, by simp, h⟩)))
  · obtain ⟨hrested, k, hk, hu⟩ := hu
    refine Coro.wp_bind (Coro.wp_mono (fun _ v hv => ⟨rfl, hv.1.apart, hv.1.past, fun t ht => ?_⟩)
      (fun _ _ he => False.elim he) (polling_sleep hu))
    have ht : t ∈ u.asks := by
      rw [List.drop_zero, hv.2.1] at ht
      exact ht
    calc t + pollGap = t + 500000 + 1000 * (60000 : Nat) := by
          show t + 60500000 = t + 500000 + 1000 * 60000
          rw [add_assoc]
          rfl
      _ ≤ u.client.clock + 1000 * (60000 : Nat) := Int.add_le_add_right (hrested t ht) _
      _ ≤ v.client.clock := hv.2.2
  · intro coin rest u ⟨_, k, hk, hu⟩
    have hlen : k < symbols.length := by
      rw [← hk, List.length_cons]
      omega
    refine Coro.wp_mono (fun _ v hv => ⟨hv.2, k + 1, ?_, hv.1⟩) (fun _ _ he => he)
      (polling_pollCoin hu hlen)
    rw [← hk, List.length_cons]
    omega
  · have hbefore := h.before t (by rw [List.drop_zero]; exact ht)
    exact (Int.add_le_add_left (by decide) t).trans hbefore

/-- Any two requests that lie `n` places apart. -/
theorem AtDistance.get {ts : List Time} (h : AtDistance n ts) (hn : 0 < n) {i : Nat} {t t' : Time}
    (ht : ts[i]? = some t) (ht' : ts[i + n]? = some t') : t' + pollGap ≤ t := by
  induction ts generalizing i with
  | nil => exact absurd ht (by simp)
  | cons u ts ih =>
      cases i with
      | zero =>
          obtain rfl := Option.some.inj ht
          refine h.1 t' (List.mem_of_getElem? (i := 0) ?_)
          rw [List.getElem?_drop]
          obtain ⟨m, rfl⟩ := Nat.exists_eq_add_of_lt hn
          simpa using ht'
      | succ i =>
          refine ih h.2 (i := i) (by simpa using ht) ?_
          rw [Nat.succ_add, List.getElem?_cons_succ] at ht'
          exact ht'

/-- **Polls are paced.**  In every run in `poll` mode each request comes at least a minute and
a half second after the one that lies as many requests back as there are symbols: that for
the same symbol, a poll earlier. -/
theorem polls_paced {symbols : List String} {c₀ c : Loop Resp PyErr Phase Traced}
    (htask : c₀.task = .pure Mode.poll.start) (hnone : c₀.world.asks = [])
    (hsymbols : symbols ≠ [])
    (hrun : Reaches (tracedStep symbols) (Loop.Meets (OnTime H)) c₀ c) :
    ∀ (i : Nat) (t t' : Time), c.world.asks[i]? = some t →
      c.world.asks[i + symbols.length]? = some t' → t' + pollGap ≤ t := by
  have hstart : InPoll symbols.length 0 c₀.world := by
    refine ⟨?_, ?_, ?_⟩
    · rw [hnone]
      trivial
    · rw [hnone]
      exact fun t ht => absurd ht (by simp)
    · rw [hnone]
      exact fun t ht => absurd ht (by simp)
  have h : AtDistance symbols.length c.world.asks := by
    refine Loop.sound (J := fun w => AtDistance symbols.length w.asks)
      (I := fun phase w => phase = .polling ∧ InPoll symbols.length 0 w) (E := fun _ _ => False)
      (fun phase w _ hI => ?_) hstart.apart ?_ hrun
    · obtain ⟨rfl, hw⟩ := hI
      exact polling_round hw
    · rw [htask]
      exact ⟨rfl, hstart⟩
  intro i t t' ht ht'
  exact h.get (List.length_pos_iff.mpr hsymbols) ht ht'

/-- Two polls of two symbols. -/
def twoPolls : List (Loop.Action Input) :=
  let coin : List (Loop.Action Input) := [.answer {}, .answer {}, .answer { elapsed := 500000 }]
  let poll : List (Loop.Action Input) := [.again] ++ coin ++ coin ++
    [.answer { elapsed := 60000000 }]
  poll ++ poll

theorem polls_paced_twice : ∃ c : Loop Resp PyErr Phase Traced,
    c.world.asks = [61500000, 61000000, 500000, 0] ∧
    ∀ (i : Nat) (t t' : Time), c.world.asks[i]? = some t →
      c.world.asks[i + 2]? = some t' → t' + pollGap ≤ t := by
  have hend : (runs (fun c a => if Loop.Meets (OnTime 0) c a
      then tracedStep ["BTC", "ETH"] c a else none) twoPolls (untried .poll)).any
      (fun c => c.world.asks = [61500000, 61000000, 500000, 0]) = true := by decide
  obtain ⟨c, hc, htest⟩ := Reaches.exists_of_runs hend
  exact ⟨c, of_decide_eq_true htest, polls_paced rfl rfl (by simp) hc⟩

end Pulse.Ingest.Client
