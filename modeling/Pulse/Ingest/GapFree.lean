/-
  Pulse.Ingest.GapFree
  ────────────────────
  **NO GAP IN THE STREAM.**

  The map of last candles is advanced by the backfill, which reports what it
  passes over, and by live messages, which do not look back.

    • `Offered`      — a message brought a candle, a request fetched it, or it
                       had closed when the socket was opened,
    • `no_gap`       — the stream has no gap as long as messages only come after
                       all earlier candles were offered,
    • `no_gap_fails` — a backfill that fails, and then a live candle.
-/
import Pulse.Ingest.Rounds

namespace Pulse.Ingest

open Pulse.Async Pulse.Ingest.Client

/-! ## §1. The exchange. -/

/-- The open times of the exchange's candles: datetimes on the grid of 15 minutes. -/
structure Exchange where
  bars : String → Set Time
  onGrid : ∀ symbol, ∀ b ∈ bars symbol, ∃ k : Int, b = k * seconds 900
  calendar : ∀ symbol, ∀ b ∈ bars symbol, seconds minSecond ≤ b ∧ b ≤ seconds maxSecond

variable {x : Exchange} {symbol : String} {b t : Time}

theorem grid_apart {k m : Int} (h : k * seconds 900 < m * seconds 900) :
    k * seconds 900 + seconds 900 ≤ m * seconds 900 := by
  simp only [seconds, second] at h ⊢
  omega

/-- Candles do not overlap. -/
theorem Exchange.closed_before (x : Exchange) (hb : b ∈ x.bars symbol)
    (ht : t ∈ x.bars symbol) (h : b < t) : b + seconds 900 ≤ t := by
  obtain ⟨k, rfl⟩ := x.onGrid symbol b hb
  obtain ⟨m, rfl⟩ := x.onGrid symbol t ht
  exact grid_apart h

/-- A candle after `t` is in every range that starts at `t`, in milliseconds. -/
theorem Exchange.from_ms (x : Exchange) (hb : b ∈ x.bars symbol) (h : t < b) :
    toMs t * 1000 ≤ b := by
  have hcalendar := x.calendar symbol b hb
  obtain ⟨k, rfl⟩ := x.onGrid symbol b hb
  have hgrid : k * seconds 900 = seconds (900 * k) := by
    simp only [seconds, second]
    omega
  rw [hgrid] at h hcalendar ⊢
  have hk := representable_of_calendar (n := 0) (by decide) hcalendar
  rw [Int.add_zero] at hk
  have hms := toMs_le_of_le hk h.le
  simp only [seconds, second]
  omega

/-- A candle that has closed by `t` closes in a range that ends at `t`, in milliseconds. -/
theorem Exchange.to_ms (x : Exchange) (hb : b ∈ x.bars symbol) (h : b + seconds 900 ≤ t) :
    b + seconds 900 ≤ toMs t * 1000 := by
  have hcalendar := x.calendar symbol b hb
  obtain ⟨k, rfl⟩ := x.onGrid symbol b hb
  have hopen : k * seconds 900 = seconds (900 * k) := by
    simp only [seconds, second]
    omega
  have hgrid : k * seconds 900 + seconds 900 = seconds (900 * k + 900) := by
    simp only [seconds, second]
    omega
  rw [hopen] at hcalendar
  rw [hgrid] at h ⊢
  have hms := le_toMs_of_le (representable_of_calendar (by decide) hcalendar) h
  show (900 * k + 900) * 1000000 ≤ toMs t * 1000
  omega

/-- The candles of the reply to a request for a range. -/
structure Lists (x : Exchange) (coin : String) (startMs endMs : Int)
    (candles : List Candle) : Prop where
  genuine : ∀ c ∈ candles, c.timestamp ∈ x.bars coin ∧ c.timestamp ≤ endMs * 1000
  complete : ∀ b ∈ x.bars coin, startMs * 1000 ≤ b → b + seconds 900 ≤ endMs * 1000 →
    b ∈ candles.map Candle.timestamp

/-- A REST request fails or returns every candle of the range. -/
def Answers (x : Exchange) (coin : String) (startMs endMs : Int) : RestReply → Prop
  | .error _ => True
  | .response statusCode body =>
      if statusCode ≠ 200 then True
      else
        match candlesOfReply coin 900 (.response statusCode body) with
        | .ok candles => Lists x coin startMs endMs candles
        | .error _ => True

/-- A REST request that did not fail. -/
def Succeeds (coin : String) : RestReply → Prop
  | .error _ => False
  | .response statusCode body =>
      statusCode = 200 ∧ (candlesOfReply coin 900 (.response statusCode body)).isOk

/-- What is read out of a reply to a request that did not fail. -/
theorem Answers.lists {coin : String} {startMs endMs : Int} {reply : RestReply}
    {candles : List Candle} (h : Answers x (upper coin) startMs endMs reply)
    (hsucceeds : Succeeds (upper coin) reply)
    (hcandles : candlesOfReply coin 900 reply = .ok candles) :
    Lists x (upper coin) startMs endMs candles := by
  cases reply with
  | error e => exact hsucceeds.elim
  | response statusCode body =>
      obtain ⟨hstatus, -⟩ := hsucceeds
      simp only [Answers, hstatus, ne_eq, not_true, if_false, candlesOfReply_upper] at h
      rw [hstatus] at hcandles
      rw [hcandles] at h
      exact h

/-- Nothing is read out of the others. -/
theorem candles_of_failed {coin : String} {reply : RestReply} {candles : List Candle}
    (hfail : ¬ Succeeds (upper coin) reply) (hcandles : candlesOfReply coin 900 reply = .ok candles) :
    candles = [] := by
  cases reply with
  | error e => exact absurd hcandles (by simp [candlesOfReply, dataOfReply, bind, Except.bind])
  | response statusCode body =>
      by_cases hstatus : statusCode = 200
      · refine absurd ⟨hstatus, ?_⟩ hfail
        rw [candlesOfReply_upper, hcandles]
        rfl
      · rw [candlesOfReply_status hstatus] at hcandles
        exact (Except.ok.inj hcandles).symm

theorem not_succeeds_of_error {coin : String} {reply : RestReply} {e : PyErr}
    (h : candlesOfReply coin 900 reply = .error e) : ¬ Succeeds (upper coin) reply := by
  cases reply with
  | error e => exact id
  | response statusCode body =>
      rintro ⟨-, hok⟩
      rw [candlesOfReply_upper, h] at hok
      exact absurd hok (by simp [Except.isOk, Except.toBool])

/-! ## §2. What is asked, and on which condition it holds. -/

/-- A configured symbol whose last-seen timestamp was `s` when the stream started. -/
def Followed (symbols : List String) (seeds : String → Option Time) (symbol : String)
    (s : Time) : Prop :=
  seeds symbol = some s ∧ symbol ∈ symbols.map upper

/-- The candle was yielded. -/
def Seen (yielded : List Yielded) (symbol : String) (b : Time) : Prop :=
  ∃ y ∈ yielded, y.candle.symbol = symbol ∧ y.candle.timestamp = b

/-- Whenever a candle of a followed symbol was yielded, every exchange candle since
the start that opened before it and had closed by then had been yielded. -/
def GapFree (x : Exchange) (symbols : List String) (seeds : String → Option Time)
    (yielded : List Yielded) : Prop :=
  ∀ before y, before ++ [y] <+: yielded → ∀ s, Followed symbols seeds y.candle.symbol s →
    ∀ b ∈ x.bars y.candle.symbol, s < b → b < y.candle.timestamp →
      b + seconds 900 ≤ y.time → Seen before y.candle.symbol b

/-- The assumption on REST. -/
def Rest (x : Exchange) : Op → Input → Client → Prop
  | .post coin _ startMs endMs, inp, _ => Answers x coin startMs endMs inp.reply
  | _, _, _ => True

/-- What a message brings at this time: a candle of a coin that has closed, by its
opening time. -/
def brought (now : Time) (msg : Json) : Option (String × Time) :=
  match candlePayload msg with
  | none => none
  | some data =>
      match coinOf data, isClosed (nowMs now) data with
      | .ok coin, .ok true =>
          if coin = "" then none
          else
            match candleFromDict coin data 900 with
            | .ok (some c) => some (coin, c.timestamp)
            | _ => none
      | _, _ => none

namespace Event

def Opens : Event → Prop
  | .opened _ => True
  | _ => False

/-- A message that brings the candle of the coin that opens at `b`. -/
def Brings (coin : String) (b : Time) : Event → Prop
  | .message now msg => brought now msg = some (coin, b)
  | _ => False

/-- A request of the coin that reached over the candle and did not fail. -/
def Fetches (coin : String) (b : Time) : Event → Prop
  | .answered asked endMs reply =>
      asked = coin ∧ b + seconds 900 ≤ endMs * 1000 ∧ Succeeds coin reply
  | _ => False

/-- A request of the coin that failed. -/
def Fails (coin : String) : Event → Prop
  | .answered asked _ reply => asked = coin ∧ ¬ Succeeds coin reply
  | _ => False

end Event

/-- A connection, and what was met since it was opened. -/
structure Connection where
  openedAt : Time
  since : List Event

/-- The connection after one more event. -/
def Connection.next : Option Connection → Event → Option Connection
  | _, .opened time => some ⟨time, []⟩
  | conn, e => conn.map fun c => { c with since := c.since ++ [e] }

/-- The last connection that was opened. -/
def connection (log : List Event) : Option Connection := log.foldl Connection.next none

/-- The candle had closed when the socket was opened, and no request of its coin failed
since. -/
def Connection.Covers (coin : String) (b : Time) : Option Connection → Prop
  | none => False
  | some conn => b + seconds 900 ≤ conn.openedAt ∧ ∀ e ∈ conn.since, ¬ e.Fails coin

/-- An earlier message brought the candle, or a request fetched it. -/
def Met (log : List Event) (coin : String) (b : Time) : Prop :=
  ∃ e ∈ log, e.Brings coin b ∨ e.Fetches coin b

/-- Nothing keeps the candle from the client. -/
def Offered (log : List Event) (coin : String) (b : Time) : Prop :=
  Met log coin b ∨ Connection.Covers coin b (connection log)

/-- A message that brings a candle of a followed symbol comes after all the earlier ones
were offered. -/
def Unbroken (x : Exchange) (symbols : List String) (seeds : String → Option Time)
    (w : Client) (now : Time) : Frame → Prop
  | .message msg =>
      ∀ arrival ∈ brought now msg, ∀ s ∈ seeds arrival.1, arrival.1 ∈ symbols.map upper →
        ∀ b ∈ x.bars arrival.1, s < b → b < arrival.2 → Offered w.log arrival.1 b
  | _ => True

/-- REST behaves, and messages come in turn. -/
def Orderly (x : Exchange) (symbols : List String) (seeds : String → Option Time)
    (o : Op) (inp : Input) (w : Client) : Prop :=
  Rest x o inp w ∧
    match o with
    | .recv => Unbroken x symbols seeds w (w.clock + inp.elapsed) inp.frame
    | _ => True

/-! ## §3. The invariant. -/

variable {symbols : List String} {seeds : String → Option Time} {w w' : Client}

/-- Nothing is missing up to the last candle seen. -/
structure NoGap (x : Exchange) (symbols : List String) (seeds : String → Option Time)
    (w : Client) : Prop where
  gapFree : GapFree x symbols seeds w.yielded
  reached : ∀ symbol s, Followed symbols seeds symbol s →
    ∃ last, w.lastCandleTs symbol = some last ∧ s ≤ last ∧
      ∀ b ∈ x.bars symbol, s < b → b ≤ last → Seen w.yielded symbol b

theorem NoGap.quiet (h : NoGap x symbols seeds w) (hq : Quiet w w') :
    NoGap x symbols seeds w' := by
  refine ⟨?_, ?_⟩
  · rw [hq.yielded]
    exact h.gapFree
  · rw [hq.lastCandleTs, hq.yielded]
    exact h.reached

theorem Seen.mono {ys zs : List Yielded} (h : Seen ys symbol b) (hsub : ys ⊆ zs) :
    Seen zs symbol b := by
  obtain ⟨y, hy, hsymbol, hb⟩ := h
  exact ⟨y, hsub hy, hsymbol, hb⟩

/-- One more candle, with nothing missing before it. -/
theorem GapFree.concat {ys : List Yielded} {y : Yielded} (h : GapFree x symbols seeds ys)
    (hy : ∀ s, Followed symbols seeds y.candle.symbol s →
      ∀ b ∈ x.bars y.candle.symbol, s < b → b < y.candle.timestamp →
        Seen ys y.candle.symbol b) :
    GapFree x symbols seeds (ys ++ [y]) := by
  intro before z hprefix s hs b hb hlow hhigh hclosed
  rcases List.prefix_concat_iff.mp hprefix with heq | hprefix
  · obtain ⟨rfl, hz⟩ := List.append_inj' heq rfl
    obtain rfl := List.singleton_inj.mp hz
    exact hy s hs b hb hlow hhigh
  · exact h before z hprefix s hs b hb hlow hhigh hclosed

/-- **A yield**: of a candle of the coin, not older than the last one, with nothing
missing before it. -/
theorem NoGap.emit {coin : String} {candle : Candle} {inp : Input}
    (h : NoGap x symbols seeds w) (hcoin : candle.symbol = coin)
    (hnewer : ∀ last, w.lastCandleTs coin = some last → last ≤ candle.timestamp)
    (hall : ∀ s, Followed symbols seeds coin s → ∀ b ∈ x.bars coin, s < b →
      b < candle.timestamp → Seen w.yielded coin b)
    (hperf : perform (.emit coin candle) inp w = some ((), w')) :
    NoGap x symbols seeds w' := by
  obtain rfl := (Prod.mk.inj (Option.some.inj hperf)).2
  subst hcoin
  refine ⟨h.gapFree.concat hall, fun symbol s hs => ?_⟩
  obtain ⟨last, hlast, hle, hseen⟩ := h.reached symbol s hs
  have hkeep : ∀ b, Seen w.yielded symbol b →
      Seen (w.yielded ++ [⟨candle, w.clock⟩]) symbol b :=
    fun b hb => hb.mono (List.subset_append_left _ _)
  by_cases hsymbol : symbol = candle.symbol
  · subst hsymbol
    refine ⟨candle.timestamp, by simp, ?_, fun b hb hlow hhigh => ?_⟩
    · exact hle.trans (hnewer last hlast)
    · rcases lt_or_eq_of_le hhigh with hlt | rfl
      · exact hkeep b (hall s hs b hb hlow hlt)
      · exact ⟨⟨candle, w.clock⟩, by simp, rfl, rfl⟩
  · refine ⟨last, ?_, hle, fun b hb hlow hhigh => hkeep b (hseen b hb hlow hhigh)⟩
    simpa [Function.update_of_ne hsymbol] using hlast

/-! ## §4. What the client was offered. -/

/-- Of a message that the stream makes something of. -/
theorem brought_of_handleMessage {now : Time} {last : String → Option Time} {msg : Json}
    {coin : String} {candle : Candle}
    (h : handleMessage (nowMs now) last msg = .ok (some (coin, candle))) :
    brought now msg = some (coin, candle.timestamp) := by
  obtain ⟨data, hdata, hclosed, hparsed, ⟨hcoin, hne⟩, -⟩ := handleMessage_some h
  simp [brought, hdata, hcoin, hclosed, hne, hparsed]

/-- A candle that is brought is yielded unless it is not newer. -/
theorem handleMessage_of_brought {now : Time} (last : String → Option Time) {msg : Json}
    {coin : String} (h : brought now msg = some (coin, b)) :
    ∃ c : Candle, c.timestamp = b ∧ handleMessage (nowMs now) last msg =
      .ok (if isNewer (last coin) c then some (coin, c) else none) := by
  unfold brought at h
  split at h
  next => exact absurd h (by simp)
  next data hdata =>
    split at h
    next coin' hcoin hclosed =>
      split at h
      next => exact absurd h (by simp)
      next hne =>
        split at h
        next c hparsed =>
          obtain ⟨rfl, rfl⟩ := Prod.mk.inj (Option.some.inj h)
          exact ⟨c, rfl, handleMessage_closed hdata hcoin hne hclosed hparsed⟩
        next => exact absurd h (by simp)
    next => exact absurd h (by simp)

theorem connection_opened (log : List Event) (time : Time) :
    connection (log ++ [.opened time]) = some ⟨time, []⟩ := by
  simp [connection, List.foldl_append, Connection.next]

/-- Any other event belongs to the connection. -/
theorem connection_concat {log : List Event} {e : Event} {conn : Connection}
    (he : ¬ e.Opens) (h : connection (log ++ [e]) = some conn) :
    ∃ conn₀, connection log = some conn₀ ∧ conn = { conn₀ with since := conn₀.since ++ [e] } := by
  have hnext : connection (log ++ [e]) =
      (connection log).map fun c => { c with since := c.since ++ [e] } := by
    unfold connection
    rw [List.foldl_append]
    cases e with
    | opened time => exact absurd trivial he
    | answered coin endMs reply | message time msg => rfl
  obtain ⟨conn₀, h₀, rfl⟩ := Option.map_eq_some_iff.mp (hnext.symm.trans h)
  exact ⟨conn₀, h₀, rfl⟩

/-- What the client must have reported while the coins of `rest` are to be backfilled. -/
def Due (rest : List String) (log : List Event) (coin : String) (b : Time) : Prop :=
  Met log coin b ∨ (coin ∉ rest.map upper ∧ Connection.Covers coin b (connection log))

/-- Nothing is missing, and everything due was passed. -/
structure UpToDate (x : Exchange) (symbols : List String) (seeds : String → Option Time)
    (rest : List String) (w : Client) : Prop where
  noGap : NoGap x symbols seeds w
  passed : ∀ symbol s last, Followed symbols seeds symbol s →
    w.lastCandleTs symbol = some last → ∀ b ∈ x.bars symbol, Due rest w.log symbol b → b ≤ last
  opened : ∀ conn, connection w.log = some conn → conn.openedAt ≤ w.clock

theorem UpToDate.still {rest : List String} (h : UpToDate x symbols seeds rest w)
    (hw : Still w w') : UpToDate x symbols seeds rest w' := by
  refine ⟨h.noGap.quiet hw.quiet, ?_, fun conn hconn => ?_⟩
  · obtain ⟨n, rfl⟩ := hw
    exact h.passed
  · have hlater := hw.quiet.clock
    obtain ⟨n, rfl⟩ := hw
    exact (h.opened conn hconn).trans hlater

/-- Before the backfill the connection does not count. -/
theorem UpToDate.idle {rest : List String} (h : UpToDate x symbols seeds rest w) :
    UpToDate x symbols seeds symbols w := by
  refine ⟨h.noGap, fun symbol s last hs hlast b hb hdue => ?_, h.opened⟩
  refine h.passed symbol s last hs hlast b hb (hdue.imp_right fun hcovers => ?_)
  exact absurd hs.2 hcovers.1

/-- A new connection. -/
theorem UpToDate.connect {inp : Input} (h : UpToDate x symbols seeds symbols w)
    (hperf : perform .connect inp w = some (.ok (), w')) :
    UpToDate x symbols seeds symbols w' := by
  have hq := perform_quiet (o := .connect) trivial hperf
  obtain ⟨hr, hw⟩ := Prod.mk.inj (Option.some.inj hperf)
  have hlog : w'.log = w.log ++ [.opened w'.clock] := by
    unfold socket at hr
    rw [← hw]
    unfold dialled
    split at hr
    next => exact absurd hr (by simp)
    next => rfl
  refine ⟨h.noGap.quiet hq, ?_, ?_⟩
  · intro symbol s last hs hlast b hb hdue
    rw [hq.lastCandleTs] at hlast
    refine h.passed symbol s last hs hlast b hb ?_
    rcases hdue with ⟨e, he, hmet⟩ | hcovers
    · rw [hlog] at he
      rcases List.mem_append.mp he with he | he
      · exact Or.inl ⟨e, he, hmet⟩
      · rw [List.mem_singleton.mp he] at hmet
        exact (hmet.elim id id).elim
    · exact absurd hs.2 hcovers.1
  · intro conn hconn
    rw [hlog, connection_opened] at hconn
    rw [← Option.some.inj hconn]

/-- What can be due after one more event that opens no connection. -/
theorem Due.concat {rest : List String} {log : List Event} {e : Event} {coin : String}
    (he : ¬ e.Opens) (h : Due rest (log ++ [e]) coin b) :
    (e.Brings coin b ∨ e.Fetches coin b) ∨ Met log coin b ∨
      (coin ∉ rest.map upper ∧ Connection.Covers coin b (connection log) ∧ ¬ e.Fails coin) := by
  rcases h with ⟨d, hd, hmet⟩ | ⟨hrest, hcovers⟩
  · rcases List.mem_append.mp hd with hd | hd
    · exact Or.inr (Or.inl ⟨d, hd, hmet⟩)
    · rw [List.mem_singleton.mp hd] at hmet
      exact Or.inl hmet
  · cases hconn : connection (log ++ [e]) with
    | none =>
        rw [hconn] at hcovers
        exact hcovers.elim
    | some conn =>
        obtain ⟨conn₀, h₀, rfl⟩ := connection_concat he hconn
        rw [hconn] at hcovers
        refine Or.inr (Or.inr ⟨hrest, ?_, hcovers.2 e (by simp)⟩)
        rw [h₀]
        exact ⟨hcovers.1, fun d hd => hcovers.2 d (List.mem_append_left _ hd)⟩

/-- Time goes on, and the connection is the same. -/
theorem UpToDate.opened_concat {rest : List String} {e : Event} (h : UpToDate x symbols seeds rest w)
    (he : ¬ e.Opens) (n : Nat) :
    ∀ conn, connection ((w.tick n).meet e).log = some conn →
      conn.openedAt ≤ ((w.tick n).meet e).clock := by
  intro conn hconn
  obtain ⟨conn₀, h₀, rfl⟩ := connection_concat he hconn
  exact (h.opened conn₀ h₀).trans (quiet_meet w n e).clock

/-! ## §5. The backfill. -/

/-- A backfill in progress: `missed` is still to be yielded. -/
structure Missing (x : Exchange) (symbols : List String) (seeds : String → Option Time)
    (symbol : String) (missed : List Candle) (w : Client) : Prop where
  noGap : NoGap x symbols seeds w
  symbol_eq : ∀ c ∈ missed, c.symbol = symbol
  sorted : missed.Pairwise fun c d => c.timestamp ≤ d.timestamp
  newer : ∀ last, w.lastCandleTs symbol = some last → ∀ c ∈ missed, last ≤ c.timestamp
  /-- What opens before one of them was yielded or is among them. -/
  covered : ∀ s, Followed symbols seeds symbol s → ∀ b ∈ x.bars symbol, s < b →
    ∀ c ∈ missed, b < c.timestamp → Seen w.yielded symbol b ∨ b ∈ missed.map Candle.timestamp

/-- The first of them is yielded. -/
theorem Missing.emit {c : Candle} {missed : List Candle} {inp : Input}
    (h : Missing x symbols seeds symbol (c :: missed) w)
    (hperf : perform (.emit c.symbol c) inp w = some ((), w')) :
    Missing x symbols seeds symbol missed w' := by
  have hsymbol := h.symbol_eq c List.mem_cons_self
  obtain ⟨hfirst, hsorted⟩ := List.pairwise_cons.mp h.sorted
  have hnoGap : NoGap x symbols seeds w' := by
    refine h.noGap.emit rfl ?_ ?_ hperf
    · rw [hsymbol]
      exact fun last hlast => h.newer last hlast c List.mem_cons_self
    · rw [hsymbol]
      intro s hs b hb hlow hhigh
      refine (h.covered s hs b hb hlow c List.mem_cons_self hhigh).resolve_right fun hin => ?_
      -- the others open later
      obtain ⟨d, hd, rfl⟩ := List.mem_map.mp hin
      rcases List.mem_cons.mp hd with rfl | hd
      · exact absurd hhigh (lt_irrefl _)
      · exact absurd hhigh (not_lt.mpr (hfirst d hd))
  obtain rfl := (Prod.mk.inj (Option.some.inj hperf)).2
  refine ⟨hnoGap, fun d hd => h.symbol_eq d (List.mem_cons_of_mem _ hd), hsorted, ?_, ?_⟩
  · intro last hlast d hd
    simp only [hsymbol, Function.update_self, Option.some.injEq] at hlast
    exact hlast ▸ hfirst d hd
  · intro s hs b hb hlow d hd hhigh
    have hkeep : w.yielded ⊆ w.yielded ++ [⟨c, w.clock⟩] := List.subset_append_left _ _
    rcases h.covered s hs b hb hlow d (List.mem_cons_of_mem _ hd) hhigh with hseen | hin
    · exact Or.inl (hseen.mono hkeep)
    · rcases List.mem_cons.mp hin with rfl | hin
      · exact Or.inl ⟨⟨c, w.clock⟩, by simp, hsymbol, rfl⟩
      · exact Or.inr hin

/-- What has closed by the end of the range is among the newer candles of the reply. -/
theorem Lists.missed {coin : String} {last : Time} {endMs : Int} {candles : List Candle}
    (h : Lists x coin (toMs last) endMs candles) (hb : b ∈ x.bars coin) (hlt : last < b)
    (hclosed : b + seconds 900 ≤ endMs * 1000) :
    b ∈ (candles.filter fun c => last < c.timestamp).map Candle.timestamp := by
  obtain ⟨d, hd, rfl⟩ := List.mem_map.mp (h.complete b hb (x.from_ms hb hlt) hclosed)
  exact List.mem_map_of_mem (List.mem_filter.mpr ⟨hd, by simpa using hlt⟩)

/-- The candles of a reply that are newer than the last one. -/
theorem Missing.init {coin : String} {last now : Time} {reply : RestReply}
    {candles : List Candle} (h : NoGap x symbols seeds w)
    (hlast : w.lastCandleTs (upper coin) = some last)
    (hlists : Lists x (upper coin) (toMs last) (toMs now) candles)
    (hcandles : candlesOfReply coin 900 reply = .ok candles) :
    Missing x symbols seeds (upper coin) (candles.filter fun c => last < c.timestamp) w := by
  obtain ⟨hparsed, hsorted⟩ := candlesOfReply_ok hcandles
  refine ⟨h, ?_, hsorted.filter _, ?_, ?_⟩
  · exact fun c hc => (hparsed c (List.mem_of_mem_filter hc)).1
  · intro last' hlast' c hc
    obtain rfl := Option.some.inj (hlast.symm.trans hlast')
    exact (of_decide_eq_true (List.mem_filter.mp hc).2).le
  · intro s hs b hb hlow c hc hhigh
    obtain ⟨last', hlast', -, hseen⟩ := h.reached (upper coin) s hs
    obtain rfl := Option.some.inj (hlast.symm.trans hlast')
    rcases le_or_gt b last with hle | hlt
    · exact Or.inl (hseen b hb hlow hle)
    · -- in the range, and closed at its end
      have hc := List.mem_of_mem_filter hc
      obtain ⟨hbar, hend⟩ := hlists.genuine c hc
      have hclosed := x.closed_before hb hbar hhigh
      exact Or.inr (hlists.missed hb hlt (hclosed.trans hend))

/-- The backfill of a coin under way: what is due was passed or is still to be yielded. -/
structure Backfilling (x : Exchange) (symbols : List String) (seeds : String → Option Time)
    (rest : List String) (symbol : String) (missed : List Candle) (w : Client) : Prop where
  missing : Missing x symbols seeds symbol missed w
  passed : ∀ other s last, Followed symbols seeds other s →
    w.lastCandleTs other = some last → ∀ b ∈ x.bars other, Due rest w.log other b →
      b ≤ last ∨ (other = symbol ∧ b ∈ missed.map Candle.timestamp)
  opened : ∀ conn, connection w.log = some conn → conn.openedAt ≤ w.clock

theorem Backfilling.done {rest : List String}
    (h : Backfilling x symbols seeds rest symbol [] w) : UpToDate x symbols seeds rest w := by
  refine ⟨h.missing.noGap, fun other s last hs hlast b hb hdue => ?_, h.opened⟩
  exact (h.passed other s last hs hlast b hb hdue).resolve_right fun hin => by simp at hin

theorem Backfilling.emit {rest : List String} {c : Candle} {missed : List Candle} {inp : Input}
    (h : Backfilling x symbols seeds rest symbol (c :: missed) w)
    (hperf : perform (.emit c.symbol c) inp w = some ((), w')) :
    Backfilling x symbols seeds rest symbol missed w' := by
  have hsymbol := h.missing.symbol_eq c List.mem_cons_self
  have hmissing := h.missing.emit hperf
  have hnewer := h.missing.newer
  obtain rfl := (Prod.mk.inj (Option.some.inj hperf)).2
  refine ⟨hmissing, ?_, fun conn hconn => (h.opened conn hconn).trans (by simp)⟩
  intro other s last hs hlast b hb hdue
  by_cases hother : other = symbol
  · -- the last candle of the coin is the one yielded
    subst hother
    obtain ⟨prev, hprev, -⟩ := h.missing.noGap.reached other s hs
    have hc : last = c.timestamp := by
      simpa [hsymbol] using hlast.symm
    rcases h.passed other s prev hs hprev b hb hdue with hle | ⟨-, hin⟩
    · exact Or.inl (hc ▸ hle.trans (hnewer prev hprev c List.mem_cons_self))
    · rcases List.mem_cons.mp hin with rfl | hin
      · exact Or.inl hc.ge
      · exact Or.inr ⟨rfl, hin⟩
  · have hold : w.lastCandleTs other = some last := by
      simpa [hsymbol, Function.update_of_ne hother] using hlast
    exact Or.inl ((h.passed other s last hs hold b hb hdue).resolve_right
      fun hin => hother hin.1)

/-- A request of the coin that failed. -/
theorem UpToDate.failed {coin : String} {rest : List String} {inp : Input} (endMs : Int)
    (h : UpToDate x symbols seeds (coin :: rest) w) (hfail : ¬ Succeeds (upper coin) inp.reply) :
    UpToDate x symbols seeds rest (w.answered (upper coin) endMs inp) := by
  refine ⟨h.noGap.quiet (quiet_meet w _ _), ?_, h.opened_concat id _⟩
  intro symbol s last hs hlast b hb hdue
  refine h.passed symbol s last hs hlast b hb ?_
  rcases hdue.concat id with hnew | hmet | ⟨hrest, hcovers, hsucceeds⟩
  · exact hnew.elim False.elim fun hfetches => absurd (hfetches.1 ▸ hfetches.2.2) hfail
  · exact Or.inl hmet
  · refine Or.inr ⟨fun hmem => ?_, hcovers⟩
    rcases List.mem_cons.mp hmem with rfl | hmem
    · exact hsucceeds ⟨rfl, hfail⟩
    · exact hrest hmem

/-- Then nothing is to be yielded. -/
theorem UpToDate.nothing {rest : List String} (h : UpToDate x symbols seeds rest w) :
    Backfilling x symbols seeds rest symbol [] w where
  missing :=
    { noGap := h.noGap
      symbol_eq := fun c hc => absurd hc (by simp)
      sorted := List.Pairwise.nil
      newer := fun _ _ c hc => absurd hc (by simp)
      covered := fun _ _ _ _ _ c hc => absurd hc (by simp) }
  passed := fun other s last hs hlast b hb hdue =>
    Or.inl (h.passed other s last hs hlast b hb hdue)
  opened := h.opened

/-- A request of the coin that did not fail. -/
theorem UpToDate.fetched {coin : String} {rest : List String} {last : Time} {inp : Input}
    {candles : List Candle} (h : UpToDate x symbols seeds (coin :: rest) w)
    (hlast : w.lastCandleTs (upper coin) = some last)
    (hlists : Lists x (upper coin) (toMs last) (toMs w.clock) candles)
    (hcandles : candlesOfReply coin 900 inp.reply = .ok candles) :
    Backfilling x symbols seeds rest (upper coin) (candles.filter fun c => last < c.timestamp)
      (w.answered (upper coin) (toMs w.clock) inp) := by
  have hnoGap := h.noGap.quiet (quiet_meet w inp.elapsed
    (.answered (upper coin) (toMs w.clock) inp.reply))
  refine ⟨.init hnoGap hlast hlists hcandles, ?_, h.opened_concat id _⟩
  -- what has closed by the end of the range
  have hrange : ∀ b ∈ x.bars (upper coin), b + seconds 900 ≤ toMs w.clock * 1000 →
      b ≤ last ∨ b ∈ (candles.filter fun c => last < c.timestamp).map Candle.timestamp :=
    fun b hb hclosed => (le_or_gt b last).imp_right fun hlt => hlists.missed hb hlt hclosed
  intro other s prev hs hprev b hb hdue
  have hold := h.passed other s prev hs hprev b hb
  by_cases hother : other = upper coin
  · subst hother
    obtain rfl := Option.some.inj (hlast.symm.trans hprev)
    rcases hdue.concat id with hnew | hmet | ⟨-, hcovers, -⟩
    · exact (hrange b hb (hnew.resolve_left id).2.1).imp_right fun hin => ⟨rfl, hin⟩
    · exact Or.inl (hold (Or.inl hmet))
    · -- the range ends after the socket was opened
      refine (hrange b hb (x.to_ms hb ?_)).imp_right fun hin => ⟨rfl, hin⟩
      have hcovers : Connection.Covers (upper coin) b (connection w.log) := hcovers
      cases hconn : connection w.log with
      | none =>
          rw [hconn] at hcovers
          exact hcovers.elim
      | some conn =>
          rw [hconn] at hcovers
          exact hcovers.1.trans (h.opened conn hconn)
  · refine Or.inl (hold ?_)
    rcases hdue.concat id with hnew | hmet | ⟨hrest, hcovers, -⟩
    · exact absurd (hnew.resolve_left id).1.symm hother
    · exact Or.inl hmet
    · exact Or.inr ⟨fun hmem => (List.mem_cons.mp hmem).elim hother hrest, hcovers⟩

/-- **The backfill of one coin.** -/
theorem UpToDate.backfill {coin : String} {rest : List String} {E : Client → Prop}
    (h : UpToDate x symbols seeds (coin :: rest) w) :
    holds (Orderly x symbols seeds) (NoGap x symbols seeds) E
      (fun _ w' => UpToDate x symbols seeds rest w') (backfillCoin coin) w := by
  refine holds_backfillCoin (B := Backfilling x symbols seeds rest (upper coin)) h.noGap
    ?_ ?_ ?_ (fun _ _ hB => hB.missing.noGap) (fun _ hB => hB.done)
    (fun _ _ _ _ _ hB hperf => hB.emit hperf)
  · -- a symbol without a last candle is not followed
    intro hnone
    refine ⟨h.noGap, fun symbol s last hs hlast b hb hdue => ?_, h.opened⟩
    refine h.passed symbol s last hs hlast b hb (hdue.imp_right fun hcovers => ⟨?_, hcovers.2⟩)
    intro hmem
    rcases List.mem_cons.mp hmem with rfl | hmem
    · exact absurd (hnone.symm.trans hlast) (by simp)
    · exact hcovers.1 hmem
  · intro last inp e _ _ hraised
    have hu := h.failed (toMs w.clock) (not_succeeds_of_error hraised)
    exact ⟨hu.noGap, hu⟩
  · intro last inp candles hlast hok hcandles
    by_cases hsucceeds : Succeeds (upper coin) inp.reply
    · exact h.fetched hlast (hok.1.lists hsucceeds hcandles) hcandles
    · obtain rfl := candles_of_failed hsucceeds hcandles
      exact (h.failed _ hsucceeds).nothing

/-! ## §6. Whole runs. -/

/-- **A live message.** -/
theorem UpToDate.message {inp : Input} {msg : Json} (h : UpToDate x symbols seeds [] w)
    (hok : Orderly x symbols seeds .recv inp w) (hframe : inp.frame = .message msg)
    (hperf : perform .recv inp w = some (inp.frame, w')) :
    NoGap x symbols seeds w' ∧
      holds (Orderly x symbols seeds) (NoGap x symbols seeds) (UpToDate x symbols seeds symbols)
        (fun _ u => UpToDate x symbols seeds [] u) (onMessage msg) w' := by
  have hu : w' = (w.tick inp.elapsed).meet (.message (w.clock + inp.elapsed) msg) := by
    have hu := (Prod.mk.inj (Option.some.inj hperf)).2
    rw [hframe] at hu
    exact hu.symm
  have hturn : Unbroken x symbols seeds w w'.clock (.message msg) := by
    have hturn := hok.2
    simp only [hframe] at hturn
    rw [hu]
    exact hturn
  have hnoGap : NoGap x symbols seeds w' := by
    rw [hu]
    exact h.noGap.quiet (quiet_meet w _ _)
  have hlog : w'.log = w.log ++ [.message w'.clock msg] := by rw [hu]; rfl
  have hlast : w'.lastCandleTs = w.lastCandleTs := by rw [hu]; rfl
  have hopened : ∀ conn, connection w'.log = some conn → conn.openedAt ≤ w'.clock := by
    rw [hu]
    exact h.opened_concat id _
  -- what is due was due before, or the message brings it
  have hdue : ∀ symbol b, Due [] w'.log symbol b →
      brought w'.clock msg = some (symbol, b) ∨ Due [] w.log symbol b := by
    intro symbol b hdue
    rw [hlog] at hdue
    rcases hdue.concat id with hnew | hmet | ⟨hrest, hcovers, -⟩
    · exact Or.inl (hnew.resolve_right id)
    · exact Or.inr (Or.inl hmet)
    · exact Or.inr (Or.inr ⟨hrest, hcovers⟩)
  -- what it does not yield is not newer
  have hcaught : (∀ symbol b last, brought w'.clock msg = some (symbol, b) →
      w'.lastCandleTs symbol = some last → b ≤ last) → UpToDate x symbols seeds [] w' := by
    intro hold
    refine ⟨hnoGap, fun symbol s last hs hl b hb hd => ?_, hopened⟩
    rcases hdue symbol b hd with hbrought | hd
    · exact hold symbol b last hbrought hl
    · exact h.passed symbol s last hs (hlast ▸ hl) b hb hd
  refine ⟨hnoGap, holds_onMessage hnoGap (fun e hraised => ?_) (fun hnone => ?_) ?_⟩
  · refine (hcaught fun symbol b last hbrought _ => ?_).idle
    obtain ⟨c, -, hmessage⟩ := handleMessage_of_brought w'.lastCandleTs hbrought
    exact absurd (hmessage.symm.trans hraised) (by simp)
  · refine hcaught fun symbol b last hbrought hl => ?_
    obtain ⟨c, rfl, hmessage⟩ := handleMessage_of_brought w'.lastCandleTs hbrought
    have hold := Except.ok.inj (hmessage.symm.trans hnone)
    split at hold
    next => exact absurd hold (by simp)
    next hnot =>
      rw [hl] at hnot
      exact not_lt.mp fun hlt => hnot (decide_eq_true hlt)
  · -- the candles before it were offered, and so they were yielded
    intro coin candle inp' u hmessage hemit
    have hbrought := brought_of_handleMessage hmessage
    obtain ⟨data, -, -, hparsed, ⟨hcoinOf, -⟩, hnewer⟩ := handleMessage_some hmessage
    have hsymbol : candle.symbol = coin :=
      (candleFromDict_some hparsed).1.trans (upper_coinOf hcoinOf)
    have hforward : ∀ last, w'.lastCandleTs coin = some last → last ≤ candle.timestamp := by
      intro last hl
      rw [hl] at hnewer
      exact (of_decide_eq_true hnewer).le
    have hnoGap' : NoGap x symbols seeds u := by
      refine hnoGap.emit hsymbol hforward (fun s hs b hb hlow hhigh => ?_) hemit
      · obtain ⟨last, hl, -, hseen⟩ := hnoGap.reached coin s hs
        have hoffered := hturn _ hbrought s hs.1 hs.2 b hb hlow hhigh
        refine hseen b hb hlow (h.passed coin s last hs (hlast ▸ hl) b hb ?_)
        exact hoffered.imp_right fun hcovers => ⟨by simp, hcovers⟩
    obtain rfl := (Prod.mk.inj (Option.some.inj hemit)).2
    refine ⟨hnoGap', hnoGap', ?_, fun conn hconn => (hopened conn hconn).trans (by simp)⟩
    intro symbol s last hs hl b hb hd
    by_cases hother : symbol = coin
    · subst hother
      have hl : last = candle.timestamp := by simpa using hl.symm
      obtain ⟨prev, hprev, -⟩ := hnoGap.reached symbol s hs
      rw [hl]
      rcases hdue symbol b hd with hb' | hd
      · exact (Prod.mk.inj (Option.some.inj (hb'.symm.trans hbrought))).2.le
      · exact (h.passed symbol s prev hs (hlast ▸ hprev) b hb hd).trans (hforward prev hprev)
    · have hl : w'.lastCandleTs symbol = some last := by
        simpa [Function.update_of_ne hother] using hl
      rcases hdue symbol b hd with hb' | hd
      · exact absurd (Prod.mk.inj (Option.some.inj (hb'.symm.trans hbrought))).1 hother
      · exact h.passed symbol s last hs (hlast ▸ hl) b hb hd

/-- What the phases of the stream know. -/
theorem UpToDate.phased : Phased (Orderly x symbols seeds) (NoGap x symbols seeds)
    (UpToDate x symbols seeds symbols) (UpToDate x symbols seeds) symbols where
  weaken := fun _ h => h.noGap
  idle := fun _ _ h => h.idle
  stillA := fun _ _ h hw => h.still hw
  stillB := fun _ _ _ h hw => h.still hw
  connect := fun _ _ _ h _ hperf => h.connect hperf
  backfill := fun _ _ _ h => h.backfill
  message := fun _ _ _ _ h hok hframe hperf => h.message hok hframe hperf

/-- **The stream has no gap in an orderly run.** -/
theorem no_gap {c₀ c : Client.Stream} (h₀ : Start .ws c₀) (hlog : c₀.world.log = [])
    (hrun : Reaches (Client.step symbols)
      (Loop.Meets (Orderly x symbols c₀.world.lastCandleTs)) c₀ c) :
    GapFree x symbols c₀.world.lastCandleTs c.world.yielded := by
  have hstart : UpToDate x symbols c₀.world.lastCandleTs symbols c₀.world := by
    refine ⟨⟨?_, fun symbol s hs => ⟨s, hs.1, le_refl s, ?_⟩⟩, ?_, ?_⟩
    · intro before y hprefix
      rw [h₀.yielded] at hprefix
      exact absurd hprefix (by simp)
    · exact fun b _ hlow hhigh => absurd (hlow.trans_le hhigh) (lt_irrefl s)
    · rw [hlog]
      rintro symbol s last hs - b - (⟨e, he, -⟩ | hcovers)
      · exact absurd he (by simp)
      · exact absurd hs.2 hcovers.1
    · rw [hlog]
      exact nofun
  exact (UpToDate.phased.run h₀ hstart hrun).gapFree

/-! ### A followed symbol and three candles. -/

def sampleBars : List Time := [900, 1800, 2700].map seconds

def sampleExchange : Exchange where
  bars := fun _ => {b | b ∈ sampleBars}
  onGrid := by
    intro symbol b hb
    have hgrid : ∀ b ∈ sampleBars, b = b / seconds 900 * seconds 900 := by decide
    exact ⟨_, hgrid b hb⟩
  calendar := by
    intro symbol
    exact show ∀ b ∈ sampleBars, _ from by decide

instance (symbol : String) (p : Time → Prop) [DecidablePred p] :
    Decidable (∀ b ∈ sampleExchange.bars symbol, p b) :=
  inferInstanceAs (Decidable (∀ b ∈ sampleBars, p b))

instance (symbol : String) (b : Time) : Decidable (b ∈ sampleExchange.bars symbol) :=
  inferInstanceAs (Decidable (b ∈ sampleBars))

instance (coin : String) (startMs endMs : Int) (candles : List Candle) :
    Decidable (Lists sampleExchange coin startMs endMs candles) :=
  decidable_of_iff ((∀ c ∈ candles, c.timestamp ∈ sampleExchange.bars coin ∧
      c.timestamp ≤ endMs * 1000) ∧
    ∀ b ∈ sampleExchange.bars coin, startMs * 1000 ≤ b → b + seconds 900 ≤ endMs * 1000 →
      b ∈ candles.map Candle.timestamp)
    ⟨fun h => ⟨h.1, h.2⟩, fun h => ⟨h.genuine, h.complete⟩⟩

instance (coin : String) (startMs endMs : Int) (reply : RestReply) :
    Decidable (Answers sampleExchange coin startMs endMs reply) := by
  unfold Answers
  repeat' split
  all_goals infer_instance

instance : (o : Op) → (inp : Input) → (w : Client) → Decidable (Rest sampleExchange o inp w)
  | .post coin _ startMs endMs, inp, _ =>
      inferInstanceAs (Decidable (Answers sampleExchange coin startMs endMs inp.reply))
  | .utcnow, _, _ | .lastSeen, _, _ | .connect, _, _ | .send _ _, _, _ | .recv, _, _
  | .close, _, _ | .sleep _, _, _ | .emit _ _, _, _ => inferInstanceAs (Decidable True)

instance (coin : String) (reply : RestReply) : Decidable (Succeeds coin reply) := by
  unfold Succeeds
  split <;> infer_instance

instance (coin : String) (b : Time) : (e : Event) → Decidable (e.Brings coin b)
  | .message now msg => inferInstanceAs (Decidable (brought now msg = some (coin, b)))
  | .opened _ | .answered _ _ _ => inferInstanceAs (Decidable False)

instance (coin : String) (b : Time) : (e : Event) → Decidable (e.Fetches coin b)
  | .answered asked endMs reply => inferInstanceAs
      (Decidable (asked = coin ∧ b + seconds 900 ≤ endMs * 1000 ∧ Succeeds coin reply))
  | .opened _ | .message _ _ => inferInstanceAs (Decidable False)

instance (coin : String) : (e : Event) → Decidable (e.Fails coin)
  | .answered asked _ reply =>
      inferInstanceAs (Decidable (asked = coin ∧ ¬ Succeeds coin reply))
  | .opened _ | .message _ _ => inferInstanceAs (Decidable False)

instance (coin : String) (b : Time) :
    (conn : Option Connection) → Decidable (Connection.Covers coin b conn)
  | none => inferInstanceAs (Decidable False)
  | some conn => inferInstanceAs
      (Decidable (b + seconds 900 ≤ conn.openedAt ∧ ∀ e ∈ conn.since, ¬ e.Fails coin))

instance (log : List Event) (coin : String) (b : Time) : Decidable (Offered log coin b) :=
  inferInstanceAs (Decidable ((∃ e ∈ log, e.Brings coin b ∨ e.Fetches coin b) ∨ _))

instance (symbols : List String) (seeds : String → Option Time) (w : Client) (now : Time) :
    (frame : Frame) → Decidable (Unbroken sampleExchange symbols seeds w now frame)
  | .message msg => inferInstanceAs (Decidable (∀ arrival ∈ brought now msg, ∀ s ∈ seeds _, _))
  | .badJson | .timeout | .error _ => inferInstanceAs (Decidable True)

instance (symbols : List String) (seeds : String → Option Time) :
    (o : Op) → (inp : Input) → (w : Client) →
      Decidable (Orderly sampleExchange symbols seeds o inp w)
  | .post coin interval startMs endMs, inp, w =>
      inferInstanceAs (Decidable
        (Rest sampleExchange (.post coin interval startMs endMs) inp w ∧ True))
  | .recv, inp, w =>
      inferInstanceAs (Decidable (True ∧
        Unbroken sampleExchange symbols seeds w (w.clock + inp.elapsed) inp.frame))
  | .utcnow, _, _ | .lastSeen, _, _ | .connect, _, _ | .send _ _, _, _ | .close, _, _
  | .sleep _, _, _ | .emit _ _, _, _ => inferInstanceAs (Decidable (True ∧ True))

theorem no_gap_backfill : ∃ c : Client.Stream, opened c = [seconds 1800, seconds 2700] ∧
    GapFree sampleExchange ["BTC"] sampleStream.world.lastCandleTs c.world.yielded := by
  have hend : (runs (fun c a => if Loop.Meets (Orderly sampleExchange ["BTC"]
        sampleStream.world.lastCandleTs) c a then Client.step ["BTC"] c a else none)
      (sampleConnection (.response 200 (some (.arr [.obj (samplePayload 900),
        .obj (samplePayload 1800)]))) [{}] ++ sampleLive) sampleStream).map opened = some [seconds 1800, seconds 2700] := by decide
  obtain ⟨c, hc, hend⟩ := Option.map_eq_some_iff.mp hend
  exact ⟨c, hend, no_gap ⟨rfl, rfl⟩ rfl (Reaches.of_runs hc)⟩

/-- **A backfill that fails leaves a gap**: the candle at 2700 is yielded, the one at
1800 never. -/
theorem no_gap_fails : ¬ ∀ (x : Exchange) (symbols : List String) (c₀ c : Client.Stream),
    Start .ws c₀ → c₀.world.log = [] →
    Reaches (Client.step symbols) (Loop.Meets (Rest x)) c₀ c →
    GapFree x symbols c₀.world.lastCandleTs c.world.yielded := by
  intro h
  have hend : (runs (fun c a => if Loop.Meets (Rest sampleExchange) c a
        then Client.step ["BTC"] c a else none)
      (sampleConnection (.response 500 none) [] ++ sampleLive) sampleStream).map (fun c =>
        c.world.yielded.map fun y => (y.candle.symbol, y.candle.timestamp, y.time))
      = some [("BTC", seconds 2700, seconds 3600)] := by decide
  obtain ⟨c, hc, hend⟩ := Option.map_eq_some_iff.mp hend
  obtain ⟨y, hy, hsample⟩ := List.map_eq_singleton_iff.mp hend
  simp only [Prod.mk.injEq] at hsample
  obtain ⟨hsymbol, htime, hyielded⟩ := hsample
  have hgap := h sampleExchange ["BTC"] sampleStream c ⟨rfl, rfl⟩ rfl (Reaches.of_runs hc)
  have hseen : Seen [] y.candle.symbol (seconds 1800) := by
    refine hgap [] y (by rw [hy]; exact List.prefix_refl _) (seconds 900) ?_
      (seconds 1800) ?_ ?_ ?_ ?_
    · rw [hsymbol]
      exact ⟨rfl, by decide⟩
    · exact show seconds 1800 ∈ sampleBars by decide
    · decide
    · rw [htime]
      decide
    · rw [hyielded]
      decide
  obtain ⟨_, hmem, -⟩ := hseen
  exact absurd hmem (by simp)

end Pulse.Ingest
