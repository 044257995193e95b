/-
  Pulse.Ingest.Closed
  ───────────────────
  **ONLY CLOSED CANDLES.**

  A live message is tested before its candle is yielded; what a REST reply holds
  is not, and the test compares with the end that the message claims.

    • `Settled`           — the payloads that the exchange may send, and when,
    • `only_closed`       — then only closed candles are yielded,
    • `only_closed_fails` — a backfill whose reply ends with the candle in
                            progress.
-/
import Pulse.Ingest.Sourced

namespace Pulse.Ingest

open Pulse.Async Pulse.Ingest.Client

/-! ## §1. What is asked, and on which condition it holds. -/

/-- A payload among these describes the candle and marks it closed. -/
def MarkedIn (payloads : List Payload) (c : Candle) : Prop :=
  ∃ data ∈ payloads, markedClosed data = true ∧
    candleFromDict c.symbol data c.intervalSeconds = .ok (some c)

/-- The candle's interval has ended at `now`, or it was marked closed. -/
def ClosedBy (payloads : List Payload) (now : Time) (c : Candle) : Prop :=
  c.endTime ≤ now ∨ MarkedIn payloads c

/-- Every candle was closed when it was yielded. -/
def OnlyClosed (w : Client) : Prop := ∀ y ∈ w.yielded, ClosedBy w.payloads y.time y.candle

/-- The bar that opens at the payload's timestamp has ended at `now`. -/
def BarEnded (now : Time) (data : Payload) : Prop :=
  ∀ t, timestampOf (getTimestampMs data) = .ok t → t + seconds 900 ≤ now

/-- The payload's timestamp is not past the last one seen. -/
def NotNewer (last : Option Time) (data : Payload) : Prop :=
  ∀ t, timestampOf (getTimestampMs data) = .ok t → ∃ prev, last = some prev ∧ t ≤ prev

/-- The objects of a reply that become candles: all in a backfill, the newest in a poll. -/
def Mode.uses (mode : Mode) (payloads : List Payload) (data : Payload) : Prop :=
  match mode with
  | .ws => True
  | .poll => Newest payloads data

/-- **The exchange sends no bar in progress that looks like another.**  What is used of a
reply is marked closed, has ended or is not newer; and a live payload does not come
between the end that it claims and the end of its bar. -/
def Settled (mode : Mode) : Op → Input → Client → Prop
  | .post coin _ _ _, inp, w =>
      ∀ data ∈ inp.reply.payloads, mode.uses inp.reply.payloads data →
        markedClosed data = true ∨ BarEnded (w.clock + inp.elapsed) data ∨
          NotNewer (w.lastCandleTs coin) data
  | .recv, inp, w =>
      ∀ data ∈ inp.frame.payloads, markedClosed data = true ∨
        ∀ ms, (endMs data).toInt = .ok ms → ms ≤ nowMs (w.clock + inp.elapsed) →
          BarEnded (w.clock + inp.elapsed) data
  | _, _, _ => True

/-! ## §2. The three places. -/

variable {mode : Mode} {w w' : Client} {c : Candle}

theorem ClosedBy.mono {payloads payloads' : List Payload} {now now' : Time}
    (h : ClosedBy payloads now c) (hp : payloads <+: payloads') (hn : now ≤ now') :
    ClosedBy payloads' now' c := by
  rcases h with hend | ⟨data, hdata, hmarked⟩
  · exact Or.inl (hend.trans hn)
  · exact Or.inr ⟨data, hp.subset hdata, hmarked⟩

/-- A payload that is marked closed, or whose bar has ended, gives a closed candle. -/
theorem closedBy_of_payload {payloads : List Payload} {now : Time} {data : Payload}
    (hdata : data ∈ payloads) (hparsed : candleFromDict c.symbol data 900 = .ok (some c))
    (h : markedClosed data = true ∨ BarEnded now data) : ClosedBy payloads now c := by
  obtain ⟨-, hinterval, htime⟩ := candleFromDict_some hparsed
  rcases h with hmarked | hended
  · exact Or.inr ⟨data, hdata, hmarked, by rw [hinterval]; exact hparsed⟩
  · refine Or.inl ?_
    show c.timestamp + seconds c.intervalSeconds ≤ now
    rw [hinterval]
    exact hended c.timestamp htime

/-- **What a reply gives and is newer** is closed when the reply is settled. -/
theorem closedBy_answered {coin interval : String} {startMs endMs : Int} {inp : Input}
    {data : Payload} (hok : Settled mode (.post coin interval startMs endMs) inp w)
    (hdata : data ∈ inp.reply.payloads) (huses : mode.uses inp.reply.payloads data)
    (hparsed : candleFromDict c.symbol data 900 = .ok (some c))
    (hnewer : isNewer (w.lastCandleTs coin) c = true) :
    ClosedBy (w.answered coin endMs inp).payloads (w.answered coin endMs inp).clock c := by
  have hmem : data ∈ (w.answered coin endMs inp).payloads := by
    unfold answered
    rw [payloads_meet]
    exact List.mem_append_right _ hdata
  refine closedBy_of_payload hmem hparsed ?_
  rcases hok data hdata huses with hmarked | hended | hold
  · exact Or.inl hmarked
  · exact Or.inr hended
  · -- it is newer than the last candle
    obtain ⟨prev, hprev, hle⟩ := hold _ (candleFromDict_some hparsed).2.2
    rw [hprev] at hnewer
    exact absurd hle (not_le.mpr (of_decide_eq_true hnewer))

theorem OnlyClosed.quiet (h : OnlyClosed w) (hq : Quiet w w') : OnlyClosed w' := by
  intro y hy
  rw [hq.yielded] at hy
  exact (h y hy).mono hq.payloads (le_refl _)

/-- **A yield** of a closed candle. -/
theorem OnlyClosed.emit {coin : String} {inp : Input} (h : OnlyClosed w)
    (hc : ClosedBy w.payloads w.clock c)
    (hperf : perform (.emit coin c) inp w = some ((), w')) : OnlyClosed w' := by
  obtain rfl := (Prod.mk.inj (Option.some.inj hperf)).2
  intro y hy
  rcases List.mem_append.mp hy with hy | hy
  · exact h y hy
  · rw [List.mem_singleton.mp hy]
    exact hc

/-- A yield moves time on and forgets no payload. -/
theorem emit_later {coin : String} {inp : Input}
    (hperf : perform (.emit coin c) inp w = some ((), w')) :
    w.payloads = w'.payloads ∧ w.clock ≤ w'.clock := by
  obtain rfl := (Prod.mk.inj (Option.some.inj hperf)).2
  exact ⟨rfl, by simp⟩

theorem OnlyClosed.keeper {symbols : String} :
    Keeper (Settled mode) OnlyClosed mode (symbolList symbols) where
  quiet := fun _ _ h hq => h.quiet hq
  backfill := by
    rintro rfl coin - w h
    refine keeps_backfillCoin
      (B := fun missed u => OnlyClosed u ∧ ∀ c ∈ missed, ClosedBy u.payloads u.clock c)
      (fun _ _ h hq => h.quiet hq) h (fun _ _ hB => hB.1) ?_ ?_
    · -- what the reply holds, if it is newer
      intro last inp candles hlast hok hcandles
      refine ⟨h.quiet (quiet_meet w _ _), fun c hc => ?_⟩
      obtain ⟨hc, hnewer⟩ := List.mem_filter.mp hc
      obtain ⟨data, hdata, hparsed⟩ := candlesOfReply_payload hcandles c hc
      refine closedBy_answered hok hdata trivial hparsed ?_
      rw [hlast]
      exact hnewer
    · -- what is left to yield stays closed while time goes on
      rintro c missed u u' inp ⟨hu, hall⟩ hperf
      obtain ⟨hp, hn⟩ := emit_later hperf
      refine ⟨hu.emit (hall c List.mem_cons_self) hperf, fun d hd => ?_⟩
      exact (hall d (List.mem_cons_of_mem _ hd)).mono (hp ▸ List.prefix_refl _) hn
  message := by
    rintro rfl w inp msg h hok hframe u hperf
    have hu := (Prod.mk.inj (Option.some.inj hperf)).2
    subst hu
    have hq := h.quiet (quiet_hear w inp.elapsed inp.frame)
    refine keeps_onMessage hq fun coin c inp' v hmessage hperf => hq.emit ?_ hperf
    obtain ⟨data, hdata, hclosed, hparsed, -, -⟩ := handleMessage_some hmessage
    have hmem : data ∈ inp.frame.payloads := by
      rw [hframe]
      show data ∈ (candlePayload msg).toList
      rw [hdata]
      exact List.mem_singleton_self data
    have hreceived : data ∈ ((w.tick inp.elapsed).hear inp.frame).payloads := by
      rw [payloads_hear]
      exact List.mem_append_right _ hmem
    refine closedBy_of_payload hreceived ?_ ?_
    · rw [(candleFromDict_some hparsed).1, candleFromDict_upper]
      exact hparsed
    · -- the test has seen the end that the payload claims, and so the end of the bar
      rw [clock_hear] at hclosed ⊢
      rcases isClosed_true hclosed with hmarked | ⟨ms, hms, hle⟩
      · exact Or.inl hmarked
      · exact (hok data hmem).imp_right fun hended => hended ms hms hle
  poll := by
    rintro rfl coin hcoin w h
    refine keeps_pollCoin (fun _ _ h hq => h.quiet hq) h ?_
    -- the latest candle of the reply is the only one that is taken over
    intro startMs endMs inp c inp' u hok hlatest hnewer hperf
    obtain ⟨data, hdata, hparsed, hnewest⟩ := latestOfReply_newest hlatest
    refine (h.quiet (quiet_meet w _ _)).emit
      (closedBy_answered hok hdata hnewest hparsed ?_) hperf
    rw [upper_of_mem_symbolList hcoin]
    exact hnewer

/-- **Only closed candles leave the client in a settled run**, in both modes. -/
theorem only_closed {symbols : String} {c₀ c : Client.Stream} (h₀ : Start mode c₀)
    (hrun : Reaches (Client.step (symbolList symbols)) (Loop.Meets (Settled mode)) c₀ c) :
    OnlyClosed c.world := by
  refine OnlyClosed.keeper.run h₀ (fun y hy => ?_) hrun
  rw [h₀.yielded] at hy
  exact absurd hy (by simp)

/-! ### A backfill and a live candle. -/

instance (payloads : List Payload) (c : Candle) : Decidable (MarkedIn payloads c) :=
  inferInstanceAs (Decidable (∃ data ∈ payloads, _ ∧ _))

instance (payloads : List Payload) (now : Time) (c : Candle) :
    Decidable (ClosedBy payloads now c) :=
  inferInstanceAs (Decidable (_ ∨ _))

/-- What holds of the value of `x`, if it has one. -/
def decidableOk {α : Type} {P : α → Prop} [DecidablePred P] :
    (x : Except PyErr α) → Decidable (∀ a, x = .ok a → P a)
  | .ok a => decidable_of_iff (P a) ⟨fun h _ hb => Except.ok.inj hb ▸ h, fun h => h a rfl⟩
  | .error _ => .isTrue fun _ hb => absurd hb (by simp)

instance (now : Time) (data : Payload) : Decidable (BarEnded now data) :=
  decidableOk _

instance (last : Option Time) (data : Payload) : Decidable (NotNewer last data) :=
  let past (t : Time) : Decidable (∃ prev, last = some prev ∧ t ≤ prev) :=
    decidable_of_iff (last.any (t ≤ ·) = true) (by simp [Option.any_eq_true])
  @decidableOk _ _ past _

instance (payloads : List Payload) (data : Payload) : Decidable (Newest payloads data) :=
  inferInstanceAs (Decidable (∀ d ∈ payloads, _))

instance (payloads : List Payload) (data : Payload) :
    (mode : Mode) → Decidable (mode.uses payloads data)
  | .ws => inferInstanceAs (Decidable True)
  | .poll => inferInstanceAs (Decidable (Newest payloads data))

instance (mode : Mode) (inp : Input) (w : Client) : (o : Op) → Decidable (Settled mode o inp w)
  | .post coin _ _ _ => inferInstanceAs (Decidable (∀ data ∈ inp.reply.payloads,
      mode.uses inp.reply.payloads data → markedClosed data = true ∨
        BarEnded (w.clock + inp.elapsed) data ∨ NotNewer (w.lastCandleTs coin) data))
  | .recv =>
      let _claims (data : Payload) : Decidable (∀ ms, (endMs data).toInt = .ok ms →
          ms ≤ nowMs (w.clock + inp.elapsed) → BarEnded (w.clock + inp.elapsed) data) :=
        decidableOk _
      inferInstanceAs (Decidable (∀ data ∈ inp.frame.payloads, markedClosed data = true ∨
        ∀ ms, (endMs data).toInt = .ok ms → ms ≤ nowMs (w.clock + inp.elapsed) →
          BarEnded (w.clock + inp.elapsed) data))
  | .utcnow | .lastSeen | .connect | .send _ _ | .close | .sleep _ | .emit _ _ =>
      inferInstanceAs (Decidable True)

instance (w : Client) : Decidable (OnlyClosed w) :=
  inferInstanceAs (Decidable (∀ y ∈ w.yielded, _))

theorem only_closed_backfill : ∃ c : Client.Stream, opened c = [seconds 1800, seconds 2700] ∧
    OnlyClosed c.world := by
  have hend : (runs (fun c a => if Loop.Meets (Settled .ws) c a
        then Client.step (symbolList "BTC") c a else none)
      (sampleConnection (.response 200 (some (.arr [.obj (samplePayload 900),
        .obj (samplePayload 1800)]))) [{}] ++ sampleLive) sampleStream).map opened
      = some [seconds 1800, seconds 2700] := by decide
  obtain ⟨c, hc, hend⟩ := Option.map_eq_some_iff.mp hend
  exact ⟨c, hend, only_closed ⟨rfl, rfl⟩ (Reaches.of_runs hc)⟩

/-- **The backfill yields the candle in progress**: at 3000 seconds that of 2700, which
ends at 3600. -/
theorem only_closed_fails : ¬ ∀ (mode : Mode) (symbols : String) (c₀ c : Client.Stream),
    Start mode c₀ → Reaches (Client.step (symbolList symbols)) (fun _ _ => True) c₀ c →
    OnlyClosed c.world := by
  intro h
  have hend : (runs (fun c a => if True then Client.step (symbolList "BTC") c a else none)
      (sampleConnection (.response 200 (some (.arr [.obj (samplePayload 1800),
        .obj (samplePayload 2700)]))) [{}, {}]) sampleStream).map
          (fun c => decide (OnlyClosed c.world)) = some false := by decide
  obtain ⟨c, hc, hopen⟩ := Option.map_eq_some_iff.mp hend
  exact of_decide_eq_false hopen (h .ws "BTC" sampleStream c ⟨rfl, rfl⟩ (Reaches.of_runs hc))

end Pulse.Ingest
