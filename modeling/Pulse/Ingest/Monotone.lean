/-
  Pulse.Ingest.Monotone
  ─────────────────────
  **THE STREAM ONLY MOVES FORWARD.**

  `_last_candle_ts` is written by the backfill, by live messages and by polls.
  Each of them compares with it first; the backfill compares all of its candles
  at once, and relies on the reply holding no timestamp twice.

    • `Forward.keeper`    — all three places keep the map in step with the yields,
    • `yielded_ascending` — so each symbol's candles are yielded in ascending
                            order, after the seed.
-/
import Pulse.Ingest.Rounds

namespace Pulse.Ingest

open Pulse.Async Pulse.Ingest.Client

/-! ## §1. What is asked. -/

/-- No REST reply parses to two candles with the same timestamp. -/
def Distinct : Op → Input → Client → Prop
  | .post coin _ _ _, inp, _ =>
      match candlesOfReply coin 900 inp.reply with
      | .ok candles => (candles.map Candle.timestamp).Nodup
      | .error _ => True
  | _, _, _ => True

/-- Candles of one symbol are yielded in strictly ascending order, the first after
the seed of the symbol. -/
structure Ascending (seeds : String → Option Time) (yielded : List Yielded) : Prop where
  order : yielded.Pairwise fun y y' =>
    y.candle.symbol = y'.candle.symbol → y.candle.timestamp < y'.candle.timestamp
  seeds : ∀ y ∈ yielded, ∀ seed, seeds y.candle.symbol = some seed →
    seed < y.candle.timestamp

/-- The candle is one of 15 minutes, with its symbol in upper case. -/
def Regular (c : Candle) : Prop := upper c.symbol = c.symbol ∧ c.intervalSeconds = 900

/-- The invariant: the map is at or past every seed and every yield. -/
structure Forward (seeds : String → Option Time) (w : Client) : Prop where
  ascending : Ascending seeds w.yielded
  seeded : ∀ symbol seed, seeds symbol = some seed →
    ∃ last, w.lastCandleTs symbol = some last ∧ seed ≤ last
  passed : ∀ y ∈ w.yielded,
    ∃ last, w.lastCandleTs y.candle.symbol = some last ∧ y.candle.timestamp ≤ last
  regular : ∀ y ∈ w.yielded, Regular y.candle

/-! ## §2. One yield. -/

variable {seeds : String → Option Time} {w w' : Client} {c : Candle} {inp : Input}

theorem isNewer_iff {last : Option Time} :
    isNewer last c = true ↔ ∀ prev, last = some prev → prev < c.timestamp := by
  cases last with
  | none => simp [isNewer]
  | some prev => simp [isNewer]

theorem Forward.quiet (h : Forward seeds w) (hq : Quiet w w') : Forward seeds w' where
  ascending := by rw [hq.yielded]; exact h.ascending
  seeded := by rw [hq.lastCandleTs]; exact h.seeded
  passed := by rw [hq.yielded, hq.lastCandleTs]; exact h.passed
  regular := by rw [hq.yielded]; exact h.regular

/-- What a yield writes. -/
theorem emit_writes (hperf : perform (.emit c.symbol c) inp w = some ((), w')) :
    w'.lastCandleTs = Function.update w.lastCandleTs c.symbol (some c.timestamp) ∧
      w'.yielded = w.yielded ++ [⟨c, w.clock⟩] := by
  obtain rfl := (Prod.mk.inj (Option.some.inj hperf)).2
  exact ⟨rfl, rfl⟩

/-- The map only grows at a candle that is newer. -/
theorem update_passes {last : String → Option Time} (hnewer : isNewer (last c.symbol) c = true)
    {symbol : String} {t : Time} (h : ∃ prev, last symbol = some prev ∧ t ≤ prev) :
    ∃ prev, Function.update last c.symbol (some c.timestamp) symbol = some prev ∧ t ≤ prev := by
  obtain ⟨prev, hprev, hle⟩ := h
  by_cases hs : symbol = c.symbol
  · subst hs
    rw [Function.update_self]
    exact ⟨c.timestamp, rfl, hle.trans (le_of_lt (isNewer_iff.mp hnewer prev hprev))⟩
  · rw [Function.update_of_ne hs]
    exact ⟨prev, hprev, hle⟩

/-- **A yield** of a candle that is newer than the last one of its symbol. -/
theorem Forward.emit (h : Forward seeds w) (hc : Regular c)
    (hnewer : isNewer (w.lastCandleTs c.symbol) c = true)
    (hperf : perform (.emit c.symbol c) inp w = some ((), w')) : Forward seeds w' := by
  obtain ⟨hmap, hyielded⟩ := emit_writes hperf
  -- whatever the map is at or past, the candle is past
  have hlater : ∀ symbol t, symbol = c.symbol →
      (∃ prev, w.lastCandleTs symbol = some prev ∧ t ≤ prev) → t < c.timestamp := by
    rintro _ t rfl ⟨prev, hprev, hle⟩
    exact lt_of_le_of_lt hle (isNewer_iff.mp hnewer prev hprev)
  refine ⟨⟨?_, ?_⟩, ?_, ?_, ?_⟩
  · rw [hyielded, List.pairwise_append]
    refine ⟨h.ascending.order, List.pairwise_singleton _ _, ?_⟩
    intro y hy y' hy' hs
    rw [List.mem_singleton.mp hy'] at hs ⊢
    exact hlater _ _ hs (h.passed y hy)
  · rw [hyielded]
    intro y hy seed hseed
    rcases List.mem_append.mp hy with hy | hy
    · exact h.ascending.seeds y hy seed hseed
    · rw [List.mem_singleton.mp hy] at hseed ⊢
      exact hlater _ _ rfl (h.seeded c.symbol seed hseed)
  · rw [hmap]
    intro symbol seed hseed
    exact update_passes hnewer (h.seeded symbol seed hseed)
  · rw [hyielded, hmap]
    intro y hy
    rcases List.mem_append.mp hy with hy | hy
    · exact update_passes hnewer (h.passed y hy)
    · rw [List.mem_singleton.mp hy, Function.update_self]
      exact ⟨c.timestamp, rfl, le_refl _⟩
  · rw [hyielded]
    intro y hy
    rcases List.mem_append.mp hy with hy | hy
    · exact h.regular y hy
    · rw [List.mem_singleton.mp hy]
      exact hc

/-! ## §3. The three places. -/

/-- Candles still to be yielded by the backfill of a symbol: ascending, and the
first is newer than the last one seen. -/
structure Queued (symbol : String) (missed : List Candle) (w : Client) : Prop where
  parsed : ∀ c ∈ missed, c.symbol = symbol ∧ Regular c
  order : missed.Pairwise fun c d => c.timestamp < d.timestamp
  newer : ∀ c ∈ missed, isNewer (w.lastCandleTs symbol) c = true

/-- Sorting and distinct timestamps give a strict order. -/
theorem pairwise_lt {candles : List Candle}
    (horder : candles.Pairwise fun c d => c.timestamp ≤ d.timestamp)
    (hnodup : (candles.map Candle.timestamp).Nodup) :
    candles.Pairwise fun c d => c.timestamp < d.timestamp := by
  have hne : candles.Pairwise fun c d => c.timestamp ≠ d.timestamp :=
    List.pairwise_map.mp hnodup
  exact (horder.and hne).imp fun h => lt_of_le_of_ne h.1 h.2

/-- What `backfill` takes over from a reply. -/
theorem Queued.of_reply {coin : String} {last : Time} {endMs : Int} {candles : List Candle}
    (hlast : w.lastCandleTs (upper coin) = some last)
    (hcandles : candlesOfReply coin 900 inp.reply = .ok candles)
    (hnodup : (candles.map Candle.timestamp).Nodup) :
    Queued (upper coin) (candles.filter fun c => last < c.timestamp)
      (w.answered (upper coin) endMs inp) := by
  obtain ⟨hparsed, horder⟩ := candlesOfReply_ok hcandles
  refine ⟨fun c hc => ?_, (pairwise_lt horder hnodup).filter _, fun c hc => ?_⟩
  · obtain ⟨hsymbol, hinterval⟩ := hparsed c (List.mem_filter.mp hc).1
    exact ⟨hsymbol, by rw [hsymbol, upper_upper], hinterval⟩
  · show isNewer (w.lastCandleTs (upper coin)) c = true
    rw [hlast]
    exact (List.mem_filter.mp hc).2

/-- After the first of them was yielded, the others are newer still. -/
theorem Queued.emit {symbol : String} {missed : List Candle}
    (h : Queued symbol (c :: missed) w)
    (hperf : perform (.emit c.symbol c) inp w = some ((), w')) : Queued symbol missed w' := by
  obtain ⟨hfirst, hrest⟩ := List.pairwise_cons.mp h.order
  refine ⟨fun d hd => h.parsed d (List.mem_cons_of_mem _ hd), hrest, fun d hd => ?_⟩
  rw [(emit_writes hperf).1, (h.parsed c List.mem_cons_self).1, Function.update_self]
  exact isNewer_iff.mpr fun prev hprev => Option.some.inj hprev ▸ hfirst d hd

theorem Forward.keeper {mode : Mode} {symbols : String} :
    Keeper Distinct (Forward seeds) mode (symbolList symbols) where
  quiet := fun _ _ h hq => h.quiet hq
  backfill := by
    rintro - coin - w h
    refine keeps_backfillCoin
      (B := fun missed u => Forward seeds u ∧ Queued (upper coin) missed u)
      (fun _ _ h hq => h.quiet hq) h (fun _ _ hB => hB.1) ?_ ?_
    · intro last inp candles hlast hok hcandles
      have hnodup : Distinct (.post (upper coin) "15m" (toMs last) (toMs w.clock)) inp w := hok
      simp only [Distinct, candlesOfReply_upper, hcandles] at hnodup
      exact ⟨h.quiet (quiet_meet w _ _), .of_reply hlast hcandles hnodup⟩
    · rintro c missed u u' inp ⟨hu, hqueued⟩ hperf
      obtain ⟨hsymbol, hregular⟩ := hqueued.parsed c List.mem_cons_self
      have hnewer := hqueued.newer c List.mem_cons_self
      exact ⟨hu.emit hregular (by rw [hsymbol]; exact hnewer) hperf, hqueued.emit hperf⟩
  message := by
    rintro - w inp msg h - - u hperf
    have hu := h.quiet (perform_quiet (o := .recv) trivial hperf)
    refine keeps_onMessage hu fun coin c inp' v hmessage hperf => ?_
    obtain ⟨data, -, -, hparsed, ⟨hcoinOf, -⟩, hnewer⟩ := handleMessage_some hmessage
    have hcoin := upper_coinOf hcoinOf
    obtain ⟨hsymbol, hinterval, -⟩ := candleFromDict_some hparsed
    -- the map is keyed by the coin, which is the candle's symbol
    rw [hcoin] at hsymbol
    subst hsymbol
    exact hu.emit ⟨hcoin, hinterval⟩ hnewer hperf
  poll := by
    rintro - coin hcoin w h
    refine keeps_pollCoin (fun _ _ h hq => h.quiet hq) h ?_
    intro startMs endMs inp c inp' u _ hlatest hnewer hperf
    obtain ⟨hsymbol, hinterval⟩ := latestOfReply_some hlatest
    rw [upper_of_mem_symbolList hcoin] at hsymbol
    subst hsymbol
    exact (h.quiet (quiet_meet w _ _)).emit
      ⟨upper_of_mem_symbolList hcoin, hinterval⟩ hnewer hperf

/-! ## §4. Whole runs. -/

theorem Forward.start {mode : Mode} {c₀ : Client.Stream} (h₀ : Start mode c₀) :
    Forward c₀.world.lastCandleTs c₀.world where
  ascending := by rw [h₀.yielded]; exact ⟨List.Pairwise.nil, by simp⟩
  seeded := fun _ seed hseed => ⟨seed, hseed, le_refl _⟩
  passed := by rw [h₀.yielded]; simp
  regular := by rw [h₀.yielded]; simp

/-- **Along every run of the stream**, in both modes, yields and map stay in step. -/
theorem Forward.run {mode : Mode} {symbols : String} {c₀ c : Client.Stream}
    (h₀ : Start mode c₀)
    (hrun : Reaches (Client.step (symbolList symbols)) (Loop.Meets Distinct) c₀ c) :
    Forward c₀.world.lastCandleTs c.world :=
  Forward.keeper.run h₀ (.start h₀) hrun

end Pulse.Ingest
