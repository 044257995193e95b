/-
  Pulse.Evaluate.Fires
  ────────────────────
  **WHICH ACCEPTED RULES CAN FIRE.**

  `validate_config` accepts rules that no history can fire: each class limits the
  rows it reads in its own way.

    • a window shorter than a bar finds the candle itself, which has not moved,
    • a MACD reads 50 candles, whatever its periods,
    • the close belongs to the window of its own band, so it is never far outside.

  `fires_iff` says which rules can, over the stores the main loop produces.
-/
import Pulse.Api.Rules
import Pulse.Evaluate.History
import Pulse.Evaluate.Signals

namespace Pulse

open Pulse.Store PyFloat Spread

/-! ## §1. Firing. -/

/-- `evaluate` returns a value on some history that the main loop produces. -/
def Fires [Driver] (t : RuleType) (config : Config) : Prop :=
  ∃ (candle : Candle) (store : Table Candle.key), Produced candle store ∧
    ∃ v, t.evaluateOn ℝ config candle store.rows = .ok (some v)

/-- The numbers of a rule over a history are in their ranges. -/
def Positive (t : RuleType) (config : Config) : Prop :=
  match t with
  | .priceThreshold | .candleClose => False
  | .percentMove => (∃ p, floatItem ℝ config "percent_threshold" = .ok p ∧ 0 < p) ∧
      ∃ w, ((Json.item config "window_seconds") >>= Json.toInt) = .ok w ∧ 1 ≤ w
  | .macdCross => ∃ fast, intGet config "fast_period" 12 = .ok fast ∧
      ∃ slow, intGet config "slow_period" 26 = .ok slow ∧
      ∃ signal, intGet config "signal_period" 9 = .ok signal ∧
        1 ≤ fast ∧ fast < slow ∧ 2 ≤ signal
  | .rsi => (∃ period, intGet config "period" 14 = .ok period ∧ 2 ≤ period) ∧
      ∃ direction, Json.item config "direction" = .ok direction ∧
      ∃ threshold, (Json.getD config "threshold"
          (.num (if direction.isStr "overbought" then 70 else 30))).toFloat ℝ = .ok threshold ∧
        0 < threshold ∧ threshold < (100 : ℕ)
  | .bollingerBands => (∃ period, intGet config "period" 20 = .ok period ∧ 2 ≤ period) ∧
      ∃ s, (Json.getD config "std_dev" (.num 2)).toFloat ℝ = .ok s ∧ 0 < s

/-- A window holds more than one bar, a MACD fits into 50 candles, the bars of a period fit
into the calendar, and a close can break its band. -/
def CanFire (t : RuleType) (config : Config) : Prop :=
  match t with
  | .priceThreshold | .candleClose => True
  | .percentMove => ∃ w, ((Json.item config "window_seconds") >>= Json.toInt) = .ok w ∧
      900 ≤ w ∧ w ≤ 900 * (gridSlots - 1)
  | .macdCross => ∃ fast, intGet config "fast_period" 12 = .ok fast ∧
      ∃ slow, intGet config "slow_period" 26 = .ok slow ∧
      ∃ signal, intGet config "signal_period" 9 = .ok signal ∧
        slow + signal ≤ 50 ∧ fast + slow ≤ 51
  | .rsi => ∃ period, intGet config "period" 14 = .ok period ∧ period + 2 ≤ gridSlots
  | .bollingerBands => ∃ period, intGet config "period" 20 = .ok period ∧
      period + 1 ≤ gridSlots ∧
      ∃ event, Json.item config "event" = .ok event ∧ (event.isStr "break" = true →
        ∃ s, (Json.getD config "std_dev" (.num 2)).toFloat ℝ = .ok s ∧ s * s < period - 1)

variable {config : Config} {candle : Candle} {store : Table Candle.key}

theorem closeOf_bar (t : Time) (q : Rat) : closeOf ℝ (bar "BTC" t q) = q := rfl

/-- The prices of bars that are all read. -/
theorem prices_bars (closes : List Rat) {limit : Nat} (h : closes.length ≤ limit) :
    pricesOf ℝ (newest "BTC" limit (bars "BTC" lastSlot closes))
        = closes.reverse.map (fun q : Rat => (q : ℝ)) ∧
      (newest "BTC" limit (bars "BTC" lastSlot closes)).length = closes.length := by
  rw [newest_bars, List.take_of_length_le (by simpa using h)]
  exact ⟨pricesOf_bars _, length_bars _⟩

theorem produced_flat {a x : Rat} {k : Nat} (hroom : k < gridSlots) (ha : 0 < a) (hx : 0 < x) :
    Produced (bar "BTC" lastSlot x) (barTable "BTC" lastSlot (x :: List.replicate k a)) := by
  apply produced_bars _ hx
  · intro q hq
    rw [List.eq_of_mem_replicate hq]
    exact ha
  · rw [List.length_replicate]
    exact hroom

/-- Flat prices and a last one. -/
theorem prices_flat {a x : Rat} {k limit : Nat} (h : k + 1 ≤ limit) :
    pricesOf ℝ (newest "BTC" limit (bars "BTC" lastSlot (x :: List.replicate k a)))
        = List.replicate k (a : ℝ) ++ [(x : ℝ)] ∧
      (newest "BTC" limit (bars "BTC" lastSlot (x :: List.replicate k a))).length = k + 1 := by
  have hcount : (x :: List.replicate k a).length ≤ limit := by simpa using h
  obtain ⟨hprices, hlength⟩ := prices_bars _ hcount
  rw [hprices, hlength]
  simp

theorem produced_step {a b x : Rat} {k : Nat} (hroom : k + 3 ≤ gridSlots) (ha : 0 < a)
    (hb : 0 < b) (hx : 0 < x) : Produced (bar "BTC" lastSlot x)
      (barTable "BTC" lastSlot (x :: (List.replicate (k + 1) b ++ [a]))) := by
  apply produced_bars _ hx
  · intro q hq
    rcases List.mem_append.mp hq with hq | hq
    · rw [List.eq_of_mem_replicate hq]
      exact hb
    · rw [List.mem_singleton.mp hq]
      exact ha
  · rw [List.length_append, List.length_replicate, List.length_singleton]
    omega

/-- A first price, flat prices and a last one. -/
theorem prices_step {a b x : Rat} {k limit : Nat} (h : k + 3 ≤ limit) :
    pricesOf ℝ (newest "BTC" limit (bars "BTC" lastSlot (x :: (List.replicate (k + 1) b ++ [a]))))
        = (a : ℝ) :: (List.replicate (k + 1) (b : ℝ) ++ [(x : ℝ)]) ∧
      (newest "BTC" limit (bars "BTC" lastSlot (x :: (List.replicate (k + 1) b ++ [a])))).length
        = k + 3 := by
  have hcount : (x :: (List.replicate (k + 1) b ++ [a])).length ≤ limit := by
    simp
    omega
  obtain ⟨hprices, hlength⟩ := prices_bars _ hcount
  rw [hprices, hlength]
  simp

/-! ## §2. Percent moves. -/

theorem pyAbs_real (x : ℝ) : pyAbs x = |x| := by
  unfold pyAbs
  rw [ofInt_real, Int.cast_zero]
  split
  next h => exact (abs_of_neg h).symm
  next h => exact (abs_of_nonneg (not_lt.mp h)).symm

theorem PercentMoveRule.decideOn_real {p : ℝ} {oldCandle : Candle} {rest : List Candle}
    (hclose : candle.close ≠ .snan) (hold : closeOf ℝ oldCandle ≠ 0) :
    PercentMoveRule.decideOn ℝ p candle (oldCandle :: rest)
      = .ok (if p ≤ |(closeOf ℝ candle - closeOf ℝ oldCandle) / closeOf ℝ oldCandle * 100| then
          some (closeOf ℝ candle) else none) := by
  have hzero : isZero (closeOf ℝ oldCandle) = false :=
    Bool.eq_false_iff.mpr fun h => hold (isZero_real.mp h)
  rw [PercentMoveRule.decideOn_eq _ hclose]
  unfold PercentMoveRule.onPrices PercentMoveRule.decideWith
  rw [List.head?_cons, Option.map_some]
  dsimp only
  rw [ok_bind, if_neg (by simp [hzero]), pyDiv_real hold, ok_bind, pyAbs_real, ofInt_real]
  norm_num
  rfl

/-- A start that the calendar has. -/
theorem timeBefore_ok_iff {t start : Time} {w : Int} (hw : 0 ≤ w) (ht : t ≤ maxTime) :
    timeBefore t w = .ok start ↔ start = t - seconds w ∧ minTime ≤ start := by
  have hsecond : seconds w = w * 1000000 := rfl
  have hmin : minTime = -62135596800000000 := rfl
  have hmax : maxTime = 253402300799999999 := rfl
  unfold timeBefore
  constructor
  · intro h
    split at h
    next => exact absurd h (by simp)
    next =>
      split at h
      next hrange =>
        obtain rfl := Except.ok.inj h
        exact ⟨rfl, hrange.1⟩
      next => exact absurd h (by simp)
  · rintro ⟨rfl, hstart⟩
    rw [hmin, hsecond] at hstart
    rw [hmax] at ht
    rw [if_neg, if_pos]
    · rw [hmin, hmax, hsecond]
      constructor <;> linarith
    · have hdays : w / 86400 ≤ 999999999 :=
        Int.le_of_lt_add_one (Int.ediv_lt_of_lt_mul (by decide) (by linarith))
      have hnonneg : 0 ≤ w / 86400 := Int.ediv_nonneg hw (by decide)
      omega

/-- The candle is the only bar of a window that is shorter than a bar. -/
theorem Produced.only_candle (h : Produced candle store) {r : Candle} (hr : r ∈ store.rows)
    (hrecent : candle.timestamp - seconds 900 < r.timestamp) : r = candle := by
  apply h.eq_of_time hr h.stored
  obtain ⟨i, hi⟩ := h.grid r hr
  obtain ⟨j, hj⟩ := h.grid candle h.stored
  have hle := h.newest r hr
  have hsecond : seconds 900 = 900000000 := rfl
  rw [hsecond] at hi hj hrecent
  have hij : i = j := by
    have h₁ : i ≤ j := by
      by_contra hlt
      have : j + 1 ≤ i := by omega
      linarith
    have h₂ : j ≤ i := by
      by_contra hlt
      have : i + 1 ≤ j := by omega
      linarith
    omega
  rw [hi, hj, hij]

theorem Produced.close_pos (h : Produced candle store) {r : Candle} (hr : r ∈ store.rows) :
    0 < closeOf ℝ r := by
  obtain ⟨q, hq, hpos⟩ := h.positive r hr
  unfold closeOf
  rw [hq, ofDec_real]
  exact Rat.cast_pos.mpr hpos

theorem Produced.close_ne (h : Produced candle store) : candle.close ≠ .snan := by
  obtain ⟨q, hq, -⟩ := h.positive candle h.stored
  simp [hq]

/-- Of two bars within the window, the older one is compared with. -/
theorem oldestSince_two {start : Time} (hstart : start ≤ lastSlot - seconds 900) (x a : Rat) :
    oldestSince "BTC" start (bars "BTC" lastSlot [x, a])
      = [bar "BTC" (lastSlot - seconds 900) a] := by
  unfold oldestSince
  apply take_one_insertionSort
  · apply List.mem_filter.mpr
    exact ⟨List.mem_cons_of_mem _ List.mem_cons_self, by simpa [bar] using hstart⟩
  · intro r hr holder
    rcases List.mem_cons.mp (List.mem_filter.mp hr).1 with rfl | hr
    · have hearlier : ¬ lastSlot ≤ lastSlot - seconds 900 := by decide
      exact absurd holder.timestamp_le hearlier
    · exact List.mem_singleton.mp hr

section PercentMove

variable [Driver] {p : ℝ} {w : Int}
  (hthreshold : floatItem ℝ config "percent_threshold" = .ok p)
  (hwindow : ((Json.item config "window_seconds") >>= Json.toInt) = .ok w)

include hthreshold hwindow

theorem percentMove_eval (candle : Candle) (rows : List Candle) :
    RuleType.evaluateOn ℝ .percentMove config candle rows
      = timeBefore candle.timestamp w >>= fun start =>
          PercentMoveRule.decideOn ℝ p candle (oldestSince candle.symbol start rows) := by
  rw [evaluateOn_percentMove, hthreshold, ok_bind, hwindow, ok_bind]

/-- A window that is shorter than a bar holds the candle alone, which has not moved. -/
theorem percentMove_fires_only (hp : 0 < p) (hw : 1 ≤ w) (h : Fires .percentMove config) :
    900 ≤ w ∧ w ≤ 900 * (gridSlots - 1) := by
  have hsecond : ∀ n, seconds n = n * 1000000 := fun n => rfl
  obtain ⟨candle, store, hproduced, v, hv⟩ := h
  rw [percentMove_eval hthreshold hwindow] at hv
  obtain ⟨start, hstart, hv⟩ := bind_ok hv
  have hcandle := hproduced.calendar candle hproduced.stored
  obtain ⟨rfl, hlow⟩ := (timeBefore_ok_iff (by omega) hcandle.2).mp hstart
  constructor
  · by_contra hshort
    cases hrows : oldestSince candle.symbol (candle.timestamp - seconds w) store.rows with
    | nil =>
        rw [hrows] at hv
        exact absurd (Except.ok.inj hv) (by simp)
    | cons r rest =>
        have hmem : r ∈ oldestSince candle.symbol (candle.timestamp - seconds w) store.rows :=
          hrows ▸ List.mem_cons_self
        obtain ⟨hr, -, hsince⟩ := mem_oldestSince hmem
        -- bars are 900 seconds apart, so the window holds no other
        have hself : r = candle := by
          apply hproduced.only_candle hr
          rw [hsecond] at hsince ⊢
          have : w ≤ 899 := by omega
          linarith
        have hpos := hproduced.close_pos hproduced.stored
        rw [hrows, hself, PercentMoveRule.decideOn_real hproduced.close_ne hpos.ne', sub_self,
          zero_div, zero_mul, abs_zero, if_neg (not_le.mpr hp)] at hv
        exact absurd (Except.ok.inj hv) (by simp)
  · -- the window begins within the calendar
    have hle := hproduced.timestamp_le hproduced.stored
    have hlast : lastSlot = minTime + 350597663 * 900000000 := rfl
    have hslots : (gridSlots : Int) = 350597664 := rfl
    rw [hsecond] at hlow
    rw [hlast] at hle
    rw [hslots]
    linarith

/-- **A percent move fires** if its window holds more than one bar. -/
theorem percentMove_fires_iff (hp : 0 < p) (hw : 1 ≤ w) :
    Fires .percentMove config ↔ 900 ≤ w ∧ w ≤ 900 * (gridSlots - 1) := by
  constructor
  · exact percentMove_fires_only hthreshold hwindow hp hw
  · rintro ⟨hlong, hroom⟩
    have hsecond : ∀ n, seconds n = n * 1000000 := fun n => rfl
    have hlast : lastSlot = minTime + 350597663 * 900000000 := rfl
    have hslots : (gridSlots : Int) = 350597664 := rfl
    rw [hslots] at hroom
    have hstart : timeBefore lastSlot w = .ok (lastSlot - seconds w) := by
      refine (timeBefore_ok_iff (by omega) (by decide)).mpr ⟨rfl, ?_⟩
      rw [hsecond, hlast]
      linarith
    have hsince : lastSlot - seconds w ≤ lastSlot - seconds 900 := by
      rw [hsecond, hsecond]
      linarith
    -- a bar at 1, and the candle `k` higher
    obtain ⟨k, hk⟩ := exists_nat_ge p
    have hproduced : Produced (bar "BTC" lastSlot (1 + k)) (barTable "BTC" lastSlot [1 + k, 1]) :=
      produced_bars (by decide) (by positivity) (by simp)
    have hmove : (((1 + k : Rat) : ℝ) - ((1 : Rat) : ℝ)) / ((1 : Rat) : ℝ) * 100 = 100 * k := by
      push_cast
      ring
    have hnonneg : (0 : ℝ) ≤ k := Nat.cast_nonneg k
    refine ⟨_, _, hproduced, ((1 + k : Rat) : ℝ), ?_⟩
    rw [percentMove_eval hthreshold hwindow]
    show (timeBefore lastSlot w >>= fun start => PercentMoveRule.decideOn ℝ p _
      (oldestSince "BTC" start (bars "BTC" lastSlot [1 + k, 1]))) = _
    rw [hstart, ok_bind, oldestSince_two hsince,
      PercentMoveRule.decideOn_real hproduced.close_ne (by simp [closeOf_bar]), closeOf_bar,
      closeOf_bar, hmove, abs_of_nonneg (by linarith), if_pos (by linarith)]

end PercentMove

/-! ## §3. MACD crossovers. -/

/-- After a step the fast average is ahead of the slow one. -/
theorem lead_pos {fast slow : ℕ} (h : fast < slow) :
    (0 : ℝ) < 2 / (fast + 1) - 2 / (slow + 1) := by
  have hlt : (fast : ℝ) < slow := Nat.cast_lt.mpr h
  rw [sub_pos]
  apply div_lt_div_of_pos_left
  · norm_num
  · positivity
  · linarith

/-- The signal line takes a part of a step of the MACD line. -/
theorem lag_lt_one {signal : ℕ} (h : 2 ≤ signal) : (2 : ℝ) / (signal + 1) < 1 := by
  have htwo : (2 : ℝ) ≤ signal := Nat.ofNat_le_cast.mpr h
  rw [div_lt_one (by positivity)]
  linarith

/-- The last close of a history that crosses: up or down by 1. -/
def crossingJump (crossoverType : Json) : Rat :=
  if crossoverType.isStr "bullish" then 1 else -1

section Macd

variable [Driver] {fast slow signal : Int} {crossoverType : Json}
  (hcrossover : Json.item config "crossover_type" = .ok crossoverType)
  (hfast : intGet config "fast_period" 12 = .ok fast)
  (hslow : intGet config "slow_period" 26 = .ok slow)
  (hsignal : intGet config "signal_period" 9 = .ok signal)

include hcrossover hfast hslow hsignal

theorem macdCross_eval (candle : Candle) (rows : List Candle) :
    RuleType.evaluateOn ℝ .macdCross config candle rows
      = MACDCrossRule.decideOn ℝ fast slow signal crossoverType candle
          (newest candle.symbol 50 rows) := by
  rw [evaluateOn_macdCross, hfast, ok_bind, hslow, ok_bind, hsignal, ok_bind, hcrossover,
    ok_bind, onStore_selectNewest, if_pos (Driver.takes_integer _ (by decide) (by decide))]
  rfl

/-- Of 50 candles the MACD line must leave two values of the signal line. -/
theorem macdCross_fires_only (hpos : 1 ≤ fast) (hlt : fast < slow) (h : Fires .macdCross config) :
    slow + signal ≤ 50 ∧ fast + slow ≤ 51 := by
  obtain ⟨candle, store, -, v, hv⟩ := h
  have hcount := length_newest_le candle.symbol 50 store.rows
  have hlength : (pricesOf ℝ (newest candle.symbol 50 store.rows)).length
      = (newest candle.symbol 50 store.rows).length := by simp [pricesOf]
  rw [macdCross_eval hcrossover hfast hslow hsignal] at hv
  unfold MACDCrossRule.decideOn MACDCrossRule.decideWith at hv
  split at hv
  next => exact absurd (Except.ok.inj hv) (by simp)
  next henough =>
    obtain ⟨⟨macdLine, signalLine, histogram⟩, hmacd, hv⟩ := bind_ok hv
    dsimp only at hv
    split at hv
    next => exact absurd (Except.ok.inj hv) (by simp)
    next hlong =>
      have hline : macdLine ≠ [] := by
        rintro rfl
        simp at hlong
      have hreaches := calculateMacd_reaches hmacd hline
      unfold ReachesSignal at hreaches
      omega

end Macd

/-- The decision after 49 flat closes and a jump: the MACD line goes all the way with the
jump, the signal line a part of it. -/
theorem MACDCrossRule.decideOn_jump {f s g : ℕ} {crossoverType : Json}
    (hchoice : crossoverType.isStr "bullish" = true ∨ crossoverType.isStr "bearish" = true)
    (hpos : 1 ≤ f) (hlt : f < s) (htwo : 2 ≤ g) (hsum : s + g ≤ 50) (hreach : f + s ≤ 51) :
    MACDCrossRule.decideOn ℝ f s g crossoverType
        (bar "BTC" lastSlot (2 + crossingJump crossoverType))
        (newest "BTC" 50 (bars "BTC" lastSlot
          ((2 + crossingJump crossoverType) :: List.replicate 49 2)))
      = .ok (some ((2 + crossingJump crossoverType : Rat) : ℝ)) := by
  obtain ⟨hprices, hcount⟩ := prices_flat (a := 2) (x := 2 + crossingJump crossoverType) (k := 49)
    (show 49 + 1 ≤ 50 by omega)
  obtain ⟨histogram, hmacd⟩ := calculateMacd_flat (k := 49) hpos hlt (show 1 ≤ g by omega)
    (by omega) (by omega) 2 (2 + crossingJump crossoverType)
  -- the signal line takes over only a share of the jump
  have hbehind := mul_lt_of_lt_one_right (lead_pos hlt) (lag_lt_one htwo)
  have hjump : ((2 + crossingJump crossoverType : Rat) : ℝ) = 2 + crossingJump crossoverType := by
    push_cast
    ring
  have hmove : (2 : ℝ) + crossingJump crossoverType - 2 = crossingJump crossoverType := by ring
  rw [hmove] at hmacd
  rw [MACDCrossRule.decideOn_eq _ _ _ _ (by simp [bar])]
  unfold MACDCrossRule.onPrices MACDCrossRule.decideWith
  rw [hprices, if_neg (by simp; omega), hjump, Rat.cast_ofNat, hmacd, ok_bind]
  dsimp only
  rw [if_neg (by simp), (index_replicate_append _ _ _).1, ok_bind,
    (index_replicate_append _ _ _).2, ok_bind, (index_replicate_append _ _ _).1, ok_bind,
    (index_replicate_append _ _ _).2, ok_bind, closeOf_bar]
  by_cases hbullish : crossoverType.isStr "bullish" = true
  · have hup : crossingJump crossoverType = 1 := if_pos hbullish
    rw [if_pos hbullish, if_pos, hjump]
    · rfl
    · rw [hup, Rat.cast_one, one_mul]
      exact ⟨hbehind, le_refl _⟩
  · have hdown : crossingJump crossoverType = -1 := if_neg hbullish
    rw [if_neg hbullish, if_pos (hchoice.resolve_left hbullish), if_pos, hjump]
    · rfl
    · rw [hdown, Rat.cast_neg, Rat.cast_one, neg_one_mul, neg_mul]
      exact ⟨neg_lt_neg hbehind, le_refl _⟩

/-- **A MACD fires** if 50 candles are enough for its periods. -/
theorem macdCross_fires_iff [Driver] {fast slow signal : Int} {crossoverType : Json}
    (hcrossover : Json.item config "crossover_type" = .ok crossoverType)
    (hchoice : crossoverType.isStr "bullish" = true ∨ crossoverType.isStr "bearish" = true)
    (hfast : intGet config "fast_period" 12 = .ok fast)
    (hslow : intGet config "slow_period" 26 = .ok slow)
    (hsignal : intGet config "signal_period" 9 = .ok signal)
    (hpos : 1 ≤ fast) (hlt : fast < slow) (htwo : 2 ≤ signal) :
    Fires .macdCross config ↔ slow + signal ≤ 50 ∧ fast + slow ≤ 51 := by
  constructor
  · exact macdCross_fires_only hcrossover hfast hslow hsignal hpos hlt
  · rintro ⟨hsum, hreach⟩
    obtain ⟨f, rfl⟩ := Int.eq_ofNat_of_zero_le (show 0 ≤ fast by omega)
    obtain ⟨s, rfl⟩ := Int.eq_ofNat_of_zero_le (show 0 ≤ slow by omega)
    obtain ⟨g, rfl⟩ := Int.eq_ofNat_of_zero_le (show 0 ≤ signal by omega)
    -- 49 bars at 2, and a jump of 1 up or down
    have hclose : (0 : Rat) < 2 + crossingJump crossoverType := by
      unfold crossingJump
      split <;> norm_num
    refine ⟨_, _, produced_flat (a := 2) (k := 49) (by decide) (by decide) hclose,
      ((2 + crossingJump crossoverType : Rat) : ℝ), ?_⟩
    rw [macdCross_eval hcrossover hfast hslow hsignal]
    exact MACDCrossRule.decideOn_jump hchoice (by omega) (by omega) (by omega) (by omega)
      (by omega)

/-! ## §4. The relative strength index. -/

theorem RSIRule.decideOn_real {period : Int} {overbought : Bool} {threshold previous current : ℝ}
    {candles : List Candle} (hlong : period < candles.length)
    (hvalues : calculateRsi (pricesOf ℝ candles) period = .ok [previous, current]) :
    RSIRule.decideOn ℝ period overbought threshold candles
      = .ok (if overbought then
          if previous < threshold ∧ threshold ≤ current then some current else none
        else if threshold < previous ∧ current ≤ threshold then some current else none) := by
  have hcurrent : index [previous, current] (-1) = .ok current := rfl
  have hprevious : index [previous, current] (-2) = .ok previous := rfl
  unfold RSIRule.decideOn RSIRule.onPrices
  rw [length_pricesOf, if_neg (by omega), hvalues, ok_bind, if_neg (by simp), hcurrent, ok_bind,
    hprevious, ok_bind]
  cases overbought <;> rfl

section Rsi

variable [Driver] {period : Int} {direction : Json} {threshold : ℝ}
  (hdirection : Json.item config "direction" = .ok direction)
  (hchoice : direction.isStr "overbought" = true ∨ direction.isStr "oversold" = true)
  (hperiod : intGet config "period" 14 = .ok period)
  (hthreshold : (Json.getD config "threshold"
    (.num (if direction.isStr "overbought" then 70 else 30))).toFloat ℝ = .ok threshold)

include hdirection hchoice hperiod hthreshold

theorem rsi_eval (candle : Candle) (rows : List Candle) :
    RuleType.evaluateOn ℝ .rsi config candle rows
      = onStore rows (selectNewest candle.symbol (max (period * 5) 100)) >>=
          RSIRule.decideOn ℝ period (direction.isStr "overbought") threshold := by
  have hknown : (!direction.isStr "overbought" && !direction.isStr "oversold") = false := by
    rcases hchoice with h | h <;> simp [h]
  rw [evaluateOn_rsi, hperiod, ok_bind, hdirection, ok_bind, hknown]
  simp only [Bool.false_eq_true, if_false]
  rw [hthreshold, ok_bind]

/-- Two values take two bars more than the period. -/
theorem rsi_fires_only (hpos : 0 ≤ period) (h : Fires .rsi config) : period + 2 ≤ gridSlots := by
  obtain ⟨candle, store, hproduced, v, hv⟩ := h
  rw [rsi_eval hdirection hchoice hperiod hthreshold] at hv
  obtain ⟨candles, hcandles, hv⟩ := bind_ok hv
  rw [onStore_selectNewest] at hcandles
  split at hcandles
  next =>
    have hcount : candles.length ≤ gridSlots := by
      rw [← Except.ok.inj hcandles]
      exact hproduced.length_newest_le _
    have hlength : (pricesOf ℝ candles).length = candles.length := by simp [pricesOf]
    unfold RSIRule.decideOn RSIRule.onPrices at hv
    split at hv
    next => exact absurd (Except.ok.inj hv) (by simp)
    next henough =>
      obtain ⟨values, hvalues, hv⟩ := bind_ok hv
      split at hv
      next => exact absurd (Except.ok.inj hv) (by simp)
      next hlong =>
        have := calculateRsi_length hpos (by omega) hvalues
        omega
  next => exact absurd hcandles (by simp)

/-- What it takes for a change, flat prices and a last change to fire. -/
theorem rsi_fires_of_step {k : ℕ} (hk : period = ((k + 1 : ℕ) : Int))
    (hroom : period + 2 ≤ gridSlots) {a b x : Rat} (ha : 0 < a) (hb : 0 < b) (hx : 0 < x)
    {previous current : ℝ}
    (hvalues : calculateRsi ((a : ℝ) :: (List.replicate (k + 1) (b : ℝ) ++ [(x : ℝ)]))
      ((k + 1 : ℕ) : Int) = .ok [previous, current])
    (hcross : if direction.isStr "overbought" then previous < threshold ∧ threshold ≤ current
      else threshold < previous ∧ current ≤ threshold) : Fires .rsi config := by
  have hslots : gridSlots = 350597664 := rfl
  subst hk
  obtain ⟨hprices, hcount⟩ := prices_step (a := a) (b := b) (x := x)
    (show k + 3 ≤ (max (((k + 1 : ℕ) : Int) * 5) 100).toNat by omega)
  refine ⟨_, _, produced_step (k := k) (by omega) ha hb hx, current, ?_⟩
  rw [rsi_eval hdirection hchoice hperiod hthreshold]
  show (onStore (bars "BTC" lastSlot _) (selectNewest "BTC" _) >>= _) = _
  rw [onStore_selectNewest, if_pos (Driver.takes_integer _ (by omega) (by omega)), ok_bind,
    RSIRule.decideOn_real (by rw [hcount]; omega) (by rw [hprices]; exact hvalues)]
  cases hover : direction.isStr "overbought" with
  | true =>
      rw [hover, if_pos rfl] at hcross
      rw [if_pos rfl, if_pos hcross]
  | false =>
      rw [hover, if_neg (by simp)] at hcross
      rw [if_neg (by simp), if_pos hcross]

/-- **An RSI fires** if the calendar has room for its period and two bars more. -/
theorem rsi_fires_iff (htwo : 2 ≤ period) (hlow : 0 < threshold) (hhigh : threshold < 100) :
    Fires .rsi config ↔ period + 2 ≤ gridSlots := by
  constructor
  · exact rsi_fires_only hdirection hchoice hperiod hthreshold (by omega)
  · intro hroom
    obtain ⟨k, hperiodK⟩ : ∃ k : ℕ, period = ((k + 1 : ℕ) : Int) := ⟨(period - 1).toNat, by omega⟩
    have hk : 1 ≤ k := by omega
    by_cases hover : direction.isStr "overbought" = true
    · -- a loss of 1, and a gain that is large enough
      obtain ⟨g, hg⟩ := exists_nat_ge (100 / (100 - threshold))
      obtain ⟨current, hvalues, hcurrent⟩ := calculateRsi_up hk (Nat.cast_nonneg g)
      have hcross : threshold ≤ current := by
        rw [div_le_iff₀ (by linarith)] at hg
        have hdiv : 100 / (1 + (g : ℝ)) ≤ 100 - threshold := by
          rw [div_le_iff₀ (by positivity)]
          linarith
        linarith
      refine rsi_fires_of_step hdirection hchoice hperiod hthreshold hperiodK hroom
        (a := 2) (b := 1) (x := 1 + g) (by norm_num) (by norm_num) (by positivity)
        (by push_cast at hvalues ⊢; exact hvalues) ?_
      rw [if_pos hover]
      exact ⟨hlow, hcross⟩
    · -- a gain of 1, and a loss that is large enough
      obtain ⟨l, hl⟩ := exists_nat_ge (100 / threshold)
      have hpos : (0 : ℝ) < l := lt_of_lt_of_le (by positivity) hl
      obtain ⟨current, hvalues, hcurrent⟩ := calculateRsi_down hk hpos
      have hcross : current ≤ threshold := by
        rw [div_le_iff₀ hlow, ← div_le_iff₀' hpos] at hl
        exact hcurrent.trans hl
      refine rsi_fires_of_step hdirection hchoice hperiod hthreshold hperiodK hroom
        (a := l) (b := l + 1) (x := 1) (by exact_mod_cast hpos) (by positivity) (by norm_num)
        (by push_cast at hvalues ⊢; exact hvalues) ?_
      rw [if_neg hover]
      exact ⟨hhigh, hcross⟩

end Rsi

/-! ## §5. Bollinger bands. -/

section Bands

variable [Driver] {n : ℕ} {band event : Json} {s : ℝ}
  (hband : Json.item config "band" = .ok band)
  (hbandChoice : band.isStr "upper" = true ∨ band.isStr "lower" = true)
  (hevent : Json.item config "event" = .ok event)
  (heventChoice : event.isStr "touch" = true ∨ event.isStr "break" = true)
  (hperiod : intGet config "period" 20 = .ok (n : Int))
  (hstdDev : (Json.getD config "std_dev" (.num 2)).toFloat ℝ = .ok s)

include hband hbandChoice hevent heventChoice hperiod hstdDev

theorem bollingerBands_eval (candle : Candle) (rows : List Candle) :
    RuleType.evaluateOn ℝ .bollingerBands config candle rows
      = onStore rows (selectNewest candle.symbol (max ((n : Int) * 3) 60)) >>=
          BollingerBandsRule.decideOn ℝ n s (band.isStr "upper") (event.isStr "break") candle := by
  have hknown : ((!band.isStr "upper" && !band.isStr "lower")
      || (!event.isStr "touch" && !event.isStr "break")) = false := by
    rcases hbandChoice with h | h <;> rcases heventChoice with h' | h' <;> simp [h, h']
  rw [evaluateOn_bollingerBands, hperiod, ok_bind, hstdDev, ok_bind, hband, ok_bind, hevent,
    ok_bind, hknown]
  rfl

/-- The bars of the period and one more are there, and a close that breaks a band breaks one that
holds its own window. -/
theorem bollingerBands_fires_only (hpos : 1 ≤ n) (hs : 0 < s) (h : Fires .bollingerBands config) :
    n + 1 ≤ gridSlots ∧ (event.isStr "break" = true → s * s < ((n - 1 : ℕ) : ℝ)) := by
  obtain ⟨candle, store, hproduced, v, hv⟩ := h
  rw [bollingerBands_eval hband hbandChoice hevent heventChoice hperiod hstdDev] at hv
  obtain ⟨candles, hcandles, hv⟩ := bind_ok hv
  rw [onStore_selectNewest] at hcandles
  split at hcandles
  next =>
    have hnewest := (Except.ok.inj hcandles).symm
    have hcount : candles.length ≤ gridSlots := by
      rw [hnewest]
      exact hproduced.length_newest_le _
    obtain ⟨older, holder⟩ := hproduced.prices_eq ℝ (max ((n : Int) * 3) 60).toNat (by omega)
    rw [← hnewest] at holder
    by_cases henough : candles.length < n + 1
    · rw [BollingerBandsRule.decideOn_eq _ _ _ _ hproduced.close_ne] at hv
      unfold BollingerBandsRule.onPrices BollingerBandsRule.decideWith at hv
      rw [length_pricesOf, if_pos (by omega)] at hv
      exact absurd (Except.ok.inj hv) (by simp)
    · refine ⟨by omega, fun hbreak => ?_⟩
      have hlength : older.length + 1 = candles.length := by
        have := congrArg List.length holder
        simpa [pricesOf] using this.symm
      obtain ⟨prevClose, hprevious⟩ := index_previous (older ++ [closeOf ℝ candle])
        (by simp; omega)
      obtain ⟨k, rfl⟩ : ∃ k, n = k + 1 := ⟨n - 1, by omega⟩
      have hprices : (older ++ [closeOf ℝ candle]).length = candles.length := by
        rw [List.length_append, List.length_singleton, hlength]
      rw [BollingerBandsRule.decideOn_eq _ _ _ _ hproduced.close_ne, holder,
        BollingerBandsRule.onPrices_real hpos (by omega) hprevious, hbreak] at hv
      dsimp only at hv
      rw [windowAt_rtake _ (by omega), List.rtake_concat_succ] at hv
      by_contra hwide
      have hwindow : (older.rtake k).length = k := by
        rw [length_rtake]
        omega
      -- a close cannot be further from the mean of its own window
      have hwithin := within_bands (x := closeOf ℝ candle) (older.rtake k) hs.le
        (by rw [hwindow]; exact not_lt.mp hwide)
      cases hupper : band.isStr "upper" with
      | true =>
          rw [hupper] at hv
          simp only [if_neg (not_lt.mpr hwithin.1)] at hv
          exact absurd (Except.ok.inj hv) (by simp)
      | false =>
          rw [hupper] at hv
          simp only [if_neg (not_lt.mpr hwithin.2)] at hv
          exact absurd (Except.ok.inj hv) (by simp)
  next => exact absurd hcandles (by simp)

/-- Bars at 2, and a last one that jumps by `d`. -/
theorem bollingerBands_eval_jump (hpos : 1 ≤ n) (hroom : n + 1 ≤ gridSlots) (d : Rat) :
    RuleType.evaluateOn ℝ .bollingerBands config
      (bar "BTC" lastSlot (2 + d)) (bars "BTC" lastSlot ((2 + d) :: List.replicate n 2))
      = .ok (
        let current : ℝ := 2 + d
        let now := List.replicate (n - 1) 2 ++ [current]
        let before := List.replicate n 2
        match band.isStr "upper", event.isStr "break" with
        | true, true => if upperOf s now < current then some current else none
        | true, false =>
            if 2 ≤ upperOf s before ∧ upperOf s now ≤ current then some current else none
        | false, true => if current < lowerOf s now then some current else none
        | false, false =>
            if lowerOf s before ≤ 2 ∧ current ≤ lowerOf s now then some current else none) := by
  have hslots : gridSlots = 350597664 := rfl
  have hcast : ((2 + d : Rat) : ℝ) = 2 + d := by push_cast; rfl
  obtain ⟨hprices, hcount⟩ := prices_flat (a := 2) (x := 2 + d) (k := n)
    (show n + 1 ≤ (max ((n : Int) * 3) 60).toNat by omega)
  rw [hcast, Rat.cast_ofNat] at hprices
  -- the close before, and the windows that end at the last close and at the one before
  have hprevious : index (List.replicate n 2 ++ [2 + (d : ℝ)]) (-2) = .ok 2 := by
    obtain ⟨k, rfl⟩ : ∃ k, n = k + 1 := ⟨n - 1, by omega⟩
    exact (index_replicate_append k 2 _).2
  have hnow : windowAt (List.replicate n 2 ++ [2 + (d : ℝ)]) n
      ((List.replicate n 2 ++ [2 + (d : ℝ)]).length - 1)
      = List.replicate (n - 1) 2 ++ [2 + (d : ℝ)] := by
    obtain ⟨k, rfl⟩ : ∃ k, n = k + 1 := ⟨n - 1, by omega⟩
    rw [windowAt_rtake _ (by simp), List.rtake_concat_succ, rtake_replicate _ (Nat.le_succ k),
      Nat.add_sub_cancel]
  have hbefore : windowAt (List.replicate n 2 ++ [2 + (d : ℝ)]) n
      ((List.replicate n 2 ++ [2 + (d : ℝ)]).length - 2) = List.replicate n 2 := by
    rw [windowAt_previous _ _ (by simp), rtake_replicate _ (le_refl n)]
  have hvalue := @BollingerBandsRule.onPrices_real n s 2 (2 + d) (band.isStr "upper")
    (event.isStr "break") _ hpos (by simp) hprevious
  rw [hnow, hbefore] at hvalue
  rw [bollingerBands_eval hband hbandChoice hevent heventChoice hperiod hstdDev]
  show (onStore (bars "BTC" lastSlot _) (selectNewest "BTC" _) >>= _) = _
  rw [onStore_selectNewest, if_pos (Driver.takes_integer _ (by omega) (by omega)), ok_bind,
    BollingerBandsRule.decideOn_eq _ _ _ _ (by simp [bar]), hprices, closeOf_bar, hcast]
  exact hvalue

/-- **Bands fire** if the calendar has room for the period and a bar more; the close can break a
band of `s` deviations over `n` bars if `s² < n - 1`. -/
theorem bollingerBands_fires_iff (hpos : 1 ≤ n) (hs : 0 < s) :
    Fires .bollingerBands config ↔
      n + 1 ≤ gridSlots ∧ (event.isStr "break" = true → s * s < ((n - 1 : ℕ) : ℝ)) := by
  constructor
  · exact bollingerBands_fires_only hband hbandChoice hevent heventChoice hperiod hstdDev hpos hs
  · rintro ⟨hroom, hnarrow⟩
    have hrun := bollingerBands_eval_jump hband hbandChoice hevent heventChoice hperiod hstdDev
      hpos hroom
    cases hb : event.isStr "break" with
    | false =>
        -- flat prices touch both bands
        have hproduced := produced_flat (a := 2) (x := 2 + 0) (k := n) (by omega) (by norm_num)
          (by norm_num)
        have hflat : List.replicate (n - 1) (2 : ℝ) ++ [2 + ((0 : Rat) : ℝ)]
            = List.replicate n 2 := by
          rw [Rat.cast_zero, add_zero, ← List.replicate_succ', show n - 1 + 1 = n by omega]
        have hbands := bands_flat (a := 2) (s := s) (show n ≠ 0 by omega)
        refine ⟨_, _, hproduced, 2 + ((0 : Rat) : ℝ), ?_⟩
        rw [barTable, hrun 0, hb]
        dsimp only
        rw [hflat, hbands.1, hbands.2]
        cases band.isStr "upper" <;> simp
    | true =>
        cases hu : band.isStr "upper" with
        | true =>
            have hproduced := produced_flat (a := 2) (x := 2 + 1) (k := n) (by omega)
              (by norm_num) (by norm_num)
            have hout := upperOf_lt (a := 2) (d := ((1 : Rat) : ℝ)) (by norm_num) (hnarrow hb)
            refine ⟨_, _, hproduced, 2 + ((1 : Rat) : ℝ), ?_⟩
            rw [barTable, hrun 1, hb, hu]
            simp only [if_pos hout]
        | false =>
            have hproduced := produced_flat (a := 2) (x := 2 + -1) (k := n) (by omega)
              (by norm_num) (by norm_num)
            have hout := lt_lowerOf (a := 2) (d := ((-1 : Rat) : ℝ)) (by norm_num) (hnarrow hb)
            refine ⟨_, _, hproduced, 2 + ((-1 : Rat) : ℝ), ?_⟩
            rw [barTable, hrun (-1), hb, hu]
            simp only [if_pos hout]

end Bands

/-! ## §6. All of them. -/

/-- **An accepted rule with sensible numbers fires on some history exactly if it can.** -/
theorem fires_iff [Driver] {t : RuleType} (haccepted : Accepted t config)
    (hpositive : Positive t config) :
    Fires t config ↔ CanFire t config := by
  have hitems := accepted_items haccepted
  cases t with
  | priceThreshold | candleClose => exact hpositive.elim
  | percentMove =>
      obtain ⟨⟨p, hthreshold, hp⟩, w, hwindow, hw⟩ := hpositive
      rw [percentMove_fires_iff hthreshold hwindow hp hw]
      constructor
      · exact fun h => ⟨w, hwindow, h⟩
      · rintro ⟨w', hwindow', h⟩
        -- a configuration has one value under a key
        obtain rfl := Except.ok.inj (hwindow.symm.trans hwindow')
        exact h
  | macdCross =>
      obtain ⟨crossoverType, hcrossover, hchoice⟩ := hitems
      obtain ⟨fast, hfast, slow, hslow, signal, hsignal, hpos, hlt, htwo⟩ := hpositive
      rw [macdCross_fires_iff hcrossover hchoice hfast hslow hsignal hpos hlt htwo]
      constructor
      · exact fun h => ⟨fast, hfast, slow, hslow, signal, hsignal, h⟩
      · rintro ⟨fast', hfast', slow', hslow', signal', hsignal', h⟩
        obtain rfl := Except.ok.inj (hfast.symm.trans hfast')
        obtain rfl := Except.ok.inj (hslow.symm.trans hslow')
        obtain rfl := Except.ok.inj (hsignal.symm.trans hsignal')
        exact h
  | rsi =>
      obtain ⟨⟨period, hperiod, htwo⟩, direction, hdirection, threshold, hthreshold, hlow, hhigh⟩ :=
        hpositive
      obtain ⟨direction', hdirection', hchoice⟩ := hitems
      obtain rfl := Except.ok.inj (hdirection.symm.trans hdirection')
      rw [rsi_fires_iff hdirection hchoice hperiod hthreshold htwo hlow hhigh]
      constructor
      · exact fun h => ⟨period, hperiod, h⟩
      · rintro ⟨period', hperiod', h⟩
        obtain rfl := Except.ok.inj (hperiod.symm.trans hperiod')
        exact h
  | bollingerBands =>
      obtain ⟨⟨period, hperiod, htwo⟩, s, hstdDev, hs⟩ := hpositive
      obtain ⟨⟨band, hband, hbandChoice⟩, event, hevent, heventChoice⟩ := hitems
      obtain ⟨n, rfl⟩ := Int.eq_ofNat_of_zero_le (show 0 ≤ period by omega)
      -- the period is a natural number from here on
      have hwidth : ((n - 1 : ℕ) : ℝ) = ((n : Int) : ℝ) - 1 := by
        rw [Nat.cast_sub (by omega), Int.cast_natCast, Nat.cast_one]
      rw [bollingerBands_fires_iff hband hbandChoice hevent heventChoice hperiod hstdDev (by omega)
        hs, hwidth]
      constructor
      · rintro ⟨hroom, hnarrow⟩
        exact ⟨n, hperiod, by omega, event, hevent, fun hbreak => ⟨s, hstdDev, hnarrow hbreak⟩⟩
      · rintro ⟨period', hperiod', hroom, event', hevent', hnarrow⟩
        obtain rfl := Except.ok.inj (hperiod.symm.trans hperiod')
        obtain rfl := Except.ok.inj (hevent.symm.trans hevent')
        refine ⟨by omega, fun hbreak => ?_⟩
        obtain ⟨s', hstdDev', h⟩ := hnarrow hbreak
        obtain rfl := Except.ok.inj (hstdDev.symm.trans hstdDev')
        exact h

/-! ### The usual MACD, and a percent move over five minutes. -/

attribute [local instance] integerDriver

theorem fires_iff_macdCross : Fires .macdCross
    [("fast_period", .int 12), ("slow_period", .int 26), ("signal_period", .int 9),
      ("crossover_type", .str "bullish")] := by
  have haccepted : Accepted .macdCross [("fast_period", .int 12), ("slow_period", .int 26),
    ("signal_period", .int 9), ("crossover_type", .str "bullish")] := rfl
  exact (fires_iff haccepted
    ⟨12, rfl, 26, rfl, 9, rfl, by decide, by decide, by decide⟩).mpr
    ⟨12, rfl, 26, rfl, 9, rfl, by decide, by decide⟩

/-- **A window of five minutes**, as in the documentation, never fires. -/
theorem fires_fails : ¬ ∀ (t : RuleType) (config : Config),
    Accepted t config → Positive t config → Fires t config := by
  intro h
  have hthreshold : floatItem ℝ [("percent_threshold", .num 5), ("window_seconds", .int 300)]
      "percent_threshold" = .ok ((5 : Rat) : ℝ) := rfl
  have hfires := h .percentMove [("percent_threshold", .num 5), ("window_seconds", .int 300)] rfl
    ⟨⟨_, hthreshold, by norm_num⟩, 300, rfl, by decide⟩
  rw [percentMove_fires_iff hthreshold rfl (by norm_num) (by decide)] at hfires
  exact absurd hfires.1 (by decide)

end Pulse
