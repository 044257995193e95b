/-
  Pulse.Evaluate.Total
  ────────────────────
  **VALIDATED IS NOT EVALUABLE.**

  `validate_config` looks at keys and at the choices; `evaluate` converts,
  divides by periods and asks the database for a number of rows.  What raises is
  swallowed by the engine, so such a rule never fires.

    • `Evaluable`          — on which configurations `evaluate` raises nothing,
    • `evaluable_iff`      — exactly on these, over all histories that the column can hold,
    • `linesCross_iff`     — when a MACD looks at the close at all,
    • `evaluable_fails`    — a threshold of null.
-/
import Pulse.Api.Rules
import Pulse.Core.Exact
import Pulse.Evaluate.Fires

namespace Pulse

open Pulse.Store PyFloat

/-! ## §1. What is asked, and on which condition it holds. -/

/-- What a `NUMERIC(20, 8)` holds: a NaN, or a decimal of eight places with at most twelve
digits before the point. -/
def Dec.InColumn : Dec → Prop
  | .fin q => -10 ^ 12 < q ∧ q < 10 ^ 12 ∧ ∃ n : Int, q * 10 ^ 8 = n
  | .nan => True
  | .inf _ | .snan => False

/-- A table whose closes are in their column. -/
def ClosesStored (rows : List Candle) : Prop := ∀ r ∈ rows, r.close.InColumn

variable (F : Type) [PyFloat F]

/-- `evaluate` returns on every history of stored candles. -/
def NeverRaises [Driver] (t : RuleType) (config : Config) (candle : Candle) : Prop :=
  ∀ store : Table Candle.key, ClosesStored store.rows →
    ∃ out, t.evaluateOn F config candle store.rows = .ok out

variable {F} in
/-- The MACD line is on the other side of its signal line than one price before, in the
direction that is asked for. -/
def LinesCross (fast slow signal : Int) (crossoverType : Json) (prices : List F) : Prop :=
  ∃ macdLine signalLine histogram macdNow macdBefore signalNow signalBefore,
    calculateMacd prices fast slow signal = .ok (macdLine, signalLine, histogram) ∧
    index macdLine (-1) = .ok macdNow ∧ index macdLine (-2) = .ok macdBefore ∧
    index signalLine (-1) = .ok signalNow ∧ index signalLine (-2) = .ok signalBefore ∧
    if crossoverType.isStr "bullish" then signalNow < macdNow ∧ macdBefore ≤ signalBefore
    else macdNow < signalNow ∧ signalBefore ≤ macdBefore

/-- The numbers of the configuration convert, the window does not leave the calendar, the
periods of a MACD can be used as far as at most 50 candles get, the period of an RSI is positive
and a lookback is taken as a `LIMIT`; where the close of the candle is looked at, it converts. -/
def Evaluable [Driver] (t : RuleType) (config : Config) (candle : Candle) : Prop :=
  match t with
  | .priceThreshold => (∃ x, floatItem F config "threshold" = .ok x) ∧ candle.close ≠ .snan
  | .candleClose => (∃ x, floatItem F config "value" = .ok x) ∧ candle.close ≠ .snan
  | .percentMove => (∃ x, floatItem F config "percent_threshold" = .ok x) ∧
      (∃ windowSeconds,
        ((Json.item config "window_seconds") >>= Json.toInt) = .ok windowSeconds ∧
        ∃ startTime, timeBefore candle.timestamp windowSeconds = .ok startTime) ∧
      candle.close ≠ .snan
  | .macdCross => ∃ fast, intGet config "fast_period" 12 = .ok fast ∧
      ∃ slow, intGet config "slow_period" 26 = .ok slow ∧
      ∃ signal, intGet config "signal_period" 9 = .ok signal ∧
      (∀ n : Nat, n ≤ 50 → (n : Int) < slow + signal ∨
        (UsablePeriod F fast ∧ UsablePeriod F slow ∧
          (ReachesSignal n fast slow → UsablePeriod F signal))) ∧
      -- the close is looked at on a crossing
      (candle.close = .snan → ∀ store : Table Candle.key, ClosesStored store.rows →
        ∀ crossoverType, Json.item config "crossover_type" = .ok crossoverType →
        ¬ LinesCross fast slow signal crossoverType
          (pricesOf F (newest candle.symbol 50 store.rows)))
  | .rsi => (∃ period, intGet config "period" 14 = .ok period ∧ 1 ≤ period ∧
        Driver.takesLimit (max (period * 5) 100) = true) ∧
      ∃ x, (Json.getD config "threshold" (.num 70)).toFloat F = .ok x
  | .bollingerBands => (∃ period, intGet config "period" 20 = .ok period ∧
        Driver.takesLimit (max (period * 3) 60) = true ∧
        (1 ≤ period → candle.close ≠ .snan)) ∧
      ∃ x, (Json.getD config "std_dev" (.num 2)).toFloat F = .ok x

/-! ## §2. After the query. -/

variable {F} {config : Config} {candle : Candle} {candles : List Candle}

/-- `float(candle.close)` raises on a signaling NaN. -/
theorem currentClose_ok_iff : (∃ x, currentClose F candle = .ok x) ↔ candle.close ≠ .snan := by
  constructor
  · rintro ⟨x, hx⟩ hsnan
    unfold currentClose at hx
    rw [hsnan] at hx
    cases hx
  · exact fun h => ⟨_, currentClose_eq h⟩

theorem compareClose_ok_iff {key : String} (h : ∃ x, Json.item config "operator" = .ok x) :
    (∃ out, compareClose F key config candle = .ok out) ↔
      (∃ x, floatItem F config key = .ok x) ∧ candle.close ≠ .snan := by
  obtain ⟨operator, hoperator⟩ := h
  unfold compareClose
  rw [bind_ok_iff, ← exists_and_right, ← currentClose_ok_iff (F := F)]
  refine exists_congr fun x => and_congr_right fun _ => ?_
  rw [hoperator, ok_bind, bind_ok_iff]
  refine exists_congr fun price => and_iff_left ?_
  split
  next => exact ⟨_, rfl⟩
  next => split <;> exact ⟨_, rfl⟩

/-- The division is by a price that was tested. -/
theorem PercentMoveRule.decideOn_ok_iff (percentThreshold : F) :
    (∃ out, PercentMoveRule.decideOn F percentThreshold candle candles = .ok out) ↔
      (candles ≠ [] → candle.close ≠ .snan) := by
  unfold PercentMoveRule.decideOn PercentMoveRule.decideWith
  cases candles with
  | nil => exact iff_of_true ⟨none, rfl⟩ fun h => absurd rfl h
  | cons oldCandle rest =>
      rw [List.head?_cons, Option.map_some]
      dsimp only
      rw [bind_ok_iff, imp_iff_right (List.cons_ne_nil _ _), ← currentClose_ok_iff (F := F)]
      refine exists_congr fun newPrice => and_iff_left ?_
      split
      next => exact ⟨none, rfl⟩
      next hzero =>
        rw [pyDiv_of_nonzero _ (Bool.eq_false_iff.mpr hzero)]
        exact ⟨_, rfl⟩

/-- An RSI against a store. -/
theorem rsi_ok_iff [Driver] {store : List Candle} {direction : Json}
    (hdirection : Json.item config "direction" = .ok direction)
    (hchoice : direction.isStr "overbought" = true ∨ direction.isStr "oversold" = true) :
    (∃ out, RuleType.evaluateOn F .rsi config candle store = .ok out) ↔
      ∃ period, intGet config "period" 14 = .ok period ∧ ∃ threshold,
        (Json.getD config "threshold"
          (.num (if direction.isStr "overbought" then 70 else 30))).toFloat F = .ok threshold ∧
        Driver.takesLimit (max (period * 5) 100) = true ∧
        ∃ out, RSIRule.decideOn F period (direction.isStr "overbought") threshold
          (newest candle.symbol (max (period * 5) 100).toNat store) = .ok out := by
  have hknown : (!direction.isStr "overbought" && !direction.isStr "oversold") = false := by
    rcases hchoice with h | h <;> simp [h]
  rw [evaluateOn_rsi, bind_ok_iff]
  refine exists_congr fun period => and_congr_right fun _ => ?_
  rw [hdirection, ok_bind, hknown]
  simp only [Bool.false_eq_true, if_false]
  rw [bind_ok_iff]
  refine exists_congr fun threshold => and_congr_right fun _ => ?_
  exact onStore_selectNewest_bind

/-- Bands against a store. -/
theorem bollingerBands_ok_iff [Driver] {store : List Candle} {band event : Json}
    (hband : Json.item config "band" = .ok band)
    (hbandChoice : band.isStr "upper" = true ∨ band.isStr "lower" = true)
    (hevent : Json.item config "event" = .ok event)
    (heventChoice : event.isStr "touch" = true ∨ event.isStr "break" = true) :
    (∃ out, RuleType.evaluateOn F .bollingerBands config candle store = .ok out) ↔
      ∃ period, intGet config "period" 20 = .ok period ∧ ∃ stdDev,
        (Json.getD config "std_dev" (.num 2)).toFloat F = .ok stdDev ∧
        Driver.takesLimit (max (period * 3) 60) = true ∧
        ∃ out, BollingerBandsRule.decideOn F period stdDev (band.isStr "upper")
          (event.isStr "break") candle
          (newest candle.symbol (max (period * 3) 60).toNat store) = .ok out := by
  have hknown : ((!band.isStr "upper" && !band.isStr "lower")
      || (!event.isStr "touch" && !event.isStr "break")) = false := by
    rcases hbandChoice with h | h <;> rcases heventChoice with h' | h' <;> simp [h, h']
  rw [evaluateOn_bollingerBands, bind_ok_iff]
  refine exists_congr fun period => and_congr_right fun _ => ?_
  rw [bind_ok_iff]
  refine exists_congr fun stdDev => and_congr_right fun _ => ?_
  rw [hband, ok_bind, hevent, ok_bind, hknown]
  simp only [Bool.false_eq_true, if_false]
  exact onStore_selectNewest_bind

/-- A number that is the default converts. -/
theorem getD_num_toFloat {key : String} {q q' : Rat}
    (h : ∃ x, (Json.getD config key (.num q)).toFloat F = .ok x) :
    ∃ x, (Json.getD config key (.num q')).toFloat F = .ok x := by
  unfold Json.getD at h ⊢
  split at h
  next => exact h
  next => exact ⟨_, rfl⟩

variable [LawfulPyFloat F]

omit [LawfulPyFloat F] in
/-- **A MACD whose lines are computed** looks at the close where they cross, and returns nothing
where they do not. -/
theorem MACDCrossRule.decideWith_eq {fast slow signal : Int} {crossoverType : Json}
    (hchoice : crossoverType.isStr "bullish" = true ∨ crossoverType.isStr "bearish" = true)
    (close : Except PyErr F) {prices : List F} {lines : List F × List F × List F}
    (hlines : calculateMacd prices fast slow signal = .ok lines) :
    (LinesCross fast slow signal crossoverType prices →
      MACDCrossRule.decideWith fast slow signal crossoverType close prices = close.map some) ∧
    (¬ LinesCross fast slow signal crossoverType prices →
      MACDCrossRule.decideWith fast slow signal crossoverType close prices = .ok none) := by
  obtain ⟨macdLine, signalLine, histogram⟩ := lines
  -- a crossing has two values on each line
  have hlong : LinesCross fast slow signal crossoverType prices →
      2 ≤ macdLine.length ∧ 2 ≤ signalLine.length := by
    rintro ⟨_, _, _, _, _, _, _, hlines', -, hmacd, -, hsignal, -⟩
    cases hlines.symm.trans hlines'
    exact ⟨length_of_index_previous hmacd, length_of_index_previous hsignal⟩
  unfold MACDCrossRule.decideWith
  split
  next hfew =>
    refine ⟨fun hcross => ?_, fun _ => rfl⟩
    have hempty := hlines
    unfold calculateMacd at hempty
    rw [if_pos hfew] at hempty
    cases Except.ok.inj hempty
    exact absurd (hlong hcross).1 (by simp)
  next =>
    rw [hlines, ok_bind]
    dsimp only
    split
    next hshort =>
      rw [Bool.or_eq_true, decide_eq_true_eq, decide_eq_true_eq] at hshort
      refine ⟨fun hcross => ?_, fun _ => rfl⟩
      have := hlong hcross
      omega
    next htwo =>
      rw [Bool.or_eq_true, not_or, decide_eq_true_eq, decide_eq_true_eq] at htwo
      obtain ⟨macdNow, h₁⟩ := index_last macdLine (by omega)
      obtain ⟨macdBefore, h₂⟩ := index_previous macdLine (by omega)
      obtain ⟨signalNow, h₃⟩ := index_last signalLine (by omega)
      obtain ⟨signalBefore, h₄⟩ := index_previous signalLine (by omega)
      have hcross : LinesCross fast slow signal crossoverType prices ↔
          if crossoverType.isStr "bullish" then signalNow < macdNow ∧ macdBefore ≤ signalBefore
          else macdNow < signalNow ∧ signalBefore ≤ macdBefore := by
        constructor
        · rintro ⟨_, _, _, _, _, _, _, hlines', h₁', h₂', h₃', h₄', h⟩
          cases hlines.symm.trans hlines'
          cases h₁.symm.trans h₁'
          cases h₂.symm.trans h₂'
          cases h₃.symm.trans h₃'
          cases h₄.symm.trans h₄'
          exact h
        · exact fun h => ⟨_, _, _, _, _, _, _, hlines, h₁, h₂, h₃, h₄, h⟩
      rw [hcross, h₁, ok_bind, h₂, ok_bind, h₃, ok_bind, h₄, ok_bind]
      have hmap : (close >>= fun x => pure (some x)) = close.map some := by
        cases close <;> rfl
      by_cases hbullish : crossoverType.isStr "bullish" = true
      · rw [if_pos hbullish, if_pos hbullish, hmap]
        exact ⟨fun h => if_pos h, fun h => if_neg h⟩
      · rw [if_neg hbullish, if_neg hbullish, if_pos (hchoice.resolve_left hbullish), hmap]
        exact ⟨fun h => if_pos h, fun h => if_neg h⟩

/-- It raises nothing if its lines can be computed, and where they cross, the close converts. -/
theorem MACDCrossRule.decideWith_ok_iff {fast slow signal : Int} {crossoverType : Json}
    (hchoice : crossoverType.isStr "bullish" = true ∨ crossoverType.isStr "bearish" = true)
    {close : Except PyErr F} {prices : List F} (hn : prices.length < 2 ^ 63) :
    (∃ out, MACDCrossRule.decideWith fast slow signal crossoverType close prices = .ok out) ↔
      ((prices.length : Int) < slow + signal ∨ (UsablePeriod F fast ∧ UsablePeriod F slow ∧
        (ReachesSignal prices.length fast slow → UsablePeriod F signal))) ∧
      (LinesCross fast slow signal crossoverType prices → ∃ x, close = .ok x) := by
  rw [← calculateMacd_ok_iff prices fast slow signal hn]
  constructor
  · rintro ⟨out, hout⟩
    have hlines : ∃ lines, calculateMacd prices fast slow signal = .ok lines := by
      unfold MACDCrossRule.decideWith at hout
      split at hout
      next hfew =>
        unfold calculateMacd
        rw [if_pos hfew]
        exact ⟨_, rfl⟩
      next =>
        obtain ⟨lines, hlines, -⟩ := bind_ok hout
        exact ⟨lines, hlines⟩
    refine ⟨hlines, fun hcross => ?_⟩
    obtain ⟨lines, hlines⟩ := hlines
    rw [(MACDCrossRule.decideWith_eq hchoice close hlines).1 hcross] at hout
    cases close with
    | ok x => exact ⟨x, rfl⟩
    | error e => cases hout
  · rintro ⟨⟨lines, hlines⟩, hclose⟩
    obtain ⟨hcrossing, hquiet⟩ := MACDCrossRule.decideWith_eq hchoice close hlines
    by_cases hcross : LinesCross fast slow signal crossoverType prices
    · obtain ⟨x, rfl⟩ := hclose hcross
      exact ⟨some x, hcrossing hcross⟩
    · exact ⟨none, hquiet hcross⟩

theorem MACDCrossRule.decideOn_ok_iff {fast slow signal : Int} {crossoverType : Json}
    (hchoice : crossoverType.isStr "bullish" = true ∨ crossoverType.isStr "bearish" = true)
    (hn : candles.length < 2 ^ 63) :
    (∃ out, MACDCrossRule.decideOn F fast slow signal crossoverType candle candles = .ok out) ↔
      ((candles.length : Int) < slow + signal ∨ (UsablePeriod F fast ∧ UsablePeriod F slow ∧
        (ReachesSignal candles.length fast slow → UsablePeriod F signal))) ∧
      (candle.close = .snan →
        ¬ LinesCross fast slow signal crossoverType (pricesOf F candles)) := by
  unfold MACDCrossRule.decideOn
  rw [MACDCrossRule.decideWith_ok_iff hchoice (by rwa [length_pricesOf]), length_pricesOf,
    currentClose_ok_iff]
  exact and_congr_right fun _ => ⟨fun h hsnan hcross => h hcross hsnan,
    fun h hcross hsnan => h hsnan hcross⟩

theorem RSIRule.decideOn_ok {period : Int} {overbought : Bool} {threshold : F}
    (hpos : 1 ≤ period) (hsmall : period ≤ 2 ^ 64) :
    ∃ out, RSIRule.decideOn F period overbought threshold candles = .ok out := by
  unfold RSIRule.decideOn RSIRule.onPrices
  split
  next => exact ⟨none, rfl⟩
  next =>
    obtain ⟨values, hvalues⟩ := calculateRsi_ok (pricesOf F candles) hpos hsmall
    rw [hvalues]
    simp only [bind, Except.bind]
    split
    next => exact ⟨none, rfl⟩
    next hlong =>
      obtain ⟨current, h₁⟩ := index_last values (by omega)
      obtain ⟨previous, h₂⟩ := index_previous values (by omega)
      rw [h₁, h₂]
      simp only
      split <;> exact ⟨_, rfl⟩

/-- A period of zero divides by zero once there is a candle, and a negative one looks for a
gain that is not there when there is none. -/
theorem RSIRule.decideOn_raises {period : Int} {overbought : Bool} {threshold : F}
    (hpos : period ≤ 0) (hcandles : candles.length = if period = 0 then 1 else 0) :
    ¬ ∃ out, RSIRule.decideOn F period overbought threshold candles = .ok out := by
  rintro ⟨out, hout⟩
  have hlength : (pricesOf F candles).length = candles.length := by simp [pricesOf]
  unfold RSIRule.decideOn RSIRule.onPrices at hout
  rw [if_neg (by split at hcandles <;> omega)] at hout
  obtain ⟨values, hvalues, -⟩ := bind_ok hout
  unfold calculateRsi at hvalues
  rw [if_neg (by split at hcandles <;> omega)] at hvalues
  obtain ⟨avgGain, hgain, hvalues⟩ := bind_ok hvalues
  obtain ⟨avgLoss, -, hvalues⟩ := bind_ok hvalues
  obtain ⟨first, -, hvalues⟩ := bind_ok hvalues
  obtain ⟨rest, hrest, -⟩ := bind_ok hvalues
  have hne : period ≠ 0 := (divInt_ok_iff.mp ⟨avgGain, hgain⟩).2
  rw [if_neg hne] at hcandles
  have hgains : gainsOf (pricesOf F candles) = [] := by
    rw [← List.length_eq_zero_iff]
    simp [gainsOf, hlength, hcandles]
  obtain ⟨k, hk⟩ : ∃ k, (0 - period).toNat = k + 1 := ⟨(0 - period).toNat - 1, by omega⟩
  rw [hgains, pyRange, List.length_nil, Nat.cast_zero, hk, List.range_succ_eq_map, List.map_cons]
    at hrest
  obtain ⟨gain, hgain, -⟩ := bind_ok hrest
  unfold wilder at hgain
  obtain ⟨_, -, hgain⟩ := bind_ok hgain
  obtain ⟨x, hx, -⟩ := bind_ok hgain
  exact index_nil hx

/-- A close that is stored is far from the largest double. -/
theorem Dec.InColumn.moderate {d : Dec} (h : d.InColumn) : Moderate (PyFloat.ofDec d : F) := by
  intro k hlow hhigh
  cases d with
  | fin q =>
      have hpow : (10 : Rat) ^ 12 ≤ 2 ^ k :=
        le_trans (by norm_num : (10 : Rat) ^ 12 ≤ 2 ^ 40) (pow_le_pow_right₀ one_le_two hlow)
      obtain ⟨hneg, hpos, -⟩ := h
      exact LawfulPyFloat.below_ofDec k hhigh q (by linarith) (by linarith)
  | nan => exact LawfulPyFloat.below_nan k hhigh
  | inf _ | snan => exact h.elim

/-- **Bands of stored closes** raise nothing; the close of the candle is looked at when there
are two of them. -/
theorem BollingerBandsRule.decideOn_ok_iff {period : Int} {stdDev : F}
    {upperBand breakEvent : Bool} (hsmall : period ≤ 2 ^ 63) (hstored : ClosesStored candles) :
    (∃ out, BollingerBandsRule.decideOn F period stdDev upperBand breakEvent candle candles
      = .ok out) ↔ (1 ≤ period → period + 1 ≤ candles.length → candle.close ≠ .snan) := by
  have hprices : ∀ p ∈ pricesOf F candles, Moderate p := by
    intro p hp
    obtain ⟨r, hr, rfl⟩ := List.mem_map.mp hp
    exact (hstored r (List.mem_reverse.mp hr)).moderate
  obtain ⟨upper, middle, lower, hbands, hlower, hcount⟩ :=
    calculateBollingerBands_ok stdDev hsmall hprices
  rw [length_pricesOf] at hcount
  unfold BollingerBandsRule.decideOn BollingerBandsRule.decideWith
  rw [length_pricesOf]
  split
  next hfew => exact iff_of_true ⟨none, rfl⟩ fun _ henough => absurd hfew (by omega)
  next henough =>
    rw [hbands, ok_bind]
    dsimp only
    split
    next hshort =>
      refine iff_of_true ⟨none, rfl⟩ fun hpos _ => ?_
      rw [if_neg (by omega)] at hcount
      omega
    next hlong =>
      have hpos : 1 ≤ period := by
        by_contra hneg
        rw [if_pos (by omega)] at hcount
        omega
      rw [if_neg (by omega)] at hcount
      rw [imp_iff_right hpos, imp_iff_right (by omega), ← currentClose_ok_iff (F := F), bind_ok_iff]
      refine exists_congr fun close => and_iff_left ?_
      have hlength := length_pricesOf (F := F) candles
      obtain ⟨prevClose, h₁⟩ := index_previous (pricesOf F candles) (by omega)
      obtain ⟨upperNow, h₂⟩ := index_last upper (by omega)
      obtain ⟨upperPrev, h₃⟩ := index_previous upper (by omega)
      obtain ⟨lowerNow, h₄⟩ := index_last lower (by omega)
      obtain ⟨lowerPrev, h₅⟩ := index_previous lower (by omega)
      rw [h₁, ok_bind, h₂, ok_bind, h₃, ok_bind, h₄, ok_bind, h₅, ok_bind]
      split
      next => split <;> exact ⟨_, rfl⟩
      next => split <;> exact ⟨_, rfl⟩

/-! ## §3. The whole of `evaluate`. -/

section Whole

variable [Driver]

/-- A MACD against a store. -/
theorem macdCross_ok_iff {store : List Candle} {crossoverType : Json}
    (hcrossover : Json.item config "crossover_type" = .ok crossoverType)
    (hchoice : crossoverType.isStr "bullish" = true ∨ crossoverType.isStr "bearish" = true) :
    (∃ out, RuleType.evaluateOn F .macdCross config candle store = .ok out) ↔
      ∃ fast, intGet config "fast_period" 12 = .ok fast ∧
      ∃ slow, intGet config "slow_period" 26 = .ok slow ∧
      ∃ signal, intGet config "signal_period" 9 = .ok signal ∧
        (((newest candle.symbol 50 store).length : Int) < slow + signal ∨
          (UsablePeriod F fast ∧ UsablePeriod F slow ∧
            (ReachesSignal (newest candle.symbol 50 store).length fast slow →
              UsablePeriod F signal))) ∧
        (candle.close = .snan → ¬ LinesCross fast slow signal crossoverType
          (pricesOf F (newest candle.symbol 50 store))) := by
  rw [evaluateOn_macdCross, bind_ok_iff]
  refine exists_congr fun fast => and_congr_right fun _ => ?_
  rw [bind_ok_iff]
  refine exists_congr fun slow => and_congr_right fun _ => ?_
  rw [bind_ok_iff]
  refine exists_congr fun signal => and_congr_right fun _ => ?_
  rw [hcrossover, ok_bind, onStore_selectNewest_bind,
    and_iff_right (Driver.takes_integer _ (by decide) (by decide))]
  exact MACDCrossRule.decideOn_ok_iff hchoice
    (lt_of_le_of_lt (length_newest_le _ _ _) (by decide))

/-! ### Histories. -/

omit [PyFloat F] [LawfulPyFloat F] [Driver] in
theorem closesStored_empty : ClosesStored (Table.empty : Table Candle.key).rows :=
  fun _ hr => absurd hr List.not_mem_nil

omit [PyFloat F] [LawfulPyFloat F] [Driver] in
/-- Bars that close at 1. -/
theorem closesStored_bars (symbol : String) (t : Time) (n : Nat) :
    ClosesStored (barTable symbol t (List.replicate n 1)).rows := by
  intro r hr
  obtain ⟨i, hi, htime, q, hq, hclose⟩ := mem_bars_slot hr
  rw [hclose, List.eq_of_mem_replicate hq]
  exact ⟨by norm_num, by norm_num, 10 ^ 8, by norm_num⟩

omit [PyFloat F] [LawfulPyFloat F] [Driver] in
/-- The history that `evaluate` reads of `n` bars has `min limit n` of them. -/
theorem length_newest_bars (symbol : String) (limit n : Nat) :
    (newest symbol limit (barTable symbol 0 (List.replicate n 1)).rows).length
      = min limit n := by
  rw [barTable, newest_bars, List.length_take, length_bars, List.length_replicate]

omit [PyFloat F] [LawfulPyFloat F] [Driver] in
theorem ClosesStored.newest {rows : List Candle} (h : ClosesStored rows) (symbol : String)
    (limit : Nat) : ClosesStored (newest symbol limit rows) :=
  fun r hr => h r (mem_newest hr).1

omit [PyFloat F] [LawfulPyFloat F] [Driver] in
/-- A row since the start is found, or an older one. -/
theorem oldestSince_ne_nil {symbol : String} {start : Time} {rows : List Candle} {r : Candle}
    (hr : r ∈ rows) (hsymbol : r.symbol = symbol) (hstart : start ≤ r.timestamp) :
    oldestSince symbol start rows ≠ [] := by
  have hfound : 0 < (rows.filter fun r => r.symbol = symbol ∧ start ≤ r.timestamp).length :=
    List.length_pos_of_mem (List.mem_filter.mpr ⟨hr, by simp [hsymbol, hstart]⟩)
  apply List.ne_nil_of_length_pos
  unfold oldestSince
  rw [List.length_take, List.length_insertionSort]
  omega

/-! ### One rule type at a time. -/

omit [LawfulPyFloat F] in
theorem percentMove_neverRaises_iff :
    NeverRaises F .percentMove config candle ↔ Evaluable F .percentMove config candle := by
  have hrun : ∀ store, (∃ out, RuleType.evaluateOn F .percentMove config candle store = .ok out) ↔
      ∃ percentThreshold, floatItem F config "percent_threshold" = .ok percentThreshold ∧
      ∃ windowSeconds,
        ((Json.item config "window_seconds") >>= Json.toInt) = .ok windowSeconds ∧
      ∃ startTime, timeBefore candle.timestamp windowSeconds = .ok startTime ∧
        (oldestSince candle.symbol startTime store ≠ [] → candle.close ≠ .snan) := by
    intro store
    rw [evaluateOn_percentMove, bind_ok_iff]
    refine exists_congr fun percentThreshold => and_congr_right fun _ => ?_
    rw [bind_ok_iff]
    refine exists_congr fun windowSeconds => and_congr_right fun _ => ?_
    rw [bind_ok_iff]
    exact exists_congr fun startTime => and_congr_right fun _ =>
      PercentMoveRule.decideOn_ok_iff percentThreshold
  constructor
  · intro h
    obtain ⟨percentThreshold, hthreshold, windowSeconds, hwindow, startTime, hstart, -⟩ :=
      (hrun _).mp (h .empty closesStored_empty)
    refine ⟨⟨percentThreshold, hthreshold⟩, ⟨windowSeconds, hwindow, startTime, hstart⟩, ?_⟩
    -- one bar, at the start of the window
    obtain ⟨_, -, _, hwindow', _, hstart', hclose⟩ := (hrun _).mp
      (h _ (closesStored_bars candle.symbol startTime 1))
    cases hwindow.symm.trans hwindow'
    cases hstart.symm.trans hstart'
    exact hclose (oldestSince_ne_nil List.mem_cons_self rfl (le_refl _))
  · rintro ⟨⟨percentThreshold, hthreshold⟩, ⟨windowSeconds, hwindow, startTime, hstart⟩,
      hclose⟩ store -
    exact (hrun _).mpr ⟨percentThreshold, hthreshold, windowSeconds, hwindow, startTime, hstart,
      fun _ => hclose⟩

theorem macdCross_neverRaises_iff (haccepted : Accepted .macdCross config) :
    NeverRaises F .macdCross config candle ↔ Evaluable F .macdCross config candle := by
  obtain ⟨crossoverType, hcrossover, hchoice⟩ := accepted_items haccepted
  constructor
  · intro h
    obtain ⟨fast, hfast, slow, hslow, signal, hsignal, -⟩ :=
      (macdCross_ok_iff hcrossover hchoice).mp (h .empty closesStored_empty)
    refine ⟨fast, hfast, slow, hslow, signal, hsignal, fun n hn => ?_, ?_⟩
    · -- a history of `n` bars
      obtain ⟨_, hfast', _, hslow', _, hsignal', hlines, -⟩ :=
        (macdCross_ok_iff hcrossover hchoice).mp (h _ (closesStored_bars candle.symbol 0 n))
      cases hfast.symm.trans hfast'
      cases hslow.symm.trans hslow'
      cases hsignal.symm.trans hsignal'
      rwa [length_newest_bars, Nat.min_eq_right hn] at hlines
    · intro hsnan store hstored crossoverType' hcrossover'
      cases hcrossover.symm.trans hcrossover'
      obtain ⟨_, hfast', _, hslow', _, hsignal', -, hclose⟩ :=
        (macdCross_ok_iff hcrossover hchoice).mp (h store hstored)
      cases hfast.symm.trans hfast'
      cases hslow.symm.trans hslow'
      cases hsignal.symm.trans hsignal'
      exact hclose hsnan
  · rintro ⟨fast, hfast, slow, hslow, signal, hsignal, hall, hcross⟩ store hstored
    exact (macdCross_ok_iff hcrossover hchoice).mpr ⟨fast, hfast, slow, hslow, signal, hsignal,
      hall _ (length_newest_le _ _ _),
      fun hsnan => hcross hsnan store hstored crossoverType hcrossover⟩

theorem rsi_neverRaises_iff (haccepted : Accepted .rsi config) :
    NeverRaises F .rsi config candle ↔ Evaluable F .rsi config candle := by
  obtain ⟨direction, hdirection, hchoice⟩ := accepted_items haccepted
  constructor
  · intro h
    obtain ⟨period, hperiod, threshold, hthreshold, hlimit, -⟩ :=
      (rsi_ok_iff hdirection hchoice).mp (h .empty closesStored_empty)
    refine ⟨⟨period, hperiod, ?_, hlimit⟩, getD_num_toFloat ⟨threshold, hthreshold⟩⟩
    by_contra hpos
    -- one candle for a period of zero, none for a negative one
    obtain ⟨period', hperiod', threshold', -, -, hout⟩ := (rsi_ok_iff hdirection hchoice).mp
      (h _ (closesStored_bars candle.symbol 0 (if period = 0 then 1 else 0)))
    obtain rfl := Except.ok.inj (hperiod.symm.trans hperiod')
    refine RSIRule.decideOn_raises (by omega) ?_ hout
    rw [length_newest_bars]
    split <;> omega
  · rintro ⟨⟨period, hperiod, hpos, hlimit⟩, hthreshold⟩ store -
    obtain ⟨threshold, hthreshold⟩ := getD_num_toFloat hthreshold
    have hsmall := Driver.lt_of_takes _ hlimit
    exact (rsi_ok_iff hdirection hchoice).mpr ⟨period, hperiod, threshold, hthreshold,
      hlimit, RSIRule.decideOn_ok hpos (by omega)⟩

theorem bollingerBands_neverRaises_iff (haccepted : Accepted .bollingerBands config) :
    NeverRaises F .bollingerBands config candle ↔
      Evaluable F .bollingerBands config candle := by
  obtain ⟨⟨band, hband, hbandChoice⟩, event, hevent, heventChoice⟩ := accepted_items haccepted
  have hrun := fun store => @bollingerBands_ok_iff F _ config candle _ store band event hband
    hbandChoice hevent heventChoice
  constructor
  · intro h
    obtain ⟨period, hperiod, stdDev, hstdDev, hlimit, -⟩ :=
      (hrun _).mp (h .empty closesStored_empty)
    refine ⟨⟨period, hperiod, hlimit, fun hpos => ?_⟩, stdDev, hstdDev⟩
    -- a bar more than the period
    have hsmall := Driver.lt_of_takes _ hlimit
    have hstored := closesStored_bars candle.symbol 0 (period + 1).toNat
    obtain ⟨period', hperiod', stdDev', -, -, hout⟩ := (hrun _).mp (h _ hstored)
    cases hperiod.symm.trans hperiod'
    refine (BollingerBandsRule.decideOn_ok_iff (by omega) (hstored.newest _ _)).mp hout hpos ?_
    rw [length_newest_bars]
    omega
  · rintro ⟨⟨period, hperiod, hlimit, hclose⟩, stdDev, hstdDev⟩ store hstored
    have hsmall := Driver.lt_of_takes _ hlimit
    exact (hrun _).mpr ⟨period, hperiod, stdDev, hstdDev, hlimit,
      (BollingerBandsRule.decideOn_ok_iff (by omega) (hstored.newest _ _)).mpr
        fun hpos _ => hclose hpos⟩

/-- **`evaluate` of an accepted configuration raises nothing, over all histories, exactly if
the configuration is evaluable.** -/
theorem evaluable_iff {t : RuleType} (haccepted : Accepted t config) :
    NeverRaises F t config candle ↔ Evaluable F t config candle := by
  cases t with
  | priceThreshold =>
      unfold NeverRaises Evaluable
      simp only [evaluateOn_priceThreshold, compareClose_ok_iff (accepted_items haccepted)]
      exact ⟨fun h => h .empty closesStored_empty, fun h _ _ => h⟩
  | candleClose =>
      unfold NeverRaises Evaluable
      simp only [evaluateOn_candleClose, compareClose_ok_iff (accepted_items haccepted)]
      exact ⟨fun h => h .empty closesStored_empty, fun h _ _ => h⟩
  | percentMove => exact percentMove_neverRaises_iff
  | macdCross => exact macdCross_neverRaises_iff haccepted
  | rsi => exact rsi_neverRaises_iff haccepted
  | bollingerBands => exact bollingerBands_neverRaises_iff haccepted

end Whole

/-! ### Where lines cross. -/

omit [PyFloat F] [LawfulPyFloat F] in
/-- **In exact numbers lines of the usual periods cross on some history** if 50 candles are
enough for them. -/
theorem linesCross_iff {fast slow signal : Int} {crossoverType : Json}
    (hchoice : crossoverType.isStr "bullish" = true ∨ crossoverType.isStr "bearish" = true)
    (hpos : 1 ≤ fast) (hlt : fast < slow) (htwo : 2 ≤ signal) (symbol : String) :
    (∃ store : Table Candle.key, ClosesStored store.rows ∧
      LinesCross fast slow signal crossoverType (pricesOf ℝ (newest symbol 50 store.rows))) ↔
      slow + signal ≤ 50 ∧ fast + slow ≤ 51 := by
  constructor
  · rintro ⟨store, -, macdLine, signalLine, histogram, _, _, _, _, hlines, hnow, -⟩
    have hcount := length_newest_le symbol 50 store.rows
    have hline : macdLine ≠ [] := by
      rintro rfl
      exact index_nil hnow
    have hreaches := calculateMacd_reaches hlines hline
    have henough : ¬ ((newest symbol 50 store.rows).length : Int) < slow + signal := by
      intro hfew
      unfold calculateMacd at hlines
      rw [length_pricesOf, if_pos hfew] at hlines
      exact hline (congrArg Prod.fst (Except.ok.inj hlines)).symm
    unfold ReachesSignal at hreaches
    rw [length_pricesOf] at hreaches
    omega
  · rintro ⟨hsum, hreach⟩
    obtain ⟨f, rfl⟩ := Int.eq_ofNat_of_zero_le (show 0 ≤ fast by omega)
    obtain ⟨s, rfl⟩ := Int.eq_ofNat_of_zero_le (show 0 ≤ slow by omega)
    obtain ⟨g, rfl⟩ := Int.eq_ofNat_of_zero_le (show 0 ≤ signal by omega)
    -- 49 bars at 2, and a jump of 1 up or down
    refine ⟨barTable symbol lastSlot ((2 + crossingJump crossoverType) :: List.replicate 49 2),
      ?_, ?_⟩
    · intro r hr
      obtain ⟨i, -, -, q, hq, hclose⟩ := mem_bars_slot hr
      rw [hclose]
      rcases List.mem_cons.mp hq with rfl | hq
      · unfold crossingJump
        split
        next => exact ⟨by norm_num, by norm_num, 3 * 10 ^ 8, by norm_num⟩
        next => exact ⟨by norm_num, by norm_num, 10 ^ 8, by norm_num⟩
      · rw [List.eq_of_mem_replicate hq]
        exact ⟨by norm_num, by norm_num, 2 * 10 ^ 8, by norm_num⟩
    · have hprices : pricesOf ℝ (newest symbol 50 (barTable symbol lastSlot
          ((2 + crossingJump crossoverType) :: List.replicate 49 2)).rows)
          = pricesOf ℝ (newest "BTC" 50 (bars "BTC" lastSlot
            ((2 + crossingJump crossoverType) :: List.replicate 49 2))) := by
        rw [barTable, newest_bars, newest_bars, List.take_of_length_le (by simp),
          List.take_of_length_le (by simp), pricesOf_bars, pricesOf_bars]
      have hfires := MACDCrossRule.decideOn_jump (f := f) (s := s) (g := g) hchoice (by omega)
        (by omega) (by omega) (by omega) (by omega)
      unfold MACDCrossRule.decideOn at hfires
      rw [hprices]
      by_contra hquiet
      have hsmall : (pricesOf ℝ (newest "BTC" 50 (bars "BTC" lastSlot
          ((2 + crossingJump crossoverType) :: List.replicate 49 2)))).length < 2 ^ 63 := by
        rw [length_pricesOf]
        exact lt_of_le_of_lt (length_newest_le _ _ _) (by decide : 50 < 2 ^ 63)
      obtain ⟨lines, hlines⟩ := (calculateMacd_ok_iff _ f s g hsmall).mpr
        (Or.inr ⟨Or.inl (by omega), Or.inl (by omega), fun _ => Or.inl (by omega)⟩)
      rw [(MACDCrossRule.decideWith_eq hchoice _ hlines).2 hquiet] at hfires
      exact absurd (Except.ok.inj hfires) (by simp)

/-! ### An RSI with the default period, and a threshold of null. -/

attribute [local instance] integerDriver

theorem evaluable_iff_rsi :
    NeverRaises ℝ .rsi [("direction", .str "overbought"), ("threshold", .int 70)]
      sampleCandle := by
  have haccepted : Accepted .rsi [("direction", .str "overbought"), ("threshold", .int 70)] := rfl
  exact (evaluable_iff haccepted).mpr
    ⟨⟨14, rfl, by decide, by decide⟩, ((70 : Int) : ℝ), rfl⟩

/-- **`validate_config` accepts a threshold of null**, and `float(None)` raises. -/
theorem evaluable_fails : ¬ ∀ (t : RuleType) (config : Config) (candle : Candle),
    Accepted t config → NeverRaises ℝ t config candle := by
  intro h
  obtain ⟨out, hout⟩ := h .priceThreshold [("threshold", .null), ("operator", .str ">=")]
    sampleCandle rfl .empty closesStored_empty
  rw [evaluateOn_priceThreshold] at hout
  have hraises : compareClose ℝ "threshold" [("threshold", .null), ("operator", .str ">=")]
      sampleCandle = .error ⟨.typeError, "float() argument must be a string or a real number"⟩ :=
    rfl
  exact absurd (hraises.symm.trans hout) (by simp)

end Pulse
