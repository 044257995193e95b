/-
  Pulse.Evaluate.Scale
  ────────────────────
  **THE UNIT OF THE PRICES DOES NOT MATTER.**

  In exact numbers the averages of scaled prices are the scaled averages, the bands
  are the scaled bands, and the ratios that RSI and the percent move are made of
  stay as they are.  A division that raises does so in any unit.

    • `calculateEma_scale`, `calculateMacd_scale`, `calculateBollingerBands_scale`,
    • `calculateRsi_scale`,
    • `scale_invariant` — the four rule classes.
-/
import Pulse.Core.Exact
import Pulse.Evaluate.Readings
import Pulse.Evaluate.History

namespace Pulse

open PyFloat

/-! ## §1. What is mapped over a sequence. -/

section Sequences

variable {α β : Type} (f : α → β) (xs : List α) (i : Int)

theorem sliceTo_map : sliceTo (xs.map f) i = (sliceTo xs i).map f := by
  unfold sliceTo
  rw [List.length_map]
  by_cases h : 0 ≤ i
  · rw [if_pos h, if_pos h, List.map_take]
  · rw [if_neg h, if_neg h, List.map_take]

theorem sliceFrom_map : sliceFrom (xs.map f) i = (sliceFrom xs i).map f := by
  unfold sliceFrom
  rw [List.length_map]
  by_cases h : 0 ≤ i
  · rw [if_pos h, if_pos h, List.map_drop]
  · rw [if_neg h, if_neg h, List.map_drop]

theorem index_map : index (xs.map f) i = (index xs i).map f := by
  unfold index
  rw [List.length_map, List.getElem?_map, List.getElem?_map]
  by_cases h : 0 ≤ i
  · rw [if_pos h, if_pos h]
    cases xs[i.toNat]? <;> rfl
  · rw [if_neg h, if_neg h]
    by_cases hlength : i.natAbs ≤ xs.length
    · rw [if_pos hlength, if_pos hlength]
      cases xs[xs.length - i.natAbs]? <;> rfl
    · rw [if_neg hlength, if_neg hlength]
      rfl

theorem windowAt_map (period : Int) :
    windowAt (xs.map f) period i = (windowAt xs period i).map f := by
  unfold windowAt
  rw [List.map_take, List.map_drop]

end Sequences

/-! ## §2. Single values. -/

variable {s : ℝ}

/-- The last argument of a sum of products. -/
theorem sum_scale (s : ℝ) (xs : List ℝ) : (xs.map (s * ·)).sum = s * xs.sum := by
  induction xs with
  | nil => simp
  | cons x xs ih =>
      rw [List.map_cons, List.sum_cons, List.sum_cons, ih]
      ring

theorem divInt_scale (s x : ℝ) (i : Int) : divInt (s * x) i = (divInt x i).map (s * ·) := by
  by_cases hi : i = 0
  · have hzero : isZero (ofInt i : ℝ) = true := isZero_real.mpr (by rw [hi, ofInt_real]; simp)
    have hraise : ∀ y : ℝ, divInt y i
        = .error ⟨.zeroDivisionError, "float division by zero"⟩ := by
      intro y
      show pyDiv y (ofInt i) = _
      unfold pyDiv
      rw [if_pos hzero]
    rw [hraise, hraise]
    rfl
  · rw [divInt_real hi, divInt_real hi, mul_div_assoc]
    rfl

theorem isZero_scale (hs : s ≠ 0) (x : ℝ) : isZero (s * x) = isZero x := by
  rw [Bool.eq_iff_iff, isZero_real, isZero_real, mul_eq_zero, or_iff_right hs]

/-- A ratio has no unit. -/
theorem pyDiv_scale (hs : s ≠ 0) (x y : ℝ) : pyDiv (s * x) (s * y) = pyDiv x y := by
  unfold pyDiv
  rw [isZero_scale hs, mul_div_mul_left x y hs]

theorem pyMax_scale (hs : 0 < s) (x : ℝ) : pyMax (s * x) (ofInt 0) = s * pyMax x (ofInt 0) := by
  have hlt : s * x < 0 ↔ x < 0 := by
    constructor
    · intro h
      by_contra hx
      exact absurd h (not_lt.mpr (mul_nonneg hs.le (not_lt.mp hx)))
    · exact mul_neg_of_pos_of_neg hs
  unfold pyMax
  rw [ofInt_real, Int.cast_zero]
  by_cases h : x < 0
  · rw [if_pos h, if_pos (hlt.mpr h), mul_zero]
  · rw [if_neg h, if_neg (fun h' => h (hlt.mp h'))]

/-! ## §3. The averages. -/

theorem emaValues_scale (s multiplier ema : ℝ) (prices : List ℝ) :
    emaValues multiplier (s * ema) (prices.map (s * ·))
      = (emaValues multiplier ema prices).map (s * ·) := by
  induction prices generalizing ema with
  | nil => rfl
  | cons price prices ih =>
      have hnext : (s * price - s * ema) * multiplier + s * ema
          = s * ((price - ema) * multiplier + ema) := by ring
      rw [List.map_cons, emaValues, emaValues, hnext, ih]
      rfl

theorem calculateEma_scale (s : ℝ) (prices : List ℝ) (period : Int) :
    calculateEma (prices.map (s * ·)) period = (calculateEma prices period).map (List.map (s * ·)) := by
  unfold calculateEma
  rw [List.length_map]
  by_cases h : (prices.length : Int) < period
  · rw [if_pos h, if_pos h]
    rfl
  · rw [if_neg h, if_neg h, except_bind_map]
    refine bind_congr fun multiplier => ?_
    rw [except_bind_map, sliceTo_map, sliceFrom_map, sum_real, sum_scale, divInt_scale,
      except_map_bind]
    refine bind_congr fun sma => ?_
    rw [emaValues_scale]
    rfl

theorem alignedDifference_scale (s : ℝ) (xs ys : List ℝ) :
    alignedDifference (xs.map (s * ·)) (ys.map (s * ·))
      = (alignedDifference xs ys).map (s * ·) := by
  have hsub : ∀ xs ys : List ℝ, List.zipWith (· - ·) (xs.map (s * ·)) (ys.map (s * ·))
      = (List.zipWith (· - ·) xs ys).map (s * ·) := by
    -- on the first list; it may be the longer or the shorter one
    intro xs
    induction xs with
    | nil => intro ys; rfl
    | cons x xs ih =>
        intro ys
        cases ys with
        | nil => rfl
        | cons y ys =>
            rw [List.map_cons, List.map_cons, List.zipWith_cons_cons, List.zipWith_cons_cons, ih ys,
              List.map_cons, mul_sub]
  unfold alignedDifference
  rw [List.length_map, List.length_map]
  dsimp only
  rw [sliceFrom_map, sliceFrom_map, hsub]

/-- The three lines of a MACD in another unit. -/
def scaleLines (s : ℝ) (lines : List ℝ × List ℝ × List ℝ) : List ℝ × List ℝ × List ℝ :=
  (lines.1.map (s * ·), lines.2.1.map (s * ·), lines.2.2.map (s * ·))

theorem macdSignal_scale (s : ℝ) (macdLine : List ℝ) (signalPeriod : Int) :
    macdSignal (macdLine.map (s * ·)) signalPeriod
      = (macdSignal macdLine signalPeriod).map (scaleLines s) := by
  unfold macdSignal
  rw [List.length_map]
  by_cases h : (macdLine.length : Int) < signalPeriod
  · rw [if_pos h, if_pos h]
    rfl
  · rw [if_neg h, if_neg h, calculateEma_scale, except_map_bind, except_bind_map]
    refine bind_congr fun signalLine => ?_
    rw [List.length_map]
    by_cases hempty : signalLine.length = 0
    · rw [if_pos hempty, if_pos hempty]
      rfl
    · rw [if_neg hempty, if_neg hempty, alignedDifference_scale]
      rfl

theorem calculateMacd_scale (s : ℝ) (prices : List ℝ) (fastPeriod slowPeriod signalPeriod : Int) :
    calculateMacd (prices.map (s * ·)) fastPeriod slowPeriod signalPeriod
      = (calculateMacd prices fastPeriod slowPeriod signalPeriod).map (scaleLines s) := by
  unfold calculateMacd
  rw [List.length_map]
  by_cases h : (prices.length : Int) < slowPeriod + signalPeriod
  · rw [if_pos h, if_pos h]
    rfl
  · rw [if_neg h, if_neg h, calculateEma_scale, except_map_bind, except_bind_map]
    refine bind_congr fun fastEma => ?_
    rw [calculateEma_scale, except_map_bind, except_bind_map]
    refine bind_congr fun slowEma => ?_
    rw [List.length_map, List.length_map]
    by_cases hfew : ((fastEma.length : Int) < slowPeriod || slowEma.length = 0) = true
    · rw [if_pos hfew, if_pos hfew]
      rfl
    · rw [if_neg hfew, if_neg hfew, alignedDifference_scale, macdSignal_scale]

/-! ## §4. The relative strength index. -/

theorem changes_scale (s : ℝ) : ∀ prices : List ℝ,
    changes (prices.map (s * ·)) = (changes prices).map (s * ·)
  | [] => rfl
  | [_] => rfl
  | a :: b :: prices => by
      have ih := changes_scale s (b :: prices)
      rw [List.map_cons] at ih
      rw [List.map_cons, List.map_cons, changes, ih, changes, List.map_cons, mul_sub]

theorem gainsOf_scale (hs : 0 < s) (prices : List ℝ) :
    gainsOf (prices.map (s * ·)) = (gainsOf prices).map (s * ·) := by
  unfold gainsOf
  rw [changes_scale, List.map_map, List.map_map]
  refine List.map_congr_left fun c _ => ?_
  exact pyMax_scale hs c

theorem lossesOf_scale (hs : 0 < s) (prices : List ℝ) :
    lossesOf (prices.map (s * ·)) = (lossesOf prices).map (s * ·) := by
  unfold lossesOf
  rw [changes_scale, List.map_map, List.map_map]
  refine List.map_congr_left fun c _ => ?_
  show pyMax (-(s * c)) (ofInt 0) = s * pyMax (-c) (ofInt 0)
  rw [← mul_neg, pyMax_scale hs]

theorem rsiFromAvgs_scale (hs : s ≠ 0) (avgGain avgLoss : ℝ) :
    rsiFromAvgs (s * avgGain) (s * avgLoss) = rsiFromAvgs avgGain avgLoss := by
  unfold rsiFromAvgs
  rw [isZero_scale hs, pyDiv_scale hs]

theorem wilder_scale (s avg : ℝ) (period : Int) (x : Except PyErr ℝ) :
    wilder (s * avg) period (x.map (s * ·)) = (wilder avg period x).map (s * ·) := by
  unfold wilder
  rw [mulInt_real, mulInt_real, ok_bind, ok_bind, except_map_bind, except_bind_map]
  refine bind_congr fun y => ?_
  rw [← divInt_scale]
  congr 1
  ring

/-- The loop, by induction on the indices: the averages carry the unit, the values do not. -/
theorem rsiValues_scale (hs : s ≠ 0) (gains losses : List ℝ) (period : Int) (is : List Int)
    (avgGain avgLoss : ℝ) :
    rsiValues (gains.map (s * ·)) (losses.map (s * ·)) period is (s * avgGain) (s * avgLoss)
      = rsiValues gains losses period is avgGain avgLoss := by
  induction is generalizing avgGain avgLoss with
  | nil => rfl
  | cons i is ih =>
      unfold rsiValues
      rw [index_map, wilder_scale, except_map_bind]
      refine bind_congr fun gain => ?_
      rw [index_map, wilder_scale, except_map_bind]
      refine bind_congr fun loss => ?_
      rw [rsiFromAvgs_scale hs, ih]

theorem calculateRsi_scale (hs : 0 < s) (prices : List ℝ) (period : Int) :
    calculateRsi (prices.map (s * ·)) period = calculateRsi prices period := by
  unfold calculateRsi
  rw [List.length_map, gainsOf_scale hs, lossesOf_scale hs]
  by_cases h : (prices.length : Int) ≤ period
  · rw [if_pos h, if_pos h]
  · rw [if_neg h, if_neg h, sliceTo_map, sum_real, sum_scale, divInt_scale, except_map_bind]
    refine bind_congr fun avgGain => ?_
    rw [sliceTo_map, sum_real, sum_scale, divInt_scale, except_map_bind]
    refine bind_congr fun avgLoss => ?_
    rw [rsiFromAvgs_scale hs.ne', List.length_map, rsiValues_scale hs.ne']

/-! ## §5. The bands. -/

theorem sqrt_scale (hs : 0 < s) (v : ℝ) : √(s * (s * v)) = s * √v := by
  rw [← mul_assoc, Real.sqrt_mul (mul_nonneg hs.le hs.le), Real.sqrt_mul_self hs.le]

/-- The bands of a window in another unit. -/
def scaleBands (s : ℝ) (bands : ℝ × ℝ × ℝ) : ℝ × ℝ × ℝ :=
  (s * bands.1, s * bands.2.1, s * bands.2.2)

theorem bandsOf_scale (hs : 0 < s) (period : Int) (stdDev : ℝ) (window : List ℝ) :
    bandsOf period stdDev (window.map (s * ·))
      = (bandsOf period stdDev window).map (scaleBands s) := by
  unfold bandsOf
  rw [sum_real, sum_scale, divInt_scale, except_map_bind, except_bind_map]
  refine bind_congr fun mean => ?_
  -- the squares carry the unit twice
  have hsquares : (window.map (s * ·)).map (fun p => (p - s * mean) * (p - s * mean))
      = ((window.map fun p => (p - mean) * (p - mean)).map (s * ·)).map (s * ·) := by
    rw [List.map_map, List.map_map, List.map_map]
    refine List.map_congr_left fun p _ => ?_
    show (s * p - s * mean) * (s * p - s * mean) = s * (s * ((p - mean) * (p - mean)))
    ring
  rw [mapM_pySq_real, mapM_pySq_real, ok_bind, ok_bind, hsquares, sum_real, sum_scale, sum_scale,
    divInt_scale, divInt_scale, except_map_bind, except_map_bind, except_bind_map]
  refine bind_congr fun variance => ?_
  have hupper : s * mean + stdDev * √(s * (s * variance)) = s * (mean + stdDev * √variance) := by
    rw [sqrt_scale hs]
    ring
  have hlower : s * mean - stdDev * √(s * (s * variance)) = s * (mean - stdDev * √variance) := by
    rw [sqrt_scale hs]
    ring
  show Except.ok (s * mean + stdDev * √(s * (s * variance)), s * mean,
    s * mean - stdDev * √(s * (s * variance))) = _
  rw [hupper, hlower]
  rfl

theorem calculateBollingerBands_scale (hs : 0 < s) (prices : List ℝ) (period : Int)
    (stdDev : ℝ) :
    calculateBollingerBands (prices.map (s * ·)) period stdDev
      = (calculateBollingerBands prices period stdDev).map (scaleLines s) := by
  have hmapM : ∀ is : List Int,
      is.mapM (fun i => bandsOf period stdDev (windowAt (prices.map (s * ·)) period i))
        = (is.mapM fun i => bandsOf period stdDev (windowAt prices period i)).map
            (List.map (scaleBands s)) := by
    -- window by window
    intro is
    induction is with
    | nil => rfl
    | cons i is ih =>
        rw [List.mapM_cons, List.mapM_cons, windowAt_map, bandsOf_scale hs, except_map_bind,
          except_bind_map]
        refine bind_congr fun bands => ?_
        rw [ih, except_map_bind, except_bind_map]
        rfl
  unfold calculateBollingerBands
  rw [List.length_map]
  by_cases h : ((prices.length : Int) < period || period ≤ 0) = true
  · rw [if_pos h, if_pos h]
    rfl
  · rw [if_neg h, if_neg h, hmapM, except_map_bind, except_bind_map]
    refine bind_congr fun bands => ?_
    show Except.ok _ = Except.ok (scaleLines s _)
    unfold scaleLines
    simp only [List.map_map]
    rfl

/-! ## §6. The rule classes. -/

variable {prices : List ℝ}

theorem RSIRule.onPrices_scale (hs : 0 < s) (period : Int) (overbought : Bool) (threshold : ℝ) :
    RSIRule.onPrices period overbought threshold (prices.map (s * ·))
      = RSIRule.onPrices period overbought threshold prices := by
  unfold RSIRule.onPrices
  rw [List.length_map, calculateRsi_scale hs]

theorem MACDCrossRule.onPrices_scale (hs : 0 < s) (fastPeriod slowPeriod signalPeriod : Int)
    (crossoverType : Json) (close : ℝ) :
    MACDCrossRule.onPrices fastPeriod slowPeriod signalPeriod crossoverType (s * close)
        (prices.map (s * ·))
      = (MACDCrossRule.onPrices fastPeriod slowPeriod signalPeriod crossoverType close
          prices).map (Option.map (s * ·)) := by
  unfold MACDCrossRule.onPrices MACDCrossRule.decideWith
  rw [List.length_map]
  by_cases h : (prices.length : Int) < slowPeriod + signalPeriod
  · rw [if_pos h, if_pos h]
    rfl
  rw [if_neg h, if_neg h, calculateMacd_scale, except_map_bind, except_bind_map]
  refine bind_congr fun lines => ?_
  obtain ⟨macdLine, signalLine, histogram⟩ := lines
  dsimp only [scaleLines]
  rw [List.length_map, List.length_map]
  by_cases hfew : (macdLine.length < 2 || signalLine.length < 2) = true
  · rw [if_pos hfew, if_pos hfew]
    rfl
  rw [if_neg hfew, if_neg hfew]
  simp only [index_map, except_map_bind, except_bind_map]
  refine bind_congr fun macdCurrent => bind_congr fun macdPrevious =>
    bind_congr fun signalCurrent => bind_congr fun signalPrevious => ?_
  -- the comparisons are the same in both units
  simp only [mul_lt_mul_iff_right₀ hs, mul_le_mul_iff_right₀ hs]
  split
  next => split <;> rfl
  next =>
    split
    next => split <;> rfl
    next => rfl

theorem BollingerBandsRule.onPrices_scale (hs : 0 < s) (period : Int) (stdDev : ℝ)
    (upperBand breakEvent : Bool) (currentClose : ℝ) :
    BollingerBandsRule.onPrices period stdDev upperBand breakEvent (s * currentClose)
        (prices.map (s * ·))
      = (BollingerBandsRule.onPrices period stdDev upperBand breakEvent currentClose
          prices).map (Option.map (s * ·)) := by
  unfold BollingerBandsRule.onPrices BollingerBandsRule.decideWith
  rw [List.length_map]
  by_cases h : (prices.length : Int) < period + 1
  · rw [if_pos h, if_pos h]
    rfl
  rw [if_neg h, if_neg h, calculateBollingerBands_scale hs, except_map_bind, except_bind_map]
  refine bind_congr fun lines => ?_
  obtain ⟨upper, middle, lower⟩ := lines
  dsimp only [scaleLines]
  rw [List.length_map]
  by_cases hfew : upper.length < 2
  · rw [if_pos hfew, if_pos hfew]
    rfl
  rw [if_neg hfew, if_neg hfew]
  simp only [ok_bind, index_map, except_map_bind, except_bind_map]
  refine bind_congr fun prevClose => ?_
  cases upperBand <;> cases breakEvent <;>
    simp only [except_bind_map, if_true, if_false, Bool.false_eq_true,
      mul_lt_mul_iff_right₀ hs, mul_le_mul_iff_right₀ hs] <;>
    refine bind_congr fun bandNow => bind_congr fun bandPrev => ?_ <;>
    split <;> rfl

theorem PercentMoveRule.onPrices_scale (hs : 0 < s) (percentThreshold : ℝ)
    (oldPrice : Option ℝ) (newPrice : ℝ) :
    PercentMoveRule.onPrices percentThreshold (oldPrice.map (s * ·)) (s * newPrice)
      = (PercentMoveRule.onPrices percentThreshold oldPrice newPrice).map
          (Option.map (s * ·)) := by
  cases oldPrice with
  | none => rfl
  | some oldPrice =>
      show (if isZero (s * oldPrice) = true then _ else _) = _
      unfold PercentMoveRule.onPrices PercentMoveRule.decideWith
      dsimp only
      rw [ok_bind, isZero_scale hs.ne']
      by_cases hzero : isZero oldPrice = true
      · rw [if_pos hzero, if_pos hzero]
        rfl
      · -- the unit cancels in the ratio
        rw [if_neg hzero, if_neg hzero, ← mul_sub, pyDiv_scale hs.ne', except_bind_map]
        refine bind_congr fun ratio => ?_
        split <;> rfl

/-- The prices of a scaled reading. -/
theorem pricesBy_scale (s : ℝ) (read : Candle → ℝ) (candles : List Candle) :
    pricesBy (fun r => s * read r) candles = (pricesBy read candles).map (s * ·) := by
  unfold pricesBy
  rw [List.map_map]
  rfl

/-- **Indicator rules do not depend on the price unit**: whether they fire stays, and where a
price is returned, it is returned in the new unit. -/
theorem scale_invariant [Driver] (hs : 0 < s) (read : Candle → ℝ) (config : Config)
    (candle : Candle) (store : List Candle) :
    RSIRule.evaluateReading (fun r => s * read r) config candle store
        = RSIRule.evaluateReading read config candle store ∧
      MACDCrossRule.evaluateReading (fun r => s * read r) config candle store
        = (MACDCrossRule.evaluateReading read config candle store).map (Option.map (s * ·)) ∧
      BollingerBandsRule.evaluateReading (fun r => s * read r) config candle store
        = (BollingerBandsRule.evaluateReading read config candle store).map
            (Option.map (s * ·)) ∧
      PercentMoveRule.evaluateReading (fun r => s * read r) config candle store
        = (PercentMoveRule.evaluateReading read config candle store).map
            (Option.map (s * ·)) := by
  refine ⟨?_, ?_, ?_, ?_⟩
  · -- what is returned is a strength, not a price
    unfold RSIRule.evaluateReading
    simp only [pricesBy_scale, RSIRule.onPrices_scale hs]
  · unfold MACDCrossRule.evaluateReading
    simp only [pricesBy_scale, MACDCrossRule.onPrices_scale hs, except_bind_map]
  · unfold BollingerBandsRule.evaluateReading
    simp only [pricesBy_scale, BollingerBandsRule.onPrices_scale hs, except_bind_map]
    refine bind_congr fun period => bind_congr fun stdDev => bind_congr fun band =>
      bind_congr fun event => ?_
    split
    next => rfl
    next => rw [except_bind_map]
  · unfold PercentMoveRule.evaluateReading
    simp only [except_bind_map]
    refine bind_congr fun threshold => bind_congr fun window => bind_congr fun start => ?_
    rw [← PercentMoveRule.onPrices_scale hs, Option.map_map]
    rfl

/-- A configuration with the keys of all four classes. -/
def indicatorConfig : Config :=
  [("period", .int 2), ("direction", .str "overbought"), ("fast_period", .int 1),
    ("slow_period", .int 2), ("signal_period", .int 1), ("crossover_type", .str "bullish"),
    ("band", .str "upper"), ("event", .str "touch"), ("percent_threshold", .int 5),
    ("window_seconds", .int 900)]

attribute [local instance] integerDriver

/-- Three bars, in cents. -/
theorem scale_invariant_cents :
    (0 : ℝ) < 100 ∧
    RSIRule.evaluateReading (fun r => 100 * closeOf ℝ r) indicatorConfig
        (bar "BTC" lastSlot 3) (bars "BTC" lastSlot [3, 1, 2])
      = RSIRule.evaluateReading (closeOf ℝ) indicatorConfig
          (bar "BTC" lastSlot 3) (bars "BTC" lastSlot [3, 1, 2]) ∧
    MACDCrossRule.evaluateReading (fun r => 100 * closeOf ℝ r) indicatorConfig
        (bar "BTC" lastSlot 3) (bars "BTC" lastSlot [3, 1, 2])
      = (MACDCrossRule.evaluateReading (closeOf ℝ) indicatorConfig
          (bar "BTC" lastSlot 3) (bars "BTC" lastSlot [3, 1, 2])).map (Option.map (100 * ·)) ∧
    BollingerBandsRule.evaluateReading (fun r => 100 * closeOf ℝ r) indicatorConfig
        (bar "BTC" lastSlot 3) (bars "BTC" lastSlot [3, 1, 2])
      = (BollingerBandsRule.evaluateReading (closeOf ℝ) indicatorConfig
          (bar "BTC" lastSlot 3) (bars "BTC" lastSlot [3, 1, 2])).map (Option.map (100 * ·)) ∧
    PercentMoveRule.evaluateReading (fun r => 100 * closeOf ℝ r) indicatorConfig
        (bar "BTC" lastSlot 3) (bars "BTC" lastSlot [3, 1, 2])
      = (PercentMoveRule.evaluateReading (closeOf ℝ) indicatorConfig
          (bar "BTC" lastSlot 3) (bars "BTC" lastSlot [3, 1, 2])).map (Option.map (100 * ·)) := by
  have hs : (0 : ℝ) < 100 := by norm_num
  exact ⟨hs, scale_invariant hs (closeOf ℝ) indicatorConfig (bar "BTC" lastSlot 3)
    (bars "BTC" lastSlot [3, 1, 2])⟩

end Pulse
