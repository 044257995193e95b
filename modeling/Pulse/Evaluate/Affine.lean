/-
  Pulse.Evaluate.Affine
  ─────────────────────
  **PRICES ON ANOTHER AXIS.**

  A chart can be drawn to another scale, from another origin, or upside down: each price
  `x` becomes `a * x + b`.  In exact numbers the indicator rules see the same chart.  A
  MACD line loses the origin and carries the scale, a band is mapped like a price, and
  upside down bullish and bearish change places, as do the upper and the lower band.

    • `calculateMacd_affine`, `calculateBollingerBands_affine`,
    • `Config.swapped`   — a configuration with the two directions exchanged,
    • `affine_covariant` — the three rule classes.
-/
import Pulse.Evaluate.Scale
import Pulse.Evaluate.Signals

namespace Pulse

open PyFloat Spread

/-- A price on another axis. -/
def onAxis (a b x : ℝ) : ℝ := a * x + b

variable {a b : ℝ} {prices : List ℝ}

theorem map_onAxis (a b : ℝ) (xs : List ℝ) :
    xs.map (onAxis a b) = (xs.map (a * ·)).map (· + b) := by
  rw [List.map_map]
  rfl

theorem onAxis_lt_iff (ha : 0 < a) (b x y : ℝ) : onAxis a b x < onAxis a b y ↔ x < y := by
  unfold onAxis
  rw [add_lt_add_iff_right, mul_lt_mul_iff_right₀ ha]

theorem onAxis_le_iff (ha : 0 < a) (b x y : ℝ) : onAxis a b x ≤ onAxis a b y ↔ x ≤ y := by
  unfold onAxis
  rw [add_le_add_iff_right, mul_le_mul_iff_right₀ ha]

theorem onAxis_lt_iff_down (ha : a < 0) (b x y : ℝ) : onAxis a b x < onAxis a b y ↔ y < x := by
  unfold onAxis
  rw [add_lt_add_iff_right, mul_lt_mul_left_of_neg ha]

theorem onAxis_le_iff_down (ha : a < 0) (b x y : ℝ) : onAxis a b x ≤ onAxis a b y ↔ y ≤ x := by
  unfold onAxis
  rw [add_le_add_iff_right, mul_le_mul_left_of_neg ha]

/-! ## §1. Another origin. -/

theorem length_sliceTo_of_le {α : Type} {xs : List α} {period : Int} (hpos : 1 ≤ period)
    (hlong : ¬ (xs.length : Int) < period) : ((sliceTo xs period).length : Int) = period := by
  unfold sliceTo
  rw [if_pos (by omega), List.length_take]
  omega

theorem emaValues_shift (b multiplier ema : ℝ) (prices : List ℝ) :
    emaValues multiplier (ema + b) (prices.map (· + b))
      = (emaValues multiplier ema prices).map (· + b) := by
  induction prices generalizing ema with
  | nil => rfl
  | cons price prices ih =>
      have hnext : (price + b - (ema + b)) * multiplier + (ema + b)
          = (price - ema) * multiplier + ema + b := by ring
      rw [List.map_cons, emaValues, emaValues, hnext, ih]
      rfl

/-- An average moves with the origin. -/
theorem calculateEma_shift {period : Int} (hpos : 1 ≤ period) (b : ℝ) (prices : List ℝ) :
    calculateEma (prices.map (· + b)) period
      = (calculateEma prices period).map (List.map (· + b)) := by
  unfold calculateEma
  rw [List.length_map]
  by_cases h : (prices.length : Int) < period
  · rw [if_pos h, if_pos h]
    rfl
  · have hsum : ((sliceTo prices period).map (· + b)).sum
        = (sliceTo prices period).sum + period * b := by
      have haffine := sum_map_affine 1 b (sliceTo prices period)
      simp only [one_mul] at haffine
      rw [haffine]
      congr 2
      exact_mod_cast length_sliceTo_of_le hpos h
    have hzero : (period : ℝ) ≠ 0 := Int.cast_ne_zero.mpr (by omega)
    have hsma : divInt ((sliceTo prices period).sum + period * b) period
        = (divInt (sliceTo prices period).sum period).map (· + b) := by
      rw [divInt_real (by omega), divInt_real (by omega)]
      show Except.ok _ = Except.ok _
      congr 1
      field_simp
    rw [if_neg h, if_neg h, except_bind_map]
    refine bind_congr fun multiplier => ?_
    rw [except_bind_map, sliceTo_map, sliceFrom_map, sum_real, hsum, sum_real, hsma,
      except_map_bind]
    refine bind_congr fun sma => ?_
    rw [emaValues_shift]
    rfl

/-- A difference does not. -/
theorem alignedDifference_shift (b : ℝ) (xs ys : List ℝ) :
    alignedDifference (xs.map (· + b)) (ys.map (· + b)) = alignedDifference xs ys := by
  have hsub : ∀ xs ys : List ℝ, List.zipWith (· - ·) (xs.map (· + b)) (ys.map (· + b))
      = List.zipWith (· - ·) xs ys := by
    intro xs
    induction xs with
    | nil => intro ys; rfl
    | cons x xs ih =>
        intro ys
        cases ys with
        | nil => rfl
        | cons y ys =>
            rw [List.map_cons, List.map_cons, List.zipWith_cons_cons, List.zipWith_cons_cons, ih ys,
              add_sub_add_right_eq_sub]
  unfold alignedDifference
  rw [List.length_map, List.length_map]
  dsimp only
  rw [sliceFrom_map, sliceFrom_map, hsub]

theorem calculateMacd_shift {fastPeriod slowPeriod : Int} (hfast : 1 ≤ fastPeriod)
    (hslow : 1 ≤ slowPeriod) (b : ℝ) (prices : List ℝ) (signalPeriod : Int) :
    calculateMacd (prices.map (· + b)) fastPeriod slowPeriod signalPeriod
      = calculateMacd prices fastPeriod slowPeriod signalPeriod := by
  unfold calculateMacd
  rw [List.length_map]
  by_cases h : (prices.length : Int) < slowPeriod + signalPeriod
  · rw [if_pos h, if_pos h]
  · rw [if_neg h, if_neg h, calculateEma_shift hfast, except_map_bind]
    refine bind_congr fun fastEma => ?_
    rw [calculateEma_shift hslow, except_map_bind]
    refine bind_congr fun slowEma => ?_
    rw [List.length_map, List.length_map, alignedDifference_shift]

/-- **The lines of a MACD** carry the scale alone. -/
theorem calculateMacd_affine {fastPeriod slowPeriod : Int} (hfast : 1 ≤ fastPeriod)
    (hslow : 1 ≤ slowPeriod) (a b : ℝ) (prices : List ℝ) (signalPeriod : Int) :
    calculateMacd (prices.map (onAxis a b)) fastPeriod slowPeriod signalPeriod
      = (calculateMacd prices fastPeriod slowPeriod signalPeriod).map (scaleLines a) := by
  rw [map_onAxis, calculateMacd_shift hfast hslow, calculateMacd_scale]

theorem changes_shift (b : ℝ) : ∀ prices : List ℝ,
    changes (prices.map (· + b)) = changes prices
  | [] => rfl
  | [_] => rfl
  | x :: y :: prices => by
      have ih := changes_shift b (y :: prices)
      rw [List.map_cons] at ih
      rw [List.map_cons, List.map_cons, changes, ih, changes, add_sub_add_right_eq_sub]

/-- Strength is made of changes. -/
theorem calculateRsi_affine (ha : 0 < a) (b : ℝ) (prices : List ℝ) (period : Int) :
    calculateRsi (prices.map (onAxis a b)) period = calculateRsi prices period := by
  have hshift : ∀ xs : List ℝ, calculateRsi (xs.map (· + b)) period = calculateRsi xs period := by
    intro xs
    unfold calculateRsi gainsOf lossesOf
    rw [List.length_map, changes_shift]
  rw [map_onAxis, hshift, calculateRsi_scale ha]

/-! ## §2. The bands. -/

/-- Upside down the upper band is the image of the lower one. -/
theorem upperOf_affine (ha : a ≠ 0) (b stdDev : ℝ) {window : List ℝ} (h : 0 < window.length) :
    upperOf stdDev (window.map (onAxis a b))
        = onAxis a b (if 0 < a then upperOf stdDev window else lowerOf stdDev window) ∧
      lowerOf stdDev (window.map (onAxis a b))
        = onAxis a b (if 0 < a then lowerOf stdDev window else upperOf stdDev window) := by
  have hmean : mean (window.map (onAxis a b)) = a * mean window + b := mean_affine a b h
  have hsd : √(variance (window.map (onAxis a b))) = |a| * √(variance window) :=
    sqrt_variance_affine a b h
  unfold upperOf lowerOf
  rw [hmean, hsd]
  by_cases hup : 0 < a
  · rw [if_pos hup, if_pos hup, abs_of_pos hup]
    unfold onAxis
    constructor <;> ring
  · have hdown : a < 0 := lt_of_le_of_ne (not_lt.mp hup) ha
    rw [if_neg hup, if_neg hup, abs_of_neg hdown]
    unfold onAxis
    constructor <;> ring

/-- The lines of the bands on another axis. -/
noncomputable def axisLines (a b : ℝ) (lines : List ℝ × List ℝ × List ℝ) :
    List ℝ × List ℝ × List ℝ :=
  ((if 0 < a then lines.1 else lines.2.2).map (onAxis a b), lines.2.1.map (onAxis a b),
    (if 0 < a then lines.2.2 else lines.1).map (onAxis a b))

theorem calculateBollingerBands_affine (ha : a ≠ 0) (b : ℝ) (prices : List ℝ) (period : Int)
    (stdDev : ℝ) :
    calculateBollingerBands (prices.map (onAxis a b)) period stdDev
      = (calculateBollingerBands prices period stdDev).map (axisLines a b) := by
  by_cases hfew : ((prices.length : Int) < period || period ≤ 0) = true
  · have hempty : axisLines a b ([], [], []) = ([], [], []) := by
      unfold axisLines
      split <;> rfl
    unfold calculateBollingerBands
    rw [List.length_map, if_pos hfew, if_pos hfew]
    show Except.ok _ = Except.ok (axisLines a b ([], [], []))
    rw [hempty]
  · have hrange : ¬ (prices.length : Int) < period ∧ ¬ period ≤ 0 := by
      simpa [not_or] using hfew
    obtain ⟨n, rfl⟩ := Int.eq_ofNat_of_zero_le (show 0 ≤ period by omega)
    rw [calculateBollingerBands_real (by omega) _ (by rw [List.length_map]; omega),
      calculateBollingerBands_real (by omega) _ (by omega), List.length_map]
    -- window by window
    have hwindow : ∀ i ∈ pyRange ((n : Int) - 1) prices.length,
        0 < (windowAt prices n i).length := by
      intro i hi
      have hbounds := mem_pyRange hi
      unfold windowAt
      rw [List.length_take, List.length_drop]
      omega
    show Except.ok _ = Except.ok _
    unfold axisLines
    by_cases hup : 0 < a
    · simp only [if_pos hup, List.map_map]
      congr 2
      · exact List.map_congr_left fun i hi => by
          show upperOf stdDev (windowAt (prices.map (onAxis a b)) n i) = _
          rw [windowAt_map, (upperOf_affine ha b stdDev (hwindow i hi)).1, if_pos hup]
          rfl
      · congr 1
        · exact List.map_congr_left fun i hi => by
            rw [windowAt_map]
            exact mean_affine a b (hwindow i hi)
        · exact List.map_congr_left fun i hi => by
            rw [windowAt_map, (upperOf_affine ha b stdDev (hwindow i hi)).2, if_pos hup]
            rfl
    · simp only [if_neg hup, List.map_map]
      congr 2
      · exact List.map_congr_left fun i hi => by
          rw [windowAt_map, (upperOf_affine ha b stdDev (hwindow i hi)).1, if_neg hup]
          rfl
      · congr 1
        · exact List.map_congr_left fun i hi => by
            rw [windowAt_map]
            exact mean_affine a b (hwindow i hi)
        · exact List.map_congr_left fun i hi => by
            rw [windowAt_map, (upperOf_affine ha b stdDev (hwindow i hi)).2, if_neg hup]
            rfl

/-! ## §3. The directions of a configuration. -/

/-- Two words exchanged. -/
def swapStr (x y : String) : Json → Json
  | .str s => .str (if s = x then y else if s = y then x else s)
  | j => j

/-- The entry `key` with two words exchanged. -/
def Config.swapped (key x y : String) (config : Config) : Config :=
  config.map fun e => if e.1 = key then (e.1, swapStr x y e.2) else e

section Swapped

variable {key x y : String}

theorem swapStr_isStr (hne : x ≠ y) (j : Json) :
    (swapStr x y j).isStr x = j.isStr y ∧ (swapStr x y j).isStr y = j.isStr x := by
  cases j with
  | str s =>
      unfold swapStr Json.isStr
      by_cases hx : s = x
      · subst hx
        simp [hne, hne.symm]
      · by_cases hy : s = y
        · subst hy
          simp [hx, hne]
        · simp [hx, hy]
  | _ => exact ⟨rfl, rfl⟩

theorem isStr_exclusive (hne : x ≠ y) {j : Json} (hx : j.isStr x = true) : j.isStr y = false := by
  cases j with
  | str s =>
      have hs : s = x := of_decide_eq_true hx
      subst hs
      exact decide_eq_false hne
  | _ => rfl

/-- The keys stay, so an entry is found where it was. -/
theorem find_swapped (config : Config) (k : String) :
    (config.swapped key x y).find? (fun e => e.1 = k)
      = (config.find? fun e => e.1 = k).map
          fun e => if e.1 = key then (e.1, swapStr x y e.2) else e := by
  have hkeys : ((fun e : String × Json => decide (e.1 = k)) ∘
      fun e => if e.1 = key then (e.1, swapStr x y e.2) else e) = fun e => decide (e.1 = k) := by
    funext e
    show decide ((if e.1 = key then (e.1, swapStr x y e.2) else e).1 = k) = _
    split <;> rfl
  unfold Config.swapped
  rw [List.find?_map, hkeys]

theorem item_swapped_self (config : Config) :
    Json.item (config.swapped key x y) key = (Json.item config key).map (swapStr x y) := by
  unfold Json.item
  rw [find_swapped]
  cases hfind : config.find? fun e => e.1 = key with
  | none => rfl
  | some e =>
      have hkey : e.1 = key := by simpa using List.find?_some hfind
      show Except.ok (if e.1 = key then (e.1, swapStr x y e.2) else e).2 = _
      rw [if_pos hkey]
      rfl

/-- Another entry is untouched. -/
theorem find_swapped_other (config : Config) {k : String} (hk : k ≠ key) :
    (config.swapped key x y).find? (fun e => e.1 = k) = config.find? fun e => e.1 = k := by
  rw [find_swapped]
  cases hfind : config.find? fun e => e.1 = k with
  | none => rfl
  | some e =>
      have hkey : e.1 = k := by simpa using List.find?_some hfind
      rw [Option.map_some, if_neg (by rw [hkey]; exact hk)]

theorem item_swapped_other (config : Config) {k : String} (hk : k ≠ key) :
    Json.item (config.swapped key x y) k = Json.item config k := by
  unfold Json.item
  rw [find_swapped_other config hk]

theorem getD_swapped_other (config : Config) {k : String} (hk : k ≠ key) (d : Json) :
    Json.getD (config.swapped key x y) k d = Json.getD config k d := by
  unfold Json.getD
  rw [find_swapped_other config hk]

theorem intGet_swapped_other (config : Config) {k : String} (hk : k ≠ key) (d : Int) :
    intGet (config.swapped key x y) k d = intGet config k d := by
  unfold intGet
  rw [getD_swapped_other config hk]

end Swapped

/-! ## §4. The rule classes. -/

/-- On an axis that points up or down. -/
theorem MACDCrossRule.onPrices_affine (ha : a ≠ 0) (b : ℝ) {fastPeriod slowPeriod : Int}
    (hfast : 1 ≤ fastPeriod) (hslow : 1 ≤ slowPeriod) (signalPeriod : Int) (crossoverType : Json)
    (close : ℝ) :
    MACDCrossRule.onPrices fastPeriod slowPeriod signalPeriod
        (if 0 < a then crossoverType else swapStr "bullish" "bearish" crossoverType)
        (onAxis a b close) (prices.map (onAxis a b))
      = (MACDCrossRule.onPrices fastPeriod slowPeriod signalPeriod crossoverType close
          prices).map (Option.map (onAxis a b)) := by
  unfold MACDCrossRule.onPrices MACDCrossRule.decideWith
  rw [List.length_map]
  -- lengths are not changed, so the same guards are taken
  by_cases h : (prices.length : Int) < slowPeriod + signalPeriod
  · rw [if_pos h, if_pos h]
    rfl
  rw [if_neg h, if_neg h, calculateMacd_affine hfast hslow, except_map_bind, except_bind_map]
  refine bind_congr fun lines => ?_
  obtain ⟨macdLine, signalLine, histogram⟩ := lines
  dsimp only [scaleLines]
  rw [List.length_map, List.length_map]
  by_cases hfew : (macdLine.length < 2 || signalLine.length < 2) = true
  · rw [if_pos hfew, if_pos hfew]
    rfl
  rw [if_neg hfew, if_neg hfew]
  simp only [index_map, except_map_bind, except_bind_map]
  refine bind_congr fun macdCurrent => bind_congr fun macdPrevious =>
    bind_congr fun signalCurrent => bind_congr fun signalPrevious => ?_
  by_cases hup : 0 < a
  · -- the comparisons stay
    simp only [if_pos hup, mul_lt_mul_iff_right₀ hup, mul_le_mul_iff_right₀ hup]
    split
    next => split <;> rfl
    next =>
      split
      next => split <;> rfl
      next => rfl
  · -- the comparisons turn round, and so does the direction that is asked for
    have hdown : a < 0 := lt_of_le_of_ne (not_lt.mp hup) ha
    obtain ⟨hbullish, hbearish⟩ :=
      swapStr_isStr (show "bullish" ≠ "bearish" by decide) crossoverType
    simp only [if_neg hup, hbullish, hbearish, mul_lt_mul_left_of_neg hdown,
      mul_le_mul_left_of_neg hdown]
    by_cases hbull : crossoverType.isStr "bullish" = true
    · have hbear := isStr_exclusive (show "bullish" ≠ "bearish" by decide) hbull
      simp only [hbull, hbear, if_true, Bool.false_eq_true, if_false]
      split <;> rfl
    · simp only [if_neg hbull]
      split
      next => split <;> rfl
      next => rfl

/-- Each window has an upper and a lower band. -/
theorem calculateBollingerBands_lengths {period : Int} {stdDev : ℝ}
    {lines : List ℝ × List ℝ × List ℝ}
    (h : calculateBollingerBands prices period stdDev = .ok lines) :
    lines.1.length = lines.2.2.length := by
  unfold calculateBollingerBands at h
  split at h
  next =>
    obtain rfl := Except.ok.inj h
    rfl
  next =>
    obtain ⟨bands, -, h⟩ := bind_ok h
    obtain rfl := Except.ok.inj h
    rw [List.length_map, List.length_map]

theorem BollingerBandsRule.onPrices_affine (ha : a ≠ 0) (b : ℝ) (period : Int) (stdDev : ℝ)
    (upperBand breakEvent : Bool) (currentClose : ℝ) :
    BollingerBandsRule.onPrices period stdDev (if 0 < a then upperBand else !upperBand) breakEvent
        (onAxis a b currentClose) (prices.map (onAxis a b))
      = (BollingerBandsRule.onPrices period stdDev upperBand breakEvent currentClose
          prices).map (Option.map (onAxis a b)) := by
  unfold BollingerBandsRule.onPrices BollingerBandsRule.decideWith
  rw [List.length_map]
  -- lengths are not changed, so the same guards are taken
  by_cases h : (prices.length : Int) < period + 1
  · rw [if_pos h, if_pos h]
    rfl
  rw [if_neg h, if_neg h, calculateBollingerBands_affine ha]
  cases hlines : calculateBollingerBands prices period stdDev with
  | error e => rfl
  | ok lines =>
  have hlengths := calculateBollingerBands_lengths hlines
  obtain ⟨upper, middle, lower⟩ := lines
  dsimp only at hlengths
  show (if (axisLines a b (upper, middle, lower)).1.length < 2 then pure none else _)
    = (if upper.length < 2 then pure none else _ : Except PyErr (Option ℝ)).map _
  dsimp only [axisLines]
  by_cases hup : 0 < a
  · simp only [if_pos hup, List.length_map]
    by_cases hfew : upper.length < 2
    · rw [if_pos hfew, if_pos hfew]
      rfl
    rw [if_neg hfew, if_neg hfew]
    simp only [ok_bind, index_map, except_map_bind, except_bind_map]
    refine bind_congr fun prevClose => ?_
    cases upperBand <;> cases breakEvent <;>
      simp only [except_bind_map, if_true, if_false, Bool.false_eq_true, onAxis_lt_iff hup,
        onAxis_le_iff hup] <;>
      refine bind_congr fun bandNow => bind_congr fun bandPrev => ?_ <;>
      split <;> rfl
  · -- above the upper band is below the image of it
    have hdown : a < 0 := lt_of_le_of_ne (not_lt.mp hup) ha
    simp only [if_neg hup, List.length_map]
    rw [← hlengths]
    by_cases hfew : upper.length < 2
    · rw [if_pos hfew, if_pos hfew]
      rfl
    rw [if_neg hfew, if_neg hfew]
    simp only [ok_bind, index_map, except_map_bind, except_bind_map]
    refine bind_congr fun prevClose => ?_
    cases upperBand <;> cases breakEvent <;>
      simp only [except_bind_map, if_true, if_false, Bool.false_eq_true, Bool.not_true,
        Bool.not_false, onAxis_lt_iff_down hdown, onAxis_le_iff_down hdown] <;>
      refine bind_congr fun bandNow => bind_congr fun bandPrev => ?_ <;>
      split <;> rfl

theorem RSIRule.onPrices_affine (ha : 0 < a) (b : ℝ) (period : Int) (overbought : Bool)
    (threshold : ℝ) :
    RSIRule.onPrices period overbought threshold (prices.map (onAxis a b))
      = RSIRule.onPrices period overbought threshold prices := by
  unfold RSIRule.onPrices
  rw [List.length_map, calculateRsi_affine ha]

/-- The prices of a reading on another axis. -/
theorem pricesBy_affine (a b : ℝ) (read : Candle → ℝ) (candles : List Candle) :
    pricesBy (fun r => onAxis a b (read r)) candles
      = (pricesBy read candles).map (onAxis a b) := by
  unfold pricesBy
  rw [List.map_map]
  rfl

/-- **MACD rules on another axis.** -/
theorem MACDCrossRule.evaluateReading_affine [Driver] (ha : a ≠ 0) (b : ℝ) (read : Candle → ℝ)
    (config : Config) (candle : Candle) (store : List Candle)
    (hfast : ∀ p, intGet config "fast_period" 12 = .ok p → 1 ≤ p)
    (hslow : ∀ p, intGet config "slow_period" 26 = .ok p → 1 ≤ p) :
    MACDCrossRule.evaluateReading (fun r => onAxis a b (read r))
        (if 0 < a then config else config.swapped "crossover_type" "bullish" "bearish")
        candle store
      = (MACDCrossRule.evaluateReading read config candle store).map
          (Option.map (onAxis a b)) := by
  -- only the direction is read differently
  have hint : ∀ (k : String) (d : Int), k ≠ "crossover_type" →
      intGet (if 0 < a then config else config.swapped "crossover_type" "bullish" "bearish") k d
        = intGet config k d := by
    intro k d hk
    split
    next => rfl
    next => exact intGet_swapped_other config hk d
  have htype :
      Json.item (if 0 < a then config else config.swapped "crossover_type" "bullish" "bearish")
        "crossover_type"
      = (Json.item config "crossover_type").map
          fun j => if 0 < a then j else swapStr "bullish" "bearish" j := by
    by_cases hup : 0 < a
    · simp only [if_pos hup]
      cases Json.item config "crossover_type" <;> rfl
    · simp only [if_neg hup]
      exact item_swapped_self config
  unfold MACDCrossRule.evaluateReading
  rw [hint _ _ (by decide), hint _ _ (by decide), hint _ _ (by decide), htype]
  cases hf : intGet config "fast_period" 12 with
  | error e => rfl
  | ok fastPeriod =>
    cases hs : intGet config "slow_period" 26 with
    | error e => rfl
    | ok slowPeriod =>
      simp only [ok_bind, except_map_bind, except_bind_map]
      refine bind_congr fun signalPeriod => bind_congr fun crossoverType =>
        bind_congr fun candles => ?_
      rw [pricesBy_affine, MACDCrossRule.onPrices_affine ha b (hfast _ hf) (hslow _ hs)]

/-- **Band rules on another axis.**  Nothing is asked of the period or of `std_dev`. -/
theorem BollingerBandsRule.evaluateReading_affine [Driver] (ha : a ≠ 0) (b : ℝ) (read : Candle → ℝ)
    (config : Config) (candle : Candle) (store : List Candle) :
    BollingerBandsRule.evaluateReading (fun r => onAxis a b (read r))
        (if 0 < a then config else config.swapped "band" "upper" "lower") candle store
      = (BollingerBandsRule.evaluateReading read config candle store).map
          (Option.map (onAxis a b)) := by
  have hperiod : intGet (if 0 < a then config else config.swapped "band" "upper" "lower")
      "period" 20 = intGet config "period" 20 := by
    split
    next => rfl
    next => exact intGet_swapped_other config (by decide) 20
  have hstdDev : Json.getD (if 0 < a then config else config.swapped "band" "upper" "lower")
      "std_dev" (.num 2) = Json.getD config "std_dev" (.num 2) := by
    split
    next => rfl
    next => exact getD_swapped_other config (by decide) _
  have hevent : Json.item (if 0 < a then config else config.swapped "band" "upper" "lower")
      "event" = Json.item config "event" := by
    split
    next => rfl
    next => exact item_swapped_other config (by decide)
  have hband : Json.item (if 0 < a then config else config.swapped "band" "upper" "lower") "band"
      = (Json.item config "band").map fun j => if 0 < a then j else swapStr "upper" "lower" j := by
    by_cases hup : 0 < a
    · simp only [if_pos hup]
      cases Json.item config "band" <;> rfl
    · simp only [if_neg hup]
      exact item_swapped_self config
  unfold BollingerBandsRule.evaluateReading
  rw [hperiod, hstdDev, hevent, hband]
  simp only [except_map_bind, except_bind_map]
  refine bind_congr fun period => bind_congr fun stdDev => bind_congr fun band =>
    bind_congr fun event => ?_
  obtain ⟨hupper, hlower⟩ := swapStr_isStr (show "upper" ≠ "lower" by decide) band
  -- a band that is neither stays unknown
  have hknown : ((!(if 0 < a then band else swapStr "upper" "lower" band).isStr "upper" &&
      !(if 0 < a then band else swapStr "upper" "lower" band).isStr "lower"))
      = (!band.isStr "upper" && !band.isStr "lower") := by
    split
    next => rfl
    next => rw [hupper, hlower, Bool.and_comm]
  rw [hknown]
  by_cases hunknown : ((!band.isStr "upper" && !band.isStr "lower")
      || (!event.isStr "touch" && !event.isStr "break")) = true
  · rw [if_pos hunknown, if_pos hunknown]
    rfl
  rw [if_neg hunknown, if_neg hunknown, except_bind_map]
  refine bind_congr fun candles => ?_
  have hchosen : (if 0 < a then band else swapStr "upper" "lower" band).isStr "upper"
      = if 0 < a then band.isStr "upper" else !band.isStr "upper" := by
    split
    next => rfl
    next =>
      rw [hupper]
      cases hu : band.isStr "upper" with
      | true => exact isStr_exclusive (by decide) hu
      | false =>
          have hlow : band.isStr "lower" = true ∧
              (event.isStr "touch" = false → event.isStr "break" = true) := by
            simpa [hu] using hunknown
          exact hlow.1
  rw [pricesBy_affine, hchosen, BollingerBandsRule.onPrices_affine ha]

/-- **Indicator rules see the same chart on another axis.**  With the axis pointing up each
of the three classes decides as before, and where it returns a price, returns its image; upside
down the MACD and band rules do so with their directions exchanged. -/
theorem affine_covariant [Driver] (ha : a ≠ 0) (b : ℝ) (read : Candle → ℝ) (config : Config)
    (candle : Candle) (store : List Candle) :
    (0 < a → RSIRule.evaluateReading (fun r => onAxis a b (read r)) config candle store
      = RSIRule.evaluateReading read config candle store) ∧
    ((∀ p, intGet config "fast_period" 12 = .ok p → 1 ≤ p) →
      (∀ p, intGet config "slow_period" 26 = .ok p → 1 ≤ p) →
      MACDCrossRule.evaluateReading (fun r => onAxis a b (read r))
          (if 0 < a then config else config.swapped "crossover_type" "bullish" "bearish")
          candle store
        = (MACDCrossRule.evaluateReading read config candle store).map
            (Option.map (onAxis a b))) ∧
    BollingerBandsRule.evaluateReading (fun r => onAxis a b (read r))
        (if 0 < a then config else config.swapped "band" "upper" "lower") candle store
      = (BollingerBandsRule.evaluateReading read config candle store).map
          (Option.map (onAxis a b)) := by
  refine ⟨fun hup => ?_, MACDCrossRule.evaluateReading_affine ha b read config candle store,
    BollingerBandsRule.evaluateReading_affine ha b read config candle store⟩
  unfold RSIRule.evaluateReading
  simp only [pricesBy_affine, RSIRule.onPrices_affine hup]

attribute [local instance] integerDriver

/-- Three bars upside down. -/
theorem affine_covariant_mirror :
    MACDCrossRule.evaluateReading (fun r => onAxis (-1) 10 (closeOf ℝ r))
        (indicatorConfig.swapped "crossover_type" "bullish" "bearish")
        (bar "BTC" lastSlot 3) (bars "BTC" lastSlot [3, 1, 2])
      = (MACDCrossRule.evaluateReading (closeOf ℝ) indicatorConfig
          (bar "BTC" lastSlot 3) (bars "BTC" lastSlot [3, 1, 2])).map
            (Option.map (onAxis (-1) 10)) := by
  have hfast : ∀ p, intGet indicatorConfig "fast_period" 12 = .ok p → 1 ≤ p := by
    intro p hp
    obtain rfl := Except.ok.inj hp
    decide
  have hslow : ∀ p, intGet indicatorConfig "slow_period" 26 = .ok p → 1 ≤ p := by
    intro p hp
    obtain rfl := Except.ok.inj hp
    decide
  have hne : (-1 : ℝ) ≠ 0 := by norm_num
  have h := (affine_covariant hne 10 (closeOf ℝ) indicatorConfig (bar "BTC" lastSlot 3)
    (bars "BTC" lastSlot [3, 1, 2])).2.1 hfast hslow
  rw [if_neg (by norm_num)] at h
  exact h

end Pulse
