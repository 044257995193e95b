/-
  Pulse.Evaluate.Readings
  ───────────────────────
  **THE RULE CLASSES ON CLOSES OF ANY KIND.**

  A stored close is a decimal.  What the indicator rules compute depends on the
  numbers alone that the closes are read as, so it can be stated for any READING
  of the rows: `read r` is the close of row `r`.

    • `onPrices`        — the decision, once the rows are read,
    • `answer`          — the decision on the rows that the query returns,
    • `evaluateReading` — all of `evaluate`; the reading `closeOf` is the program's.
-/
import Pulse.Evaluate.Rules

namespace Pulse

open PyFloat

variable {F : Type} [PyFloat F]

/-! ## §1. Decisions on prices. -/

/-- `MACDCrossRule.evaluate` from the prices on; `close` is the candle's. -/
def MACDCrossRule.onPrices (fastPeriod slowPeriod signalPeriod : Int) (crossoverType : Json)
    (close : F) (prices : List F) : Except PyErr (Option F) :=
  MACDCrossRule.decideWith fastPeriod slowPeriod signalPeriod crossoverType (.ok close) prices

/-- `BollingerBandsRule.evaluate` from the prices on; `currentClose` is the candle's. -/
def BollingerBandsRule.onPrices (period : Int) (stdDev : F) (upperBand breakEvent : Bool)
    (currentClose : F) (prices : List F) : Except PyErr (Option F) :=
  BollingerBandsRule.decideWith period stdDev upperBand breakEvent (.ok currentClose) prices

/-- `PercentMoveRule.evaluate` from the old price on. -/
def PercentMoveRule.onPrices (percentThreshold : F) (oldPrice : Option F) (newPrice : F) :
    Except PyErr (Option F) :=
  PercentMoveRule.decideWith percentThreshold oldPrice (.ok newPrice)

/-! ### What a decision answers. -/

omit [PyFloat F] in
theorem answers_none {v : F} {p : Prop} (hp : ¬ p) :
    ((pure none : Except PyErr (Option F)) = .ok (some v) ↔ p) :=
  iff_of_false (fun h => absurd (Except.ok.inj h) (by simp)) hp

omit [PyFloat F] in
theorem answers_if_iff (p : Prop) [Decidable p] (x v : F) :
    ((pure (if p then some x else none) : Except PyErr (Option F)) = .ok (some v) ↔
      p ∧ v = x) := by
  split
  next hp =>
    rw [and_iff_right hp]
    exact ⟨fun hv => (Option.some.inj (Except.ok.inj hv)).symm, fun hv => hv ▸ rfl⟩
  next hp => exact answers_none fun hv => hp hv.1

omit [PyFloat F] in
/-- The close of an alert. -/
theorem answers_close_iff (p : Prop) [Decidable p] (x v : F) :
    ((if p then Except.ok x >>= fun close => pure (some close) else pure none :
      Except PyErr (Option F)) = .ok (some v) ↔ p ∧ v = x) := by
  rw [← answers_if_iff]
  split <;> exact Iff.rfl

/-! ### They are the decisions of the rule classes, on a close that converts. -/

theorem length_pricesOf (candles : List Candle) : (pricesOf F candles).length = candles.length := by
  simp [pricesOf]

theorem currentClose_eq {candle : Candle} (hclose : candle.close ≠ .snan) :
    currentClose F candle = .ok (closeOf F candle) := Dec.toFloat_of_ne hclose

theorem MACDCrossRule.decideOn_eq (fastPeriod slowPeriod signalPeriod : Int)
    (crossoverType : Json) {candle : Candle} (hclose : candle.close ≠ .snan)
    (candles : List Candle) :
    MACDCrossRule.decideOn F fastPeriod slowPeriod signalPeriod crossoverType candle candles
      = MACDCrossRule.onPrices fastPeriod slowPeriod signalPeriod crossoverType
          (closeOf F candle) (pricesOf F candles) := by
  unfold MACDCrossRule.decideOn MACDCrossRule.onPrices
  rw [currentClose_eq hclose]

theorem BollingerBandsRule.decideOn_eq (period : Int) (stdDev : F) (upperBand breakEvent : Bool)
    {candle : Candle} (hclose : candle.close ≠ .snan) (candles : List Candle) :
    BollingerBandsRule.decideOn F period stdDev upperBand breakEvent candle candles
      = BollingerBandsRule.onPrices period stdDev upperBand breakEvent (closeOf F candle)
          (pricesOf F candles) := by
  unfold BollingerBandsRule.decideOn BollingerBandsRule.onPrices
  rw [currentClose_eq hclose]

theorem PercentMoveRule.decideOn_eq (percentThreshold : F) {candle : Candle}
    (hclose : candle.close ≠ .snan) (rows : List Candle) :
    PercentMoveRule.decideOn F percentThreshold candle rows
      = PercentMoveRule.onPrices percentThreshold (rows.head?.map (closeOf F))
          (closeOf F candle) := by
  unfold PercentMoveRule.decideOn PercentMoveRule.onPrices
  rw [currentClose_eq hclose]

/-! ## §2. Readings of the stored rows. -/

section Reading

variable (read : Candle → F)

/-- The closes of rows that come newest first, in chronological order, as they are read. -/
def pricesBy (candles : List Candle) : List F := candles.reverse.map read

/-- `RSIRule.evaluate` on the rows of its query. -/
def RSIRule.answer (period : Int) (overbought : Bool) (threshold : F) (candle : Candle)
    (store : List Candle) : Except PyErr (Option F) :=
  RSIRule.onPrices period overbought threshold
    (pricesBy read (newest candle.symbol (max (period * 5) 100).toNat store))

/-- `BollingerBandsRule.evaluate` on the rows of its query. -/
def BollingerBandsRule.answer (period : Int) (stdDev : F) (upperBand breakEvent : Bool)
    (candle : Candle) (store : List Candle) : Except PyErr (Option F) :=
  BollingerBandsRule.onPrices period stdDev upperBand breakEvent (read candle)
    (pricesBy read (newest candle.symbol (max (period * 3) 60).toNat store))

variable (config : Config) (candle : Candle) (store : List Candle)

/-- `RSIRule.evaluate` against the rows `store`. -/
def RSIRule.evaluateReading [Driver] : Except PyErr (Option F) := do
  let period ← intGet config "period" 14
  let direction ← Json.item config "direction"
  if !direction.isStr "overbought" && !direction.isStr "oversold" then return none
  let defaultThreshold : Rat := if direction.isStr "overbought" then 70 else 30
  let threshold ← (Json.getD config "threshold" (.num defaultThreshold)).toFloat F
  let candles ← onStore store (selectNewest candle.symbol (max (period * 5) 100))
  RSIRule.onPrices period (direction.isStr "overbought") threshold (pricesBy read candles)

/-- `MACDCrossRule.evaluate` against the rows `store`. -/
def MACDCrossRule.evaluateReading [Driver] : Except PyErr (Option F) := do
  let fastPeriod ← intGet config "fast_period" 12
  let slowPeriod ← intGet config "slow_period" 26
  let signalPeriod ← intGet config "signal_period" 9
  let crossoverType ← Json.item config "crossover_type"
  let candles ← onStore store (selectNewest candle.symbol 50)
  MACDCrossRule.onPrices fastPeriod slowPeriod signalPeriod crossoverType (read candle)
    (pricesBy read candles)

/-- `BollingerBandsRule.evaluate` against the rows `store`. -/
def BollingerBandsRule.evaluateReading [Driver] : Except PyErr (Option F) := do
  let period ← intGet config "period" 20
  let stdDev ← (Json.getD config "std_dev" (.num 2)).toFloat F
  let band ← Json.item config "band"
  let event ← Json.item config "event"
  if (!band.isStr "upper" && !band.isStr "lower")
      || (!event.isStr "touch" && !event.isStr "break") then return none
  let candles ← onStore store (selectNewest candle.symbol (max (period * 3) 60))
  BollingerBandsRule.onPrices period stdDev (band.isStr "upper") (event.isStr "break")
    (read candle) (pricesBy read candles)

/-- `PercentMoveRule.evaluate` against the rows `store`. -/
def PercentMoveRule.evaluateReading : Except PyErr (Option F) := do
  let percentThreshold ← floatItem F config "percent_threshold"
  let windowSeconds ← (Json.item config "window_seconds") >>= Json.toInt
  let startTime ← timeBefore candle.timestamp windowSeconds
  PercentMoveRule.onPrices percentThreshold
    ((oldestSince candle.symbol startTime store).head?.map read) (read candle)

end Reading

/-! ### With the closes as they are stored, this is the program. -/

section Program

variable [Driver] (config : Config) {candle : Candle} (store : List Candle)

variable (candle) in
theorem evaluateReading_rsi : RSIRule.evaluateReading (closeOf F) config candle store
    = RuleType.evaluateOn F .rsi config candle store := by
  rw [evaluateOn_rsi]
  rfl

theorem evaluateReading_macdCross (hclose : candle.close ≠ .snan) :
    MACDCrossRule.evaluateReading (closeOf F) config candle store
      = RuleType.evaluateOn F .macdCross config candle store := by
  rw [evaluateOn_macdCross]
  simp only [MACDCrossRule.decideOn_eq _ _ _ _ hclose]
  rfl

theorem evaluateReading_bollingerBands (hclose : candle.close ≠ .snan) :
    BollingerBandsRule.evaluateReading (closeOf F) config candle store
      = RuleType.evaluateOn F .bollingerBands config candle store := by
  rw [evaluateOn_bollingerBands]
  simp only [BollingerBandsRule.decideOn_eq _ _ _ _ hclose]
  rfl

theorem evaluateReading_percentMove (hclose : candle.close ≠ .snan) :
    PercentMoveRule.evaluateReading (closeOf F) config candle store
      = RuleType.evaluateOn F .percentMove config candle store := by
  rw [evaluateOn_percentMove]
  simp only [PercentMoveRule.decideOn_eq _ hclose]
  rfl

end Program

/-! ### Where `LIMIT` is taken, `evaluate` gives the answer. -/

section Answer

variable [Driver] {read : Candle → F} {config : Config} {period : Int}

theorem RSIRule.evaluateReading_eq {direction : Json} {threshold : F}
    (hperiod : intGet config "period" 14 = .ok period)
    (hdirection : Json.item config "direction" = .ok direction)
    (hchoice : direction.isStr "overbought" = true ∨ direction.isStr "oversold" = true)
    (hthreshold : (Json.getD config "threshold"
      (.num (if direction.isStr "overbought" then 70 else 30))).toFloat F = .ok threshold)
    (hlimit : Driver.takesLimit (max (period * 5) 100) = true) (candle : Candle)
    (store : List Candle) :
    RSIRule.evaluateReading read config candle store
      = RSIRule.answer read period (direction.isStr "overbought") threshold candle store := by
  have hknown : (!direction.isStr "overbought" && !direction.isStr "oversold") = false := by
    rcases hchoice with h | h <;> simp [h]
  unfold RSIRule.evaluateReading
  rw [hperiod, ok_bind, hdirection, ok_bind, hknown]
  dsimp only
  rw [hthreshold]
  show (onStore store (selectNewest candle.symbol (max (period * 5) 100)) >>= _) = _
  rw [onStore_selectNewest, if_pos hlimit]
  rfl

theorem BollingerBandsRule.evaluateReading_eq {band event : Json} {stdDev : F}
    (hperiod : intGet config "period" 20 = .ok period)
    (hstdDev : (Json.getD config "std_dev" (.num 2)).toFloat F = .ok stdDev)
    (hband : Json.item config "band" = .ok band)
    (hbandChoice : band.isStr "upper" = true ∨ band.isStr "lower" = true)
    (hevent : Json.item config "event" = .ok event)
    (heventChoice : event.isStr "touch" = true ∨ event.isStr "break" = true)
    (hlimit : Driver.takesLimit (max (period * 3) 60) = true) (candle : Candle)
    (store : List Candle) :
    BollingerBandsRule.evaluateReading read config candle store
      = BollingerBandsRule.answer read period stdDev (band.isStr "upper") (event.isStr "break")
          candle store := by
  have hknown : ((!band.isStr "upper" && !band.isStr "lower")
      || (!event.isStr "touch" && !event.isStr "break")) = false := by
    rcases hbandChoice with h | h <;> rcases heventChoice with h' | h' <;> simp [h, h']
  unfold BollingerBandsRule.evaluateReading
  rw [hperiod, ok_bind, hstdDev, ok_bind, hband, ok_bind, hevent, ok_bind, hknown]
  show (onStore store (selectNewest candle.symbol (max (period * 3) 60)) >>= _) = _
  rw [onStore_selectNewest, if_pos hlimit]
  rfl

end Answer

end Pulse
