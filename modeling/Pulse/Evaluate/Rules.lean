/-
  Pulse.Evaluate.Rules
  ────────────────────
  **THE RULE CLASSES.**

  `worker/evaluate/rules`: each class reads its configuration, asks the database
  for candles of the symbol at most once, and computes with their closes.

    • `PriceThresholdRule`, `CandleCloseRule` — the candle alone,
    • `PercentMoveRule` — the oldest candle since the start of a window,
    • `MACDCrossRule`, `RSIRule`, `BollingerBandsRule` — the newest candles,
    • `RuleType.evaluateOn` — `evaluate` against a store of candles.
-/
import Pulse.Core.Float
import Pulse.Evaluate.Indicators
import Pulse.Evaluate.Engine
import Pulse.Worker.World
import Mathlib.Data.List.Sort

namespace Pulse

open Pulse.Async PyFloat

/-! ## §1. Queries. -/

/-- The 15-minute candles of a symbol, newest first, at most `limit`. -/
def newest (symbol : String) (limit : Nat) (rows : List Candle) : List Candle :=
  ((rows.filter fun r => r.symbol = symbol ∧ r.intervalSeconds = 900).insertionSort
    fun r s => s.timestamp ≤ r.timestamp).take limit

/-- Older, or as old with a shorter interval; the program does not order rows of one
timestamp. -/
def Older (r s : Candle) : Prop :=
  r.timestamp < s.timestamp ∨ r.timestamp = s.timestamp ∧ r.intervalSeconds ≤ s.intervalSeconds

instance : DecidableRel Older := fun _ _ => inferInstanceAs (Decidable (_ ∨ _))

/-- The oldest candle of a symbol since `start`. -/
def oldestSince (symbol : String) (start : Time) (rows : List Candle) : List Candle :=
  ((rows.filter fun r => r.symbol = symbol ∧ start ≤ r.timestamp).insertionSort Older).take 1

/-- The database driver, as far as the program can tell: a `LIMIT` that it does not take
raises. -/
class Driver where
  takesLimit : Int → Bool
  -- an `INTEGER` is taken, and nothing that is not a `BIGINT`
  takes_integer : ∀ n, 0 ≤ n → n < 2 ^ 31 → takesLimit n = true
  lt_of_takes : ∀ n, takesLimit n = true → n < 2 ^ 63

/-- A driver that binds `LIMIT` as an `INTEGER`. -/
@[reducible] def integerDriver : Driver where
  takesLimit n := 0 ≤ n ∧ n < 2 ^ 31
  takes_integer n hlow hhigh := decide_eq_true ⟨hlow, hhigh⟩
  lt_of_takes n h := by
    have := of_decide_eq_true h
    omega

/-- The query for the newest candles. -/
def selectNewest [Driver] (symbol : String) (limit : Int) : Prog (List Candle) :=
  if Driver.takesLimit limit then selectCandles (newest symbol limit.toNat)
  else throw ⟨.other, "LIMIT out of range"⟩

/-- The first and the last `datetime`. -/
def minTime : Time := seconds minSecond

def maxTime : Time := seconds maxSecond + 999999

/-- `timestamp - timedelta(seconds=n)`. -/
def timeBefore (timestamp : Time) (n : Int) : Except PyErr Time :=
  if (n / 86400).natAbs > 999999999 then
    .error ⟨.overflowError, "days; must have magnitude <= 999999999"⟩
  else if minTime ≤ timestamp - seconds n ∧ timestamp - seconds n ≤ maxTime then
    .ok (timestamp - seconds n)
  else .error ⟨.overflowError, "date value out of range"⟩

/-! ## §2. The classes. -/

variable (F : Type) [PyFloat F]

/-- `float(config[key])`. -/
def floatItem (config : Config) (key : String) : Except PyErr F := do
  (← Json.item config key).toFloat F

/-- `int(config.get(key, default))`. -/
def intGet (config : Config) (key : String) (default : Int) : Except PyErr Int :=
  (Json.getD config key (.int default)).toInt

/-- `float(c.close)` of a row; no column holds a signaling NaN. -/
def closeOf (c : Candle) : F := PyFloat.ofDec c.close

/-- `float(candle.close)` of the candle that is evaluated. -/
def currentClose (candle : Candle) : Except PyErr F := candle.close.toFloat F

/-- The closes of rows that come newest first, in chronological order. -/
def pricesOf (candles : List Candle) : List F := candles.reverse.map (closeOf F)

/-- The candle's close against `config[key]`. -/
def compareClose (key : String) (config : Config) (candle : Candle) : Except PyErr (Option F) := do
  let value ← floatItem F config key
  let operator ← Json.item config "operator"
  let price ← currentClose F candle
  if operator.isStr ">=" then
    return if value ≤ price then some price else none
  else if operator.isStr "<=" then
    return if price ≤ value then some price else none
  else return none

/-- `PriceThresholdRule.evaluate`. -/
def PriceThresholdRule.evaluate (config : Config) (candle : Candle) : Prog (Option F) :=
  Coro.ofExcept (compareClose F "threshold" config candle)

/-- `CandleCloseRule.evaluate`. -/
def CandleCloseRule.evaluate (config : Config) (candle : Candle) : Prog (Option F) :=
  Coro.ofExcept (compareClose F "value" config candle)

variable {F} in
/-- `PercentMoveRule.evaluate` from the old price on. -/
def PercentMoveRule.decideWith (percentThreshold : F) (oldPrice : Option F)
    (newPrice : Except PyErr F) : Except PyErr (Option F) :=
  match oldPrice with
  | none => return none
  | some oldPrice => do
      let newPrice ← newPrice
      if isZero oldPrice then return none
      let percentChange := pyAbs ((← pyDiv (newPrice - oldPrice) oldPrice) * ofInt 100)
      return if percentThreshold ≤ percentChange then some newPrice else none

/-- The part of `PercentMoveRule.evaluate` after the query. -/
def PercentMoveRule.decideOn (percentThreshold : F) (candle : Candle) (rows : List Candle) :
    Except PyErr (Option F) :=
  PercentMoveRule.decideWith percentThreshold (rows.head?.map (closeOf F))
    (currentClose F candle)

/-- `PercentMoveRule.evaluate`. -/
def PercentMoveRule.evaluate (config : Config) (candle : Candle) : Prog (Option F) := do
  let percentThreshold ← Coro.ofExcept (floatItem F config "percent_threshold")
  let windowSeconds ← Coro.ofExcept ((Json.item config "window_seconds") >>= Json.toInt)
  let startTime ← Coro.ofExcept (timeBefore candle.timestamp windowSeconds)
  let rows ← selectCandles (oldestSince candle.symbol startTime)
  Coro.ofExcept (PercentMoveRule.decideOn F percentThreshold candle rows)

variable {F} in
/-- `MACDCrossRule.evaluate` from the prices on; `close` is the candle's. -/
def MACDCrossRule.decideWith (fastPeriod slowPeriod signalPeriod : Int) (crossoverType : Json)
    (close : Except PyErr F) (prices : List F) : Except PyErr (Option F) :=
  if (prices.length : Int) < slowPeriod + signalPeriod then return none
  else do
    let (macdLine, signalLine, _) ← calculateMacd prices fastPeriod slowPeriod signalPeriod
    if macdLine.length < 2 || signalLine.length < 2 then return none
    let macdCurrent ← index macdLine (-1)
    let macdPrevious ← index macdLine (-2)
    let signalCurrent ← index signalLine (-1)
    let signalPrevious ← index signalLine (-2)
    if crossoverType.isStr "bullish" then
      if signalCurrent < macdCurrent ∧ macdPrevious ≤ signalPrevious then
        return some (← close)
      else return none
    else if crossoverType.isStr "bearish" then
      if macdCurrent < signalCurrent ∧ signalPrevious ≤ macdPrevious then
        return some (← close)
      else return none
    else return none

/-- The part of `MACDCrossRule.evaluate` after the query. -/
def MACDCrossRule.decideOn (fastPeriod slowPeriod signalPeriod : Int) (crossoverType : Json)
    (candle : Candle) (candles : List Candle) : Except PyErr (Option F) :=
  MACDCrossRule.decideWith fastPeriod slowPeriod signalPeriod crossoverType
    (currentClose F candle) (pricesOf F candles)

/-- `MACDCrossRule.evaluate`: the newest 50 candles. -/
def MACDCrossRule.evaluate [Driver] (config : Config) (candle : Candle) : Prog (Option F) := do
  let fastPeriod ← Coro.ofExcept (intGet config "fast_period" 12)
  let slowPeriod ← Coro.ofExcept (intGet config "slow_period" 26)
  let signalPeriod ← Coro.ofExcept (intGet config "signal_period" 9)
  let crossoverType ← Coro.ofExcept (Json.item config "crossover_type")
  let candles ← selectNewest candle.symbol 50
  Coro.ofExcept
    (MACDCrossRule.decideOn F fastPeriod slowPeriod signalPeriod crossoverType candle candles)

variable {F} in
/-- `RSIRule.evaluate` from the prices on. -/
def RSIRule.onPrices (period : Int) (overbought : Bool) (threshold : F) (prices : List F) :
    Except PyErr (Option F) :=
  if (prices.length : Int) ≤ period then return none
  else do
    let values ← calculateRsi prices period
    if values.length < 2 then return none
    let current ← index values (-1)
    let previous ← index values (-2)
    if overbought then
      return if previous < threshold ∧ threshold ≤ current then some current else none
    else
      return if threshold < previous ∧ current ≤ threshold then some current else none

/-- The part of `RSIRule.evaluate` after the query. -/
def RSIRule.decideOn (period : Int) (overbought : Bool) (threshold : F)
    (candles : List Candle) : Except PyErr (Option F) :=
  RSIRule.onPrices period overbought threshold (pricesOf F candles)

/-- `RSIRule.evaluate`. -/
def RSIRule.evaluate [Driver] (config : Config) (candle : Candle) : Prog (Option F) := do
  let period ← Coro.ofExcept (intGet config "period" 14)
  let direction ← Coro.ofExcept (Json.item config "direction")
  if !direction.isStr "overbought" && !direction.isStr "oversold" then return none
  let defaultThreshold : Rat := if direction.isStr "overbought" then 70 else 30
  let threshold ←
    Coro.ofExcept ((Json.getD config "threshold" (.num defaultThreshold)).toFloat F)
  let candles ← selectNewest candle.symbol (max (period * 5) 100)
  Coro.ofExcept (RSIRule.decideOn F period (direction.isStr "overbought") threshold candles)

variable {F} in
/-- `BollingerBandsRule.evaluate` from the prices on; `close` is the candle's. -/
def BollingerBandsRule.decideWith (period : Int) (stdDev : F) (upperBand breakEvent : Bool)
    (close : Except PyErr F) (prices : List F) : Except PyErr (Option F) :=
  if (prices.length : Int) < period + 1 then return none
  else do
    let (upper, _, lower) ← calculateBollingerBands prices period stdDev
    if upper.length < 2 then return none
    let currentClose ← close
    let prevClose ← index prices (-2)
    if upperBand then
      let bandNow ← index upper (-1)
      let bandPrev ← index upper (-2)
      if breakEvent then
        return if bandNow < currentClose then some currentClose else none
      else
        return if prevClose ≤ bandPrev ∧ bandNow ≤ currentClose then some currentClose else none
    else
      let bandNow ← index lower (-1)
      let bandPrev ← index lower (-2)
      if breakEvent then
        return if currentClose < bandNow then some currentClose else none
      else
        return if bandPrev ≤ prevClose ∧ currentClose ≤ bandNow then some currentClose else none

/-- The part of `BollingerBandsRule.evaluate` after the query. -/
def BollingerBandsRule.decideOn (period : Int) (stdDev : F) (upperBand breakEvent : Bool)
    (candle : Candle) (candles : List Candle) : Except PyErr (Option F) :=
  BollingerBandsRule.decideWith period stdDev upperBand breakEvent (currentClose F candle)
    (pricesOf F candles)

/-- `BollingerBandsRule.evaluate`. -/
def BollingerBandsRule.evaluate [Driver] (config : Config) (candle : Candle) : Prog (Option F) := do
  let period ← Coro.ofExcept (intGet config "period" 20)
  let stdDev ← Coro.ofExcept ((Json.getD config "std_dev" (.num 2)).toFloat F)
  let band ← Coro.ofExcept (Json.item config "band")
  let event ← Coro.ofExcept (Json.item config "event")
  if (!band.isStr "upper" && !band.isStr "lower")
      || (!event.isStr "touch" && !event.isStr "break") then return none
  let candles ← selectNewest candle.symbol (max (period * 3) 60)
  Coro.ofExcept
    (BollingerBandsRule.decideOn F period stdDev (band.isStr "upper") (event.isStr "break")
      candle candles)

/-- The class of a rule type. -/
def RuleType.evaluate [Driver] : RuleType → Config → Candle → Prog (Option F)
  | .priceThreshold => PriceThresholdRule.evaluate F
  | .percentMove => PercentMoveRule.evaluate F
  | .candleClose => CandleCloseRule.evaluate F
  | .macdCross => MACDCrossRule.evaluate F
  | .rsi => RSIRule.evaluate F
  | .bollingerBands => BollingerBandsRule.evaluate F

/-! ## §3. Against a store. -/

/-- A program that only reads candles, against the rows `store`. -/
def onStore {α : Type} (store : List Candle) : Prog α → Except PyErr α
  | .pure a => .ok a
  | .raise e => .error e
  | .await (.selectCandles query) k => onStore store (k (.ok (query store)))
  | .await _ _ => .error ⟨.other, "not a query of candles"⟩

section Store

variable {α β : Type} {store : List Candle}

@[simp] theorem onStore_pure (a : α) : onStore store (.pure a : Prog α) = .ok a := rfl

@[simp] theorem onStore_raise (e : PyErr) : onStore store (.raise e : Prog α) = .error e := rfl

@[simp] theorem onStore_ofExcept (r : Except PyErr α) :
    onStore store (Coro.ofExcept r : Prog α) = r := by
  cases r <;> rfl

@[simp] theorem onStore_selectCandles (query : List Candle → List Candle) :
    onStore store (selectCandles query) = .ok (query store) := rfl

@[simp] theorem onStore_bind (p : Prog α) (f : α → Prog β) :
    onStore store (p >>= f) = onStore store p >>= fun a => onStore store (f a) := by
  induction p with
  | pure a => rfl
  | raise e => rfl
  | await o k ih =>
      cases o with
      | selectCandles query => exact ih (.ok (query store))
      | _ => rfl

/-- The query for the newest candles. -/
theorem onStore_selectNewest [Driver] {symbol : String} {limit : Int} :
    onStore store (selectNewest symbol limit)
      = if Driver.takesLimit limit then .ok (newest symbol limit.toNat store)
        else .error ⟨.other, "LIMIT out of range"⟩ := by
  unfold selectNewest
  split <;> rfl

/-- A lookback in range is asked for, any other raises. -/
theorem onStore_selectNewest_bind [Driver] {symbol : String} {limit : Int}
    {f : List Candle → Except PyErr α} :
    (∃ out, (onStore store (selectNewest symbol limit) >>= f) = .ok out) ↔
      Driver.takesLimit limit = true ∧ ∃ out, f (newest symbol limit.toNat store) = .ok out := by
  rw [onStore_selectNewest]
  split
  next h => exact ⟨fun hout => ⟨h, hout⟩, fun hout => hout.2⟩
  next h =>
    constructor
    · rintro ⟨out, hout⟩
      exact absurd hout (by simp [bind, Except.bind])
    · rintro ⟨hlimit, -⟩
      exact absurd hlimit h

theorem length_newest_le (symbol : String) (limit : Nat) (rows : List Candle) :
    (newest symbol limit rows).length ≤ limit := List.length_take_le _ _

theorem uses_selectNewest [Driver] {symbol : String} {limit : Int} :
    (selectNewest symbol limit).Uses Op.readsCandles (fun _ => True) := by
  unfold selectNewest
  split
  next => exact ⟨trivial, fun _ => .ofExcept _⟩
  next => trivial

/-- In a session in good standing, without faults and with time standing still, the
program does what it does against the candle table. -/
theorem run_onStore {ι : Type} [DecidableEq ι] {i : ι} {w : World ι} {ρ : α → Prop} {p : Prog α}
    (hp : p.Uses Op.readsCandles ρ) (hf : w.failed i = false) :
    ∃ n, Coro.run (World.perform i) (List.replicate n {}) p w
      = some (Coro.ofExcept (onStore w.candles.rows p), w) := by
  induction p with
  | pure a => exact ⟨0, rfl⟩
  | raise e => exact ⟨0, rfl⟩
  | await o k ih =>
      cases o with
      | selectCandles query =>
          obtain ⟨n, hn⟩ := ih (.ok (query w.candles.rows)) (hp.2 _)
          refine ⟨n + 1, ?_⟩
          have htick : w.tick 0 = w := by
            cases w
            simp [World.tick]
          have hperf : World.perform i (.selectCandles query) {} w
              = some (.ok (query w.candles.rows), w) := by
            show (w.tick 0).statement i .historyQuery {} _ = _
            rw [htick]
            simp only [World.statement, hf, Bool.false_eq_true, if_false]
            rfl
          rw [List.replicate_succ, Coro.run, hperf]
          exact hn
      | _ => exact hp.1.elim

end Store

/-- `evaluate` of a rule type against a store. -/
def RuleType.evaluateOn [Driver] (t : RuleType) (config : Config) (candle : Candle)
    (store : List Candle) : Except PyErr (Option F) :=
  onStore store (t.evaluate F config candle)

section Equations

variable [Driver] (config : Config) (candle : Candle) (store : List Candle)

theorem evaluateOn_priceThreshold : RuleType.evaluateOn F .priceThreshold config candle store
    = compareClose F "threshold" config candle := onStore_ofExcept _

theorem evaluateOn_candleClose : RuleType.evaluateOn F .candleClose config candle store
    = compareClose F "value" config candle := onStore_ofExcept _

theorem evaluateOn_percentMove : RuleType.evaluateOn F .percentMove config candle store = (do
    let percentThreshold ← floatItem F config "percent_threshold"
    let windowSeconds ← (Json.item config "window_seconds") >>= Json.toInt
    let startTime ← timeBefore candle.timestamp windowSeconds
    PercentMoveRule.decideOn F percentThreshold candle
      (oldestSince candle.symbol startTime store)) := by
  unfold RuleType.evaluateOn RuleType.evaluate PercentMoveRule.evaluate
  simp only [onStore_bind, onStore_ofExcept, onStore_selectCandles]
  rfl

theorem evaluateOn_macdCross : RuleType.evaluateOn F .macdCross config candle store = (do
    let fastPeriod ← intGet config "fast_period" 12
    let slowPeriod ← intGet config "slow_period" 26
    let signalPeriod ← intGet config "signal_period" 9
    let crossoverType ← Json.item config "crossover_type"
    let candles ← onStore store (selectNewest candle.symbol 50)
    MACDCrossRule.decideOn F fastPeriod slowPeriod signalPeriod crossoverType candle candles) := by
  unfold RuleType.evaluateOn RuleType.evaluate MACDCrossRule.evaluate
  simp only [onStore_bind, onStore_ofExcept]

theorem evaluateOn_rsi : RuleType.evaluateOn F .rsi config candle store = (do
    let period ← intGet config "period" 14
    let direction ← Json.item config "direction"
    if !direction.isStr "overbought" && !direction.isStr "oversold" then return none
    let defaultThreshold : Rat := if direction.isStr "overbought" then 70 else 30
    let threshold ← (Json.getD config "threshold" (.num defaultThreshold)).toFloat F
    let candles ← onStore store (selectNewest candle.symbol (max (period * 5) 100))
    RSIRule.decideOn F period (direction.isStr "overbought") threshold candles) := by
  unfold RuleType.evaluateOn RuleType.evaluate RSIRule.evaluate
  simp only [onStore_bind, onStore_ofExcept, apply_ite (onStore store), Coro.pure_eq, onStore_pure]
  rfl

theorem evaluateOn_bollingerBands :
    RuleType.evaluateOn F .bollingerBands config candle store = (do
      let period ← intGet config "period" 20
      let stdDev ← (Json.getD config "std_dev" (.num 2)).toFloat F
      let band ← Json.item config "band"
      let event ← Json.item config "event"
      if (!band.isStr "upper" && !band.isStr "lower")
          || (!event.isStr "touch" && !event.isStr "break") then return none
      let candles ← onStore store (selectNewest candle.symbol (max (period * 3) 60))
      BollingerBandsRule.decideOn F period stdDev (band.isStr "upper") (event.isStr "break")
        candle candles) := by
  unfold RuleType.evaluateOn RuleType.evaluate BollingerBandsRule.evaluate
  simp only [onStore_bind, onStore_ofExcept, apply_ite (onStore store), Coro.pure_eq, onStore_pure]
  rfl

end Equations

/-- What the class of a rule type asks for. -/
theorem RuleType.uses_evaluate [Driver] (t : RuleType) (config : Config) (candle : Candle) :
    (t.evaluate F config candle).Uses Op.readsCandles (fun _ => True) := by
  have hread : ∀ {α β : Type} {r : Except PyErr α} {f : α → Prog β},
      (∀ a, (f a).Uses Op.readsCandles (fun _ => True)) →
      (Coro.ofExcept r >>= f).Uses Op.readsCandles (fun _ => True) :=
    fun hf => Coro.Uses.bind (.ofExcept _) fun a _ => hf a
  cases t with
  | priceThreshold | candleClose => exact .ofExcept _
  | percentMove =>
      refine hread fun _ => hread fun _ => hread fun start => ?_
      exact Coro.Uses.bind (ρ := fun _ => True) ⟨trivial, fun _ => .ofExcept _⟩
        fun _ _ => .ofExcept _
  | macdCross =>
      refine hread fun _ => hread fun _ => hread fun _ => hread fun _ => ?_
      exact Coro.Uses.bind uses_selectNewest fun _ _ => .ofExcept _
  | rsi =>
      refine hread fun period => hread fun direction => ?_
      dsimp only
      split
      next => trivial
      next =>
        refine hread fun _ => ?_
        exact Coro.Uses.bind uses_selectNewest fun _ _ => .ofExcept _
  | bollingerBands =>
      refine hread fun _ => hread fun _ => hread fun _ => hread fun _ => ?_
      split
      next => trivial
      next => exact Coro.Uses.bind uses_selectNewest fun _ _ => .ofExcept _

/-- The class as the engine uses it; `stored` is what becomes of the value in the
column `trigger_value`. -/
def RuleType.ruleClass [Driver] (stored : F → Rat) (t : RuleType) : RuleClass where
  evaluate config candle := do
    return (← t.evaluate F config candle).map stored
  reads config candle := Coro.Uses.bind (t.uses_evaluate F config candle) fun _ _ => trivial

/-- `rule_classes`. -/
def ruleClasses [Driver] (stored : F → Rat) : RuleClasses := fun t => some (t.ruleClass F stored)

end Pulse
