/-
  Pulse.Evaluate.MonotoneClose
  ────────────────────────────
  **A CLOSE FURTHER ON FIRES, TOO.**

  The newest close enters the averages, the bands and the signal line it is compared
  with.  It moves all of them by less than it moves itself: where a rule for one
  direction fires, it fires at every close further in this direction.

    • `RSIRule.onward`            — gains and losses against each other,
    • `BollingerBandsRule.onward` — the distance against the deviation,
    • `MACDCrossRule.onward`      — the line against its signal line,
    • `evaluateOn_withClose`      — two stores that differ in the newest close,
    • `monotone_in_close`         — the three rules in both directions.
-/
import Pulse.Evaluate.Bounded
import Pulse.Evaluate.Lead

namespace Pulse

open Pulse.Store PyFloat

/-! ## §1. Alerts, and closes further on. -/

/-- `evaluate` returns a value: the alert fires. -/
def Reports (out : Except PyErr (Option ℝ)) : Prop := ∃ v, out = .ok (some v)

theorem reports_bind {α : Type} {r : Except PyErr α} {f : α → Except PyErr (Option ℝ)} :
    Reports (r >>= f) ↔ ∃ a, r = .ok a ∧ Reports (f a) := by
  constructor
  · intro h
    obtain ⟨v, hv⟩ := h
    obtain ⟨a, ha, hfa⟩ := bind_ok hv
    exact ⟨a, ha, v, hfa⟩
  · intro h
    obtain ⟨a, ha, v, hv⟩ := h
    rw [ha]
    exact ⟨v, hv⟩

theorem not_reports_none : ¬ Reports (pure none) := by
  intro h
  obtain ⟨v, hv⟩ := h
  exact absurd (Except.ok.inj hv) (by simp)

/-- `y` is as far on as `x`, up or down. -/
def Onward (up : Bool) (x y : ℝ) : Prop := outward up * x ≤ outward up * y

section Onward

variable {x y : ℝ}

theorem onward_up : Onward true x y ↔ x ≤ y := by
  unfold Onward outward
  rw [if_pos rfl, one_mul, one_mul]

theorem onward_down : Onward false x y ↔ y ≤ x := by
  unfold Onward outward
  rw [if_neg (by decide), neg_one_mul, neg_one_mul, neg_le_neg_iff]

/-- What rises with the close follows it in both directions. -/
theorem Onward.map {up : Bool} (h : Onward up x y) {f : ℝ → ℝ}
    (hf : ∀ a b, a ≤ b → f a ≤ f b) : Onward up (f x) (f y) := by
  cases up with
  | true => exact onward_up.mpr (hf x y (onward_up.mp h))
  | false => exact onward_down.mpr (hf y x (onward_down.mp h))

end Onward

/-! ## §2. The relative strength index. -/

section Strength

open Smoothing

variable {gain gain' loss loss' : ℝ}

/-- More gain and less loss is more strength; no loss is the most. -/
theorem strength_mono (hgain : 0 ≤ gain) (hloss' : 0 ≤ loss') (hup : gain ≤ gain')
    (hdown : loss' ≤ loss) : strength gain loss ≤ strength gain' loss' := by
  by_cases hzero : loss' = 0
  · rw [hzero, strength_of_no_loss]
    exact (strength_bounds hgain (hloss'.trans hdown)).2
  · -- the smaller loss is positive, so the larger one is
    have hpos' : 0 < loss' := lt_of_le_of_ne hloss' (Ne.symm hzero)
    have hpos : 0 < loss := hpos'.trans_le hdown
    have hcross : gain * loss' ≤ gain' * loss := mul_le_mul hup hdown hloss' (hgain.trans hup)
    rw [strength_eq hgain hpos, strength_eq (hgain.trans hup) hpos',
      div_le_div_iff₀ (by linarith) (by linarith)]
    linarith

/-- The strength rises with the newest close. -/
theorem rsi_mono {n : ℕ} (hn : 1 ≤ n) {older : List ℝ} (hlong : n + 1 ≤ older.length) {x y : ℝ}
    (hle : x ≤ y) : rsi n (older ++ [x]) ≤ rsi n (older ++ [y]) := by
  obtain ⟨front, p, a, rfl⟩ := exists_append_two (show 2 ≤ older.length by omega)
  have hcount : n ≤ front.length + 1 := by
    rw [List.length_append] at hlong
    simpa using hlong
  have hgain := average_nonneg hn (gainsOf_nonneg (front ++ [p, a]))
  have hloss := average_nonneg hn (lossesOf_nonneg (front ++ [p, a]))
  have hjoin : ∀ z : ℝ, front ++ [p, a] ++ [z] = front ++ [p, a, z] := by
    intro z
    rw [List.append_assoc]
    rfl
  rw [hjoin, hjoin]
  unfold rsi
  rw [(averages_step front p a x hcount).1, (averages_step front p a x hcount).2,
    (averages_step front p a y hcount).1, (averages_step front p a y hcount).2]
  -- the newest change adds more to the gains, and less to the losses
  apply strength_mono
  · exact step_nonneg hn hgain (le_max_right _ _)
  · exact step_nonneg hn hloss (le_max_right _ _)
  · apply step_le_step hn
    exact max_le_max (by linarith) (le_refl 0)
  · apply step_le_step hn
    exact max_le_max (by linarith) (le_refl 0)

/-- A value further on has crossed the threshold, too. -/
theorem Crosses.onward {up : Bool} {threshold previous current current' : ℝ}
    (h : Crosses up threshold previous current) (hon : Onward up current current') :
    Crosses up threshold previous current' := by
  unfold Crosses at h ⊢
  cases up with
  | true =>
      rw [if_pos rfl] at h ⊢
      exact ⟨h.1, h.2.trans (onward_up.mp hon)⟩
  | false =>
      rw [if_neg (by decide)] at h ⊢
      exact ⟨h.1, (onward_down.mp hon).trans h.2⟩

/-- **RSI**: the value of the bar before stays, the one of the newest close moves on with it. -/
theorem RSIRule.onward {n : ℕ} (hn : 1 ≤ n) {up : Bool} {threshold : ℝ} {older : List ℝ} {x y : ℝ}
    (hon : Onward up x y) (h : Reports (RSIRule.onPrices n up threshold (older ++ [x]))) :
    Reports (RSIRule.onPrices n up threshold (older ++ [y])) := by
  obtain ⟨v, hv⟩ := h
  obtain ⟨hlong, hcrosses, -⟩ := (RSIRule.onPrices_iff hn up threshold _ v).mp hv
  rw [List.length_append, List.length_singleton] at hlong
  rw [List.dropLast_concat] at hcrosses
  refine ⟨rsi n (older ++ [y]), (RSIRule.onPrices_iff hn up threshold _ _).mpr ⟨?_, ?_, rfl⟩⟩
  · rw [List.length_append, List.length_singleton]
    exact hlong
  · rw [List.dropLast_concat]
    exact hcrosses.onward (hon.map fun a b hle => rsi_mono hn (by omega) hle)

end Strength

/-! ## §3. Bollinger bands. -/

/-- The excess stays positive further on. -/
theorem excess_onward {up : Bool} {stdDev : ℝ} (hs : 0 ≤ stdDev) {n : ℕ} (hn : 1 ≤ n)
    {older : List ℝ} {x y : ℝ} (hon : Onward up x y)
    (h : 0 < excess up stdDev n (older ++ [x])) : 0 < excess up stdDev n (older ++ [y]) := by
  obtain ⟨k, rfl⟩ : ∃ k, n = k + 1 := ⟨n - 1, by omega⟩
  unfold excess at h ⊢
  rw [List.rtake_concat_succ, List.getLastD_concat, sub_pos] at h ⊢
  exact Spread.beyond_mono (outward_sq up) hs hon h

/-- A period that is not positive has no bands. -/
theorem BollingerBandsRule.not_reports {period : Int} (hperiod : period ≤ 0) {stdDev close : ℝ}
    {upperBand breakEvent : Bool} {prices : List ℝ} :
    ¬ Reports (BollingerBandsRule.onPrices period stdDev upperBand breakEvent close prices) := by
  have hbands : calculateBollingerBands prices period stdDev = .ok ([], [], []) := by
    unfold calculateBollingerBands
    rw [if_pos (by simp [hperiod])]
    rfl
  unfold BollingerBandsRule.onPrices BollingerBandsRule.decideWith
  by_cases hshort : (prices.length : Int) < period + 1
  · rw [if_pos hshort]
    exact not_reports_none
  · rw [if_neg hshort, hbands, ok_bind]
    exact not_reports_none

/-- **Bollinger bands**: a close beyond its band is so further out. -/
theorem BollingerBandsRule.onward {period : Int} {up : Bool} {stdDev : ℝ} (hs : 0 ≤ stdDev)
    {older : List ℝ} {x y : ℝ} (hon : Onward up x y)
    (h : Reports (BollingerBandsRule.onPrices period stdDev up true x (older ++ [x]))) :
    Reports (BollingerBandsRule.onPrices period stdDev up true y (older ++ [y])) := by
  by_cases hperiod : period ≤ 0
  · exact absurd h (BollingerBandsRule.not_reports hperiod)
  -- `break` looks at the newest close only
  obtain ⟨n, rfl⟩ := Int.eq_ofNat_of_zero_le (show 0 ≤ period by omega)
  have hn : 1 ≤ n := by omega
  obtain ⟨v, hv⟩ := h
  obtain ⟨hlong, hsignals, -⟩ :=
    (BollingerBandsRule.onPrices_iff hn stdDev up true older x v).mp hv
  unfold Signals at hsignals
  rw [if_pos rfl] at hsignals
  refine ⟨y, (BollingerBandsRule.onPrices_iff hn stdDev up true older y y).mpr ⟨hlong, ?_, rfl⟩⟩
  unfold Signals
  rw [if_pos rfl]
  exact excess_onward hs hn hon hsignals

/-! ## §4. Crossings of the signal line. -/

/-- **MACD**: the lead of the bar before stays, the one of the newest close moves on with it. -/
theorem MACDCrossRule.onward {fast slow signal : ℕ} (hfast : 1 ≤ fast) (hle : fast ≤ slow)
    (hsignal : 1 ≤ signal) {up : Bool} {crossoverType : Json}
    (hbullish : crossoverType.isStr "bullish" = up)
    (hbearish : crossoverType.isStr "bearish" = !up) {older : List ℝ} {x y : ℝ}
    (hon : Onward up x y)
    (h : Reports (MACDCrossRule.onPrices fast slow signal crossoverType x (older ++ [x]))) :
    Reports (MACDCrossRule.onPrices fast slow signal crossoverType y (older ++ [y])) := by
  have hslow : 1 ≤ slow := hfast.trans hle
  obtain ⟨v, hv⟩ := h
  obtain ⟨henough, hturns, -⟩ := (MACDCrossRule.onPrices_iff hfast hslow hsignal hbullish hbearish
    older x x v).mp hv
  refine ⟨y, (MACDCrossRule.onPrices_iff hfast hslow hsignal hbullish hbearish older y y y).mpr
    ⟨henough, ⟨hturns.1, ?_⟩, rfl⟩⟩
  -- neither line starts with the newest close
  have hline := length_macdSeries fast slow older
  obtain ⟨hfirst, -, hthird⟩ := henough
  have hlead : Onward up (lead fast slow signal (older ++ [x]))
      (lead fast slow signal (older ++ [y])) := by
    apply hon.map (f := fun z => lead fast slow signal (older ++ [z]))
    intro a b hab
    exact lead_mono hle (by omega) hsignal (by omega) hab
  exact hturns.2.trans_le hlead

/-! ## §5. Histories that differ in the newest close. -/

/-- The closes as they are read, but `x` for the row `candle`. -/
def withClose (read : Candle → ℝ) (candle : Candle) (x : ℝ) : Candle → ℝ :=
  Function.update read candle x

theorem withClose_self (read : Candle → ℝ) (candle : Candle) (x : ℝ) :
    withClose read candle x candle = x := Function.update_self _ _ _

/-- A query for the newest rows does not find a row twice. -/
theorem nodup_newest (symbol : String) (limit : Nat) (store : Table Candle.key) :
    (newest symbol limit store.rows).Nodup := by
  have hrows : store.rows.Nodup := List.Nodup.of_map _ store.nodup
  unfold newest
  apply List.Nodup.sublist (List.take_sublist _ _)
  exact (List.perm_insertionSort _ _).nodup_iff.mpr (hrows.filter _)

/-- **The closes that are read differ in the last.** -/
theorem NewestRow.pricesBy_withClose {candle : Candle} {store : Table Candle.key}
    (h : NewestRow candle store) {limit : Nat} (hlimit : 1 ≤ limit) (read : Candle → ℝ) :
    ∃ older, ∀ x, pricesBy (withClose read candle x) (Pulse.newest candle.symbol limit store.rows)
      = older ++ [x] := by
  obtain ⟨rest, hrest⟩ := h.newest_eq hlimit
  have hnodup := nodup_newest candle.symbol limit store
  rw [hrest, List.nodup_cons] at hnodup
  refine ⟨pricesBy read rest, fun x => ?_⟩
  -- `candle` is the first of the rows, and it is not among the others
  have hothers : ∀ r ∈ rest.reverse, withClose read candle x r = read r := by
    intro r hr
    apply Function.update_of_ne
    intro heq
    rw [List.mem_reverse, heq] at hr
    exact hnodup.1 hr
  unfold pricesBy
  rw [hrest, List.reverse_cons, List.map_append, List.map_singleton, withClose_self,
    List.map_congr_left hothers]

/-! ### In the stores themselves. -/

/-- The row `candle` gets the close `q`. -/
def setClose (candle : Candle) (q : Rat) (r : Candle) : Candle :=
  if r = candle then { r with close := .fin q } else r

section SetClose

variable (candle : Candle) (q : Rat)

theorem closeOf_setClose (r : Candle) :
    closeOf ℝ (setClose candle q r) = withClose (closeOf ℝ) candle q r := by
  unfold setClose
  by_cases h : r = candle
  · rw [if_pos h, h, withClose_self]
    rfl
  · rw [if_neg h]
    exact (Function.update_of_ne h _ _).symm

theorem pricesBy_setClose (candles : List Candle) :
    pricesBy (closeOf ℝ) (candles.map (setClose candle q))
      = pricesBy (withClose (closeOf ℝ) candle q) candles := by
  unfold pricesBy
  rw [← List.map_reverse, List.map_map]
  exact List.map_congr_left fun r _ => closeOf_setClose candle q r

/-- Queries do not look at closes. -/
theorem newest_setClose (symbol : String) (limit : Nat) (rows : List Candle) :
    newest symbol limit (rows.map (setClose candle q))
      = (newest symbol limit rows).map (setClose candle q) := by
  have hkey : ∀ r, (setClose candle q r).symbol = r.symbol ∧
      (setClose candle q r).intervalSeconds = r.intervalSeconds ∧
      (setClose candle q r).timestamp = r.timestamp := by
    intro r
    unfold setClose
    split <;> exact ⟨rfl, rfl, rfl⟩
  have hfilter : ((fun r : Candle => decide (r.symbol = symbol ∧ r.intervalSeconds = 900))
      ∘ setClose candle q) = fun r => decide (r.symbol = symbol ∧ r.intervalSeconds = 900) := by
    funext r
    show decide ((setClose candle q r).symbol = symbol ∧ _) = _
    rw [(hkey r).1, (hkey r).2.1]
  unfold newest
  rw [List.filter_map, hfilter, List.map_take]
  congr 1
  -- a row sorts where it sorted before
  symm
  apply List.map_insertionSort
  intro r _ s _
  rw [(hkey r).2.2, (hkey s).2.2]

theorem onStore_setClose [Driver] (symbol : String) (limit : Int) (rows : List Candle) :
    onStore (rows.map (setClose candle q)) (selectNewest symbol limit)
      = (onStore rows (selectNewest symbol limit)).map (List.map (setClose candle q)) := by
  rw [onStore_selectNewest, onStore_selectNewest, newest_setClose]
  split <;> rfl

/-- **The program on a store with another newest close** is the program on this reading of the
store. -/
theorem evaluateOn_withClose [Driver] (config : Config) (rows : List Candle) :
    RuleType.evaluateOn ℝ .rsi config (setClose candle q candle)
        (rows.map (setClose candle q))
      = RSIRule.evaluateReading (withClose (closeOf ℝ) candle q) config candle rows ∧
    RuleType.evaluateOn ℝ .bollingerBands config (setClose candle q candle)
        (rows.map (setClose candle q))
      = BollingerBandsRule.evaluateReading (withClose (closeOf ℝ) candle q) config candle rows ∧
    RuleType.evaluateOn ℝ .macdCross config (setClose candle q candle)
        (rows.map (setClose candle q))
      = MACDCrossRule.evaluateReading (withClose (closeOf ℝ) candle q) config candle rows := by
  have hsymbol : (setClose candle q candle).symbol = candle.symbol := by
    unfold setClose
    rw [if_pos rfl]
  have hclose : (setClose candle q candle).close ≠ .snan := by
    unfold setClose
    rw [if_pos rfl]
    exact Dec.noConfusion
  refine ⟨?_, ?_, ?_⟩
  · rw [← evaluateReading_rsi]
    unfold RSIRule.evaluateReading
    simp only [hsymbol, onStore_setClose, except_map_bind, pricesBy_setClose]
  · rw [← evaluateReading_bollingerBands _ _ hclose]
    unfold BollingerBandsRule.evaluateReading
    simp only [hsymbol, onStore_setClose, except_map_bind, pricesBy_setClose, closeOf_setClose]
  · rw [← evaluateReading_macdCross _ _ hclose]
    unfold MACDCrossRule.evaluateReading
    simp only [hsymbol, onStore_setClose, except_map_bind, pricesBy_setClose, closeOf_setClose]

end SetClose

/-! ## §6. The rules. -/

/-- An RSI rule for this direction, of a positive period. -/
def IsRsi (config : Config) (direction : String) : Prop :=
  Json.item config "direction" = .ok (.str direction) ∧
    ∃ period, intGet config "period" 14 = .ok period ∧ 1 ≤ period

/-- A 'break' rule for this band, of a width that is not negative. -/
def IsBreak (config : Config) (band : String) : Prop :=
  Json.item config "band" = .ok (.str band) ∧ Json.item config "event" = .ok (.str "break") ∧
    ∃ stdDev, (Json.getD config "std_dev" (.num 2)).toFloat ℝ = .ok stdDev ∧ 0 ≤ stdDev

/-- A crossing of this type, of positive periods with the fast one not above the slow one. -/
def IsCross (config : Config) (crossover : String) : Prop :=
  Json.item config "crossover_type" = .ok (.str crossover) ∧
    ∃ fast slow signal, intGet config "fast_period" 12 = .ok fast ∧
      intGet config "slow_period" 26 = .ok slow ∧ intGet config "signal_period" 9 = .ok signal ∧
      1 ≤ fast ∧ fast ≤ slow ∧ 1 ≤ signal

/-- The names of a direction. -/
def directionOf (up : Bool) : String := if up then "overbought" else "oversold"

def bandOf (up : Bool) : String := if up then "upper" else "lower"

def crossoverOf (up : Bool) : String := if up then "bullish" else "bearish"

/-- What a query for the newest rows returns. -/
theorem eq_newest_of_select [Driver] {symbol : String} {limit : Int} {rows candles : List Candle}
    (h : onStore rows (selectNewest symbol limit) = .ok candles) :
    candles = newest symbol limit.toNat rows := by
  rw [onStore_selectNewest] at h
  split at h
  next => exact (Except.ok.inj h).symm
  next => cases h

section Rules

variable [Driver] {candle : Candle} {store : Table Candle.key}
  (hnewest : NewestRow candle store) (read : Candle → ℝ) {config : Config} {up : Bool} {x y : ℝ}
  (hon : Onward up x y)

include hnewest hon

theorem RSIRule.reports_onward (hconfig : IsRsi config (directionOf up))
    (h : Reports (RSIRule.evaluateReading (withClose read candle x) config candle store.rows)) :
    Reports (RSIRule.evaluateReading (withClose read candle y) config candle store.rows) := by
  obtain ⟨hdirection, period, hperiod, hpos⟩ := hconfig
  obtain ⟨n, rfl⟩ := Int.eq_ofNat_of_zero_le (show 0 ≤ period by omega)
  obtain ⟨older, holder⟩ := hnewest.pricesBy_withClose
    (show 1 ≤ (max ((n : Int) * 5) 100).toNat by omega) read
  have hup : (Json.str (directionOf up)).isStr "overbought" = up := by
    cases up <;> rfl
  have hknown : (!(Json.str (directionOf up)).isStr "overbought"
      && !(Json.str (directionOf up)).isStr "oversold") = false := by
    cases up <;> rfl
  unfold RSIRule.evaluateReading at h ⊢
  rw [hperiod, ok_bind, hdirection, ok_bind, hknown, hup] at h ⊢
  dsimp only at h ⊢
  obtain ⟨threshold, hthreshold, h⟩ := reports_bind.mp h
  obtain ⟨candles, hcandles, h⟩ := reports_bind.mp h
  rw [eq_newest_of_select hcandles, holder] at h
  rw [hthreshold, ok_bind, hcandles, ok_bind, eq_newest_of_select hcandles, holder]
  exact RSIRule.onward (by omega) hon h

theorem BollingerBandsRule.reports_onward (hconfig : IsBreak config (bandOf up))
    (h : Reports (BollingerBandsRule.evaluateReading (withClose read candle x) config candle
      store.rows)) :
    Reports (BollingerBandsRule.evaluateReading (withClose read candle y) config candle
      store.rows) := by
  obtain ⟨hband, hevent, stdDev, hstdDev, hs⟩ := hconfig
  have hup : (Json.str (bandOf up)).isStr "upper" = up := by
    cases up <;> rfl
  have hbreak : (Json.str "break").isStr "break" = true := rfl
  have hknown : ((!(Json.str (bandOf up)).isStr "upper" && !(Json.str (bandOf up)).isStr "lower")
      || (!(Json.str "break").isStr "touch" && !(Json.str "break").isStr "break")) = false := by
    cases up <;> rfl
  unfold BollingerBandsRule.evaluateReading at h ⊢
  obtain ⟨period, hperiod, h⟩ := reports_bind.mp h
  obtain ⟨older, holder⟩ := hnewest.pricesBy_withClose
    (show 1 ≤ (max (period * 3) 60).toNat by omega) read
  rw [hstdDev, ok_bind, hband, ok_bind, hevent, ok_bind, hknown, hup, hbreak, withClose_self] at h
  rw [hperiod, ok_bind, hstdDev, ok_bind, hband, ok_bind, hevent, ok_bind, hknown, hup, hbreak,
    withClose_self]
  rw [if_neg (by decide)] at h ⊢
  obtain ⟨candles, hcandles, h⟩ := reports_bind.mp h
  rw [eq_newest_of_select hcandles, holder] at h
  rw [hcandles, ok_bind, eq_newest_of_select hcandles, holder]
  exact BollingerBandsRule.onward hs hon h

theorem MACDCrossRule.reports_onward (hconfig : IsCross config (crossoverOf up))
    (h : Reports (MACDCrossRule.evaluateReading (withClose read candle x) config candle
      store.rows)) :
    Reports (MACDCrossRule.evaluateReading (withClose read candle y) config candle
      store.rows) := by
  obtain ⟨hcrossover, fast, slow, signal, hfast, hslow, hsignal, hpos, hle, hone⟩ := hconfig
  obtain ⟨f, rfl⟩ := Int.eq_ofNat_of_zero_le (show 0 ≤ fast by omega)
  obtain ⟨s, rfl⟩ := Int.eq_ofNat_of_zero_le (show 0 ≤ slow by omega)
  obtain ⟨g, rfl⟩ := Int.eq_ofNat_of_zero_le (show 0 ≤ signal by omega)
  obtain ⟨older, holder⟩ := hnewest.pricesBy_withClose (show 1 ≤ (50 : Int).toNat by decide) read
  have hbullish : (Json.str (crossoverOf up)).isStr "bullish" = up := by
    cases up <;> rfl
  have hbearish : (Json.str (crossoverOf up)).isStr "bearish" = !up := by
    cases up <;> rfl
  unfold MACDCrossRule.evaluateReading at h ⊢
  rw [hfast, ok_bind, hslow, ok_bind, hsignal, ok_bind, hcrossover, ok_bind, withClose_self]
    at h ⊢
  obtain ⟨candles, hcandles, h⟩ := reports_bind.mp h
  rw [eq_newest_of_select hcandles, holder] at h
  rw [hcandles, ok_bind, eq_newest_of_select hcandles, holder]
  exact MACDCrossRule.onward (by omega) (by omega) (by omega) hbullish hbearish hon h

end Rules

/-- **Alerts are monotone in the current close**: two runs over one history that differ in the
close of the newest row, `x` in one and `y` in the other. -/
theorem monotone_in_close [Driver] {candle : Candle} {store : Table Candle.key}
    (hnewest : NewestRow candle store) (read : Candle → ℝ) (config : Config) {x y : ℝ}
    (hle : x ≤ y) :
    (IsRsi config "overbought" →
      Reports (RSIRule.evaluateReading (withClose read candle x) config candle store.rows) →
      Reports (RSIRule.evaluateReading (withClose read candle y) config candle store.rows)) ∧
    (IsRsi config "oversold" →
      Reports (RSIRule.evaluateReading (withClose read candle y) config candle store.rows) →
      Reports (RSIRule.evaluateReading (withClose read candle x) config candle store.rows)) ∧
    (IsBreak config "upper" →
      Reports (BollingerBandsRule.evaluateReading (withClose read candle x) config candle
        store.rows) →
      Reports (BollingerBandsRule.evaluateReading (withClose read candle y) config candle
        store.rows)) ∧
    (IsBreak config "lower" →
      Reports (BollingerBandsRule.evaluateReading (withClose read candle y) config candle
        store.rows) →
      Reports (BollingerBandsRule.evaluateReading (withClose read candle x) config candle
        store.rows)) ∧
    (IsCross config "bullish" →
      Reports (MACDCrossRule.evaluateReading (withClose read candle x) config candle
        store.rows) →
      Reports (MACDCrossRule.evaluateReading (withClose read candle y) config candle
        store.rows)) ∧
    (IsCross config "bearish" →
      Reports (MACDCrossRule.evaluateReading (withClose read candle y) config candle
        store.rows) →
      Reports (MACDCrossRule.evaluateReading (withClose read candle x) config candle
        store.rows)) := by
  have hup : Onward true x y := onward_up.mpr hle
  have hdown : Onward false y x := onward_down.mpr hle
  refine ⟨?_, ?_, ?_, ?_, ?_, ?_⟩
  · exact RSIRule.reports_onward hnewest read hup
  · exact RSIRule.reports_onward hnewest read hdown
  · exact BollingerBandsRule.reports_onward hnewest read hup
  · exact BollingerBandsRule.reports_onward hnewest read hdown
  · exact MACDCrossRule.reports_onward hnewest read hup
  · exact MACDCrossRule.reports_onward hnewest read hdown

/-! ### Falling closes that turn. -/

/-- A rule of each class, for a rise. -/
def risingConfig : Config :=
  [("period", .int 2), ("direction", .str "overbought"), ("band", .str "upper"),
    ("event", .str "break"), ("std_dev", .num (1 / 2)), ("fast_period", .int 1),
    ("slow_period", .int 2), ("signal_period", .int 2), ("crossover_type", .str "bullish")]

theorem risingConfig_rules : IsRsi risingConfig "overbought" ∧ IsBreak risingConfig "upper" ∧
    IsCross risingConfig "bullish" := by
  refine ⟨⟨rfl, 2, rfl, by decide⟩, ⟨rfl, rfl, _, rfl, ?_⟩,
    ⟨rfl, 1, 2, 2, rfl, rfl, rfl, by decide, by decide, by decide⟩⟩
  rw [ofDec_real]
  norm_num

/-- After the closes 4, 3 and 1 they fire at 5: the strength leaves zero, -/
theorem risingConfig_rsi :
    Reports (RSIRule.onPrices (2 : ℕ) true (70 : ℝ) ([4, 3, 1] ++ [5])) := by
  have hcrosses : Crosses true 70 (rsi 2 [4, 3, 1]) (rsi 2 ([4, 3, 1] ++ [5])) := by
    simp only [Crosses, rsi, gainsOf, lossesOf, changes, List.cons_append, List.nil_append,
      List.map_cons, List.map_nil, pyMax_real]
    norm_num [strength, Smoothing.average, Smoothing.step]
  exact ⟨_, (RSIRule.onPrices_iff (by decide) _ _ _ _).mpr ⟨by decide, hcrosses, rfl⟩⟩

/-- the close is half a deviation outside, -/
theorem risingConfig_bands :
    Reports (BollingerBandsRule.onPrices (2 : ℕ) (1 / 2 : ℝ) true true 5 ([4, 3, 1] ++ [5])) := by
  have hroot : √(4 : ℝ) = 2 := by
    rw [show (4 : ℝ) = 2 ^ 2 by norm_num]
    exact Real.sqrt_sq (by norm_num)
  have hsignals : Signals true true (1 / 2) 2 ([4, 3, 1] ++ [(5 : ℝ)]) := by
    unfold Signals
    rw [if_pos rfl, excess_upper, sub_pos]
    norm_num [upperOf, Spread.mean, Spread.variance, List.rtake, hroot]
  exact ⟨_, (BollingerBandsRule.onPrices_iff (by decide) _ _ _ _ _ _).mpr
    ⟨by decide, hsignals, rfl⟩⟩

/-- and the line turns. -/
theorem risingConfig_macd :
    Reports (MACDCrossRule.onPrices (1 : ℕ) (2 : ℕ) (2 : ℕ) (.str "bullish") (5 : ℝ)
      ([4, 3, 1] ++ [5])) := by
  have hturns : Turns true 1 2 2 [4, 3, 1] 5 := by
    constructor <;> norm_num [outward, lead, macd, macdSeries, alignedDifference, sliceFrom,
      Exponential.series, Exponential.average, Exponential.step, Exponential.rate, List.range']
  have hbullish : (Json.str "bullish").isStr "bullish" = true := rfl
  exact ⟨_, (MACDCrossRule.onPrices_iff (by decide) (by decide) (by decide) hbullish rfl
    _ _ _ _).mpr ⟨⟨by decide, by decide, by decide⟩, hturns, rfl⟩⟩

/-- The candle that closes at 5, over the rows that are stored. -/
def turn : Candle := bar "BTC" lastSlot 5

def turnRows : List Candle := bars "BTC" lastSlot [5, 1, 3, 4]

attribute [local instance] integerDriver

/-- They fire where the newest row closes at 5, so they fire where it closes at 6. -/
theorem monotone_in_close_turn :
    NewestRow turn (barTable "BTC" lastSlot [5, 1, 3, 4]) ∧ (5 : ℝ) ≤ 6 ∧
    Reports (RuleType.evaluateOn ℝ .rsi risingConfig (setClose turn 6 turn)
      (turnRows.map (setClose turn 6))) ∧
    Reports (RuleType.evaluateOn ℝ .bollingerBands risingConfig (setClose turn 6 turn)
      (turnRows.map (setClose turn 6))) ∧
    Reports (RuleType.evaluateOn ℝ .macdCross risingConfig (setClose turn 6 turn)
      (turnRows.map (setClose turn 6))) := by
  have hnewest : NewestRow turn (barTable "BTC" lastSlot [5, 1, 3, 4]) :=
    newestRow_bars lastSlot 5 [1, 3, 4]
  have hle : (5 : ℝ) ≤ 6 := by norm_num
  obtain ⟨hisRsi, hisBreak, hisCross⟩ := risingConfig_rules
  obtain ⟨hrsi, -, hbands, -, hmacd, -⟩ :=
    monotone_in_close hnewest (closeOf ℝ) risingConfig hle
  -- at 5 the reading is the one of the store
  have hclose : closeOf ℝ turn = 5 := by
    show ((5 : Rat) : ℝ) = 5
    norm_num
  have hfive : withClose (closeOf ℝ) turn 5 = closeOf ℝ := by
    unfold withClose
    rw [← hclose, Function.update_eq_self]
  have hprices : ∀ limit, 4 ≤ limit →
      pricesBy (closeOf ℝ) (newest "BTC" limit turnRows) = [4, 3, 1] ++ [5] := by
    intro limit hlimit
    show pricesOf ℝ (newest "BTC" limit (bars "BTC" lastSlot [5, 1, 3, 4])) = _
    rw [newest_bars, List.take_of_length_le (by simpa using hlimit), pricesOf_bars]
    simp
  rw [hfive] at hrsi hbands hmacd
  obtain ⟨hrsiOn, hbandsOn, hmacdOn⟩ := evaluateOn_withClose turn 6 risingConfig turnRows
  rw [show ((6 : Rat) : ℝ) = 6 from Rat.cast_ofNat 6] at hrsiOn hbandsOn hmacdOn
  rw [hrsiOn, hbandsOn, hmacdOn]
  refine ⟨hnewest, hle, hrsi hisRsi ?_, hbands hisBreak ?_, hmacd hisCross ?_⟩
  · show Reports (RSIRule.onPrices (2 : ℕ) true ((70 : Rat) : ℝ)
      (pricesBy (closeOf ℝ) (newest "BTC" 100 turnRows)))
    rw [hprices 100 (by decide), Rat.cast_ofNat]
    exact risingConfig_rsi
  · show Reports (BollingerBandsRule.onPrices (2 : ℕ) ((1 / 2 : Rat) : ℝ) true true
      (closeOf ℝ turn) (pricesBy (closeOf ℝ) (newest "BTC" 60 turnRows)))
    rw [hprices 60 (by decide), hclose]
    have hbandsFire := risingConfig_bands
    norm_num at hbandsFire ⊢
    exact hbandsFire
  · show Reports (MACDCrossRule.onPrices (1 : ℕ) (2 : ℕ) (2 : ℕ) (.str "bullish")
      (closeOf ℝ turn) (pricesBy (closeOf ℝ) (newest "BTC" 50 turnRows)))
    rw [hprices 50 (by decide), hclose]
    exact risingConfig_macd

end Pulse
