/-
  Pulse.Evaluate.Bands
  ────────────────────
  **HOW FAR A CLOSE LIES OUTSIDE ITS BAND.**

  The band at a bar is made of the last `n` closes, the bar's own included.  For either
  band the EXCESS of a bar is the distance of its close from the mean of these closes,
  counted outwards, less `stdDev` deviations: the close is beyond the band if the excess
  is positive, and on it if it is zero.

    • `excess`        — of the last of some closes,
    • `Signals`       — what the events ask of it,
    • `bandsFire_iff` — the rule over the rows that its query returns.
-/
import Mathlib.Data.List.DropRight
import Pulse.Evaluate.History
import Pulse.Evaluate.Readings
import Pulse.Evaluate.Signals

namespace Pulse

open Pulse.Store PyFloat Spread

/-! ## §1. The excess. -/

/-- Outwards is up for the upper band and down for the lower one. -/
def outward (upperBand : Bool) : ℝ := if upperBand then 1 else -1

theorem outward_sq (upperBand : Bool) : outward upperBand * outward upperBand = 1 := by
  cases upperBand <;> norm_num [outward]

theorem abs_outward (upperBand : Bool) : |outward upperBand| = 1 := by
  cases upperBand <;> norm_num [outward]

/-- How far the last close lies outside the band of the last `n` closes. -/
noncomputable def excess (upperBand : Bool) (stdDev : ℝ) (n : ℕ) (closes : List ℝ) : ℝ :=
  outward upperBand * (closes.getLastD 0 - mean (closes.rtake n))
    - stdDev * √(variance (closes.rtake n))

section Excess

variable {stdDev : ℝ} {n : ℕ}

theorem excess_upper (older : List ℝ) (x : ℝ) :
    excess true stdDev n (older ++ [x]) = x - upperOf stdDev ((older ++ [x]).rtake n) := by
  unfold excess outward upperOf
  rw [List.getLastD_concat, if_pos rfl]
  ring

theorem excess_lower (older : List ℝ) (x : ℝ) :
    excess false stdDev n (older ++ [x]) = lowerOf stdDev ((older ++ [x]).rtake n) - x := by
  unfold excess outward lowerOf
  rw [List.getLastD_concat, if_neg (by decide)]
  ring

end Excess

/-- What an event asks of the last of some closes, and the one before it. -/
def Signals (upperBand breakEvent : Bool) (stdDev : ℝ) (n : ℕ) (closes : List ℝ) : Prop :=
  if breakEvent then 0 < excess upperBand stdDev n closes
  else excess upperBand stdDev n closes.dropLast ≤ 0 ∧ 0 ≤ excess upperBand stdDev n closes

/-! ## §2. The decision on prices. -/

/-- **The decision**: the prices must hold a window and one more. -/
theorem BollingerBandsRule.onPrices_iff {n : ℕ} (hn : 1 ≤ n) (stdDev : ℝ)
    (upperBand breakEvent : Bool) (older : List ℝ) (x v : ℝ) :
    BollingerBandsRule.onPrices n stdDev upperBand breakEvent x (older ++ [x]) = .ok (some v) ↔
      n ≤ older.length ∧ Signals upperBand breakEvent stdDev n (older ++ [x]) ∧ v = x := by
  have hlength : (older ++ [x]).length = older.length + 1 := by simp
  by_cases hshort : ((older ++ [x]).length : Int) < n + 1
  · unfold BollingerBandsRule.onPrices BollingerBandsRule.decideWith
    rw [if_pos hshort]
    exact answers_none (by omega)
  have hlong : n ≤ older.length := by omega
  obtain ⟨front, y, rfl⟩ := exists_append_one (show 1 ≤ older.length by omega)
  have hprevious : index (front ++ [y] ++ [x]) (-2) = .ok y := by
    rw [List.append_assoc]
    exact (index_append_two front y x).2
  rw [BollingerBandsRule.onPrices_real hn (by omega) hprevious,
    windowAt_rtake _ (by omega), windowAt_previous _ _ hlong, and_iff_right hlong]
  unfold Signals
  rw [List.dropLast_concat]
  -- touch and break of the lower band, then of the upper one
  cases upperBand <;> cases breakEvent <;> simp only [if_true, Bool.false_eq_true, if_false]
  · rw [excess_lower, excess_lower, sub_nonpos, sub_nonneg]
    exact answers_if_iff _ _ _
  · rw [excess_lower, sub_pos]
    exact answers_if_iff _ _ _
  · rw [excess_upper, excess_upper, sub_nonpos, sub_nonneg]
    exact answers_if_iff _ _ _
  · rw [excess_upper, sub_pos]
    exact answers_if_iff _ _ _

/-! ## §3. The rule. -/

/-- `lookback`. -/
def bandsLookback (n : ℕ) : ℕ := max (n * 3) 60

/-- The prices that `BollingerBandsRule.evaluate` reads. -/
def bandsWindow (read : Candle → ℝ) (n : ℕ) (candle : Candle) (store : List Candle) : List ℝ :=
  pricesBy read (newest candle.symbol (bandsLookback n) store)

/-- `BollingerBandsRule.evaluate` returns a value for `candle`. -/
def BandsFire (read : Candle → ℝ) (n : ℕ) (stdDev : ℝ) (upperBand breakEvent : Bool)
    (candle : Candle) (store : List Candle) : Prop :=
  ∃ v, BollingerBandsRule.answer read n stdDev upperBand breakEvent candle store = .ok (some v)

/-- It does if the window signals the event. -/
theorem bandsFire_iff {n : ℕ} (hn : 1 ≤ n) {read : Candle → ℝ} {stdDev : ℝ}
    {upperBand breakEvent : Bool} {candle : Candle} {store : List Candle} {older : List ℝ}
    (hwindow : bandsWindow read n candle store = older ++ [read candle]) :
    BandsFire read n stdDev upperBand breakEvent candle store ↔
      n ≤ older.length ∧ Signals upperBand breakEvent stdDev n (older ++ [read candle]) := by
  have hlookback : (max ((n : Int) * 3) 60).toNat = bandsLookback n := by
    unfold bandsLookback
    omega
  unfold bandsWindow at hwindow
  unfold BandsFire BollingerBandsRule.answer
  rw [hlookback, hwindow]
  simp only [BollingerBandsRule.onPrices_iff hn]
  constructor
  · rintro ⟨v, hlong, hsignals, -⟩
    exact ⟨hlong, hsignals⟩
  · rintro ⟨hlong, hsignals⟩
    exact ⟨_, hlong, hsignals, rfl⟩

/-- The newest row is the last that is read. -/
theorem NewestRow.bandsWindow_eq {candle : Candle} {store : Table Candle.key}
    (h : NewestRow candle store) (read : Candle → ℝ) (n : ℕ) :
    ∃ older, bandsWindow read n candle store.rows = older ++ [read candle] := by
  obtain ⟨older, holder⟩ := h.newest_eq (show 1 ≤ bandsLookback n by unfold bandsLookback; omega)
  unfold bandsWindow pricesBy
  rw [holder, List.reverse_cons, List.map_append]
  exact ⟨_, rfl⟩

end Pulse
