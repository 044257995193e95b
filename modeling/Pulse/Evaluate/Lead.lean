/-
  Pulse.Evaluate.Lead
  ───────────────────
  **HOW FAR THE MACD LINE IS AHEAD OF ITS SIGNAL LINE.**

  A crossing compares the LEAD of the line, at the last bar and at the one before: at
  the last bar it is up, or down, and before it was not.  A lead is a function of the
  closes up to its bar, so the one before does not see the newest close.

    • `macdSeries_append`          — a close more is a value more,
    • `lead_append`, `lead_mono`   — the lead as a function of the newest close,
    • `MACDCrossRule.onPrices_iff` — the decision.
-/
import Pulse.Evaluate.Aligned
import Pulse.Evaluate.Bands

namespace Pulse

open PyFloat Exponential

/-! ## §1. The line and its lead. -/

/-- The last value of the MACD line. -/
noncomputable def macd (fast slow : ℕ) (prices : List ℝ) : ℝ :=
  average fast prices - average slow prices

/-- How far it is above the last value of the signal line. -/
noncomputable def lead (fast slow signal : ℕ) (prices : List ℝ) : ℝ :=
  macd fast slow prices - average signal (macdSeries fast slow prices)

section Lead

variable {fast slow signal : ℕ} {older : List ℝ}

theorem macdSeries_append (hfast : fast ≤ older.length + 1) (hslow : slow ≤ older.length + 1)
    (x : ℝ) :
    macdSeries fast slow (older ++ [x])
      = macdSeries fast slow older ++ [macd fast slow (older ++ [x])] := by
  unfold macdSeries
  rw [series_append hfast, series_append hslow, alignedDifference_append]
  rfl

theorem macdSeries_append_two (hfast : fast ≤ older.length + 1) (hslow : slow ≤ older.length + 1)
    (x y : ℝ) :
    macdSeries fast slow (older ++ [x] ++ [y])
      = macdSeries fast slow older
        ++ [macd fast slow (older ++ [x]), macd fast slow (older ++ [x] ++ [y])] := by
  have hnext : older.length ≤ (older ++ [x]).length := by
    rw [List.length_append]
    omega
  rw [macdSeries_append (by omega) (by omega) y, macdSeries_append hfast hslow x,
    List.append_assoc]
  rfl

/-- The signal line goes a part of the way that the MACD line goes. -/
theorem lead_append (hfast : fast ≤ older.length) (hslow : slow ≤ older.length)
    (hsignal : signal ≤ (macdSeries fast slow older).length) (x : ℝ) :
    lead fast slow signal (older ++ [x])
      = (macd fast slow (older ++ [x]) - average signal (macdSeries fast slow older))
        * (1 - rate signal) := by
  unfold lead
  rw [macdSeries_append (by omega) (by omega), average_append hsignal, sub_step]

/-- **A higher close is a higher lead**, with a fast period that is not above the slow one. -/
theorem lead_mono (hle : fast ≤ slow) (hslow : slow ≤ older.length) (hpos : 1 ≤ signal)
    (hsignal : signal ≤ (macdSeries fast slow older).length) {x y : ℝ} (hxy : x ≤ y) :
    lead fast slow signal (older ++ [x]) ≤ lead fast slow signal (older ++ [y]) := by
  have hfast : fast ≤ older.length := hle.trans hslow
  have hline : macd fast slow (older ++ [x]) ≤ macd fast slow (older ++ [y]) := by
    unfold macd
    rw [average_append hfast, average_append hslow, average_append hfast, average_append hslow]
    exact step_sub_step_le (rate_le_rate hle) hxy _ _
  have hrest : (0 : ℝ) ≤ 1 - rate signal := by
    linarith [rate_le_one (K := ℝ) hpos]
  rw [lead_append hfast hslow hsignal, lead_append hfast hslow hsignal]
  apply mul_le_mul_of_nonneg_right _ hrest
  linarith

end Lead

/-! ## §2. The decision on prices. -/

/-- Prices that are enough for two values of the signal line. -/
def EnoughToCross (n fast slow signal : ℕ) : Prop :=
  slow + signal ≤ n ∧ fast + slow ≤ n + 1 ∧ fast + signal ≤ n

/-- The lead turns at the newest close: `up` or down. -/
def Turns (up : Bool) (fast slow signal : ℕ) (older : List ℝ) (x : ℝ) : Prop :=
  outward up * lead fast slow signal older ≤ 0 ∧
    0 < outward up * lead fast slow signal (older ++ [x])

section Decision

variable {fast slow signal : ℕ} (hfast : 1 ≤ fast) (hslow : 1 ≤ slow) (hsignal : 1 ≤ signal)

include hfast hslow hsignal

/-- The last two values of both lines are those of the prices and of all but the last. -/
theorem calculateMacd_last {older : List ℝ} (x : ℝ)
    (h : EnoughToCross (older.length + 1) fast slow signal) :
    ∃ macdLine signalLine histogram,
      calculateMacd (older ++ [x]) fast slow signal = .ok (macdLine, signalLine, histogram) ∧
        2 ≤ macdLine.length ∧ 2 ≤ signalLine.length ∧
        index macdLine (-1) = .ok (macd fast slow (older ++ [x])) ∧
        index macdLine (-2) = .ok (macd fast slow older) ∧
        index signalLine (-1) = .ok (average signal (macdSeries fast slow (older ++ [x]))) ∧
        index signalLine (-2) = .ok (average signal (macdSeries fast slow older)) := by
  obtain ⟨hfirst, hsecond, hthird⟩ := h
  obtain ⟨front, w, rfl⟩ := exists_append_one (show 1 ≤ older.length by omega)
  rw [List.length_append, List.length_singleton] at hfirst hsecond hthird
  have henough : Enough (front ++ [w] ++ [x]).length fast slow signal := by
    unfold Enough
    simp only [List.length_append, List.length_singleton]
    omega
  have hfirstLong : fast ≤ front.length + 1 := by omega
  have hsecondLong : slow ≤ front.length + 1 := by omega
  have hbefore : macdSeries fast slow (front ++ [w])
      = macdSeries fast slow front ++ [macd fast slow (front ++ [w])] :=
    macdSeries_append hfirstLong hsecondLong w
  have hnow : macdSeries fast slow (front ++ [w] ++ [x])
      = macdSeries fast slow front
        ++ [macd fast slow (front ++ [w]), macd fast slow (front ++ [w] ++ [x])] :=
    macdSeries_append_two hfirstLong hsecondLong w x
  have hfront := length_macdSeries fast slow front
  have hline : series signal (macdSeries fast slow (front ++ [w] ++ [x]))
      = series signal (macdSeries fast slow front)
        ++ [average signal (macdSeries fast slow (front ++ [w])),
            average signal (macdSeries fast slow (front ++ [w] ++ [x]))] := by
    rw [macdSeries_append (by simp; omega) (by simp; omega) x, hbefore]
    exact series_append_two (by omega) _ _
  have hmacd := calculateMacd_enough hfast hslow (front ++ [w] ++ [x]) hsignal henough
  refine ⟨_, _, _, hmacd, ?_, ?_, ?_, ?_, ?_, ?_⟩
  · rw [hnow, List.length_append]
    exact Nat.le_add_left _ _
  · rw [hline, List.length_append]
    exact Nat.le_add_left _ _
  -- the last two values of the line, and of its signal line
  · rw [hnow]
    exact (index_append_two _ _ _).1
  · rw [hnow]
    exact (index_append_two _ _ _).2
  · rw [hline]
    exact (index_append_two _ _ _).1
  · rw [hline]
    exact (index_append_two _ _ _).2

/-- Fewer prices leave fewer than two values. -/
theorem calculateMacd_one (prices : List ℝ) (h : ¬ EnoughToCross prices.length fast slow signal) :
    ∃ macdLine signalLine histogram,
      calculateMacd prices fast slow signal = .ok (macdLine, signalLine, histogram) ∧
        signalLine.length < 2 := by
  by_cases henough : Enough prices.length fast slow signal
  · -- the series are returned, but the signal line has a single value
    have hline := length_macdSeries fast slow prices
    refine ⟨_, _, _, calculateMacd_enough hfast hslow prices hsignal henough, ?_⟩
    unfold EnoughToCross at h
    unfold Enough at henough
    rw [length_series]
    omega
  · exact ⟨[], [], [], calculateMacd_few hfast hslow prices henough, by simp⟩

/-- **The decision**: there are enough prices, and the lead turns at the last of them. -/
theorem MACDCrossRule.onPrices_iff {up : Bool} {crossoverType : Json}
    (hbullish : crossoverType.isStr "bullish" = up)
    (hbearish : crossoverType.isStr "bearish" = !up) (older : List ℝ) (x close v : ℝ) :
    MACDCrossRule.onPrices fast slow signal crossoverType close (older ++ [x]) = .ok (some v) ↔
      EnoughToCross (older.length + 1) fast slow signal ∧ Turns up fast slow signal older x ∧
        v = close := by
  have hlength : (older ++ [x]).length = older.length + 1 := by simp
  unfold MACDCrossRule.onPrices MACDCrossRule.decideWith
  by_cases henough : EnoughToCross (older.length + 1) fast slow signal
  · obtain ⟨macdLine, signalLine, histogram, hmacd, hline, hcount, hmacdNow, hmacdBefore,
      hsignalNow, hsignalBefore⟩ := calculateMacd_last hfast hslow hsignal x henough
    have hfew : ¬ (macdLine.length < 2 || signalLine.length < 2) = true := by
      rw [Bool.or_eq_true, decide_eq_true_eq, decide_eq_true_eq]
      omega
    have hlong : ¬ ((older ++ [x]).length : Int) < slow + signal := by
      obtain ⟨hfirst, -, -⟩ := henough
      omega
    rw [and_iff_right henough, if_neg hlong, hmacd, ok_bind]
    dsimp only
    rw [if_neg hfew, hmacdNow, ok_bind, hmacdBefore, ok_bind, hsignalNow, ok_bind, hsignalBefore,
      ok_bind, hbullish, hbearish]
    unfold Turns lead outward
    -- the line above its signal line, then below
    cases up with
    | true =>
        simp only [if_true, one_mul, sub_nonpos, sub_pos]
        rw [answers_close_iff, and_comm (a := _ < _)]
    | false =>
        simp only [Bool.not_false, Bool.false_eq_true, if_false, if_true, neg_one_mul, neg_sub,
          sub_nonpos, sub_pos]
        rw [answers_close_iff, and_comm (a := _ < _)]
  · -- the rule asks for the number of prices first, and for two values after
    by_cases hshort : ((older ++ [x]).length : Int) < slow + signal
    · rw [if_pos hshort]
      exact answers_none fun h => henough h.1
    · obtain ⟨macdLine, signalLine, histogram, hmacd, hone⟩ :=
        calculateMacd_one hfast hslow hsignal (older ++ [x]) (by rwa [hlength])
      rw [if_neg hshort, hmacd, ok_bind]
      dsimp only
      rw [if_pos (by simp [hone])]
      exact answers_none fun h => henough h.1

end Decision

end Pulse
