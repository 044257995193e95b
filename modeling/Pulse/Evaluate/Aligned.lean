/-
  Pulse.Evaluate.Aligned
  ──────────────────────
  **ARE THE MACD SERIES ALIGNED BAR BY BAR?**

  `calculate_macd` cuts series of different lengths at their ends and zips what is
  left.  Read from the end, a series is a function of the bar: its value at position
  `-k` is that of the prefix which ends `k - 1` bars before the last.

    • `index_neg_iff`                — positions from the end,
    • `index_alignedDifference`      — a difference has both values of its bar,
    • `calculateEma_real`            — the averages of all prefixes,
    • `calculateMacd_enough`         — the three series, where there are enough prices,
    • `calculateMacd_aligned`        — position by position.
-/
import Pulse.Core.Exact
import Pulse.Core.Exponential
import Pulse.Evaluate.Signals

namespace Pulse

open PyFloat Exponential

/-! ## §1. Positions from the end. -/

section Ends

/-- `xs[-k]` is the `k`-th item from the end. -/
theorem index_neg_iff {α : Type} {xs : List α} {k : ℕ} (hk : 1 ≤ k) {x : α} :
    index xs (-k) = .ok x ↔ xs.reverse[k - 1]? = some x := by
  by_cases h : k ≤ xs.length
  · have hposition : xs.length - 1 - (k - 1) = xs.length - k := by omega
    have hlt : xs.length - k < xs.length := by omega
    unfold index
    rw [if_neg (by omega), Int.natAbs_neg, Int.natAbs_natCast, if_pos h,
      List.getElem?_reverse (by omega), hposition, List.getElem?_eq_getElem hlt]
    exact ⟨fun hx => congrArg some (Except.ok.inj hx), fun hx => congrArg Except.ok (Option.some.inj hx)⟩
  · unfold index
    rw [if_neg (by omega), Int.natAbs_neg, Int.natAbs_natCast, if_neg h,
      List.getElem?_eq_none (by rw [List.length_reverse]; omega)]
    simp

variable {F : Type} [PyFloat F]

/-- **Two series aligned at their ends**: the difference of the reversed series, reversed. -/
theorem alignedDifference_eq_reverse (xs ys : List F) :
    alignedDifference xs ys = (List.zipWith (· - ·) xs.reverse ys.reverse).reverse := by
  have hmin : (min xs.length ys.length : Int) = ((min xs.length ys.length : ℕ) : Int) := by
    omega
  have hlength : (List.zipWith (· - ·) xs.reverse ys.reverse).length
      = min xs.length ys.length := by
    rw [List.length_zipWith, List.length_reverse, List.length_reverse]
  unfold alignedDifference
  dsimp only
  rw [hmin]
  by_cases hzero : min xs.length ys.length = 0
  · -- `[-0:]` is the whole series, but the other one is empty
    rw [hzero] at hlength ⊢
    rw [List.eq_nil_of_length_eq_zero hlength, List.reverse_nil]
    apply List.eq_nil_of_length_eq_zero
    show (List.zipWith (· - ·) xs ys).length = 0
    rw [List.length_zipWith]
    exact hzero
  · -- what is cut off at the front is never reached from the end
    rw [sliceFrom_neg xs (by omega), sliceFrom_neg ys (by omega)]
    apply List.reverse_injective
    rw [List.reverse_reverse, List.reverse_zipWith (by rw [List.length_drop, List.length_drop]; omega),
      ← List.take_reverse, ← List.take_reverse, ← List.take_zipWith]
    apply List.take_of_length_le
    rw [hlength]

/-- A position of the difference has the values of both series at that position. -/
theorem index_alignedDifference {xs ys : List F} {k : ℕ} (hk : 1 ≤ k) {x y : F}
    (hx : index xs (-k) = .ok x) (hy : index ys (-k) = .ok y) :
    index (alignedDifference xs ys) (-k) = .ok (x - y) := by
  rw [index_neg_iff hk] at hx hy ⊢
  rw [alignedDifference_eq_reverse, List.reverse_reverse, List.getElem?_zipWith, hx, hy]

/-- A bar more is a difference more. -/
theorem alignedDifference_append (xs ys : List F) (x y : F) :
    alignedDifference (xs ++ [x]) (ys ++ [y]) = alignedDifference xs ys ++ [x - y] := by
  rw [alignedDifference_eq_reverse, alignedDifference_eq_reverse, List.reverse_concat,
    List.reverse_concat, List.zipWith_cons_cons, List.reverse_cons]

end Ends

/-! ## §2. Averages. -/

theorem emaValues_eq_scanl (multiplier ema : ℝ) (prices : List ℝ) :
    emaValues multiplier ema prices = prices.scanl (step multiplier) ema := by
  induction prices generalizing ema with
  | nil => rw [emaValues, List.scanl_nil]
  | cons price prices ih =>
      rw [emaValues, List.scanl_cons, ih]
      rfl

/-- **`calculate_ema`**: the averages of all prefixes with at least a period of prices. -/
theorem calculateEma_real {p : ℕ} (hp : 1 ≤ p) (prices : List ℝ) :
    calculateEma prices p = .ok (series p prices) := by
  have hrate : (ofInt 2 : ℝ) / (((p : Int) + 1 : Int) : ℝ) = rate p := by
    unfold rate
    rw [ofInt_real]
    push_cast
    rfl
  unfold calculateEma
  by_cases hshort : (prices.length : Int) < p
  · have hempty : series p prices = [] := by
      apply List.eq_nil_of_length_eq_zero
      rw [length_series]
      omega
    rw [if_pos hshort, hempty]
    rfl
  · rw [if_neg hshort, divInt_real (by omega), ok_bind, divInt_real (by omega), ok_bind, hrate,
      sliceTo_nat, sliceFrom_nat, sum_real, emaValues_eq_scanl, Int.cast_natCast,
      scanl_eq_series (by omega)]
    rfl

/-- `E_p(i)`: the average of the prices up to index `i`. -/
noncomputable def emaAt (p : ℕ) (prices : List ℝ) (i : ℕ) : ℝ := average p (prices.take (i + 1))

/-- Read from the end. -/
theorem index_series {p k : ℕ} {xs : List ℝ} (hp : 1 ≤ p) (hk : 1 ≤ k)
    (hlong : k ≤ (series p xs).length) :
    index (series p xs) (-k) = .ok (emaAt p xs (xs.length - k)) := by
  rw [length_series] at hlong
  have hposition : (series p xs).length - 1 - (k - 1) = xs.length + 1 - p - k := by
    rw [length_series]
    omega
  have hupto : p + (xs.length + 1 - p - k) = xs.length - k + 1 := by omega
  rw [index_neg_iff hk, List.getElem?_reverse (by rw [length_series]; omega), hposition,
    getElem?_series (by omega), hupto]
  rfl

/-! ## §3. The three series. -/

/-- `macd_line`. -/
noncomputable def macdSeries (fast slow : ℕ) (prices : List ℝ) : List ℝ :=
  alignedDifference (series fast prices) (series slow prices)

theorem length_macdSeries (fast slow : ℕ) (prices : List ℝ) :
    (macdSeries fast slow prices).length
      = min (prices.length + 1 - fast) (prices.length + 1 - slow) := by
  unfold macdSeries
  rw [length_alignedDifference, length_series, length_series]

/-- `n` prices are enough for the three series: for the first test, for the second, and for the
first value of the signal line. -/
def Enough (n fast slow signal : ℕ) : Prop :=
  slow + signal ≤ n ∧ fast + slow ≤ n + 1 ∧ fast + signal ≤ n + 1

section Macd

variable {fast slow signal : ℕ} (hfast : 1 ≤ fast) (hslow : 1 ≤ slow) (prices : List ℝ)

include hfast hslow

/-- The series, where there are enough prices. -/
theorem calculateMacd_enough (hsignal : 1 ≤ signal) (h : Enough prices.length fast slow signal) :
    calculateMacd prices fast slow signal
      = .ok (macdSeries fast slow prices, series signal (macdSeries fast slow prices),
          alignedDifference (macdSeries fast slow prices)
            (series signal (macdSeries fast slow prices))) := by
  obtain ⟨hfirst, hsecond, hthird⟩ := h
  have hline := length_macdSeries fast slow prices
  have hcount := length_series signal (macdSeries fast slow prices)
  have hpassed : ¬ (((series fast prices).length : Int) < slow
      || (series slow prices).length = 0) = true := by
    rw [length_series, length_series, Bool.or_eq_true, decide_eq_true_eq, decide_eq_true_eq]
    omega
  unfold calculateMacd
  rw [if_neg (by omega), calculateEma_real hfast, ok_bind, calculateEma_real hslow, ok_bind,
    if_neg hpassed]
  show macdSignal (macdSeries fast slow prices) signal = _
  unfold macdSignal
  rw [if_neg (by omega), calculateEma_real hsignal, ok_bind, if_neg (by omega)]
  rfl

/-- Otherwise they are empty: the tests come in the order of `Enough`. -/
theorem calculateMacd_few (h : ¬ Enough prices.length fast slow signal) :
    calculateMacd prices fast slow signal = .ok ([], [], []) := by
  have hline := length_macdSeries fast slow prices
  unfold Enough at h
  unfold calculateMacd
  -- `if len(prices) < slow_period + signal_period`
  by_cases hfirst : (prices.length : Int) < slow + signal
  · rw [if_pos hfirst]
    rfl
  rw [if_neg hfirst, calculateEma_real hfast, ok_bind, calculateEma_real hslow, ok_bind]
  -- one of the averages is too short
  by_cases hsecond : (((series fast prices).length : Int) < slow
      || (series slow prices).length = 0) = true
  · rw [if_pos hsecond]
    rfl
  rw [if_neg hsecond]
  -- what is left is the third test: the line is shorter than the signal period
  show macdSignal (macdSeries fast slow prices) signal = _
  rw [length_series, length_series, Bool.or_eq_true, decide_eq_true_eq, decide_eq_true_eq]
    at hsecond
  unfold macdSignal
  rw [if_pos (by omega)]
  rfl

end Macd

/-! ## §4. Position by position. -/

/-- Position `-k` of each series belongs to the bar of price index `n - k`. -/
structure MacdAligned (prices : List ℝ) (fast slow signal : ℕ)
    (macdLine signalLine histogram : List ℝ) : Prop where
  line : ∀ k, 1 ≤ k → k ≤ macdLine.length →
    fast ≤ prices.length - k + 1 ∧ slow ≤ prices.length - k + 1 ∧
      index macdLine (-k)
        = .ok (emaAt fast prices (prices.length - k) - emaAt slow prices (prices.length - k))
  signal : ∀ k, 1 ≤ k → k ≤ signalLine.length →
    signal ≤ macdLine.length - k + 1 ∧
      index signalLine (-k) = .ok (emaAt signal macdLine (macdLine.length - k))
  histogram : ∀ k, 1 ≤ k → k ≤ signalLine.length → ∃ m s,
    index macdLine (-k) = .ok m ∧ index signalLine (-k) = .ok s ∧ index histogram (-k) = .ok (m - s)

theorem macdAligned_nil (prices : List ℝ) (fast slow signal : ℕ) :
    MacdAligned prices fast slow signal [] [] [] := by
  have hnone : ∀ k, 1 ≤ k → ¬ k ≤ ([] : List ℝ).length := by
    intro k hk
    rw [List.length_nil]
    omega
  exact ⟨fun k hk h => absurd h (hnone k hk), fun k hk h => absurd h (hnone k hk),
    fun k hk h => absurd h (hnone k hk)⟩

/-- The line has both averages of its bar. -/
theorem index_macdSeries {fast slow k : ℕ} {prices : List ℝ} (hfast : 1 ≤ fast)
    (hslow : 1 ≤ slow) (hk : 1 ≤ k) (hlong : k ≤ (macdSeries fast slow prices).length) :
    index (macdSeries fast slow prices) (-k)
      = .ok (emaAt fast prices (prices.length - k) - emaAt slow prices (prices.length - k)) := by
  rw [length_macdSeries] at hlong
  apply index_alignedDifference hk
  · apply index_series hfast hk
    rw [length_series]
    omega
  · apply index_series hslow hk
    rw [length_series]
    omega

/-- **MACD series are aligned bar by bar**, for any order of the two periods. -/
theorem calculateMacd_aligned {fast slow signal : ℕ} (hfast : 1 ≤ fast) (hslow : 1 ≤ slow)
    (hsignal : 1 ≤ signal) (prices : List ℝ) :
    ∃ macdLine signalLine histogram,
      calculateMacd prices fast slow signal = .ok (macdLine, signalLine, histogram) ∧
        MacdAligned prices fast slow signal macdLine signalLine histogram := by
  by_cases h : Enough prices.length fast slow signal
  · refine ⟨_, _, _, calculateMacd_enough hfast hslow prices hsignal h, ?_, ?_, ?_⟩
    · intro k hk hlong
      have hindex := index_macdSeries hfast hslow hk hlong
      rw [length_macdSeries] at hlong
      exact ⟨by omega, by omega, hindex⟩
    · intro k hk hlong
      have hindex := index_series hsignal hk hlong
      rw [length_series] at hlong
      exact ⟨by omega, hindex⟩
    · intro k hk hlong
      have hsignalLine := index_series hsignal hk hlong
      rw [length_series] at hlong
      have hline := index_macdSeries hfast hslow hk (show k ≤ (macdSeries fast slow prices).length by omega)
      exact ⟨_, _, hline, hsignalLine, index_alignedDifference hk hline hsignalLine⟩
  · exact ⟨[], [], [], calculateMacd_few hfast hslow prices h,
      macdAligned_nil prices fast slow signal⟩

/-- Five prices, with a fast period above the slow one: three bars, two of them with a signal. -/
theorem calculateMacd_aligned_fast_above : (1 ≤ 3 ∧ 1 ≤ 2 ∧ 1 ≤ 2) ∧
    ∃ macdLine signalLine histogram,
      calculateMacd [(1 : ℝ), 2, 4, 8, 16] (3 : ℕ) (2 : ℕ) (2 : ℕ)
          = .ok (macdLine, signalLine, histogram) ∧
        MacdAligned [1, 2, 4, 8, 16] 3 2 2 macdLine signalLine histogram ∧
        macdLine.length = 3 ∧ signalLine.length = 2 := by
  obtain ⟨macdLine, signalLine, histogram, hseries, haligned⟩ := calculateMacd_aligned
    (show 1 ≤ 3 by decide) (show 1 ≤ 2 by decide) (show 1 ≤ 2 by decide) [(1 : ℝ), 2, 4, 8, 16]
  have henough : Enough [(1 : ℝ), 2, 4, 8, 16].length 3 2 2 := by
    unfold Enough
    decide
  have hlines := hseries.symm.trans (calculateMacd_enough (by decide) (by decide)
    [(1 : ℝ), 2, 4, 8, 16] (by decide) henough)
  have hline := congrArg Prod.fst (Except.ok.inj hlines)
  have hsignal := congrArg (fun lines => lines.2.1) (Except.ok.inj hlines)
  have hthree : (macdSeries 3 2 [(1 : ℝ), 2, 4, 8, 16]).length = 3 := length_macdSeries 3 2 _
  refine ⟨by decide, macdLine, signalLine, histogram, hseries, haligned, ?_, ?_⟩
  · rw [show macdLine = _ from hline]
    exact hthree
  · rw [show signalLine = _ from hsignal, length_series, hthree]

end Pulse
