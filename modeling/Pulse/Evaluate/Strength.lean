/-
  Pulse.Evaluate.Strength
  ───────────────────────
  **RSI IN EXACT NUMBERS.**

  Over the reals `calculate_rsi` is a value for every prefix of the prices that has
  more than `n` of them: the strength of the smoothed gains against the smoothed
  losses of that prefix.

    • `strength`, `rsi`     — the value of two averages, and of prices,
    • `calculateRsi_real`   — all values,
    • `RSIRule.onPrices_real` — the rule compares the value of the prices with that of
                                all but the last.
-/
import Pulse.Core.Exact
import Pulse.Core.Smoothing
import Pulse.Evaluate.Readings
import Pulse.Evaluate.Signals

namespace Pulse

open PyFloat Smoothing

/-! ## §1. The value of two averages. -/

/-- `_rsi_from_avgs` on averages that are not negative. -/
noncomputable def strength (gain loss : ℝ) : ℝ :=
  if loss = 0 then 100 else 100 - 100 / (1 + gain / loss)

/-- The strength of the prices: `rsi_values[-1]`. -/
noncomputable def rsi (n : ℕ) (prices : List ℝ) : ℝ :=
  strength (average n (gainsOf prices)) (average n (lossesOf prices))

theorem strength_of_no_loss (gain : ℝ) : strength gain 0 = 100 := if_pos rfl

theorem strength_of_no_gain {loss : ℝ} (h : loss ≠ 0) : strength 0 loss = 0 := by
  unfold strength
  rw [if_neg h, zero_div, add_zero, div_one, sub_self]

/-- Both averages count. -/
theorem strength_eq {gain loss : ℝ} (hgain : 0 ≤ gain) (hloss : 0 < loss) :
    strength gain loss = 100 * gain / (gain + loss) := by
  have hsum : gain + loss ≠ 0 := by linarith
  unfold strength
  rw [if_neg hloss.ne']
  field_simp
  ring

/-! ## §2. Gains and losses. -/

theorem gainsOf_nonneg (prices : List ℝ) : ∀ x ∈ gainsOf prices, 0 ≤ x :=
  fun x hx => nonneg_real.mp (nonneg_gainsOf prices x hx)

theorem lossesOf_nonneg (prices : List ℝ) : ∀ x ∈ lossesOf prices, 0 ≤ x :=
  fun x hx => nonneg_real.mp (nonneg_lossesOf prices x hx)

theorem changes_append : ∀ (prices : List ℝ) (a b : ℝ),
    changes (prices ++ [a, b]) = changes (prices ++ [a]) ++ [b - a]
  | [], _, _ => rfl
  | [_], _, _ => rfl
  | p :: q :: prices, a, b => by
      have ih := changes_append (q :: prices) a b
      rw [List.cons_append, List.cons_append] at ih
      rw [List.cons_append, List.cons_append, changes, ih]
      rfl

theorem changes_take (prices : List ℝ) (i : ℕ) :
    changes (prices.take (i + 1)) = (changes prices).take i := by
  induction prices generalizing i with
  | nil => simp [changes]
  | cons p prices ih =>
      cases prices with
      | nil => simp [changes]
      | cons q prices =>
          cases i with
          | zero => simp [changes]
          | succ i =>
              have hrest := ih i
              rw [List.take_succ_cons] at hrest
              rw [List.take_succ_cons, List.take_succ_cons, changes, hrest, changes,
                List.take_succ_cons]

theorem gainsOf_take (prices : List ℝ) (i : ℕ) :
    gainsOf (prices.take (i + 1)) = (gainsOf prices).take i := by
  unfold gainsOf
  rw [changes_take, List.map_take]

theorem lossesOf_take (prices : List ℝ) (i : ℕ) :
    lossesOf (prices.take (i + 1)) = (lossesOf prices).take i := by
  unfold lossesOf
  rw [changes_take, List.map_take]

theorem length_gainsOf (prices : List ℝ) : (gainsOf prices).length = prices.length - 1 := by
  simp [gainsOf]

theorem length_lossesOf (prices : List ℝ) : (lossesOf prices).length = prices.length - 1 := by
  simp [lossesOf]

/-! ## §3. The loop. -/

section Loop

variable {n : ℕ}

/-- A step of the loop takes the next value into the average. -/
theorem wilder_real (hn : 1 ≤ n) {xs : List ℝ} {i : ℕ} (hni : n ≤ i) (hi : i < xs.length) :
    wilder (average n (xs.take i)) n (index xs i) = .ok (average n (xs.take (i + 1))) := by
  have hindex : index xs i = .ok xs[i] := by
    unfold index
    rw [if_pos (by omega), Int.toNat_natCast, List.getElem?_eq_getElem hi]
  have htake : xs.take (i + 1) = xs.take i ++ [xs[i]] := by
    rw [List.take_add_one, List.getElem?_eq_getElem hi]
    rfl
  have hlength : n ≤ (xs.take i).length := by
    rw [List.length_take]
    omega
  -- `(avg * (period - 1) + x) / period`
  unfold wilder
  rw [hindex, mulInt_real, ok_bind, ok_bind, divInt_real (by omega), htake, average_append hlength]
  unfold step
  push_cast
  rfl

theorem rsiFromAvgs_strength {gain loss : ℝ} (hgain : 0 ≤ gain) (hloss : 0 ≤ loss) :
    rsiFromAvgs gain loss = .ok (strength gain loss) := rsiFromAvgs_real hgain hloss

theorem pyRange_cons {a b : ℕ} (h : a < b) :
    pyRange a b = (a : Int) :: pyRange ((a + 1 : ℕ) : Int) b := by
  have hcount : ((b : Int) - a).toNat = ((b : Int) - ((a + 1 : ℕ) : Int)).toNat + 1 := by omega
  have hnext : ∀ k : ℕ, (a : Int) + ((k + 1 : ℕ) : Int) = ((a + 1 : ℕ) : Int) + k := by
    intro k
    omega
  unfold pyRange
  rw [hcount, List.range_succ_eq_map, List.map_cons, List.map_map, Nat.cast_zero, add_zero]
  congr 1
  exact List.map_congr_left fun k _ => hnext k

/-- The values from index `i` on, by induction on how many there are. -/
theorem rsiValues_real (hn : 1 ≤ n) {gains losses : List ℝ} (hgains : ∀ x ∈ gains, 0 ≤ x)
    (hlosses : ∀ x ∈ losses, 0 ≤ x) (hlength : losses.length = gains.length) (m : ℕ) :
    ∀ i, n ≤ i → i + m = gains.length →
      rsiValues gains losses n (pyRange i gains.length) (average n (gains.take i))
          (average n (losses.take i))
        = .ok ((List.range' i m).map fun k =>
            strength (average n (gains.take (k + 1))) (average n (losses.take (k + 1)))) := by
  induction m with
  | zero =>
      intro i _ hi
      have hempty : pyRange (i : Int) (gains.length : Int) = [] := by
        rw [← List.length_eq_zero_iff, length_pyRange]
        omega
      rw [hempty]
      rfl
  | succ m ih =>
      intro i hni hi
      have hrest := ih (i + 1) (by omega) (by omega)
      have hgain := average_nonneg hn fun x hx => hgains x (List.mem_of_mem_take (i := i + 1) hx)
      have hloss := average_nonneg hn fun x hx => hlosses x (List.mem_of_mem_take (i := i + 1) hx)
      rw [pyRange_cons (by omega), rsiValues, wilder_real hn hni (by omega), ok_bind,
        wilder_real hn hni (by omega), ok_bind, rsiFromAvgs_strength hgain hloss, ok_bind, hrest,
        List.range'_succ]
      rfl

/-- The first average is the mean of the period. -/
theorem first_average (hn : 1 ≤ n) (xs : List ℝ) :
    divInt (PyFloat.sum (sliceTo xs n)) (n : Int) = .ok (average n (xs.take n)) := by
  rw [divInt_real (by omega), sliceTo_nat, average_short (List.length_take_le _ _)]
  rfl

/-- **All values of `calculate_rsi`**: one for each prefix that is long enough. -/
theorem calculateRsi_real (hn : 1 ≤ n) {prices : List ℝ} (hlong : n < prices.length) :
    calculateRsi prices n
      = .ok ((List.range' n (prices.length - n)).map fun k => rsi n (prices.take (k + 1))) := by
  have hgain := average_nonneg hn fun x hx =>
    gainsOf_nonneg prices x (List.mem_of_mem_take (i := n) hx)
  have hloss := average_nonneg hn fun x hx =>
    lossesOf_nonneg prices x (List.mem_of_mem_take (i := n) hx)
  have hgains := length_gainsOf prices
  have hlosses := length_lossesOf prices
  have hvalues := rsiValues_real hn (gainsOf_nonneg prices) (lossesOf_nonneg prices)
    (by omega) (prices.length - 1 - n) n (le_refl n) (by omega)
  have hcount : prices.length - n = prices.length - 1 - n + 1 := by omega
  have hrsi : ∀ k, rsi n (prices.take (k + 1))
      = strength (average n ((gainsOf prices).take k)) (average n ((lossesOf prices).take k)) := by
    intro k
    unfold rsi
    rw [gainsOf_take, lossesOf_take]
  -- the first value comes before the loop, and the loop takes up its averages
  unfold calculateRsi
  rw [if_neg (by omega), first_average hn, ok_bind, first_average hn, ok_bind,
    rsiFromAvgs_strength hgain hloss, ok_bind, hvalues, hcount, List.range'_succ, ok_bind]
  simp only [hrsi, List.map_cons, List.range'_succ_left, List.map_map]
  rfl

/-- The last two of them. -/
theorem calculateRsi_last (hn : 1 ≤ n) {prices : List ℝ} (hlong : n + 2 ≤ prices.length) :
    ∃ values, calculateRsi prices n = .ok values ∧ 2 ≤ values.length ∧
      index values (-1) = .ok (rsi n prices) ∧ index values (-2) = .ok (rsi n prices.dropLast) := by
  -- the last value is that of all prices, the one before leaves out the newest
  obtain ⟨m, hm⟩ : ∃ m, prices.length - n = m + 2 := ⟨prices.length - n - 2, by omega⟩
  have hrange : List.range' n (prices.length - n)
      = List.range' n m ++ [prices.length - 2, prices.length - 1] := by
    rw [hm, List.range'_1_concat, List.range'_1_concat, List.append_assoc]
    have hlast : n + (m + 1) = prices.length - 1 := by omega
    have hprevious : n + m = prices.length - 2 := by omega
    rw [hlast, hprevious]
    rfl
  have hall : prices.take (prices.length - 1 + 1) = prices := by
    rw [List.take_of_length_le (by omega)]
  have hbefore : prices.take (prices.length - 2 + 1) = prices.dropLast := by
    rw [List.dropLast_eq_take, show prices.length - 2 + 1 = prices.length - 1 by omega]
  have hvalues := calculateRsi_real hn (show n < prices.length by omega)
  rw [hrange, List.map_append, List.map_cons, List.map_singleton, hall, hbefore] at hvalues
  obtain ⟨hcurrent, hprevious⟩ := index_append_two
    ((List.range' n m).map fun k => rsi n (prices.take (k + 1))) (rsi n prices.dropLast)
    (rsi n prices)
  exact ⟨_, hvalues, by simp, hcurrent, hprevious⟩

end Loop

/-- A close more is a step more. -/
theorem averages_step {n : ℕ} (front : List ℝ) (p a b : ℝ) (hcount : n ≤ front.length + 1) :
    average n (gainsOf (front ++ [p, a, b]))
        = step n (average n (gainsOf (front ++ [p, a]))) (max (b - a) 0) ∧
      average n (lossesOf (front ++ [p, a, b]))
        = step n (average n (lossesOf (front ++ [p, a]))) (max (-(b - a)) 0) := by
  have hsplit : front ++ [p, a, b] = (front ++ [p]) ++ [a, b] := by simp
  have hshort : front ++ [p, a] = (front ++ [p]) ++ [a] := by simp
  have hgains : gainsOf (front ++ [p, a, b]) = gainsOf (front ++ [p, a]) ++ [max (b - a) 0] := by
    rw [hsplit, hshort, gainsOf, changes_append, List.map_append, List.map_singleton, pyMax_real]
    rfl
  have hlosses : lossesOf (front ++ [p, a, b])
      = lossesOf (front ++ [p, a]) ++ [max (-(b - a)) 0] := by
    rw [hsplit, hshort, lossesOf, changes_append, List.map_append, List.map_singleton, pyMax_real]
    rfl
  rw [hgains, hlosses, average_append (by rw [length_gainsOf]; simpa using hcount),
    average_append (by rw [length_lossesOf]; simpa using hcount)]
  exact ⟨rfl, rfl⟩

/-! ## §4. The rule. -/

/-- The value crosses the threshold between one bar and the next. -/
def Crosses (overbought : Bool) (threshold previous current : ℝ) : Prop :=
  if overbought = true then previous < threshold ∧ threshold ≤ current
  else threshold < previous ∧ current ≤ threshold

/-- **The rule in exact numbers**: it fires with the value of the prices, if that crossed the
threshold since the value of all but the last price. -/
theorem RSIRule.onPrices_iff {n : ℕ} (hn : 1 ≤ n) (overbought : Bool) (threshold : ℝ)
    (prices : List ℝ) (v : ℝ) :
    RSIRule.onPrices n overbought threshold prices = .ok (some v) ↔
      n + 2 ≤ prices.length ∧
        Crosses overbought threshold (rsi n prices.dropLast) (rsi n prices) ∧ v = rsi n prices := by
  unfold RSIRule.onPrices
  by_cases hshort : (prices.length : Int) ≤ n
  · rw [if_pos hshort]
    exact answers_none (by omega)
  rw [if_neg hshort]
  by_cases hlong : n + 2 ≤ prices.length
  · obtain ⟨values, hvalues, htwo, hcurrent, hprevious⟩ := calculateRsi_last hn hlong
    rw [hvalues, ok_bind, if_neg (by omega), hcurrent, ok_bind, hprevious, ok_bind, Crosses,
      and_iff_right hlong]
    cases overbought with
    | true =>
        simp only [if_true]
        exact answers_if_iff _ _ _
    | false =>
        simp only [Bool.false_eq_true, if_false]
        exact answers_if_iff _ _ _
  · -- one value, and nothing to compare it with
    have hone : prices.length = n + 1 := by omega
    have hvalues := calculateRsi_real hn (show n < prices.length by omega)
    rw [hvalues, ok_bind, if_pos (by rw [List.length_map, List.length_range']; omega)]
    exact answers_none (by omega)

/-- `lookback`. -/
def rsiLookback (n : ℕ) : ℕ := max (n * 5) 100

/-- The prices that `RSIRule.evaluate` reads. -/
def rsiWindow (read : Candle → ℝ) (n : ℕ) (candle : Candle) (store : List Candle) : List ℝ :=
  pricesBy read (newest candle.symbol (rsiLookback n) store)

/-- `RSIRule.evaluate` returns a value for `candle`. -/
def RsiFires (read : Candle → ℝ) (n : ℕ) (overbought : Bool) (threshold : ℝ) (candle : Candle)
    (store : List Candle) : Prop :=
  ∃ v, RSIRule.answer read n overbought threshold candle store = .ok (some v)

/-- It does if the value of the window crossed the threshold with the newest close. -/
theorem rsiFires_iff_window {n : ℕ} (hn : 1 ≤ n) {read : Candle → ℝ} {overbought : Bool}
    {threshold : ℝ} {candle : Candle} {store : List Candle} :
    RsiFires read n overbought threshold candle store ↔
      n + 2 ≤ (rsiWindow read n candle store).length ∧
        Crosses overbought threshold (rsi n (rsiWindow read n candle store).dropLast)
          (rsi n (rsiWindow read n candle store)) := by
  have hlookback : (max ((n : Int) * 5) 100).toNat = rsiLookback n := by
    unfold rsiLookback
    omega
  unfold RsiFires RSIRule.answer rsiWindow
  rw [hlookback]
  simp only [RSIRule.onPrices_iff hn]
  constructor
  · rintro ⟨v, hlong, hcrosses, -⟩
    exact ⟨hlong, hcrosses⟩
  · rintro ⟨hlong, hcrosses⟩
    exact ⟨_, hlong, hcrosses, rfl⟩

end Pulse
