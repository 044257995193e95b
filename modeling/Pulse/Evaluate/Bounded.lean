/-
  Pulse.Evaluate.Bounded
  ──────────────────────
  **IS THE RSI ALWAYS DEFINED, AND BETWEEN 0 AND 100?**

  The two averages never become negative, so the only division by zero would be by an
  average loss of zero, and that one has a branch of its own.  With a period of at
  least two an average is zero if all its values are: the value is 100 before the
  first fall, and 0 after a fall if nothing has risen.

    • `strength_bounds`, `strength_eq_hundred_iff`, `strength_eq_zero_iff`,
    • `average_lossesOf_eq_zero_iff` — what the averages of a prefix remember,
    • `calculateRsi_bounded`         — all values of all lists of prices.
-/
import Pulse.Evaluate.Strength

namespace Pulse

open PyFloat Smoothing

/-! ## §1. The value of two averages. -/

section Strength

variable {gain loss : ℝ}

theorem strength_bounds (hgain : 0 ≤ gain) (hloss : 0 ≤ loss) :
    0 ≤ strength gain loss ∧ strength gain loss ≤ 100 := by
  by_cases hzero : loss = 0
  · rw [hzero, strength_of_no_loss]
    norm_num
  · -- `100 * gain / (gain + loss)`
    have hpos : 0 < loss := lt_of_le_of_ne hloss (Ne.symm hzero)
    rw [strength_eq hgain hpos]
    constructor
    · positivity
    · rw [div_le_iff₀ (by linarith)]
      linarith

/-- The largest value is that of no loss. -/
theorem strength_eq_hundred_iff (hgain : 0 ≤ gain) (hloss : 0 ≤ loss) :
    strength gain loss = 100 ↔ loss = 0 := by
  by_cases hzero : loss = 0
  · rw [hzero, strength_of_no_loss]
    simp
  · have hpos : 0 < loss := lt_of_le_of_ne hloss (Ne.symm hzero)
    rw [strength_eq hgain hpos, div_eq_iff (by linarith)]
    constructor
    · intro h
      linarith
    · intro h
      exact absurd h hzero

/-- The smallest is that of a loss and no gain. -/
theorem strength_eq_zero_iff (hgain : 0 ≤ gain) (hloss : 0 ≤ loss) :
    strength gain loss = 0 ↔ loss ≠ 0 ∧ gain = 0 := by
  by_cases hzero : loss = 0
  · rw [hzero, strength_of_no_loss]
    norm_num
  · have hpos : 0 < loss := lt_of_le_of_ne hloss (Ne.symm hzero)
    rw [strength_eq hgain hpos, div_eq_zero_iff, or_iff_left (by linarith), mul_eq_zero,
      or_iff_right (by norm_num)]
    exact (and_iff_right hzero).symm

end Strength

/-! ## §2. Falls and rises. -/

/-- The change after price index `j` is negative. -/
def Falls (prices : List ℝ) (j : ℕ) : Prop :=
  ∃ h : j + 1 < prices.length, prices[j + 1] - prices[j] < 0

/-- It is positive. -/
def Rises (prices : List ℝ) (j : ℕ) : Prop :=
  ∃ h : j + 1 < prices.length, 0 < prices[j + 1] - prices[j]

theorem changes_eq_zipWith : ∀ prices : List ℝ,
    changes prices = List.zipWith (fun a b => b - a) prices prices.tail
  | [] => rfl
  | [_] => rfl
  | a :: b :: prices => by
      have ih := changes_eq_zipWith (b :: prices)
      rw [changes, ih]
      rfl

/-- The changes up to price index `i`, one by one. -/
theorem forall_changes_iff (prices : List ℝ) (i : ℕ) (P : ℝ → Prop) :
    (∀ c ∈ (changes prices).take i, P c) ↔
      ∀ j < i, ∀ h : j + 1 < prices.length, P (prices[j + 1] - prices[j]) := by
  constructor
  · intro hall j hj h
    apply hall
    rw [List.mem_take_iff_getElem]
    refine ⟨j, by rw [length_changes]; omega, ?_⟩
    simp only [changes_eq_zipWith, List.getElem_zipWith, List.getElem_tail]
  · intro hall c hc
    rw [List.mem_take_iff_getElem] at hc
    obtain ⟨j, hj, rfl⟩ := hc
    rw [length_changes] at hj
    simp only [changes_eq_zipWith, List.getElem_zipWith, List.getElem_tail]
    exact hall j (by omega) (by omega)

/-- What is averaged of the changes up to price index `i` is zero for each of them. -/
theorem average_map_changes_eq_zero_iff {n : ℕ} (hn : 2 ≤ n) {f : ℝ → ℝ} (hf : ∀ c, 0 ≤ f c)
    (prices : List ℝ) (i : ℕ) :
    average n ((changes (prices.take (i + 1))).map f) = 0 ↔
      ∀ j < i, ∀ h : j + 1 < prices.length, f (prices[j + 1] - prices[j]) = 0 := by
  have hnonneg : ∀ x ∈ (changes (prices.take (i + 1))).map f, 0 ≤ x := by
    rw [List.forall_mem_map]
    intro c _
    exact hf c
  rw [average_eq_zero_iff hn hnonneg, List.forall_mem_map, changes_take, forall_changes_iff]

/-- The average loss up to price index `i` is zero before the first fall. -/
theorem average_lossesOf_eq_zero_iff {n : ℕ} (hn : 2 ≤ n) (prices : List ℝ) (i : ℕ) :
    average n (lossesOf (prices.take (i + 1))) = 0 ↔ ∀ j < i, ¬ Falls prices j := by
  have hzero : ∀ c : ℝ, pyMax (-c) (ofInt 0) = 0 ↔ ¬ c < 0 := by
    intro c
    rw [pyMax_real, max_eq_right_iff, neg_nonpos, not_lt]
  have hnonneg : ∀ c : ℝ, 0 ≤ pyMax (-c) (ofInt 0) := by
    intro c
    rw [pyMax_real]
    exact le_max_right _ _
  unfold lossesOf Falls
  rw [average_map_changes_eq_zero_iff hn hnonneg]
  simp only [hzero, not_exists]

/-- The average gain is zero before the first rise. -/
theorem average_gainsOf_eq_zero_iff {n : ℕ} (hn : 2 ≤ n) (prices : List ℝ) (i : ℕ) :
    average n (gainsOf (prices.take (i + 1))) = 0 ↔ ∀ j < i, ¬ Rises prices j := by
  have hzero : ∀ c : ℝ, pyMax c (ofInt 0) = 0 ↔ ¬ 0 < c := by
    intro c
    rw [pyMax_real, max_eq_right_iff, not_lt]
  have hnonneg : ∀ c : ℝ, 0 ≤ pyMax c (ofInt 0) := by
    intro c
    rw [pyMax_real]
    exact le_max_right _ _
  unfold gainsOf Rises
  rw [average_map_changes_eq_zero_iff hn hnonneg]
  simp only [hzero, not_exists]

/-! ## §3. The values. -/

/-- The strength of a prefix, with a period that forgets nothing. -/
theorem rsi_extremes {n : ℕ} (hn : 2 ≤ n) (prices : List ℝ) (i : ℕ) :
    (rsi n (prices.take (i + 1)) = 100 ↔ ∀ j < i, ¬ Falls prices j) ∧
      (rsi n (prices.take (i + 1)) = 0 ↔
        (∃ j < i, Falls prices j) ∧ ∀ j < i, ¬ Rises prices j) := by
  have hgain := average_nonneg (show 1 ≤ n by omega) (gainsOf_nonneg (prices.take (i + 1)))
  have hloss := average_nonneg (show 1 ≤ n by omega) (lossesOf_nonneg (prices.take (i + 1)))
  unfold rsi
  constructor
  · rw [strength_eq_hundred_iff hgain hloss, average_lossesOf_eq_zero_iff hn]
  · rw [strength_eq_zero_iff hgain hloss, ne_eq, average_lossesOf_eq_zero_iff hn,
      average_gainsOf_eq_zero_iff hn]
    simp only [not_forall, not_not, exists_prop]

/-- What `calculate_rsi` returns for prices of any number. -/
theorem calculateRsi_values {n : ℕ} (hn : 1 ≤ n) (prices : List ℝ) :
    calculateRsi prices n
      = .ok ((List.range' n (prices.length - n)).map fun k => rsi n (prices.take (k + 1))) := by
  by_cases hlong : n < prices.length
  · exact calculateRsi_real hn hlong
  · have hnone : prices.length - n = 0 := by omega
    unfold calculateRsi
    rw [if_pos (by omega), hnone]
    rfl

/-- **RSI is well-defined and bounded**, and extreme exactly if nothing fell, or something fell and
nothing rose. -/
theorem calculateRsi_bounded {n : ℕ} (hn : 1 ≤ n) (prices : List ℝ) :
    ∃ values, calculateRsi prices n = .ok values ∧
      (values.length : Int) = max 0 ((prices.length : Int) - n) ∧
      (∀ v ∈ values, 0 ≤ v ∧ v ≤ 100) ∧
      (2 ≤ n → ∀ i, n ≤ i → ∀ v, values[i - n]? = some v →
        (v = 100 ↔ ∀ j < i, ¬ Falls prices j) ∧
        (v = 0 ↔ (∃ j < i, Falls prices j) ∧ ∀ j < i, ¬ Rises prices j)) := by
  refine ⟨_, calculateRsi_values hn prices, ?_, ?_, ?_⟩
  · rw [List.length_map, List.length_range']
    omega
  · intro v hv
    obtain ⟨k, -, rfl⟩ := List.mem_map.mp hv
    exact strength_bounds (average_nonneg hn (gainsOf_nonneg _))
      (average_nonneg hn (lossesOf_nonneg _))
  · intro hmany i hi v hv
    rw [List.getElem?_map] at hv
    obtain ⟨k, hk, rfl⟩ := Option.map_eq_some_iff.mp hv
    -- the value for price index `i` is that of the prices up to `i`
    obtain ⟨hlt, hk⟩ := List.getElem?_eq_some_iff.mp hk
    have hupto : k = i := by
      rw [List.getElem_range'] at hk
      omega
    rw [hupto]
    exact rsi_extremes hmany prices i

/-- A fall, a flat bar and a rise: the values for the last two bars. -/
theorem calculateRsi_bounded_fall : 1 ≤ 2 ∧ ∃ values,
    calculateRsi [(3 : ℝ), 2, 2, 4] (2 : ℕ) = .ok values ∧ (values.length : Int) = 2 ∧
      (∀ v ∈ values, 0 ≤ v ∧ v ≤ 100) ∧ ∀ v, values[0]? = some v → v = 0 := by
  obtain ⟨values, hvalues, hlength, hbounds, hextremes⟩ :=
    calculateRsi_bounded (show 1 ≤ 2 by decide) [(3 : ℝ), 2, 2, 4]
  refine ⟨by decide, values, hvalues, hlength, hbounds, fun v hv => ?_⟩
  apply ((hextremes (by decide) 2 (by decide) v hv).2).mpr
  constructor
  · exact ⟨0, by decide, by simp, by norm_num⟩
  · intro j hj hrise
    obtain ⟨hlt, hup⟩ := hrise
    have hbars : j = 0 ∨ j = 1 := by omega
    rcases hbars with rfl | rfl <;> norm_num at hup

end Pulse
