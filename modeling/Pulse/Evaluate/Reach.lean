/-
  Pulse.Evaluate.Reach
  ────────────────────
  **HOW FAR A CLOSE CAN BREAK ITS BAND.**

  The close is one of the `n` closes of its own band, so it drags the mean along and
  widens the deviation: it is never `√(n - 1)` deviations away, and it is as close to
  that as the closes before it are flat.

    • `excess_nonpos` — a band of `√(n - 1)` deviations holds its own close,
    • `excess_jump`   — a narrower one does not hold a jump,
    • `break_reach`   — what the rule can report.
-/
import Pulse.Evaluate.Bands

namespace Pulse

open Pulse.Store PyFloat Spread

/-! ## §1. The reach of a band. -/

section Reach

variable {upperBand : Bool} {stdDev : ℝ} {n : ℕ}

theorem excess_nonpos (hn : 1 ≤ n) (hwide : √((n : ℝ) - 1) ≤ stdDev) {older : List ℝ}
    (hlong : n ≤ older.length + 1) (x : ℝ) : excess upperBand stdDev n (older ++ [x]) ≤ 0 := by
  obtain ⟨k, rfl⟩ : ∃ k, n = k + 1 := ⟨n - 1, by omega⟩
  have hroot : √(k : ℝ) ≤ stdDev := by
    push_cast at hwide
    rwa [add_sub_cancel_right] at hwide
  have hnonneg : 0 ≤ stdDev := (Real.sqrt_nonneg _).trans hroot
  have hothers : (older.rtake k).length = k := by
    rw [length_rtake]
    omega
  have hsquare : ((older.rtake k).length : ℝ) ≤ stdDev * stdDev := by
    rw [hothers, ← sq]
    exact (Real.sqrt_le_left hnonneg).mp hroot
  -- the distance of one of `k + 1` values from their mean, in deviations
  have hdist := abs_sub_mean_le (older.rtake k) x hnonneg hsquare
  unfold excess
  rw [List.rtake_concat_succ, List.getLastD_concat, sub_nonpos]
  calc outward upperBand * (x - mean (older.rtake k ++ [x]))
      ≤ |outward upperBand * (x - mean (older.rtake k ++ [x]))| := le_abs_self _
    _ = |x - mean (older.rtake k ++ [x])| := by rw [abs_mul, abs_outward, one_mul]
    _ ≤ stdDev * √(variance (older.rtake k ++ [x])) := hdist

/-- A jump outwards after flat closes. -/
theorem excess_jump (hn : 2 ≤ n) (hnarrow : stdDev < √((n : ℝ) - 1)) (a : ℝ) :
    0 < excess upperBand stdDev n (List.replicate n a ++ [a + outward upperBand]) := by
  obtain ⟨k, rfl⟩ : ∃ k, n = k + 1 := ⟨n - 1, by omega⟩
  have hroot : stdDev < √(k : ℝ) := by
    push_cast at hnarrow
    rwa [add_sub_cancel_right] at hnarrow
  have hjump : outward upperBand ≠ 0 := by
    intro hzero
    exact absurd (outward_sq upperBand) (by rw [hzero]; norm_num)
  have hout := lt_abs_sub_mean_of_lt_sqrt (a := a) hjump (show k ≠ 0 by omega) hroot
  -- the jump leaves the mean in the direction of the band
  have hdist : outward upperBand * (a + outward upperBand
      - mean (List.replicate k a ++ [a + outward upperBand]))
      = |a + outward upperBand - mean (List.replicate k a ++ [a + outward upperBand])| := by
    have hmean : a + outward upperBand - mean (List.replicate k a ++ [a + outward upperBand])
        = outward upperBand * (k / (k + 1)) := by
      rw [mean_one_other]
      field_simp
      ring
    rw [hmean, abs_mul, abs_outward, ← mul_assoc, outward_sq, one_mul, one_mul,
      abs_of_nonneg (by positivity)]
  unfold excess
  rw [List.rtake_concat_succ, List.getLastD_concat,
    rtake_replicate a (Nat.le_succ k), sub_pos, hdist]
  exact hout

/-! ## §2. The rule. -/

/-- A break is reported on some history of positive closes that are read as `read`. -/
def Breaks (read : Candle → ℝ) (n : ℕ) (stdDev : ℝ) (upperBand : Bool) : Prop :=
  ∃ (candle : Candle) (store : Table Candle.key), NewestRow candle store ∧
    n + 1 ≤ (store.rows.filter fun r =>
      r.symbol = candle.symbol ∧ r.intervalSeconds = 900).length ∧
    (∀ r ∈ store.rows, 0 < read r) ∧
    BandsFire read n stdDev upperBand true candle store.rows

/-- None is, if the band is wide. -/
theorem Breaks.narrow {read : Candle → ℝ} (hn : 1 ≤ n) (h : Breaks read n stdDev upperBand) :
    stdDev < √((n : ℝ) - 1) := by
  obtain ⟨candle, store, hnewest, -, -, hfires⟩ := h
  obtain ⟨older, hwindow⟩ := hnewest.bandsWindow_eq read n
  obtain ⟨hlong, hsignals⟩ := (bandsFire_iff hn hwindow).mp hfires
  by_contra hwide
  unfold Signals at hsignals
  rw [if_pos rfl] at hsignals
  have hinside : excess upperBand stdDev n (older ++ [read candle]) ≤ 0 :=
    excess_nonpos hn (not_lt.mp hwide) (by omega) (read candle)
  linarith

/-- The jump, as a decimal. -/
def jump (upperBand : Bool) : Rat := if upperBand then 3 else 1

theorem breaks_jump (hn : 2 ≤ n) (hnarrow : stdDev < √((n : ℝ) - 1)) :
    Breaks (closeOf ℝ) n stdDev upperBand := by
  have hclose : closeOf ℝ (bar "BTC" lastSlot (jump upperBand)) = 2 + outward upperBand := by
    show ((jump upperBand : Rat) : ℝ) = _
    cases upperBand <;> norm_num [jump, outward]
  -- `n + 1` bars are within the lookback, so the window shows them all
  have hwindow : bandsWindow (closeOf ℝ) n (bar "BTC" lastSlot (jump upperBand))
      (bars "BTC" lastSlot (jump upperBand :: List.replicate n 2))
      = List.replicate n 2 ++ [closeOf ℝ (bar "BTC" lastSlot (jump upperBand))] := by
    have hread : bandsWindow (closeOf ℝ) n (bar "BTC" lastSlot (jump upperBand))
        (bars "BTC" lastSlot (jump upperBand :: List.replicate n 2))
        = pricesOf ℝ (newest "BTC" (bandsLookback n)
            (bars "BTC" lastSlot (jump upperBand :: List.replicate n 2))) := rfl
    have hall : (bars "BTC" lastSlot (jump upperBand :: List.replicate n 2)).length
        ≤ bandsLookback n := by
      rw [length_bars, List.length_cons, List.length_replicate]
      unfold bandsLookback
      omega
    rw [hread, newest_bars, List.take_of_length_le hall, pricesOf_bars, List.reverse_cons,
      List.reverse_replicate, List.map_append, List.map_replicate, List.map_singleton,
      ofDec_real, Rat.cast_ofNat]
    rfl
  refine ⟨bar "BTC" lastSlot (jump upperBand),
    barTable "BTC" lastSlot (jump upperBand :: List.replicate n 2),
    newestRow_bars lastSlot _ _, ?_, ?_, ?_⟩
  · rw [List.filter_eq_self.mpr fun r hr => by
      have hbar := mem_bars hr
      simp [hbar.1, hbar.2.1, bar]]
    show n + 1 ≤ (bars "BTC" lastSlot (jump upperBand :: List.replicate n 2)).length
    rw [length_bars, List.length_cons, List.length_replicate]
  · intro r hr
    obtain ⟨-, -, -, q, hq, hqr⟩ := mem_bars_slot hr
    unfold closeOf
    rw [hqr, ofDec_real, Rat.cast_pos]
    rcases List.mem_cons.mp hq with rfl | hq
    · cases upperBand <;> norm_num [jump]
    · rw [List.eq_of_mem_replicate hq]
      norm_num
  · refine (bandsFire_iff (by omega) hwindow).mpr ⟨by simp, ?_⟩
    unfold Signals
    rw [if_pos rfl, hclose]
    exact excess_jump hn hnarrow 2

/-- **The reach of the break event**: up to `√(n - 1)` deviations and no further, for real closes
as for decimal ones. -/
theorem break_reach (hn : 2 ≤ n) (stdDev : ℝ) (upperBand : Bool) :
    ((∃ read, Breaks read n stdDev upperBand) ↔ stdDev < √((n : ℝ) - 1)) ∧
      (Breaks (closeOf ℝ) n stdDev upperBand ↔ stdDev < √((n : ℝ) - 1)) := by
  have hpos : 1 ≤ n := by omega
  refine ⟨⟨?_, fun hnarrow => ⟨closeOf ℝ, breaks_jump hn hnarrow⟩⟩, ?_, breaks_jump hn⟩
  · rintro ⟨read, h⟩
    exact h.narrow hpos
  · exact fun h => h.narrow hpos

end Reach

/-! ### Two deviations over twenty closes. -/

theorem break_reach_usual : 2 ≤ 20 ∧
    ((∃ read, Breaks read 20 2 true) ↔ (2 : ℝ) < √(((20 : ℕ) : ℝ) - 1)) ∧
    (Breaks (closeOf ℝ) 20 2 true ↔ (2 : ℝ) < √(((20 : ℕ) : ℝ) - 1)) :=
  ⟨by decide, break_reach (by decide) 2 true⟩

end Pulse
