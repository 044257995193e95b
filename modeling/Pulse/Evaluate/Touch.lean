/-
  Pulse.Evaluate.Touch
  ────────────────────
  **WHEN A TOUCH IS REPORTED TWICE.**

  A touch is the step from a close that is not beyond its band to one that is not
  inside of it.  A close ON its band is both, so the next close can touch again.

    • `BarRun.bandsFire_iff`   — the rule at a bar of a run,
    • `OnBand`                 — a bar on its band, on the way from inside to outside,
    • `touch_transition_iff`   — two touches in a row are such a bar, and nothing else.
-/
import Pulse.Evaluate.Bands
import Pulse.Evaluate.BarRun

namespace Pulse

open Pulse.Store PyFloat Spread

/-! ## §1. The newest of the closes. -/

theorem excess_rtake (upperBand : Bool) (stdDev : ℝ) (xs : List ℝ) {n k : ℕ} (h : n ≤ k)
    (hk : 1 ≤ k) : excess upperBand stdDev n (xs.rtake k) = excess upperBand stdDev n xs := by
  have hlast : (xs.rtake k).getLastD 0 = xs.getLastD 0 := by
    rcases List.eq_nil_or_concat' xs with rfl | ⟨front, x, rfl⟩
    · simp
    · obtain ⟨j, rfl⟩ : ∃ j, k = j + 1 := ⟨k - 1, by omega⟩
      rw [List.rtake_concat_succ, List.getLastD_concat, List.getLastD_concat]
  unfold excess
  rw [rtake_rtake xs h, hlast]

/-! ## §2. A bar of a run. -/

section Run

variable {symbol : String} {older candles : List Candle} {c : Candle} {base : Table Candle.key}
  {n : ℕ} {read : Candle → ℝ} {stdDev : ℝ} {upperBand breakEvent : Bool}

/-- The rule at a bar: the window plays no part, as it holds the closes of two bands. -/
theorem BarRun.bandsFire_iff (h : BarRun symbol (older ++ [c])) (hclear : Clear symbol base)
    (hn : 1 ≤ n) :
    BandsFire read n stdDev upperBand breakEvent c (storeAll base (older ++ [c])).rows ↔
      n ≤ older.length ∧
        Signals upperBand breakEvent stdDev n (older.map read ++ [read c]) := by
  obtain ⟨k, hk⟩ : ∃ k, bandsLookback n = k + 1 := ⟨bandsLookback n - 1, by
    unfold bandsLookback
    omega⟩
  have hnk : n ≤ k := by
    unfold bandsLookback at hk
    omega
  have hsymbol : c.symbol = symbol := h.symbol c (by simp)
  -- the window ends with the bar, and shows `k` closes before it
  have hwindow : bandsWindow read n c (storeAll base (older ++ [c])).rows
      = (older.map read).rtake k ++ [read c] := by
    unfold bandsWindow
    rw [hsymbol, h.pricesBy_newest hclear, hk, List.map_append, List.map_singleton,
      List.rtake_concat_succ]
  have hlength : n ≤ ((older.map read).rtake k).length ↔ n ≤ older.length := by
    rw [length_rtake, List.length_map]
    omega
  rw [Pulse.bandsFire_iff hn hwindow, hlength]
  -- both bands only depend on `n` closes, which the window does not cut off
  unfold Signals
  rw [List.dropLast_concat, List.dropLast_concat, ← List.rtake_concat_succ,
    excess_rtake _ _ _ (by omega) (by omega), excess_rtake _ _ _ hnk (by omega)]

/-! ## §3. Two bars. -/

/-- **Two touches in a row**: the close between them is on its band. -/
theorem BarRun.touches_twice_iff {c' : Candle} (h : BarRun symbol (older ++ [c, c']))
    (hclear : Clear symbol base) (hn : 1 ≤ n) :
    (BandsFire read n stdDev upperBand false c (storeAll base (older ++ [c])).rows ∧
        BandsFire read n stdDev upperBand false c' (storeAll base (older ++ [c, c'])).rows) ↔
      n ≤ older.length ∧ excess upperBand stdDev n (older.map read) ≤ 0 ∧
        excess upperBand stdDev n (older.map read ++ [read c]) = 0 ∧
        0 ≤ excess upperBand stdDev n (older.map read ++ [read c, read c']) := by
  rw [List.append_cons older c [c']] at h ⊢
  have hbefore := h.upTo (List.prefix_append _ _)
  rw [hbefore.bandsFire_iff hclear hn, h.bandsFire_iff hclear hn]
  unfold Signals
  rw [if_neg (by decide), if_neg (by decide)]
  rw [List.dropLast_concat, List.dropLast_concat, List.length_append, List.length_singleton,
    List.map_append, List.map_singleton, List.append_assoc]
  -- the first bar reaches its band, the second asks that it did not pass it
  constructor
  · rintro ⟨⟨hlong, hinside, hreached⟩, -, hnot, hagain⟩
    exact ⟨hlong, hinside, le_antisymm hnot hreached, hagain⟩
  · rintro ⟨hlong, hinside, hon, hagain⟩
    exact ⟨⟨hlong, hinside, hon.ge⟩, by omega, hon.le, hagain⟩

/-- No touch at two bars in a row. -/
def NeverTwice (read : Candle → ℝ) (n : ℕ) (stdDev : ℝ) (upperBand : Bool)
    (base : Table Candle.key) (candles : List Candle) : Prop :=
  ∀ older c c', older ++ [c, c'] <+: candles →
    ¬ (BandsFire read n stdDev upperBand false c (storeAll base (older ++ [c])).rows ∧
      BandsFire read n stdDev upperBand false c' (storeAll base (older ++ [c, c'])).rows)

/-- A close that comes from inside its band or from it lies exactly on its band, and the next
one is not inside of its own. -/
def OnBand (upperBand : Bool) (stdDev : ℝ) (n : ℕ) (closes : List ℝ) : Prop :=
  ∃ older x y, older ++ [x, y] <+: closes ∧ n ≤ older.length ∧
    excess upperBand stdDev n older ≤ 0 ∧ excess upperBand stdDev n (older ++ [x]) = 0 ∧
    0 ≤ excess upperBand stdDev n (older ++ [x, y])

/-- **A touch is a transition**, in every run in which no such close lies on its band, and in no
other. -/
theorem touch_transition_iff (hrun : BarRun symbol candles) (hclear : Clear symbol base)
    (hn : 1 ≤ n) (read : Candle → ℝ) (stdDev : ℝ) (upperBand : Bool) :
    NeverTwice read n stdDev upperBand base candles ↔
      ¬ OnBand upperBand stdDev n (candles.map read) := by
  constructor
  · rintro hnever ⟨olderCloses, x, y, hinit, hlong, hinside, hon, hagain⟩
    -- the bars of these closes
    obtain ⟨rest, hrest⟩ := hinit
    obtain ⟨bars, later, rfl, hbars, -⟩ := List.map_eq_append_iff.mp hrest.symm
    obtain ⟨older, two, rfl, rfl, htwo⟩ := List.map_eq_append_iff.mp hbars
    obtain ⟨c, c', rfl, rfl, rfl⟩ : ∃ c c', two = [c, c'] ∧ read c = x ∧ read c' = y := by
      obtain ⟨c, tail, rfl, hc, htail⟩ := List.map_eq_cons_iff.mp htwo
      obtain ⟨c', nothing, rfl, hc', hnothing⟩ := List.map_eq_cons_iff.mp htail
      rw [List.map_eq_nil_iff.mp hnothing]
      exact ⟨c, c', rfl, hc, hc'⟩
    rw [List.length_map] at hlong
    have hinit : older ++ [c, c'] <+: older ++ [c, c'] ++ later := List.prefix_append _ _
    have htwice := ((hrun.upTo hinit).touches_twice_iff hclear hn).mpr
      ⟨hlong, hinside, hon, hagain⟩
    exact hnever older c c' hinit htwice
  · intro hnot older c c' hinit hboth
    obtain ⟨hlong, hinside, hon, hagain⟩ := ((hrun.upTo hinit).touches_twice_iff hclear hn).mp hboth
    refine hnot ⟨older.map read, read c, read c', ?_, ?_, hinside, hon, hagain⟩
    · have hmap := hinit.map read
      rw [List.map_append] at hmap
      exact hmap
    · rw [List.length_map]
      exact hlong

end Run

/-! ### A run that rises, and one that stands still. -/

theorem touch_transition_rising : BarRun "BTC" (barsFrom "BTC" 0 [1, 2, 3, 4]) ∧
    Clear "BTC" .empty ∧ 1 ≤ 2 ∧
    (NeverTwice (closeOf ℝ) 2 2 true .empty (barsFrom "BTC" 0 [1, 2, 3, 4]) ↔
      ¬ OnBand true 2 2 ((barsFrom "BTC" 0 [1, 2, 3, 4]).map (closeOf ℝ))) :=
  ⟨barRun_barsFrom 0, fun r hr => absurd hr List.not_mem_nil, by decide,
    touch_transition_iff (barRun_barsFrom 0) (fun r hr => absurd hr List.not_mem_nil) (by decide)
      (closeOf ℝ) 2 true⟩

/-- Flat closes are on both bands. -/
theorem excess_flat (upperBand : Bool) (stdDev a : ℝ) {n k : ℕ} (hn : 1 ≤ n) (hk : n ≤ k) :
    excess upperBand stdDev n (List.replicate k a) = 0 := by
  have hlast : (List.replicate k a).getLastD 0 = a := by
    obtain ⟨j, rfl⟩ : ∃ j, k = j + 1 := ⟨k - 1, by omega⟩
    rw [List.replicate_succ', List.getLastD_concat]
  unfold excess
  rw [rtake_replicate a hk, hlast, mean_replicate (by omega), variance_replicate (by omega), Real.sqrt_zero,
    sub_self, mul_zero, mul_zero, sub_zero]

/-- **A run that stands still touches at every bar.** -/
theorem touch_transition_fails : ¬ ∀ n, 2 ≤ n → ∀ stdDev : ℝ, 0 < stdDev →
    ∀ (upperBand : Bool) (symbol : String) (base : Table Candle.key) (candles : List Candle),
      BarRun symbol candles → Clear symbol base →
        NeverTwice (closeOf ℝ) n stdDev upperBand base candles := by
  intro h
  have hclear : Clear "BTC" .empty := fun r hr => absurd hr List.not_mem_nil
  have hrun : BarRun "BTC" (barsFrom "BTC" 0 [1, 1, 1, 1]) := barRun_barsFrom 0
  have hcloses : ∀ t, closeOf ℝ (bar "BTC" t 1) = 1 := fun t => Rat.cast_one
  have hflat : ∀ k, 2 ≤ k → excess true 2 2 (List.replicate k 1) = 0 :=
    fun k hk => excess_flat true 2 1 (by decide) hk
  refine h 2 (le_refl 2) 2 (by norm_num) true "BTC" .empty _ hrun hclear
    [bar "BTC" 0 1, bar "BTC" (0 + seconds 900) 1] (bar "BTC" (0 + seconds 900 + seconds 900) 1)
    (bar "BTC" (0 + seconds 900 + seconds 900 + seconds 900) 1) (List.prefix_refl _) ?_
  refine (BarRun.touches_twice_iff hrun hclear (by decide)).mpr ⟨le_refl 2, ?_, ?_, ?_⟩
  · simpa [hcloses] using (hflat 2 (le_refl 2)).le
  · simpa [hcloses] using hflat 3 (by decide)
  · simpa [hcloses] using (hflat 4 (by decide)).ge

end Pulse
