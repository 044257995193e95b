/-
  Pulse.Evaluate.WarmUp
  ─────────────────────
  **HOW FAR THE RSI OF A WINDOW IS FROM THE RSI OF THE WHOLE HISTORY.**

  The rule starts its averages anew in a window of `max(period * 5, 100)` closes.  Each close
  takes a share of `1 / period` of what the start has left in them, so the value of the window
  is that of the history but for a residual, and a crossing is misreported only by values of
  the history that are as close to the threshold.

    • `rsiHistory`          — the closes that are stored, and `window_of_history` their end,
    • `abs_strength_sub_le` — what a difference of the averages does to the value,
    • `abs_rsi_sub_le`      — two lists of prices with the same end,
    • `rsi_window_residual` — the rule.
-/
import Pulse.Evaluate.Bounded
import Pulse.Evaluate.Crossings
import Mathlib.Tactic.LinearCombination

namespace Pulse

open PyFloat Smoothing Pulse.Store

/-! ## §1. Prices with the same end. -/

theorem changes_split : ∀ (older : List ℝ) (p : ℝ) (recent : List ℝ),
    changes (older ++ p :: recent) = changes (older ++ [p]) ++ changes (p :: recent)
  | [], _, _ => rfl
  | [_], _, _ => rfl
  | a :: b :: older, p, recent => by
      have ih := changes_split (b :: older) p recent
      show (b - a) :: changes (b :: older ++ p :: recent) = _
      rw [ih]
      rfl

/-- No price is further than `M` from the one before. -/
def MovesWithin (M : ℝ) (prices : List ℝ) : Prop := ∀ c ∈ changes prices, |c| ≤ M

/-- What is averaged of the changes: gains, or losses. -/
noncomputable def partsOf (f : ℝ → ℝ) (prices : List ℝ) : List ℝ :=
  (changes prices).map fun c => max (f c) 0

theorem gainsOf_eq_partsOf (prices : List ℝ) : gainsOf prices = partsOf id prices := by
  unfold gainsOf partsOf
  simp only [pyMax_real, id]

theorem lossesOf_eq_partsOf (prices : List ℝ) : lossesOf prices = partsOf (fun c => -c) prices := by
  unfold lossesOf partsOf
  simp only [pyMax_real]

variable {M : ℝ} {n : ℕ} {older window prices : List ℝ} {f : ℝ → ℝ}

theorem partsOf_within (hM : 0 ≤ M) (hf : ∀ c, |f c| = |c|) (h : MovesWithin M prices) :
    ∀ x ∈ partsOf f prices, 0 ≤ x ∧ x ≤ M := by
  intro x hx
  obtain ⟨c, hc, rfl⟩ := List.mem_map.mp hx
  have hmove : f c ≤ M := by
    calc f c ≤ |f c| := le_abs_self _
      _ = |c| := hf c
      _ ≤ M := h c hc
  exact ⟨le_max_right _ _, max_le hmove hM⟩

/-- **The averages of a window** and of what it is the end of. -/
theorem abs_average_partsOf_le (hn : 1 ≤ n) (hM : 0 ≤ M) (hf : ∀ c, |f c| = |c|)
    (hlong : n + 1 ≤ window.length) (h : MovesWithin M (older ++ window)) :
    |average n (partsOf f (older ++ window)) - average n (partsOf f window)|
      ≤ M * (1 - 1 / (n : ℝ)) ^ (window.length - 1 - n) := by
  cases window with
  | nil => exact absurd hlong (by simp)
  | cons p recent =>
      have hsplit : partsOf f (older ++ p :: recent)
          = partsOf f (older ++ [p]) ++ partsOf f (p :: recent) := by
        unfold partsOf
        rw [changes_split, List.map_append]
      have hcount : (partsOf f (p :: recent)).length = recent.length := by
        unfold partsOf
        rw [List.length_map, length_changes]
        rfl
      have hn' : n ≤ recent.length := by simpa using hlong
      have hwithin := partsOf_within hM hf h
      rw [hsplit] at hwithin ⊢
      -- the first `n` changes of the window are its start, the others fade it
      have hends : partsOf f (p :: recent)
          = (partsOf f (p :: recent)).take n ++ (partsOf f (p :: recent)).drop n :=
        (List.take_append_drop n _).symm
      have hfade : ((partsOf f (p :: recent)).drop n).length = (p :: recent).length - 1 - n := by
        rw [List.length_drop, hcount]
        rfl
      have htake : ((partsOf f (p :: recent)).take n).length = n := by
        rw [List.length_take, hcount, min_eq_left hn']
      have hstart : ∀ x ∈ (partsOf f (p :: recent)).take n, 0 ≤ x ∧ x ≤ M := fun x hx =>
        hwithin x (List.mem_append_right _ (List.mem_of_mem_take hx))
      have hboth : ∀ x ∈ partsOf f (older ++ [p]) ++ (partsOf f (p :: recent)).take n,
          0 ≤ x ∧ x ≤ M := by
        intro x hx
        rcases List.mem_append.mp hx with hx | hx
        · exact hwithin x (List.mem_append_left _ hx)
        · exact hstart x hx
      have hbound := abs_average_sub_le hn (by rw [List.length_append]; omega) htake.ge hM hboth
        hstart ((partsOf f (p :: recent)).drop n)
      rw [hfade, List.append_assoc, ← hends] at hbound
      exact hbound

/-! ## §2. The value of two averages. -/

/-- A value times both averages. -/
theorem strength_mul {gain loss : ℝ} (hgain : 0 ≤ gain) (hloss : 0 ≤ loss) :
    strength gain loss * (gain + loss) = 100 * gain := by
  by_cases hzero : loss = 0
  · rw [hzero, strength_of_no_loss, add_zero]
  · have hpos : 0 < loss := lt_of_le_of_ne hloss (Ne.symm hzero)
    have hsum : gain + loss ≠ 0 := by linarith
    rw [strength_eq hgain hpos, div_mul_cancel₀ _ hsum]

/-- **Averages that are `d` apart**: what counts is `d` against the averages. -/
theorem abs_strength_sub_le {gain loss gain' loss' d : ℝ} (hgain : 0 ≤ gain) (hloss : 0 ≤ loss)
    (hgain' : 0 ≤ gain') (hloss' : 0 ≤ loss') (hg : |gain - gain'| ≤ d)
    (hl : |loss - loss'| ≤ d) :
    |strength gain loss - strength gain' loss'| * (gain + loss) ≤ 100 * d := by
  have hvalue := strength_mul hgain hloss
  have hvalue' := strength_mul hgain' hloss'
  obtain ⟨hlow, hhigh⟩ := strength_bounds hgain' hloss'
  generalize strength gain loss = s at hvalue ⊢
  generalize strength gain' loss' = s' at hvalue' hlow hhigh ⊢
  -- a mean of the two differences
  have hmean : (s - s') * (gain + loss)
      = (100 - s') * (gain - gain') + s' * (loss' - loss) := by linear_combination hvalue - hvalue'
  have hup : 0 ≤ 100 - s' := by linarith
  rw [← abs_of_nonneg (add_nonneg hgain hloss), ← abs_mul, hmean]
  calc |(100 - s') * (gain - gain') + s' * (loss' - loss)|
      ≤ |(100 - s') * (gain - gain')| + |s' * (loss' - loss)| := abs_add_le _ _
    _ = (100 - s') * |gain - gain'| + s' * |loss - loss'| := by
        rw [abs_mul, abs_mul, abs_of_nonneg hup, abs_of_nonneg hlow, abs_sub_comm loss' loss]
    _ ≤ (100 - s') * d + s' * d :=
        add_le_add (mul_le_mul_of_nonneg_left hg hup) (mul_le_mul_of_nonneg_left hl hlow)
    _ = 100 * d := by ring

/-- How much prices move: the smoothed change, up or down. -/
noncomputable def movement (n : ℕ) (prices : List ℝ) : ℝ :=
  average n (gainsOf prices) + average n (lossesOf prices)

theorem movement_nonneg (hn : 1 ≤ n) (prices : List ℝ) : 0 ≤ movement n prices :=
  add_nonneg (average_nonneg hn (gainsOf_nonneg prices)) (average_nonneg hn (lossesOf_nonneg prices))

/-- **The value of a window** and of what it is the end of. -/
theorem abs_rsi_sub_le (hn : 1 ≤ n) (hM : 0 ≤ M) (hlong : n + 1 ≤ window.length)
    (h : MovesWithin M (older ++ window)) :
    |rsi n (older ++ window) - rsi n window| * movement n (older ++ window)
      ≤ 100 * (M * (1 - 1 / (n : ℝ)) ^ (window.length - 1 - n)) := by
  have hg := abs_average_partsOf_le (f := id) hn hM (fun _ => rfl) hlong h
  have hl := abs_average_partsOf_le (f := fun c => -c) hn hM (fun c => abs_neg c) hlong h
  rw [← gainsOf_eq_partsOf, ← gainsOf_eq_partsOf] at hg
  rw [← lossesOf_eq_partsOf, ← lossesOf_eq_partsOf] at hl
  exact abs_strength_sub_le (average_nonneg hn (gainsOf_nonneg _))
    (average_nonneg hn (lossesOf_nonneg _)) (average_nonneg hn (gainsOf_nonneg _))
    (average_nonneg hn (lossesOf_nonneg _)) hg hl

/-! ## §3. The rule. -/

theorem MovesWithin.dropLast (h : MovesWithin M prices) : MovesWithin M prices.dropLast := by
  intro c hc
  apply h c
  by_cases hshort : prices.length ≤ 1
  · have hnil : prices.dropLast = [] := by
      rw [← List.length_eq_zero_iff, List.length_dropLast]
      omega
    rw [hnil] at hc
    exact absurd hc (by simp [changes])
  · have htake : prices.dropLast = prices.take (prices.length - 2 + 1) := by
      rw [List.dropLast_eq_take]
      congr 1
      omega
    rw [htake, changes_take] at hc
    exact List.mem_of_mem_take hc

/-- A value stays on its side of the threshold. -/
theorem same_side {x x' threshold : ℝ} (h : |x - x'| < |x - threshold|) :
    (x' < threshold ↔ x < threshold) ∧ (threshold < x' ↔ threshold < x) := by
  obtain ⟨hlow, hhigh⟩ := abs_lt.mp h
  rcases lt_trichotomy x threshold with hlt | heq | hgt
  · rw [abs_of_neg (by linarith)] at hlow hhigh
    constructor <;> constructor <;> intro <;> linarith
  · rw [heq, sub_self, abs_zero] at h
    exact absurd h (not_lt.mpr (abs_nonneg _))
  · rw [abs_of_pos (by linarith)] at hlow hhigh
    constructor <;> constructor <;> intro <;> linarith

theorem crosses_congr {overbought : Bool} {threshold previous previous' current current' : ℝ}
    (hprevious : |previous - previous'| < |previous - threshold|)
    (hcurrent : |current - current'| < |current - threshold|) :
    Crosses overbought threshold previous' current'
      ↔ Crosses overbought threshold previous current := by
  obtain ⟨hbelow, habove⟩ := same_side hprevious
  obtain ⟨hbelow', habove'⟩ := same_side hcurrent
  cases overbought with
  | true => exact and_congr hbelow (not_lt.symm.trans (hbelow'.not.trans not_lt))
  | false => exact and_congr habove (not_lt.symm.trans (habove'.not.trans not_lt))

section Rule

variable (read : Candle → ℝ) (candle : Candle) (store : List Candle)

/-- The closes of all 15-minute candles of the symbol, in chronological order. -/
def rsiHistory : List ℝ := pricesBy read (newest candle.symbol store.length store)

/-- The window is the end of the history. -/
theorem window_of_history (n : ℕ) :
    rsiWindow read n candle store = (rsiHistory read candle store).rtake (rsiLookback n) := by
  unfold rsiWindow rsiHistory pricesBy newest
  rw [List.rtake_eq_reverse_take_reverse, ← List.map_reverse, List.reverse_reverse, ← List.map_take,
    ← List.map_reverse, List.take_of_length_le (i := store.length)]
  rw [List.length_insertionSort]
  exact List.length_filter_le _ _

/-- What the start of the window has left in its averages: `M` is the furthest that a price is
from the one before. -/
noncomputable def residual (n : ℕ) (M : ℝ) : ℝ :=
  M * (1 - 1 / (n : ℝ)) ^ (rsiLookback n - 2 - n)

/-- With the default period it is at most a fifth of a point for each move. -/
theorem residual_usual {M : ℝ} (hM : 0 ≤ M) : 100 * residual 14 M ≤ M / 5 := by
  have hfade : (1 - 1 / ((14 : ℕ) : ℝ)) ^ (rsiLookback 14 - 2 - 14) ≤ 1 / 500 := by
    show (1 - 1 / ((14 : ℕ) : ℝ)) ^ 84 ≤ 1 / 500
    norm_num
  calc 100 * residual 14 M ≤ 100 * (M * (1 / 500)) :=
        mul_le_mul_of_nonneg_left (mul_le_mul_of_nonneg_left hfade hM) (by norm_num)
    _ = M / 5 := by ring

variable {read candle store}

/-- The last two values of the window and of the history. -/
theorem window_residual (hn : 1 ≤ n) (hM : 0 ≤ M)
    (h : MovesWithin M (rsiHistory read candle store)) :
    |rsi n (rsiHistory read candle store) - rsi n (rsiWindow read n candle store)|
        * movement n (rsiHistory read candle store) ≤ 100 * residual n M ∧
      |rsi n (rsiHistory read candle store).dropLast
          - rsi n (rsiWindow read n candle store).dropLast|
        * movement n (rsiHistory read candle store).dropLast ≤ 100 * residual n M := by
  have hlookback : 5 * n ≤ rsiLookback n ∧ 100 ≤ rsiLookback n := by
    unfold rsiLookback
    omega
  have hfactor := factor_nonneg (K := ℝ) hn
  have hnonneg : 0 ≤ 100 * residual n M :=
    mul_nonneg (by norm_num) (mul_nonneg hM (pow_nonneg hfactor _))
  have hsplit : (rsiHistory read candle store).take
        ((rsiHistory read candle store).length - rsiLookback n)
      ++ rsiWindow read n candle store = rsiHistory read candle store := by
    rw [window_of_history]
    exact List.take_append_drop _ _
  have hlength := congrArg List.length (window_of_history read candle store n)
  rw [length_rtake] at hlength
  by_cases hshort : (rsiHistory read candle store).length ≤ rsiLookback n
  · -- the window is the history
    rw [window_of_history, rtake_of_length_le hshort, sub_self, sub_self, abs_zero, zero_mul,
      zero_mul]
    exact ⟨hnonneg, hnonneg⟩
  · rw [min_eq_left (by omega)] at hlength
    generalize (rsiHistory read candle store).take
      ((rsiHistory read candle store).length - rsiLookback n) = older at hsplit
    generalize rsiWindow read n candle store = window at hsplit hlength ⊢
    rw [← hsplit] at h ⊢
    have hne : window ≠ [] := by
      rw [← List.length_pos_iff]
      omega
    have hdrop : window.dropLast.length = rsiLookback n - 1 := by rw [List.length_dropLast, hlength]
    have hbefore := h.dropLast
    rw [List.dropLast_append_of_ne_nil hne] at hbefore ⊢
    have hlast := abs_rsi_sub_le hn hM (by omega) h
    have hprevious := abs_rsi_sub_le hn hM (by omega) hbefore
    rw [hlength] at hlast
    rw [hdrop, Nat.sub_sub _ 1 1] at hprevious
    refine ⟨hlast.trans ?_, hprevious⟩
    -- the last value has faded once more
    have hfade : (1 - 1 / (n : ℝ)) ^ (rsiLookback n - 1 - n)
        ≤ (1 - 1 / (n : ℝ)) ^ (rsiLookback n - 2 - n) :=
      pow_le_pow_of_le_one hfactor (by simp) (by omega)
    exact mul_le_mul_of_nonneg_left (mul_le_mul_of_nonneg_left hfade hM) (by norm_num)

/-- **The rule sees the history, but for the residual.**  Its value is that of the whole history
within the residual against how much prices move; and where the last two values of the history
are further from the threshold, it fires exactly if the history crossed it. -/
theorem rsi_window_residual (hn : 1 ≤ n) (hM : 0 ≤ M)
    (h : MovesWithin M (rsiHistory read candle store)) :
    |rsi n (rsiHistory read candle store) - rsi n (rsiWindow read n candle store)|
        * movement n (rsiHistory read candle store) ≤ 100 * residual n M ∧
      ∀ overbought threshold,
        100 * residual n M < |rsi n (rsiHistory read candle store).dropLast - threshold|
          * movement n (rsiHistory read candle store).dropLast →
        100 * residual n M < |rsi n (rsiHistory read candle store) - threshold|
          * movement n (rsiHistory read candle store) →
        (RsiFires read n overbought threshold candle store ↔
          n + 2 ≤ (rsiHistory read candle store).length ∧
            Crosses overbought threshold (rsi n (rsiHistory read candle store).dropLast)
              (rsi n (rsiHistory read candle store))) := by
  obtain ⟨hlast, hprevious⟩ := window_residual hn hM h
  refine ⟨hlast, fun overbought threshold hfar hfar' => ?_⟩
  have hcloser : |rsi n (rsiHistory read candle store)
        - rsi n (rsiWindow read n candle store)|
      < |rsi n (rsiHistory read candle store) - threshold| :=
    lt_of_mul_lt_mul_right (hlast.trans_lt hfar') (movement_nonneg hn _)
  have hcloser' : |rsi n (rsiHistory read candle store).dropLast
        - rsi n (rsiWindow read n candle store).dropLast|
      < |rsi n (rsiHistory read candle store).dropLast - threshold| :=
    lt_of_mul_lt_mul_right (hprevious.trans_lt hfar) (movement_nonneg hn _)
  have hlength : n + 2 ≤ (rsiWindow read n candle store).length ↔
      n + 2 ≤ (rsiHistory read candle store).length := by
    have hlookback : n + 2 ≤ rsiLookback n := by
      unfold rsiLookback
      omega
    rw [window_of_history, length_rtake, le_min_iff, and_iff_right hlookback]
  rw [rsiFires_iff_window hn, hlength, crosses_congr hcloser' hcloser]

end Rule

/-! ### A fall and a rise after more flat bars than the window holds. -/

/-- Such closes. -/
def dip (flat low high : ℝ) : List ℝ := List.replicate 150 flat ++ [low, high]

theorem changes_dip (flat low high : ℝ) :
    changes (dip flat low high) = List.replicate 149 0 ++ [low - flat] ++ [high - low] ∧
      changes (dip flat low high).dropLast = List.replicate 149 0 ++ [low - flat] := by
  have hdrop : (dip flat low high).dropLast = List.replicate 150 flat ++ [low] := by
    unfold dip
    rw [List.dropLast_append_of_ne_nil (by simp)]
    rfl
  have hbefore : changes (dip flat low high).dropLast = List.replicate 149 0 ++ [low - flat] := by
    rw [hdrop, List.replicate_succ, List.cons_append, changes_flat]
  refine ⟨?_, hbefore⟩
  unfold dip
  rw [changes_append, ← hdrop, hbefore]

theorem average_dip (hzero : f 0 = 0) (flat low high : ℝ) :
    average 14 (partsOf f (dip flat low high))
        = step 14 (step 14 0 (max (f (low - flat)) 0)) (max (f (high - low)) 0) ∧
      average 14 (partsOf f (dip flat low high).dropLast)
        = step 14 0 (max (f (low - flat)) 0) := by
  obtain ⟨hall, hbefore⟩ := changes_dip flat low high
  have hzeros : average 14 (List.replicate 149 (0 : ℝ)) = 0 := average_zeros (by decide) 149
  have hlow : average 14 (List.replicate 149 (0 : ℝ) ++ [max (f (low - flat)) 0])
      = step 14 0 (max (f (low - flat)) 0) := by
    rw [average_append (by simp), hzeros]
  unfold partsOf
  rw [hall, hbefore]
  simp only [List.map_append, List.map_replicate, List.map_singleton, hzero, max_self]
  rw [average_append (by simp), hlow]
  exact ⟨rfl, rfl⟩

theorem rsi_dip : rsi 14 (dip 2 1 3) = 2800 / 41 ∧ movement 14 (dip 2 1 3) = 41 / 196 ∧
    rsi 14 (dip 2 1 3).dropLast = 0 ∧ movement 14 (dip 2 1 3).dropLast = 1 / 14 := by
  obtain ⟨hgain, hgain'⟩ := average_dip (f := id) rfl 2 1 3
  obtain ⟨hloss, hloss'⟩ := average_dip (f := fun c => -c) neg_zero 2 1 3
  rw [← gainsOf_eq_partsOf] at hgain hgain'
  rw [← lossesOf_eq_partsOf] at hloss hloss'
  have hup : step 14 (step 14 0 (max (id (1 - 2)) 0)) (max (id (3 - 1)) 0) = (1 : ℝ) / 7 := by
    norm_num [step]
  have hdown : step 14 (step 14 0 (max (-(1 - 2)) 0)) (max (-(3 - 1)) 0) = (13 : ℝ) / 196 := by
    norm_num [step]
  have hup' : step 14 0 (max (id (1 - 2)) 0) = (0 : ℝ) := by norm_num [step]
  have hdown' : step 14 0 (max (-(1 - 2)) 0) = (1 : ℝ) / 14 := by norm_num [step]
  unfold rsi movement
  rw [hgain, hloss, hgain', hloss', hup, hdown, hup', hdown', strength_of_no_gain (by norm_num),
    strength_eq (by norm_num) (by norm_num)]
  norm_num

/-- The rise is reported, as the whole history has it. -/
theorem rsi_window_residual_dip : RsiFires (closeOf ℝ) 14 true 50 (bar "BTC" lastSlot 3)
    (bars "BTC" lastSlot (3 :: 1 :: List.replicate 150 2)) := by
  have hhistory : rsiHistory (closeOf ℝ) (bar "BTC" lastSlot 3)
      (bars "BTC" lastSlot (3 :: 1 :: List.replicate 150 2)) = dip 2 1 3 := by
    have hread : rsiHistory (closeOf ℝ) (bar "BTC" lastSlot 3)
        (bars "BTC" lastSlot (3 :: 1 :: List.replicate 150 2))
        = pricesOf ℝ (newest "BTC" (bars "BTC" lastSlot (3 :: 1 :: List.replicate 150 2)).length
          (bars "BTC" lastSlot (3 :: 1 :: List.replicate 150 2))) := rfl
    rw [hread, newest_bars, List.take_of_length_le (le_refl _), pricesOf_bars, List.reverse_cons,
      List.reverse_cons, List.reverse_replicate, List.map_append, List.map_append,
      List.map_replicate, List.append_assoc]
    simp [dip]
  obtain ⟨hrsi, hmovement, hrsi', hmovement'⟩ := rsi_dip
  have hwithin : MovesWithin 2 (rsiHistory (closeOf ℝ) (bar "BTC" lastSlot 3)
      (bars "BTC" lastSlot (3 :: 1 :: List.replicate 150 2))) := by
    intro c hc
    rw [hhistory, (changes_dip 2 1 3).1, List.append_assoc] at hc
    rcases List.mem_append.mp hc with hc | hc
    · rw [List.eq_of_mem_replicate hc]
      norm_num
    · simp only [List.cons_append, List.nil_append, List.mem_cons, List.not_mem_nil, or_false] at hc
      rcases hc with rfl | rfl <;> norm_num
  have hsmall := residual_usual (show (0 : ℝ) ≤ 2 by norm_num)
  have hrule := rsi_window_residual (show 1 ≤ 14 by decide) (show (0 : ℝ) ≤ 2 by norm_num) hwithin
  rw [hhistory] at hrule
  have hfar : 100 * residual 14 2
      < |rsi 14 (dip 2 1 3).dropLast - 50| * movement 14 (dip 2 1 3).dropLast := by
    rw [hrsi', hmovement']
    refine hsmall.trans_lt ?_
    norm_num [abs_of_neg]
  have hfar' : 100 * residual 14 2 < |rsi 14 (dip 2 1 3) - 50| * movement 14 (dip 2 1 3) := by
    rw [hrsi, hmovement]
    refine hsmall.trans_lt ?_
    norm_num [abs_of_pos]
  apply ((hrule.2 true 50 hfar hfar').mpr ?_)
  refine ⟨by simp [dip], ?_⟩
  show rsi 14 (dip 2 1 3).dropLast < 50 ∧ 50 ≤ rsi 14 (dip 2 1 3)
  rw [hrsi, hrsi']
  norm_num

end Pulse
