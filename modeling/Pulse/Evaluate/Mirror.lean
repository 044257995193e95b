/-
  Pulse.Evaluate.Mirror
  ─────────────────────
  **RISES AND FALLS ARE NOT TREATED ALIKE.**

  Mirrored prices swap gains and losses, and the strength of the swapped averages is
  100 less the strength, but for one case: no gain and no loss is a strength of 100
  on both sides of the mirror.

    • `rsi_mirror`, `strength_swap` — what a mirror does,
    • `crosses_swap_iff`            — two averages, and two averages a bar later,
    • `Lopsided`                    — the closes on which the two sides differ,
    • `mirror_iff`                  — the rule on any stored history.
-/
import Pulse.Evaluate.BarRun
import Pulse.Evaluate.Strength

namespace Pulse

open PyFloat Smoothing Pulse.Store

/-! ## §1. Mirrored prices. -/

/-- Every close `p` becomes `c - p`. -/
def mirror (c : ℝ) (prices : List ℝ) : List ℝ := prices.map (c - ·)

theorem changes_mirror (c : ℝ) : ∀ prices : List ℝ,
    changes (mirror c prices) = (changes prices).map (- ·)
  | [] => rfl
  | [_] => rfl
  | a :: b :: prices => by
      have ih := changes_mirror c (b :: prices)
      have hchange : c - b - (c - a) = -(b - a) := by ring
      show (c - b - (c - a)) :: changes (mirror c (b :: prices)) = _
      rw [ih, hchange]
      rfl

theorem gainsOf_mirror (c : ℝ) (prices : List ℝ) : gainsOf (mirror c prices) = lossesOf prices := by
  unfold gainsOf lossesOf
  rw [changes_mirror, List.map_map]
  rfl

theorem lossesOf_mirror (c : ℝ) (prices : List ℝ) :
    lossesOf (mirror c prices) = gainsOf prices := by
  unfold gainsOf lossesOf
  rw [changes_mirror, List.map_map]
  refine List.map_congr_left fun x _ => ?_
  show pyMax (- -x) (ofInt 0) = pyMax x (ofInt 0)
  rw [neg_neg]

theorem rsi_mirror (n : ℕ) (c : ℝ) (prices : List ℝ) :
    rsi n (mirror c prices)
      = strength (average n (lossesOf prices)) (average n (gainsOf prices)) := by
  unfold rsi
  rw [gainsOf_mirror, lossesOf_mirror]

theorem dropLast_mirror (c : ℝ) (prices : List ℝ) :
    (mirror c prices).dropLast = mirror c prices.dropLast := List.map_dropLast.symm

/-! ## §2. Two averages and a bar later. -/

section Averages

variable {gain loss gain' loss' threshold : ℝ}

/-- A strength and the one on the other side of the mirror. -/
theorem strength_swap (hgain : 0 ≤ gain) (hloss : 0 ≤ loss) (h : ¬ (gain = 0 ∧ loss = 0)) :
    strength loss gain = 100 - strength gain loss := by
  by_cases hg : gain = 0
  · have hl : loss ≠ 0 := fun hl => h ⟨hg, hl⟩
    rw [hg, strength_of_no_loss, strength_of_no_gain hl, sub_zero]
  · by_cases hl : loss = 0
    · rw [hl, strength_of_no_loss, strength_of_no_gain hg, sub_self]
    · have hgpos : 0 < gain := lt_of_le_of_ne hgain (Ne.symm hg)
      have hlpos : 0 < loss := lt_of_le_of_ne hloss (Ne.symm hl)
      have hsum : gain + loss ≠ 0 := by linarith
      rw [strength_eq hlpos.le hgpos, strength_eq hgpos.le hlpos, add_comm loss gain]
      field_simp
      ring

/-- **Where the two sides differ**: a strength that comes out of a standstill, or goes into one. -/
theorem crosses_swap_iff (hlow : 0 < threshold) (hhigh : threshold < 100) (hgain : 0 ≤ gain)
    (hloss : 0 ≤ loss) (hgain' : 0 ≤ gain') (hloss' : 0 ≤ loss') :
    (Crosses true threshold (strength gain loss) (strength gain' loss') ↔
        Crosses false (100 - threshold) (strength loss gain) (strength loss' gain')) ↔
      ¬ ((gain = 0 ∧ loss = 0) ∧ ¬ (gain' = 0 ∧ loss' = 0) ∧ threshold ≤ strength gain' loss') ∧
      ¬ (¬ (gain = 0 ∧ loss = 0) ∧ (gain' = 0 ∧ loss' = 0) ∧ strength gain loss < threshold) := by
  unfold Crosses
  rw [if_pos rfl, if_neg (by decide)]
  by_cases hbefore : gain = 0 ∧ loss = 0
  · -- a standstill counts as 100 on either side
    obtain ⟨rfl, rfl⟩ := hbefore
    rw [strength_of_no_loss]
    by_cases hnow : gain' = 0 ∧ loss' = 0
    · obtain ⟨rfl, rfl⟩ := hnow
      rw [strength_of_no_loss]
      have hleft : ¬ (100 : ℝ) < threshold := by linarith
      have hright : ¬ (100 : ℝ) ≤ 100 - threshold := by linarith
      simp [hleft, hright]
    · rw [strength_swap hgain' hloss' hnow]
      have hleft : ¬ (100 : ℝ) < threshold := by linarith
      have hright : 100 - threshold < (100 : ℝ) := by linarith
      have hcurrent : 100 - strength gain' loss' ≤ 100 - threshold ↔
          threshold ≤ strength gain' loss' := by
        constructor <;> intro h <;> linarith
      simp [hleft, hright, hcurrent, hnow]
  · -- movement before: the mirror image is below exactly if this is above
    rw [strength_swap hgain hloss hbefore]
    have hprevious : 100 - threshold < 100 - strength gain loss ↔ strength gain loss < threshold := by
      constructor <;> intro h <;> linarith
    rw [hprevious]
    by_cases hnow : gain' = 0 ∧ loss' = 0
    · obtain ⟨rfl, rfl⟩ := hnow
      rw [strength_of_no_loss]
      have hright : ¬ (100 : ℝ) ≤ 100 - threshold := by linarith
      simp [hhigh.le, hright, hbefore]
    · rw [strength_swap hgain' hloss' hnow]
      have hcurrent : 100 - strength gain' loss' ≤ 100 - threshold ↔
          threshold ≤ strength gain' loss' := by
        constructor <;> intro h <;> linarith
      simp [hcurrent, hbefore, hnow]

end Averages

/-! ## §3. Standstills. -/

/-- Nothing that the averages remember has moved. -/
def Standstill (n : ℕ) (prices : List ℝ) : Prop :=
  average n (gainsOf prices) = 0 ∧ average n (lossesOf prices) = 0

theorem max_eq_zero_both {x : ℝ} : (max x 0 = 0 ∧ max (-x) 0 = 0) ↔ x = 0 := by
  constructor
  · rintro ⟨hup, hdown⟩
    have hle : x ≤ 0 := max_eq_right_iff.mp hup
    have hge : -x ≤ 0 := max_eq_right_iff.mp hdown
    linarith
  · rintro rfl
    simp

/-- All changes are zero if all prices are the last. -/
theorem changes_zero_iff (xs : List ℝ) (a : ℝ) :
    (∀ x ∈ changes (xs ++ [a]), x = 0) ↔ ∀ c ∈ xs, c = a := by
  -- the first change compares the first two prices, the rest is the induction's
  induction xs with
  | nil => simp [changes]
  | cons x xs ih =>
      cases xs with
      | nil =>
          show (∀ y ∈ [a - x], y = 0) ↔ _
          rw [List.forall_mem_singleton, List.forall_mem_singleton, sub_eq_zero, eq_comm]
      | cons y ys =>
          show (∀ z ∈ (y - x) :: changes (y :: ys ++ [a]), z = 0) ↔ _
          rw [List.forall_mem_cons, ih, sub_eq_zero]
          constructor
          · intro h c hc
            rcases List.mem_cons.mp hc with rfl | hc
            · exact h.1.symm.trans (h.2 y List.mem_cons_self)
            · exact h.2 c hc
          · intro h
            refine ⟨?_, fun c hc => h c (List.mem_cons_of_mem _ hc)⟩
            exact (h y (List.mem_cons_of_mem _ List.mem_cons_self)).trans
              (h x List.mem_cons_self).symm

/-- Averages over one change. -/
theorem averages_one (front : List ℝ) (p a : ℝ) :
    average 1 (gainsOf (front ++ [p, a])) = max (a - p) 0 ∧
      average 1 (lossesOf (front ++ [p, a])) = max (-(a - p)) 0 := by
  unfold gainsOf lossesOf
  rw [changes_append, List.map_append, List.map_append, List.map_singleton, List.map_singleton,
    average_one, average_one, pyMax_real, pyMax_real]
  exact ⟨rfl, rfl⟩

/-- Averages over at least two changes remember them all, those over one the last. -/
theorem standstill_iff {n : ℕ} (hn : 1 ≤ n) (front : List ℝ) (p a : ℝ) :
    Standstill n (front ++ [p, a]) ↔ p = a ∧ (n ≠ 1 → ∀ c ∈ front, c = a) := by
  unfold Standstill
  by_cases hone : n = 1
  · -- the last change is all that is remembered
    subst hone
    obtain ⟨hgain, hloss⟩ := averages_one front p a
    rw [hgain, hloss, max_eq_zero_both, sub_eq_zero, eq_comm]
    simp
  · have hmany : 2 ≤ n := by omega
    rw [average_eq_zero_iff hmany (gainsOf_nonneg _), average_eq_zero_iff hmany (lossesOf_nonneg _)]
    have hchanges : ((∀ x ∈ gainsOf (front ++ [p, a]), x = 0) ∧
        ∀ x ∈ lossesOf (front ++ [p, a]), x = 0) ↔ ∀ x ∈ changes (front ++ [p, a]), x = 0 := by
      unfold gainsOf lossesOf
      simp only [List.forall_mem_map, pyMax_real]
      constructor
      · rintro ⟨hup, hdown⟩ x hx
        exact max_eq_zero_both.mp ⟨hup x hx, hdown x hx⟩
      · intro h
        exact ⟨fun x hx => (max_eq_zero_both.mpr (h x hx)).1,
          fun x hx => (max_eq_zero_both.mpr (h x hx)).2⟩
    rw [hchanges, List.append_cons front p [a], changes_zero_iff, List.forall_mem_append,
      List.forall_mem_singleton, and_comm]
    exact and_congr_right fun _ => ⟨fun h _ => h, fun h => h hone⟩

section Step

variable {n : ℕ} (hn : 1 ≤ n) {threshold : ℝ} (hlow : 0 < threshold) (hhigh : threshold < 100)

include hn hlow hhigh

/-- Out of a standstill the strength is at the threshold after a rise only. -/
theorem out_of_standstill (x : ℝ) :
    (¬ (step n 0 (max x 0) = 0 ∧ step n 0 (max (-x) 0) = 0) ∧
        threshold ≤ strength (step n 0 (max x 0)) (step n 0 (max (-x) 0))) ↔ 0 < x := by
  have hcast : (0 : ℝ) < n := Nat.cast_pos.mpr (by omega)
  have hstep : ∀ y : ℝ, step n 0 y = y / n := by
    intro y
    unfold step
    rw [zero_mul, zero_add]
  rw [hstep, hstep]
  -- a fall gives 0, no move stays in the standstill, a rise gives 100
  rcases lt_trichotomy x 0 with hx | rfl | hx
  · have hdown : -x / (n : ℝ) ≠ 0 := by
      have : 0 < -x := by linarith
      positivity
    rw [max_eq_right hx.le, max_eq_left (by linarith), zero_div, strength_of_no_gain hdown]
    exact iff_of_false (fun h => absurd h.2 (not_le.mpr hlow)) (not_lt.mpr hx.le)
  · simp
  · have hup : x / (n : ℝ) ≠ 0 := by positivity
    rw [max_eq_left hx.le, max_eq_right (by linarith), zero_div, strength_of_no_loss]
    exact iff_of_true ⟨fun h => hup h.1, hhigh.le⟩ hx

/-- Into a standstill it only goes with a period of 1; before, it was below the threshold after
a fall. -/
theorem into_standstill (front : List ℝ) (p a x : ℝ) :
    (¬ Standstill n (front ++ [p, a]) ∧
        (step n (average n (gainsOf (front ++ [p, a]))) (max x 0) = 0 ∧
          step n (average n (lossesOf (front ++ [p, a]))) (max (-x) 0) = 0) ∧
        rsi n (front ++ [p, a]) < threshold) ↔ n = 1 ∧ x = 0 ∧ a < p := by
  rw [step_eq_zero_iff hn (average_nonneg hn (gainsOf_nonneg _)) (le_max_right _ _),
    step_eq_zero_iff hn (average_nonneg hn (lossesOf_nonneg _)) (le_max_right _ _)]
  by_cases hone : n = 1
  · subst hone
    obtain ⟨hgain, hloss⟩ := averages_one front p a
    have hmoved : ¬ Standstill 1 (front ++ [p, a]) ↔ p ≠ a := by
      rw [standstill_iff (le_refl 1)]
      simp
    have hx : (max x 0 = 0 ∧ max (-x) 0 = 0) ↔ x = 0 := max_eq_zero_both
    unfold rsi
    rw [hmoved, hgain, hloss]
    simp only [true_or, true_and, hx]
    constructor
    · rintro ⟨hne, rfl, hbelow⟩
      refine ⟨rfl, ?_⟩
      -- after a rise it was at 100
      by_contra hrise
      have hup : p < a := lt_of_le_of_ne (not_lt.mp hrise) hne
      rw [max_eq_right (by linarith : -(a - p) ≤ 0), strength_of_no_loss] at hbelow
      linarith
    · rintro ⟨rfl, hfall⟩
      refine ⟨ne_of_gt hfall, rfl, ?_⟩
      have hdown : max (-(a - p)) 0 ≠ 0 := by
        rw [max_eq_left (by linarith)]
        linarith
      rw [max_eq_right (by linarith : a - p ≤ 0), strength_of_no_gain hdown]
      exact hlow
  · -- a longer memory keeps what moved before
    refine iff_of_false ?_ fun h => hone h.1
    rintro ⟨hmoved, ⟨hgain, hloss⟩, -⟩
    exact hmoved ⟨hgain.1.resolve_left hone, hloss.1.resolve_left hone⟩

end Step

/-! ## §4. The closes on which the sides differ. -/

/-- A rise out of a standstill; with a period of 1 also a standstill after a fall. -/
def Lopsided (n : ℕ) (closes : List ℝ) : Prop :=
  ∃ front p a b, closes = front ++ [p, a, b] ∧
    (a < b ∧ p = a ∧ (n ≠ 1 → ∀ c ∈ front, c = a) ∨ n = 1 ∧ a = b ∧ a < p)

/-- The same of closes that end so. -/
theorem lopsided_iff {n : ℕ} (front : List ℝ) (p a b : ℝ) :
    Lopsided n (front ++ [p, a, b]) ↔
      (a < b ∧ p = a ∧ (n ≠ 1 → ∀ c ∈ front, c = a) ∨ n = 1 ∧ a = b ∧ a < p) := by
  constructor
  · rintro ⟨front', p', a', b', hcloses, h⟩
    obtain ⟨rfl, hlast⟩ := List.append_inj' hcloses rfl
    obtain ⟨rfl, rfl, rfl⟩ : p = p' ∧ a = a' ∧ b = b' := by simpa using hlast
    exact h
  · intro h
    exact ⟨front, p, a, b, rfl, h⟩

theorem exists_append_three {α : Type} {xs : List α} (h : 3 ≤ xs.length) :
    ∃ front a b c, xs = front ++ [a, b, c] := by
  obtain ⟨ys, c, rfl⟩ := exists_append_one (show 1 ≤ xs.length by omega)
  obtain ⟨front, a, b, rfl⟩ := exists_append_two (show 2 ≤ ys.length by simpa using h)
  exact ⟨front, a, b, c, by simp⟩

/-- **The two sides of the mirror agree on all other closes.** -/
theorem crosses_mirror_iff {n : ℕ} (hn : 1 ≤ n) {threshold : ℝ} (hlow : 0 < threshold)
    (hhigh : threshold < 100) (c : ℝ) {closes : List ℝ} (hlong : n + 2 ≤ closes.length) :
    (Crosses true threshold (rsi n closes.dropLast) (rsi n closes) ↔
        Crosses false (100 - threshold) (rsi n (mirror c closes).dropLast)
          (rsi n (mirror c closes))) ↔
      ¬ Lopsided n closes := by
  obtain ⟨front, p, a, b, rfl⟩ := exists_append_three (show 3 ≤ closes.length by omega)
  have hdrop : (front ++ [p, a, b]).dropLast = front ++ [p, a] := by
    rw [List.dropLast_append_of_ne_nil (by simp)]
    rfl
  have hcount : n ≤ front.length + 1 := by
    rw [List.length_append] at hlong
    simpa using hlong
  obtain ⟨hgains, hlosses⟩ := averages_step front p a b hcount
  have hbefore := standstill_iff hn front p a
  have hgain := average_nonneg hn (gainsOf_nonneg (front ++ [p, a]))
  have hloss := average_nonneg hn (lossesOf_nonneg (front ++ [p, a]))
  have hup : (0 : ℝ) ≤ max (b - a) 0 := le_max_right _ _
  have hdown : (0 : ℝ) ≤ max (-(b - a)) 0 := le_max_right _ _
  -- the mirror swaps the averages; what is left are the standstills, where the code says 100
  have hswap := crosses_swap_iff hlow hhigh hgain hloss (step_nonneg hn hgain hup)
    (step_nonneg hn hloss hdown)
  rw [dropLast_mirror, hdrop, rsi_mirror, rsi_mirror, lopsided_iff, not_or]
  unfold rsi
  rw [hgains, hlosses, hswap]
  refine and_congr (not_congr ?_) (not_congr ?_)
  · -- out of a standstill
    constructor
    · rintro ⟨hstill, hmoves⟩
      rw [hstill.1, hstill.2, out_of_standstill hn hlow hhigh, sub_pos] at hmoves
      exact ⟨hmoves, hbefore.mp hstill⟩
    · rintro ⟨hrise, hstill⟩
      have hstill := hbefore.mpr hstill
      refine ⟨hstill, ?_⟩
      rw [hstill.1, hstill.2, out_of_standstill hn hlow hhigh, sub_pos]
      exact hrise
  · -- into one
    have hinto := into_standstill hn hlow hhigh front p a (b - a)
    rw [sub_eq_zero, eq_comm (a := b)] at hinto
    exact hinto

/-! ## §5. The rule. -/

/-- **The 'overbought' rule and the 'oversold' rule on the other side of the mirror** fire together,
unless the newest closes are lopsided. -/
theorem mirror_iff {n : ℕ} (hn : 1 ≤ n) {threshold : ℝ} (hlow : 0 < threshold)
    (hhigh : threshold < 100) (c : ℝ) (read : Candle → ℝ) (candle : Candle)
    (store : List Candle) :
    (RsiFires read n true threshold candle store ↔
        RsiFires (fun r => c - read r) n false (100 - threshold) candle store) ↔
      ¬ (n + 2 ≤ (rsiWindow read n candle store).length ∧
        Lopsided n (rsiWindow read n candle store)) := by
  have hwindow : rsiWindow (fun r => c - read r) n candle store
      = mirror c (rsiWindow read n candle store) := by
    unfold rsiWindow pricesBy mirror
    rw [List.map_map]
    rfl
  have hlength : (mirror c (rsiWindow read n candle store)).length
      = (rsiWindow read n candle store).length := List.length_map _
  rw [rsiFires_iff_window hn, rsiFires_iff_window hn, hwindow, hlength]
  by_cases hlong : n + 2 ≤ (rsiWindow read n candle store).length
  · simp only [hlong, true_and]
    exact crosses_mirror_iff hn hlow hhigh c hlong
  · simp [hlong]

/-! ### Bars that fall and rise, and bars that stand still and rise. -/

theorem mirror_fall_and_rise : 1 ≤ 2 ∧ (0 : ℝ) < 70 ∧ (70 : ℝ) < 100 ∧
    ((RsiFires (closeOf ℝ) 2 true 70 (bar "BTC" lastSlot 2) (bars "BTC" lastSlot [2, 1, 1, 3]) ↔
        RsiFires (fun r => 4 - closeOf ℝ r) 2 false (100 - 70) (bar "BTC" lastSlot 2)
          (bars "BTC" lastSlot [2, 1, 1, 3])) ↔
      ¬ (2 + 2 ≤ (rsiWindow (closeOf ℝ) 2 (bar "BTC" lastSlot 2)
          (bars "BTC" lastSlot [2, 1, 1, 3])).length ∧
        Lopsided 2 (rsiWindow (closeOf ℝ) 2 (bar "BTC" lastSlot 2)
          (bars "BTC" lastSlot [2, 1, 1, 3])))) :=
  ⟨by decide, by norm_num, by norm_num,
    mirror_iff (by decide) (by norm_num) (by norm_num) 4 (closeOf ℝ) _ _⟩

theorem closeOf_lt_of_mem {b : Rat} {closes : List Rat} (h : ∀ q ∈ closes, q < b) {r : Candle}
    (hr : r ∈ bars "BTC" lastSlot closes) : closeOf ℝ r < b := by
  obtain ⟨-, -, -, q, hq, hclose⟩ := mem_bars_slot hr
  unfold closeOf
  rw [hclose, ofDec_real]
  exact Rat.cast_lt.mpr (h q hq)

/-- **A rise out of a standstill is not reported, the fall on the other side is.** -/
theorem mirror_fails : ¬ ∀ n : ℕ, 1 ≤ n → ∀ threshold : ℝ, 0 < threshold → threshold < 100 →
    ∀ (candle : Candle) (store : Table Candle.key), NewestRow candle store →
    ∀ (read : Candle → ℝ) (c : ℝ), (∀ r ∈ store.rows, read r < c) →
      (RsiFires read n true threshold candle store.rows ↔
        RsiFires (fun r => c - read r) n false (100 - threshold) candle store.rows) := by
  intro h
  have hbelow : ∀ q ∈ [(2 : Rat), 1, 1, 1], q < 3 := by norm_num
  have hlaw := h 2 (by decide) 70 (by norm_num) (by norm_num) (bar "BTC" lastSlot 2)
    (barTable "BTC" lastSlot [2, 1, 1, 1]) (newestRow_bars lastSlot 2 [1, 1, 1]) (closeOf ℝ) (3 : Rat)
    fun r hr => closeOf_lt_of_mem hbelow hr
  have hwindow : rsiWindow (closeOf ℝ) 2 (bar "BTC" lastSlot 2) (bars "BTC" lastSlot [2, 1, 1, 1])
      = [1, 1, 1, 2] := by
    have hread : rsiWindow (closeOf ℝ) 2 (bar "BTC" lastSlot 2)
        (bars "BTC" lastSlot [2, 1, 1, 1])
        = pricesOf ℝ (newest "BTC" (rsiLookback 2) (bars "BTC" lastSlot [2, 1, 1, 1])) := rfl
    rw [hread, newest_bars, List.take_of_length_le (by decide), pricesOf_bars]
    simp
  have hmirror : rsiWindow (fun r => ((3 : Rat) : ℝ) - closeOf ℝ r) 2 (bar "BTC" lastSlot 2)
      (bars "BTC" lastSlot [2, 1, 1, 1]) = mirror 3 [1, 1, 1, 2] := by
    rw [← hwindow, rsiWindow, rsiWindow, pricesBy, pricesBy, mirror, List.map_map]
    norm_num
  have hlopsided : Lopsided 2 [1, 1, 1, (2 : ℝ)] := by
    refine ⟨[1], 1, 1, 2, rfl, Or.inl ⟨by norm_num, rfl, fun _ c hc => ?_⟩⟩
    exact List.mem_singleton.mp hc
  have hlength : (mirror 3 [1, 1, 1, (2 : ℝ)]).length = 4 := rfl
  have hcloses := crosses_mirror_iff (show 1 ≤ 2 by decide) (show (0 : ℝ) < 70 by norm_num)
    (by norm_num) 3 (show 2 + 2 ≤ [1, 1, 1, (2 : ℝ)].length by decide)
  refine hcloses.not.mpr (not_not.mpr hlopsided) ?_
  have hfires : RsiFires (closeOf ℝ) 2 true 70 (bar "BTC" lastSlot 2)
      (bars "BTC" lastSlot [2, 1, 1, 1]) ↔
      RsiFires (fun r => ((3 : Rat) : ℝ) - closeOf ℝ r) 2 false (100 - 70) (bar "BTC" lastSlot 2)
        (bars "BTC" lastSlot [2, 1, 1, 1]) := hlaw
  rw [rsiFires_iff_window (by decide), rsiFires_iff_window (by decide), hwindow, hmirror,
    hlength] at hfires
  simpa using hfires

end Pulse
