/-
  Pulse.Evaluate.Signals
  ──────────────────────
  **THE INDICATORS IN EXACT NUMBERS.**

  Over the reals every division by a period is a division, and the indicators can
  be computed: of flat prices that end in a jump, and for the bands of any prices.

    • `calculateEma_flat`, `calculateMacd_flat` — the MACD line leaves zero with
      the last price, and its signal line lags behind,
    • `calculateRsi_flat` — one change, flat prices, and a last change,
    • `calculateBollingerBands_real` — mean and spread of each window.
-/
import Pulse.Core.Exact
import Pulse.Core.Spread
import Pulse.Evaluate.Readings
import Pulse.Store.Sorting

namespace Pulse

open PyFloat Spread Pulse.Store

/-! ## §1. Ends of sequences. -/

section Sequences

variable {α β : Type}

/-- The last item, and the one before. -/
theorem index_append_two (xs : List α) (a b : α) :
    index (xs ++ [a, b]) (-1) = .ok b ∧ index (xs ++ [a, b]) (-2) = .ok a := by
  unfold index
  constructor <;> simp

theorem exists_append_one {xs : List α} (h : 1 ≤ xs.length) : ∃ front a, xs = front ++ [a] := by
  rcases List.eq_nil_or_concat' xs with rfl | hconcat
  · exact absurd h (by simp)
  · exact hconcat

theorem exists_append_two {xs : List α} (h : 2 ≤ xs.length) :
    ∃ front a b, xs = front ++ [a, b] := by
  obtain ⟨ys, b, rfl⟩ := exists_append_one (show 1 ≤ xs.length by omega)
  obtain ⟨front, a, rfl⟩ := exists_append_one (show 1 ≤ ys.length by simpa using h)
  exact ⟨front, a, b, by simp⟩

theorem index_replicate_append (k : ℕ) (a b : α) :
    index (List.replicate (k + 1) a ++ [b]) (-1) = .ok b ∧
      index (List.replicate (k + 1) a ++ [b]) (-2) = .ok a := by
  rw [List.replicate_succ', List.append_assoc]
  exact index_append_two _ a b

/-- What is mapped over a range, at its end. -/
theorem index_map_pyRange {a b : Int} (h : a + 2 ≤ b) (f : Int → α) :
    index ((pyRange a b).map f) (-1) = .ok (f (b - 1)) ∧
      index ((pyRange a b).map f) (-2) = .ok (f (b - 2)) := by
  obtain ⟨n, hn⟩ : ∃ n : ℕ, b = a + n + 2 := ⟨(b - a - 2).toNat, by omega⟩
  have hrange : pyRange a b = pyRange a (b - 2) ++ [b - 2, b - 1] := by
    have hlow : (b - 2 - a).toNat = n := by omega
    have hhigh : (b - a).toNat = n + 1 + 1 := by omega
    unfold pyRange
    rw [hlow, hhigh, List.range_succ, List.range_succ, List.append_assoc, List.map_append]
    have h₁ : a + (n : Int) = b - 2 := by omega
    have h₂ : a + ((n + 1 : ℕ) : Int) = b - 1 := by omega
    simp [h₁]
    omega
  rw [hrange, List.map_append]
  exact index_append_two _ _ _

theorem sliceTo_nat (xs : List α) (n : ℕ) : sliceTo xs n = xs.take n := by
  simp [sliceTo]

theorem sliceFrom_nat (xs : List α) (n : ℕ) : sliceFrom xs n = xs.drop n := by
  simp [sliceFrom]

theorem sliceFrom_neg (xs : List α) {n : ℕ} (hn : 1 ≤ n) :
    sliceFrom xs (-n) = xs.drop (xs.length - n) := by
  unfold sliceFrom
  rw [if_neg (by omega), Int.natAbs_neg, Int.natAbs_natCast]

end Sequences

/-! ## §2. Moving averages of flat prices. -/

theorem emaValues_flat (multiplier p x : ℝ) (k : ℕ) :
    emaValues multiplier p (List.replicate k p ++ [x])
      = List.replicate (k + 1) p ++ [(x - p) * multiplier + p] := by
  have hflat : (p - p) * multiplier + p = p := by ring
  induction k with
  | zero => rfl
  | succ k ih =>
      rw [List.replicate_succ, List.cons_append, emaValues, hflat, ih]
      rfl

/-- Flat prices that end in `x`: the average stays and moves with the last. -/
theorem calculateEma_flat {k n : ℕ} (hpos : 1 ≤ n) (hk : n ≤ k) (p x : ℝ) :
    calculateEma (List.replicate k p ++ [x]) n
      = .ok (List.replicate (k - n + 1) p ++ [(x - p) * (2 / (n + 1)) + p]) := by
  have hne : (n : ℝ) ≠ 0 := Nat.cast_ne_zero.mpr (by omega)
  have htake : (List.replicate k p ++ [x]).take n = List.replicate n p := by
    rw [List.take_append_of_le_length (by simpa using hk), List.take_replicate, min_eq_left hk]
  have hdrop : (List.replicate k p ++ [x]).drop n = List.replicate (k - n) p ++ [x] := by
    rw [List.drop_append_of_le_length (by simpa using hk), List.drop_replicate]
  have hmean : (List.replicate n p).sum / n = p := by
    rw [List.sum_replicate, nsmul_eq_mul]
    field_simp
  unfold calculateEma
  rw [if_neg (by simp; omega), divInt_real (by omega), ok_bind, divInt_real (by omega), ok_bind,
    sliceTo_nat, sliceFrom_nat, htake, hdrop, sum_real, Int.cast_natCast, hmean, emaValues_flat]
  norm_num
  rfl

theorem alignedDifference_flat {i j : ℕ} (h : j ≤ i) (a b x y : ℝ) :
    alignedDifference (List.replicate i a ++ [x]) (List.replicate j b ++ [y])
      = List.replicate j (a - b) ++ [x - y] := by
  have hmin : (min (List.replicate i a ++ [x]).length (List.replicate j b ++ [y]).length : Int)
      = ((j + 1 : ℕ) : Int) := by
    simp
    omega
  unfold alignedDifference
  rw [hmin]
  dsimp only
  rw [sliceFrom_neg _ (by omega), sliceFrom_neg _ (by omega)]
  have hleft : (List.replicate i a ++ [x]).drop ((List.replicate i a ++ [x]).length - (j + 1))
      = List.replicate j a ++ [x] := by
    rw [List.length_append, List.length_replicate, List.length_singleton,
      List.drop_append_of_le_length (by simp), List.drop_replicate]
    congr 2
    omega
  rw [hleft, List.length_append, List.length_replicate, List.length_singleton, Nat.sub_self,
    List.drop_zero, List.zipWith_append (by simp)]
  simp

/-- **MACD of flat prices that end in a jump**: the line leaves zero by the difference of the
two averages' steps, its signal line by a part of that. -/
theorem calculateMacd_flat {k fast slow signal : ℕ} (hfast : 1 ≤ fast) (hslow : fast < slow)
    (hsignal : 1 ≤ signal) (hlong : slow + signal ≤ k + 1) (hreach : fast + slow ≤ k + 2)
    (p x : ℝ) :
    ∃ histogram, calculateMacd (List.replicate k p ++ [x]) fast slow signal
      = .ok (List.replicate (k - slow + 1) 0 ++ [(x - p) * (2 / (fast + 1) - 2 / (slow + 1))],
          List.replicate (k - slow + 1 - signal + 1) 0
            ++ [(x - p) * (2 / (fast + 1) - 2 / (slow + 1)) * (2 / (signal + 1))], histogram) := by
  have hline : alignedDifference
      (List.replicate (k - fast + 1) p ++ [(x - p) * (2 / (fast + 1)) + p])
      (List.replicate (k - slow + 1) p ++ [(x - p) * (2 / (slow + 1)) + p])
      = List.replicate (k - slow + 1) 0 ++ [(x - p) * (2 / (fast + 1) - 2 / (slow + 1))] := by
    rw [alignedDifference_flat (by omega), sub_self]
    congr 2
    ring
  unfold calculateMacd
  rw [if_neg (by simp; omega), calculateEma_flat hfast (by omega), ok_bind,
    calculateEma_flat (by omega) (by omega), ok_bind, if_neg (by simp; omega), hline]
  unfold macdSignal
  rw [if_neg (by simp; omega), calculateEma_flat hsignal (by omega), ok_bind, if_neg (by simp)]
  exact ⟨_, by rw [sub_zero, add_zero]; rfl⟩

/-! ## §3. A change, flat prices, and a last change. -/

theorem pyMax_real (x : ℝ) : pyMax x (ofInt 0) = max x 0 := by
  unfold pyMax
  rw [ofInt_real, Int.cast_zero]
  split
  next h => exact (max_eq_right h.le).symm
  next h => exact (max_eq_left (not_lt.mp h)).symm

/-- `_rsi_from_avgs` on averages, which are not negative. -/
theorem rsiFromAvgs_real {avgGain avgLoss : ℝ} (hgain : 0 ≤ avgGain) (hloss : 0 ≤ avgLoss) :
    rsiFromAvgs avgGain avgLoss
      = .ok (if avgLoss = 0 then 100 else 100 - 100 / (1 + avgGain / avgLoss)) := by
  have hone : 1 + avgGain / avgLoss ≠ 0 := by positivity
  unfold rsiFromAvgs
  by_cases hzero : avgLoss = 0
  · rw [if_pos (isZero_real.mpr hzero), if_pos hzero]
    norm_num
    rfl
  · rw [if_neg (fun h => hzero (isZero_real.mp h)), if_neg hzero, pyDiv_real hzero, ok_bind]
    simp only [ofInt_real, Int.cast_one, Int.cast_ofNat]
    rw [pyDiv_real hone]
    rfl

theorem changes_flat (b c : ℝ) (k : ℕ) :
    changes (b :: (List.replicate k b ++ [c])) = List.replicate k 0 ++ [c - b] := by
  induction k with
  | zero => rfl
  | succ k ih =>
      rw [List.replicate_succ, List.cons_append, changes, ih, sub_self]
      rfl

/-- The gains, or the losses with `f` the negation, of such prices. -/
theorem map_changes_flat (a b c : ℝ) (k : ℕ) {f : ℝ → ℝ} (hzero : f 0 = 0) :
    ((changes (a :: (List.replicate (k + 1) b ++ [c]))).map fun x => pyMax (f x) (ofInt 0))
      = max (f (b - a)) 0 :: (List.replicate k 0 ++ [max (f (c - b)) 0]) := by
  rw [List.replicate_succ, List.cons_append, changes, changes_flat]
  simp only [List.map_cons, List.map_append, List.map_replicate, pyMax_real, hzero, max_self,
    List.map_nil]

/-- The averages of a period that starts with `x`, is flat, and of the value after it. -/
theorem wilder_flat (x y : ℝ) (k : ℕ) :
    divInt (PyFloat.sum (sliceTo (x :: (List.replicate k 0 ++ [y])) ((k + 1 : ℕ) : Int)))
        ((k + 1 : ℕ) : Int) = .ok (x / (k + 1)) ∧
      wilder (x / (k + 1)) ((k + 1 : ℕ) : Int)
          (index (x :: (List.replicate k 0 ++ [y])) ((k + 1 : ℕ) : Int))
        = .ok ((x / (k + 1) * k + y) / (k + 1)) := by
  have hlast : index (x :: (List.replicate k 0 ++ [y])) ((k + 1 : ℕ) : Int) = .ok y := by
    unfold index
    rw [if_pos (by omega), Int.toNat_natCast, List.getElem?_cons_succ,
      List.getElem?_append_right (by simp)]
    simp
  constructor
  · rw [sliceTo_nat, List.take_succ_cons, List.take_append_of_le_length (by simp),
      List.take_of_length_le (by simp), divInt_real (by omega)]
    simp
  · unfold wilder
    rw [hlast, mulInt_real, ok_bind, ok_bind, divInt_real (by omega)]
    push_cast
    ring_nf

/-- **RSI of a change, flat prices, and a last change**: a value for the first period and one
for the last change. -/
theorem calculateRsi_flat (a b c : ℝ) (k : ℕ) :
    ∃ previous current,
      rsiFromAvgs (max (b - a) 0 / (k + 1)) (max (-(b - a)) 0 / (k + 1)) = .ok previous ∧
      rsiFromAvgs ((max (b - a) 0 / (k + 1) * k + max (c - b) 0) / (k + 1))
        ((max (-(b - a)) 0 / (k + 1) * k + max (-(c - b)) 0) / (k + 1)) = .ok current ∧
      calculateRsi (a :: (List.replicate (k + 1) b ++ [c])) ((k + 1 : ℕ) : Int)
        = .ok [previous, current] := by
  have hgains : gainsOf (a :: (List.replicate (k + 1) b ++ [c]))
      = max (b - a) 0 :: (List.replicate k 0 ++ [max (c - b) 0]) :=
    map_changes_flat a b c k (f := fun x => x) rfl
  have hlosses : lossesOf (a :: (List.replicate (k + 1) b ++ [c]))
      = max (-(b - a)) 0 :: (List.replicate k 0 ++ [max (-(c - b)) 0]) :=
    map_changes_flat a b c k (f := fun x => -x) neg_zero
  -- one round of the loop after the first period
  have hrange : pyRange ((k + 1 : ℕ) : Int) ((k + 2 : ℕ) : Int) = [((k + 1 : ℕ) : Int)] := by
    have hone : (((k + 2 : ℕ) : Int) - ((k + 1 : ℕ) : Int)).toNat = 1 := by omega
    unfold pyRange
    rw [hone]
    simp
  obtain ⟨previous, hprevious⟩ : ∃ r, rsiFromAvgs (max (b - a) 0 / (k + 1 : ℝ))
      (max (-(b - a)) 0 / (k + 1)) = .ok r :=
    ⟨_, rsiFromAvgs_real (by positivity) (by positivity)⟩
  obtain ⟨current, hcurrent⟩ : ∃ r,
      rsiFromAvgs ((max (b - a) 0 / (k + 1 : ℝ) * k + max (c - b) 0) / (k + 1))
        ((max (-(b - a)) 0 / (k + 1) * k + max (-(c - b)) 0) / (k + 1)) = .ok r :=
    ⟨_, rsiFromAvgs_real (by positivity) (by positivity)⟩
  refine ⟨previous, current, hprevious, hcurrent, ?_⟩
  have hlong : ¬ ((a :: (List.replicate (k + 1) b ++ [c])).length : Int) ≤ ((k + 1 : ℕ) : Int) := by
    rw [List.length_cons, List.length_append, List.length_replicate, List.length_singleton]
    omega
  unfold calculateRsi
  rw [if_neg hlong, hgains, hlosses, (wilder_flat _ _ k).1, ok_bind, (wilder_flat _ _ k).1, ok_bind,
    hprevious, ok_bind]
  have hlength : ((max (b - a) 0 :: (List.replicate k (0 : ℝ) ++ [max (c - b) 0])).length : Int)
      = ((k + 2 : ℕ) : Int) := by
    simp
    omega
  rw [hlength, hrange, rsiValues, (wilder_flat _ _ k).2, ok_bind, (wilder_flat _ _ k).2, ok_bind,
    hcurrent]
  rfl

/-- A loss, and then a gain of `g`: the RSI leaves zero. -/
theorem calculateRsi_up {k : ℕ} (hk : 1 ≤ k) {g : ℝ} (hg : 0 ≤ g) :
    ∃ current, calculateRsi (2 :: (List.replicate (k + 1) 1 ++ [1 + g])) ((k + 1 : ℕ) : Int)
        = .ok [0, current] ∧ 100 - 100 / (1 + g) ≤ current := by
  obtain ⟨previous, current, hprevious, hcurrent, hvalues⟩ := calculateRsi_flat 2 1 (1 + g) k
  have hk : (1 : ℝ) ≤ k := Nat.one_le_cast.mpr hk
  have hchange : max ((1 : ℝ) - 2) 0 = 0 ∧ max (-((1 : ℝ) - 2)) 0 = 1 := by norm_num
  have hlast : max (1 + g - 1) 0 = g ∧ max (-(1 + g - 1)) 0 = 0 :=
    ⟨by rw [add_sub_cancel_left, max_eq_left hg],
      by rw [add_sub_cancel_left, max_eq_right (by linarith)]⟩
  have hloss : (0 : ℝ) < (1 / (k + 1) * k + 0) / (k + 1) := by positivity
  rw [hchange.1, hchange.2, rsiFromAvgs_real (by positivity) (by positivity), if_neg (by positivity)]
    at hprevious
  rw [hchange.1, hchange.2, hlast.1, hlast.2, rsiFromAvgs_real (by positivity) hloss.le,
    if_neg hloss.ne'] at hcurrent
  have hzero : previous = 0 := by
    rw [← Except.ok.inj hprevious]
    norm_num
  refine ⟨current, by rw [hvalues, hzero], ?_⟩
  rw [← Except.ok.inj hcurrent]
  -- the ratio of the averages is at least the gain
  have hratio : g ≤ (0 / (k + 1) * k + g) / (k + 1) / ((1 / (k + 1) * k + 0) / (k + 1)) := by
    rw [le_div_iff₀ hloss]
    field_simp
    nlinarith
  have hle : 100 / (1 + (0 / (k + 1) * k + g) / (k + 1) / ((1 / (k + 1) * k + 0) / (k + 1)))
      ≤ 100 / (1 + g) := by
    apply div_le_div_of_nonneg_left <;> linarith
  linarith

/-- A gain, and then a loss of `l`: the RSI leaves one hundred. -/
theorem calculateRsi_down {k : ℕ} (hk : 1 ≤ k) {l : ℝ} (hl : 0 < l) :
    ∃ current, calculateRsi (l :: (List.replicate (k + 1) (l + 1) ++ [1])) ((k + 1 : ℕ) : Int)
        = .ok [100, current] ∧ current ≤ 100 / l := by
  obtain ⟨previous, current, hprevious, hcurrent, hvalues⟩ := calculateRsi_flat l (l + 1) 1 k
  have hk : (1 : ℝ) ≤ k := Nat.one_le_cast.mpr hk
  have hchange : max (l + 1 - l) 0 = 1 ∧ max (-(l + 1 - l)) 0 = 0 := by norm_num
  have hlast : max (1 - (l + 1)) 0 = 0 ∧ max (-(1 - (l + 1))) 0 = l :=
    ⟨max_eq_right (by linarith), by rw [max_eq_left (by linarith)]; ring⟩
  have hloss : (0 : ℝ) < (0 / (k + 1) * k + l) / (k + 1) := by
    rw [zero_div, zero_mul, zero_add]
    positivity
  rw [hchange.1, hchange.2, rsiFromAvgs_real (by positivity) (by positivity), if_pos (by simp)]
    at hprevious
  rw [hchange.1, hchange.2, hlast.1, hlast.2, rsiFromAvgs_real (by positivity) hloss.le,
    if_neg hloss.ne'] at hcurrent
  refine ⟨current, by rw [hvalues, ← Except.ok.inj hprevious], ?_⟩
  rw [← Except.ok.inj hcurrent]
  -- the ratio of the averages is at most the inverse of the loss
  have hratio : (1 / (k + 1) * k + 0) / (k + 1) / ((0 / (k + 1) * k + l) / (k + 1)) ≤ 1 / l := by
    rw [div_le_div_iff₀ hloss hl]
    field_simp
    nlinarith
  have hnonneg : (0 : ℝ) ≤ (1 / (k + 1) * k + 0) / (k + 1) / ((0 / (k + 1) * k + l) / (k + 1)) := by
    positivity
  generalize (1 / (k + 1) * k + 0) / (k + 1) / ((0 / (k + 1) * k + l) / (k + 1)) = r
    at hratio hnonneg ⊢
  have hshare : 100 - 100 / (1 + r) ≤ 100 * r := by
    rw [sub_le_iff_le_add, ← sub_le_iff_le_add', le_div_iff₀ (by linarith)]
    nlinarith
  calc 100 - 100 / (1 + r) ≤ 100 * r := hshare
    _ ≤ 100 * (1 / l) := by linarith
    _ = 100 / l := by ring

/-! ## §4. Bands. -/

/-- The upper and the lower band of a window. -/
noncomputable def upperOf (stdDev : ℝ) (window : List ℝ) : ℝ :=
  mean window + stdDev * √(variance window)

noncomputable def lowerOf (stdDev : ℝ) (window : List ℝ) : ℝ :=
  mean window - stdDev * √(variance window)

theorem bandsOf_real {n : ℕ} (hpos : 1 ≤ n) (stdDev : ℝ) {window : List ℝ}
    (hlength : window.length = n) :
    bandsOf n stdDev window = .ok (upperOf stdDev window, mean window, lowerOf stdDev window) := by
  have hne : (n : Int) ≠ 0 := by omega
  have hmean : window.sum / ((n : Int) : ℝ) = mean window := by
    rw [mean, hlength, Int.cast_natCast]
  have hvar : (window.map fun p => (p - mean window) * (p - mean window)).sum / ((n : Int) : ℝ)
      = variance window := by
    rw [variance, hlength, Int.cast_natCast]
  unfold bandsOf
  rw [divInt_real hne, ok_bind, sum_real window, hmean, mapM_pySq_real, ok_bind, divInt_real hne,
    ok_bind, sum_real, hvar]
  rfl

/-- **Bands of any prices**: those of each window. -/
theorem calculateBollingerBands_real {n : ℕ} (hpos : 1 ≤ n) (stdDev : ℝ) {prices : List ℝ}
    (hlong : n ≤ prices.length) :
    calculateBollingerBands prices n stdDev
      = .ok ((pyRange (n - 1) prices.length).map fun i => upperOf stdDev (windowAt prices n i),
          (pyRange (n - 1) prices.length).map fun i => mean (windowAt prices n i),
          (pyRange (n - 1) prices.length).map fun i => lowerOf stdDev (windowAt prices n i)) := by
  have hbands : (pyRange ((n : Int) - 1) prices.length).mapM
      (fun i => bandsOf n stdDev (windowAt prices n i))
      = .ok ((pyRange ((n : Int) - 1) prices.length).map fun i =>
          (upperOf stdDev (windowAt prices n i), mean (windowAt prices n i),
            lowerOf stdDev (windowAt prices n i))) := by
    apply mapM_eq_map
    intro i hi
    have hbounds := mem_pyRange hi
    apply bandsOf_real hpos
    unfold windowAt
    rw [List.length_take, List.length_drop]
    omega
  unfold calculateBollingerBands
  rw [if_neg (by simp; omega), hbands, ok_bind, List.map_map, List.map_map, List.map_map]
  rfl

/-- The window of the last price. -/
theorem windowAt_rtake (prices : List ℝ) {n : ℕ} (h : n ≤ prices.length) :
    windowAt prices n (prices.length - 1) = prices.rtake n := by
  have hindex : ((prices.length : Int) - 1 - n + 1).toNat = prices.length - n := by omega
  unfold windowAt List.rtake
  rw [hindex, Int.toNat_natCast]
  apply List.take_of_length_le
  rw [List.length_drop]
  omega

/-- The window of the price before. -/
theorem windowAt_previous (xs : List ℝ) (x : ℝ) {n : ℕ} (hlong : n ≤ xs.length) :
    windowAt (xs ++ [x]) n ((xs ++ [x]).length - 2) = xs.rtake n := by
  have hindex : (((xs ++ [x]).length : Int) - 2 - n + 1).toNat = xs.length - n := by
    rw [List.length_append, List.length_singleton]
    omega
  have hlength : (xs.drop (xs.length - n)).length = n := by
    rw [List.length_drop]
    omega
  unfold windowAt List.rtake
  rw [hindex, Int.toNat_natCast, List.drop_append_of_le_length (by omega),
    List.take_append_of_le_length (by omega), List.take_of_length_le (by omega)]

/-- **The decision on the bands** of the last window and of the one before. -/
theorem BollingerBandsRule.onPrices_real {n : ℕ} {s prevClose current : ℝ}
    {upperBand breakEvent : Bool} {prices : List ℝ} (hpos : 1 ≤ n) (hlong : n + 1 ≤ prices.length)
    (hprevious : index prices (-2) = .ok prevClose) :
    BollingerBandsRule.onPrices n s upperBand breakEvent current prices
      = .ok (
        let now := windowAt prices n (prices.length - 1)
        let before := windowAt prices n (prices.length - 2)
        match upperBand, breakEvent with
        | true, true => if upperOf s now < current then some current else none
        | true, false =>
            if prevClose ≤ upperOf s before ∧ upperOf s now ≤ current then some current else none
        | false, true => if current < lowerOf s now then some current else none
        | false, false =>
            if lowerOf s before ≤ prevClose ∧ current ≤ lowerOf s now then some current
            else none) := by
  have hupper := index_map_pyRange (a := n - 1) (b := prices.length) (by omega)
    fun i => upperOf s (windowAt prices n i)
  have hlower := index_map_pyRange (a := n - 1) (b := prices.length) (by omega)
    fun i => lowerOf s (windowAt prices n i)
  unfold BollingerBandsRule.onPrices BollingerBandsRule.decideWith
  rw [if_neg (by omega), calculateBollingerBands_real hpos s (by omega), ok_bind]
  dsimp only
  rw [if_neg (by rw [List.length_map, length_pyRange]; omega), ok_bind, hprevious, ok_bind,
    hupper.1, ok_bind, hupper.2, ok_bind, hlower.1, ok_bind, hlower.2, ok_bind]
  cases upperBand <;> cases breakEvent <;> rfl

section Bands

variable {a d s x : ℝ} {k : ℕ}

/-- The last price lies within bands that are wide enough. -/
theorem within_bands (xs : List ℝ) (hs : 0 ≤ s) (h : xs.length ≤ s * s) :
    x ≤ upperOf s (xs ++ [x]) ∧ lowerOf s (xs ++ [x]) ≤ x := by
  have habs := abs_le.mp (abs_sub_mean_le xs x hs h)
  unfold upperOf lowerOf
  constructor
  · linarith [habs.2]
  · linarith [habs.1]

/-- A jump leaves bands that are not. -/
theorem upperOf_lt (hd : 0 < d) (h : s * s < k) :
    upperOf s (List.replicate k a ++ [a + d]) < a + d := by
  have hout := lt_abs_sub_mean (a := a) hd.ne' h
  have hpos : 0 ≤ a + d - mean (List.replicate k a ++ [a + d]) := by
    rw [mean_one_other, add_sub_add_left_eq_sub, sub_nonneg, div_le_iff₀ (by positivity)]
    nlinarith [(Nat.cast_nonneg k : (0 : ℝ) ≤ k)]
  rw [abs_of_nonneg hpos] at hout
  unfold upperOf
  linarith

theorem lt_lowerOf (hd : d < 0) (h : s * s < k) :
    a + d < lowerOf s (List.replicate k a ++ [a + d]) := by
  have hout := lt_abs_sub_mean (a := a) hd.ne h
  have hneg : a + d - mean (List.replicate k a ++ [a + d]) ≤ 0 := by
    rw [mean_one_other, add_sub_add_left_eq_sub, sub_nonpos, le_div_iff₀ (by positivity)]
    nlinarith [(Nat.cast_nonneg k : (0 : ℝ) ≤ k)]
  rw [abs_of_nonpos hneg] at hout
  unfold lowerOf
  linarith

/-- The bands of flat prices. -/
theorem bands_flat (hk : k ≠ 0) :
    upperOf s (List.replicate k a) = a ∧ lowerOf s (List.replicate k a) = a := by
  unfold upperOf lowerOf
  rw [mean_replicate hk, variance_replicate hk, Real.sqrt_zero, mul_zero, add_zero, sub_zero]
  exact ⟨rfl, rfl⟩

end Bands

end Pulse
