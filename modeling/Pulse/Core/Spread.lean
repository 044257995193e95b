/-
  Pulse.Core.Spread
  ─────────────────
  **MEAN AND SPREAD OF A LIST OF REALS.**

  How far the last of a list can lie from the mean of the whole list, that value
  included, in units of the population standard deviation: at most `√k`, where `k`
  others come before it, and that is attained when the others are equal.

    • `mean`, `variance`,
    • `sq_sub_mean_le`   — Samuelson's inequality,
    • `abs_sub_mean_le`  — a band of `√k` deviations holds the last value,
    • `lt_abs_sub_mean`  — a narrower one does not,
    • `beyond_mono`      — a last value beyond a band is so further out, too,
    • `mean_affine`, `sqrt_variance_affine` — both in other units.
-/
import Mathlib.Algebra.Order.Chebyshev
import Mathlib.Algebra.BigOperators.Fin
import Mathlib.Analysis.Real.Sqrt

namespace Pulse.Spread

/-! ## §1. Mean and variance. -/

noncomputable def mean (xs : List ℝ) : ℝ := xs.sum / xs.length

/-- The population variance. -/
noncomputable def variance (xs : List ℝ) : ℝ :=
  (xs.map fun x => (x - mean xs) * (x - mean xs)).sum / xs.length

theorem sum_map_sub (xs : List ℝ) (m : ℝ) :
    (xs.map fun x => x - m).sum = xs.sum - xs.length * m := by
  induction xs with
  | nil => simp
  | cons x xs ih =>
      rw [List.map_cons, List.sum_cons, List.sum_cons, ih, List.length_cons]
      push_cast
      ring

/-- The square of a sum against the sum of the squares. -/
theorem sq_sum_le (xs : List ℝ) :
    xs.sum * xs.sum ≤ xs.length * (xs.map fun x => x * x).sum := by
  have h := sq_sum_le_card_mul_sum_sq (s := Finset.univ) (f := fun i : Fin xs.length => xs[i.val])
  rw [Fin.sum_univ_getElem, Finset.card_univ, Fintype.card_fin] at h
  have hsq : (∑ i : Fin xs.length, xs[i.val] ^ 2) = (xs.map fun x => x * x).sum := by
    rw [← Fin.sum_univ_fun_getElem xs fun x => x * x]
    exact Finset.sum_congr rfl fun i _ => sq _
  rw [hsq, sq] at h
  exact h

theorem variance_nonneg (xs : List ℝ) : 0 ≤ variance xs := by
  apply div_nonneg
  · apply List.sum_nonneg
    intro y hy
    obtain ⟨x, -, rfl⟩ := List.mem_map.mp hy
    exact mul_self_nonneg _
  · exact Nat.cast_nonneg _

theorem mean_append_one (xs : List ℝ) (x : ℝ) :
    (xs.length + 1) * mean (xs ++ [x]) = xs.sum + x := by
  have hpos : (xs.length + 1 : ℝ) ≠ 0 := by positivity
  unfold mean
  rw [List.sum_append, List.sum_singleton, List.length_append, List.length_singleton]
  push_cast
  field_simp

theorem variance_append_one (xs : List ℝ) (x : ℝ) :
    (xs.length + 1) * variance (xs ++ [x])
      = (xs.map fun y => (y - mean (xs ++ [x])) * (y - mean (xs ++ [x]))).sum
        + (x - mean (xs ++ [x])) * (x - mean (xs ++ [x])) := by
  have hpos : (xs.length + 1 : ℝ) ≠ 0 := by positivity
  unfold variance
  rw [List.map_append, List.sum_append, List.map_singleton, List.sum_singleton,
    List.length_append, List.length_singleton]
  push_cast
  field_simp

/-! ## §2. The last value. -/

/-- **Samuelson's inequality**, for the last of `k + 1` values. -/
theorem sq_sub_mean_le (xs : List ℝ) (x : ℝ) :
    (x - mean (xs ++ [x])) * (x - mean (xs ++ [x])) ≤ xs.length * variance (xs ++ [x]) := by
  have hmean := mean_append_one xs x
  have hvar := variance_append_one xs x
  generalize mean (xs ++ [x]) = m at hmean hvar ⊢
  generalize variance (xs ++ [x]) = v at hvar ⊢
  -- the deviations of the others sum to the deviation of `x`
  have hsum : (xs.map fun y => y - m).sum = m - x := by
    rw [sum_map_sub]
    linarith
  have hsq := sq_sum_le (xs.map fun y => y - m)
  rw [hsum, List.length_map, List.map_map] at hsq
  have hothers : ((fun y : ℝ => y * y) ∘ fun y => y - m) = fun y => (y - m) * (y - m) := rfl
  rw [hothers] at hsq
  have hscaled : (xs.length + 1) * ((x - m) * (x - m)) ≤ (xs.length + 1) * (xs.length * v) := by
    calc (xs.length + 1) * ((x - m) * (x - m))
        = xs.length * ((x - m) * (x - m)) + (m - x) * (m - x) := by ring
      _ ≤ xs.length * ((x - m) * (x - m))
          + xs.length * (xs.map fun y => (y - m) * (y - m)).sum := by linarith
      _ = xs.length * ((xs.length + 1) * v) := by
          rw [hvar]
          ring
      _ = (xs.length + 1) * (xs.length * v) := by ring
  exact le_of_mul_le_mul_left hscaled (by positivity)

/-- A band of at least `√k` deviations holds the last of `k + 1` values. -/
theorem abs_sub_mean_le (xs : List ℝ) (x : ℝ) {s : ℝ} (hs : 0 ≤ s) (h : xs.length ≤ s * s) :
    |x - mean (xs ++ [x])| ≤ s * √(variance (xs ++ [x])) := by
  have hv := variance_nonneg (xs ++ [x])
  apply abs_le_of_sq_le_sq _ (by positivity)
  rw [mul_pow, Real.sq_sqrt hv, sq, sq]
  exact (sq_sub_mean_le xs x).trans (mul_le_mul_of_nonneg_right h hv)

/-! ## §3. Equal values and one other. -/

variable {k : ℕ} {a d : ℝ}

theorem mean_replicate (hk : k ≠ 0) : mean (List.replicate k a) = a := by
  have hpos : (k : ℝ) ≠ 0 := Nat.cast_ne_zero.mpr hk
  unfold mean
  rw [List.sum_replicate, List.length_replicate, nsmul_eq_mul]
  field_simp

theorem variance_replicate (hk : k ≠ 0) : variance (List.replicate k a) = 0 := by
  unfold variance
  rw [mean_replicate hk, List.map_replicate, List.sum_replicate]
  simp

theorem mean_one_other : mean (List.replicate k a ++ [a + d]) = a + d / (k + 1) := by
  have hpos : (k + 1 : ℝ) ≠ 0 := by positivity
  have hmean := mean_append_one (List.replicate k a) (a + d)
  rw [List.length_replicate, List.sum_replicate, nsmul_eq_mul] at hmean
  field_simp
  linarith

theorem variance_one_other :
    variance (List.replicate k a ++ [a + d]) = k * (d / (k + 1)) ^ 2 := by
  have hpos : (k + 1 : ℝ) ≠ 0 := by positivity
  have hvar := variance_append_one (List.replicate k a) (a + d)
  rw [List.length_replicate, mean_one_other, List.map_replicate, List.sum_replicate,
    nsmul_eq_mul] at hvar
  apply mul_left_cancel₀ hpos
  rw [hvar]
  field_simp
  ring

/-- The other one is `√k` deviations away. -/
theorem sqrt_variance_one_other :
    √(variance (List.replicate k a ++ [a + d])) = √k * (|d| / (k + 1)) := by
  have hpos : (0 : ℝ) ≤ k + 1 := by positivity
  rw [variance_one_other, Real.sqrt_mul (Nat.cast_nonneg k), Real.sqrt_sq_eq_abs, abs_div,
    abs_of_nonneg hpos]

/-- A band of fewer than `√k` deviations does not hold it. -/
theorem lt_abs_sub_mean_of_lt_sqrt (hd : d ≠ 0) (hk : k ≠ 0) {s : ℝ} (h : s < √k) :
    s * √(variance (List.replicate k a ++ [a + d]))
      < |a + d - mean (List.replicate k a ++ [a + d])| := by
  have hpos : (0 : ℝ) < k + 1 := by positivity
  have hk : (0 : ℝ) < k := Nat.cast_pos.mpr (Nat.pos_of_ne_zero hk)
  have hdist : a + d - mean (List.replicate k a ++ [a + d]) = k * (d / (k + 1)) := by
    rw [mean_one_other]
    field_simp
    ring
  rw [hdist, sqrt_variance_one_other, abs_mul, abs_of_pos hk, abs_div, abs_of_pos hpos]
  have hunit : 0 < |d| / (k + 1) := div_pos (abs_pos.mpr hd) hpos
  calc s * (√k * (|d| / (k + 1)))
      < √k * (√k * (|d| / (k + 1))) := by
        apply mul_lt_mul_of_pos_right h
        exact mul_pos (Real.sqrt_pos.mpr hk) hunit
    _ = k * (|d| / (k + 1)) := by
        rw [← mul_assoc, Real.mul_self_sqrt hk.le]

theorem lt_abs_sub_mean (hd : d ≠ 0) {s : ℝ} (h : s * s < k) :
    s * √(variance (List.replicate k a ++ [a + d]))
      < |a + d - mean (List.replicate k a ++ [a + d])| := by
  have hk : (0 : ℝ) < k := lt_of_le_of_lt (mul_self_nonneg s) h
  apply lt_abs_sub_mean_of_lt_sqrt hd (Nat.cast_ne_zero.mp hk.ne')
  apply Real.lt_sqrt_of_sq_lt
  rw [sq]
  exact h

/-! ## §4. A last value that moves. -/

section Moves

variable (xs : List ℝ)

theorem sum_map_sq_sub (m : ℝ) :
    (xs.map fun x => (x - m) * (x - m)).sum
      = (xs.map fun x => x * x).sum - 2 * m * xs.sum + xs.length * (m * m) := by
  induction xs with
  | nil => simp
  | cons x xs ih =>
      rw [List.map_cons, List.sum_cons, List.map_cons, List.sum_cons, List.sum_cons, ih,
        List.length_cons]
      push_cast
      ring

/-- How far the last value is from the mean. -/
theorem sub_mean_append_one (x : ℝ) :
    (xs.length + 1) * (x - mean (xs ++ [x])) = xs.length * x - xs.sum := by
  have hmean := mean_append_one xs x
  linarith

/-- **The variance is that of the others and a square of this distance.** -/
theorem variance_append_one_eq (x : ℝ) :
    xs.length * ((xs.length + 1) * variance (xs ++ [x]))
      = (xs.length * (xs.map fun x => x * x).sum - xs.sum * xs.sum)
        + (xs.length + 1) * ((x - mean (xs ++ [x])) * (x - mean (xs ++ [x]))) := by
  have hmean := mean_append_one xs x
  rw [variance_append_one, sum_map_sq_sub]
  generalize mean (xs ++ [x]) = m at hmean ⊢
  -- the mean of all, times their number, is their sum
  have hx : x = (xs.length + 1) * m - xs.sum := by linarith
  rw [hx]
  ring

variable {xs} {x y s σ : ℝ}

/-- Further out, the deviation grows no faster than the distance. -/
theorem sq_mul_variance_le {d e : ℝ} (hlong : 0 < xs.length)
    (hd : d * d = (x - mean (xs ++ [x])) * (x - mean (xs ++ [x])))
    (he : e * e = (y - mean (xs ++ [y])) * (y - mean (xs ++ [y]))) (hle : d * d ≤ e * e) :
    d * d * variance (xs ++ [y]) ≤ e * e * variance (xs ++ [x]) := by
  have hx := variance_append_one_eq xs x
  have hy := variance_append_one_eq xs y
  have hothers : 0 ≤ xs.length * (xs.map fun x => x * x).sum - xs.sum * xs.sum := by
    linarith [sq_sum_le xs]
  have hcount : (0 : ℝ) < xs.length := Nat.cast_pos.mpr hlong
  have hpos : (0 : ℝ) < xs.length * (xs.length + 1) := by positivity
  rw [← hd] at hx
  rw [← he] at hy
  generalize xs.length * (xs.map fun x => x * x).sum - xs.sum * xs.sum = w at hx hy hothers
  apply le_of_mul_le_mul_left _ hpos
  calc xs.length * (xs.length + 1) * (d * d * variance (xs ++ [y]))
      = d * d * (xs.length * ((xs.length + 1) * variance (xs ++ [y]))) := by ring
    _ = d * d * w + (xs.length + 1) * (d * d * (e * e)) := by
        rw [hy]
        ring
    _ ≤ e * e * w + (xs.length + 1) * (d * d * (e * e)) := by
        have := mul_le_mul_of_nonneg_right hle hothers
        linarith
    _ = e * e * (xs.length * ((xs.length + 1) * variance (xs ++ [x]))) := by
        rw [hx]
        ring
    _ = xs.length * (xs.length + 1) * (e * e * variance (xs ++ [x])) := by ring

/-- **A last value beyond a band is beyond the band it makes further out**; `σ` is the side. -/
theorem beyond_mono (hσ : σ * σ = 1) (hs : 0 ≤ s) (hle : σ * x ≤ σ * y)
    (h : s * √(variance (xs ++ [x])) < σ * (x - mean (xs ++ [x]))) :
    s * √(variance (xs ++ [y])) < σ * (y - mean (xs ++ [y])) := by
  have hsq : ∀ z : ℝ, σ * z * (σ * z) = z * z := by
    intro z
    calc σ * z * (σ * z) = σ * σ * (z * z) := by ring
      _ = z * z := by rw [hσ, one_mul]
  have hd : 0 < σ * (x - mean (xs ++ [x])) :=
    lt_of_le_of_lt (mul_nonneg hs (Real.sqrt_nonneg _)) h
  -- a single value is its own mean
  have hlong : 0 < xs.length := by
    by_contra hnone
    have hnil : xs = [] := List.length_eq_zero_iff.mp (by omega)
    subst hnil
    simp [mean] at hd
  have hpos : (0 : ℝ) < xs.length + 1 := by positivity
  have hside : ∀ z : ℝ, (xs.length + 1) * (σ * (z - mean (xs ++ [z])))
      = xs.length * (σ * z) - σ * xs.sum := by
    intro z
    rw [mul_left_comm, sub_mean_append_one]
    ring
  have hfurther : σ * (x - mean (xs ++ [x])) ≤ σ * (y - mean (xs ++ [y])) := by
    have hmoved := mul_le_mul_of_nonneg_left hle (Nat.cast_nonneg xs.length : (0 : ℝ) ≤ xs.length)
    apply le_of_mul_le_mul_left _ hpos
    rw [hside, hside]
    linarith
  -- the roots of the growth of the squares
  have hgrowth := sq_mul_variance_le hlong (hsq _) (hsq _)
    (mul_le_mul hfurther hfurther hd.le (hd.le.trans hfurther))
  generalize σ * (x - mean (xs ++ [x])) = d at h hd hfurther hgrowth
  generalize σ * (y - mean (xs ++ [y])) = e at hfurther hgrowth ⊢
  have hroots : d * √(variance (xs ++ [y])) ≤ e * √(variance (xs ++ [x])) := by
    have hroot := Real.sqrt_le_sqrt hgrowth
    rw [Real.sqrt_mul (mul_self_nonneg d), Real.sqrt_mul (mul_self_nonneg e),
      Real.sqrt_mul_self hd.le, Real.sqrt_mul_self (hd.le.trans hfurther)] at hroot
    exact hroot
  apply lt_of_mul_lt_mul_left _ hd.le
  calc d * (s * √(variance (xs ++ [y]))) = s * (d * √(variance (xs ++ [y]))) := by ring
    _ ≤ s * (e * √(variance (xs ++ [x]))) := mul_le_mul_of_nonneg_left hroots hs
    _ = e * (s * √(variance (xs ++ [x]))) := by ring
    _ < e * d := mul_lt_mul_of_pos_left h (hd.trans_le hfurther)
    _ = d * e := mul_comm e d

end Moves

/-! ## §5. Affine maps. -/

section Affine

variable {xs : List ℝ}

theorem sum_map_affine (a b : ℝ) (xs : List ℝ) :
    (xs.map fun x => a * x + b).sum = a * xs.sum + xs.length * b := by
  induction xs with
  | nil => simp
  | cons x xs ih =>
      rw [List.map_cons, List.sum_cons, List.sum_cons, ih, List.length_cons]
      push_cast
      ring

theorem mean_affine (a b : ℝ) (h : 0 < xs.length) :
    mean (xs.map fun x => a * x + b) = a * mean xs + b := by
  have hlength : (xs.length : ℝ) ≠ 0 := Nat.cast_ne_zero.mpr h.ne'
  unfold mean
  rw [sum_map_affine, List.length_map]
  field_simp

theorem variance_affine (a b : ℝ) (h : 0 < xs.length) :
    variance (xs.map fun x => a * x + b) = a * a * variance xs := by
  have hsquares : (fun x : ℝ => (a * x + b - (a * mean xs + b)) * (a * x + b - (a * mean xs + b)))
      = fun x => a * a * ((x - mean xs) * (x - mean xs)) + 0 := by
    funext x
    ring
  have hsum := sum_map_affine (a * a) 0 (xs.map fun x => (x - mean xs) * (x - mean xs))
  rw [List.map_map] at hsum
  unfold variance
  rw [mean_affine a b h, List.map_map, List.length_map]
  show (xs.map fun x => (a * x + b - (a * mean xs + b)) * (a * x + b - (a * mean xs + b))).sum
    / xs.length = _
  rw [hsquares]
  show (xs.map ((fun y => a * a * y + 0) ∘ fun x => (x - mean xs) * (x - mean xs))).sum
    / xs.length = _
  rw [hsum, mul_zero, add_zero, mul_div_assoc]

theorem sqrt_variance_affine (a b : ℝ) (h : 0 < xs.length) :
    √(variance (xs.map fun x => a * x + b)) = |a| * √(variance xs) := by
  rw [variance_affine a b h, Real.sqrt_mul (mul_self_nonneg a), Real.sqrt_mul_self_eq_abs]

end Affine

end Pulse.Spread
