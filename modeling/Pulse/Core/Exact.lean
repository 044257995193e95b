/-
  Pulse.Core.Exact
  ────────────────
  Exact real numbers as the arithmetic of `float`: no rounding, no overflow.
-/
import Pulse.Core.Float
import Mathlib.Analysis.Real.Sqrt

namespace Pulse

/-- Infinities and NaN have no real value. -/
noncomputable instance : PyFloat ℝ where
  decLt := fun _ _ => Classical.propDecidable _
  decLe := fun _ _ => Classical.propDecidable _
  ofInt i := i
  fits _ := true
  ofDec
    | .fin q => q
    | .inf _ | .nan | .snan => 0
  sum := List.sum
  square x := some (x * x)
  sqrt := Real.sqrt

namespace PyFloat

theorem isZero_real {x : ℝ} : isZero x = true ↔ x = 0 := by
  unfold isZero
  rw [Bool.and_eq_true, decide_eq_true_eq, decide_eq_true_eq]
  show x ≤ ((0 : Int) : ℝ) ∧ ((0 : Int) : ℝ) ≤ x ↔ x = 0
  rw [Int.cast_zero]
  exact ⟨fun h => le_antisymm h.1 h.2, fun h => ⟨le_of_eq h, ge_of_eq h⟩⟩

theorem nonneg_real {x : ℝ} : Nonneg x ↔ 0 ≤ x := by
  show ¬ x < ((0 : Int) : ℝ) ↔ 0 ≤ x
  rw [Int.cast_zero, not_lt]

theorem below_real {k : ℕ} {x : ℝ} : Below k x ↔ -2 ^ k ≤ x ∧ x ≤ 2 ^ k := by
  show ¬ ((2 ^ k : Int) : ℝ) < x ∧ ¬ x < ((-2 ^ k : Int) : ℝ) ↔ _
  rw [not_lt, not_lt, and_comm]
  push_cast
  exact Iff.rfl

/-- A sum of as many terms as these. -/
theorem sum_le_real {k m : ℕ} {xs : List ℝ} (hlength : xs.length ≤ 2 ^ m)
    (h : ∀ x ∈ xs, x ≤ 2 ^ k) : xs.sum ≤ 2 ^ (k + m) := by
  have hpow : (xs.length : ℝ) ≤ 2 ^ m := by exact_mod_cast hlength
  calc xs.sum ≤ xs.length • (2 : ℝ) ^ k := List.sum_le_card_nsmul xs _ h
    _ = xs.length * 2 ^ k := nsmul_eq_mul _ _
    _ ≤ 2 ^ m * 2 ^ k := by gcongr
    _ = 2 ^ (k + m) := by rw [← pow_add, Nat.add_comm]

end PyFloat

open PyFloat in
instance : LawfulPyFloat ℝ where
  fits_small _ _ _ := rfl
  isZero_ofInt i _ := by
    rw [isZero_real]
    exact Int.cast_eq_zero
  nonneg_ofInt i h := nonneg_real.mpr (Int.cast_nonneg h)
  nonneg_sum xs h := nonneg_real.mpr (List.sum_nonneg fun x hx => nonneg_real.mp (h x hx))
  nonneg_add x y hx hy := nonneg_real.mpr (add_nonneg (nonneg_real.mp hx) (nonneg_real.mp hy))
  nonneg_mul x y hx hy := nonneg_real.mpr (mul_nonneg (nonneg_real.mp hx) (nonneg_real.mp hy))
  nonneg_div x y hx hy _ := nonneg_real.mpr (div_nonneg (nonneg_real.mp hx) (nonneg_real.mp hy))
  one_add x hx := by
    have hpos : (0 : ℝ) < ((1 : Int) : ℝ) + x := by
      rw [Int.cast_one]
      linarith [nonneg_real.mp hx]
    rw [Bool.eq_false_iff]
    exact fun h => absurd (isZero_real.mp h) (ne_of_gt hpos)
  below_ofDec k _ q hlow hhigh := by
    refine below_real.mpr ⟨?_, ?_⟩
    · show -2 ^ k ≤ (q : ℝ)
      exact_mod_cast hlow
    · show (q : ℝ) ≤ 2 ^ k
      exact_mod_cast hhigh
  below_nan k _ := below_real.mpr ⟨neg_nonpos.mpr (by positivity), by positivity⟩
  below_sub k _ x y hx hy := by
    rw [below_real] at hx hy ⊢
    rw [pow_succ]
    constructor <;> linarith [hx.1, hx.2, hy.1, hy.2]
  below_sum k m _ xs hlength h := by
    have hdouble : (2 : ℝ) ^ (k + m) ≤ 2 ^ (k + m + 1) :=
      pow_le_pow_right₀ one_le_two (Nat.le_succ _)
    refine below_real.mpr ⟨?_, (sum_le_real hlength fun x hx =>
      (below_real.mp (h x hx)).2).trans hdouble⟩
    -- mirrored
    have hneg : (xs.map (- ·)).sum ≤ 2 ^ (k + m) := by
      refine sum_le_real (by rwa [List.length_map]) fun x hx => ?_
      obtain ⟨y, hy, rfl⟩ := List.mem_map.mp hx
      linarith [(below_real.mp (h y hy)).1]
    have hsum : (xs.map (- ·)).sum = -xs.sum := (List.sum_neg xs).symm
    show -2 ^ (k + m + 1) ≤ xs.sum
    linarith
  below_div k _ x i hi _ hx := by
    have hi : (1 : ℝ) ≤ (i : ℝ) := by exact_mod_cast hi
    obtain ⟨hlow, hhigh⟩ := below_real.mp hx
    have hpos : (0 : ℝ) ≤ 2 ^ k := by positivity
    refine below_real.mpr ⟨?_, ?_⟩
    · show -2 ^ k ≤ x / (i : ℝ)
      rw [le_div_iff₀ (by linarith)]
      nlinarith
    · show x / (i : ℝ) ≤ 2 ^ k
      rw [div_le_iff₀ (by linarith)]
      nlinarith
  square_below _ _ x _ := ⟨x * x, rfl⟩

namespace PyFloat

variable {x y : ℝ} {i : Int}

@[simp] theorem ofInt_real : (ofInt i : ℝ) = i := rfl

@[simp] theorem ofDec_real (q : Rat) : (ofDec (.fin q) : ℝ) = q := rfl

@[simp] theorem sum_real (xs : List ℝ) : PyFloat.sum xs = xs.sum := rfl

@[simp] theorem pySq_real : pySq x = .ok (x * x) := rfl

theorem mapM_pySq_real (f : ℝ → ℝ) (xs : List ℝ) :
    (xs.mapM fun x => pySq (f x)) = .ok (xs.map fun x => f x * f x) :=
  mapM_eq_map fun _ _ => pySq_real

@[simp] theorem sqrt_real : PyFloat.sqrt x = √x := rfl

theorem pyDiv_real (hy : y ≠ 0) : pyDiv x y = .ok (x / y) :=
  pyDiv_of_nonzero x (Bool.eq_false_iff.mpr fun h => hy (isZero_real.mp h))

theorem divInt_real (hi : i ≠ 0) : divInt x i = .ok (x / i) :=
  pyDiv_real (x := x) (Int.cast_ne_zero.mpr hi)

theorem mulInt_real : mulInt x i = .ok (x * i) := rfl

end PyFloat

end Pulse
