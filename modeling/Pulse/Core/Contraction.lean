/-
  Pulse.Core.Contraction
  ──────────────────────
  **FOLDS THAT FORGET WHERE THEY STARTED.**

  A step that brings any two values together by one factor `c`, whatever it is given: after
  `k` steps two folds differ by `c ^ k` of what they began with.

    • `Contracts.foldl`     — exactly that,
    • `Contracts.abs_foldl` — and so at most that, for starts at most `b` apart.
-/
import Mathlib.Algebra.Order.Field.Basic
import Mathlib.Algebra.Order.Ring.Abs
import Mathlib.Tactic.Ring

namespace Pulse.Contraction

variable {K α : Type*} [CommRing K] {c : K} {f : K → α → K}

/-- The step brings any two values together by the factor `c`. -/
def Contracts (c : K) (f : K → α → K) : Prop := ∀ e e' x, f e x - f e' x = (e - e') * c

/-- **Two folds over the same values.** -/
theorem Contracts.foldl (h : Contracts c f) (xs : List α) (e e' : K) :
    xs.foldl f e - xs.foldl f e' = (e - e') * c ^ xs.length := by
  induction xs generalizing e e' with
  | nil => simp
  | cons x xs ih =>
      rw [List.foldl_cons, List.foldl_cons, ih, h, List.length_cons, pow_succ]
      ring

variable [LinearOrder K] [IsStrictOrderedRing K]

theorem Contracts.abs_foldl (h : Contracts c f) (hc : 0 ≤ c) {e e' b : K} (hb : |e - e'| ≤ b)
    (xs : List α) : |xs.foldl f e - xs.foldl f e'| ≤ b * c ^ xs.length := by
  rw [h.foldl, abs_mul, abs_of_nonneg (pow_nonneg hc _)]
  exact mul_le_mul_of_nonneg_right hb (pow_nonneg hc _)

end Pulse.Contraction
