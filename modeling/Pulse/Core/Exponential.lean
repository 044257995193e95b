/-
  Pulse.Core.Exponential
  ──────────────────────
  **EXPONENTIAL AVERAGES.**

  The mean of the first `p` values, and then for each further value `x` the step from
  `e` to `(x - e) a + e`, where the rate `a` is `2 / (p + 1)`; over any ordered field.

    • `average_append` — the step,
    • `series`         — the averages of all prefixes that hold `p` values,
    • `sub_step`       — how far a step falls short of its value,
    • `step_sub_step_le` — of two rates, the larger one moves further.
-/
import Mathlib.Algebra.Order.Field.Basic
import Mathlib.Algebra.BigOperators.Group.List.Basic
import Mathlib.Tactic.Positivity
import Mathlib.Tactic.Linarith
import Mathlib.Tactic.Ring

namespace Pulse.Exponential

variable {K : Type*} [Field K]

/-! ## §1. The step. -/

/-- One step of rate `a`. -/
def step (a e x : K) : K := (x - e) * a + e

/-- The rate of an average over `p` values. -/
def rate (p : ℕ) : K := (2 : ℕ) / (p + 1)

/-- The mean of the first `p` values, and then a step for each further one. -/
def average (p : ℕ) (xs : List K) : K :=
  (xs.drop p).foldl (step (rate p)) ((xs.take p).sum / p)

variable {p : ℕ} {xs : List K} {a b e x y : K}

theorem rate_eq (p : ℕ) : (rate p : K) = 2 / (p + 1) := by
  unfold rate
  rw [Nat.cast_ofNat]

theorem average_append (h : p ≤ xs.length) (x : K) :
    average p (xs ++ [x]) = step (rate p) (average p xs) x := by
  unfold average
  rw [List.drop_append_of_le_length h, List.take_append_of_le_length h, List.foldl_append]
  rfl

/-- A step falls short of its value by the rest of the way. -/
theorem sub_step (a e x : K) : x - step a e x = (x - e) * (1 - a) := by
  unfold step
  ring

/-! ## §2. The averages of all prefixes. -/

/-- The averages of the prefixes with at least `p` values, the shortest first. -/
def series (p : ℕ) (xs : List K) : List K :=
  (List.range' p (xs.length + 1 - p)).map fun k => average p (xs.take k)

@[simp] theorem length_series (p : ℕ) (xs : List K) :
    (series p xs).length = xs.length + 1 - p := by
  simp [series]

theorem getElem?_series {i : ℕ} (h : p + i ≤ xs.length) :
    (series p xs)[i]? = some (average p (xs.take (p + i))) := by
  have hi : i < xs.length + 1 - p := by omega
  unfold series
  rw [List.getElem?_map, List.getElem?_range' hi, Option.map_some, one_mul]

/-- One value more is one prefix more. -/
theorem series_append (h : p ≤ xs.length + 1) (x : K) :
    series p (xs ++ [x]) = series p xs ++ [average p (xs ++ [x])] := by
  have hcount : (xs ++ [x]).length + 1 - p = xs.length + 1 - p + 1 := by
    rw [List.length_append, List.length_singleton]
    omega
  have hall : (xs ++ [x]).take (p + (xs.length + 1 - p)) = xs ++ [x] := by
    apply List.take_of_length_le
    rw [List.length_append, List.length_singleton]
    omega
  unfold series
  rw [hcount, List.range'_1_concat, List.map_append, List.map_singleton, hall]
  congr 1
  -- the prefixes before do not reach `x`
  apply List.map_congr_left
  intro k hk
  have hk' := (List.mem_range'_1.mp hk).2
  rw [List.take_append_of_le_length (by omega)]

theorem series_append_two (h : p ≤ xs.length + 1) (x y : K) :
    series p (xs ++ [x] ++ [y])
      = series p xs ++ [average p (xs ++ [x]), average p (xs ++ [x] ++ [y])] := by
  have hnext : p ≤ (xs ++ [x]).length + 1 := by
    rw [List.length_append]
    omega
  rw [series_append hnext, series_append h, List.append_assoc]
  rfl

/-- **A scan from the mean of the first values** runs through the averages of the prefixes. -/
theorem scanl_eq_series (h : p ≤ xs.length) :
    (xs.drop p).scanl (step (rate p)) ((xs.take p).sum / p) = series p xs := by
  apply List.ext_getElem?
  intro i
  by_cases hi : p + i ≤ xs.length
  · have htake : (xs.take (p + i)).take p = xs.take p := by
      rw [List.take_take, min_eq_left (by omega)]
    have hdrop : (xs.take (p + i)).drop p = (xs.drop p).take i := by
      rw [List.drop_take, Nat.add_sub_cancel_left]
    rw [getElem?_series hi, List.getElem?_scanl, if_pos (by rw [List.length_drop]; omega)]
    unfold average
    rw [htake, hdrop]
  · rw [List.getElem?_eq_none, List.getElem?_eq_none]
    · rw [length_series]
      omega
    · rw [List.length_scanl, List.length_drop]
      omega

/-! ## §3. Order. -/

section Order

variable [LinearOrder K] [IsStrictOrderedRing K]

theorem rate_le_one (h : 1 ≤ p) : (rate p : K) ≤ 1 := by
  have hcast : (1 : K) ≤ p := Nat.one_le_cast.mpr h
  rw [rate_eq, div_le_one (by linarith)]
  linarith

/-- The longer the period, the smaller the rate. -/
theorem rate_le_rate {q : ℕ} (h : p ≤ q) : (rate q : K) ≤ rate p := by
  have hcast : (p : K) ≤ q := Nat.cast_le.mpr h
  have hpos : (0 : K) < p + 1 := by positivity
  rw [rate_eq, rate_eq]
  apply div_le_div_of_nonneg_left
  · norm_num
  · exact hpos
  · linarith

/-- **Of two steps to the same value**, the one with the larger rate moves further with it. -/
theorem step_sub_step_le (hrate : b ≤ a) (hle : x ≤ y) (e e' : K) :
    step a e x - step b e' x ≤ step a e y - step b e' y := by
  have hmove : 0 ≤ (y - x) * (a - b) := mul_nonneg (by linarith) (by linarith)
  have hsplit : step a e y - step b e' y - (step a e x - step b e' x) = (y - x) * (a - b) := by
    unfold step
    ring
  linarith

end Order

end Pulse.Exponential
