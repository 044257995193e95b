/-
  Pulse.Core.Smoothing
  ────────────────────
  **AVERAGES THAT ARE SMOOTHED STEP BY STEP.**

  The mean of the first `n` values, and then for each further value `x` the step
  from `a` to `(a (n - 1) + x) / n`: Wilder's average, over any ordered field.

    • `average_append`      — the step,
    • `average_nonneg`      — no sign appears that the values do not have,
    • `average_eq_zero_iff` — from `n = 2` on nothing is forgotten: the average of
                              values that are not negative is zero if all are,
    • `average_one`         — for `n = 1` all but the last value is,
    • `abs_average_sub_le`  — how much two averages with the same last values differ.
-/
import Pulse.Core.Contraction
import Mathlib.Algebra.Order.Field.Basic
import Mathlib.Algebra.BigOperators.Group.List.Basic
import Mathlib.Algebra.Order.BigOperators.Group.List
import Mathlib.Tactic.FieldSimp
import Mathlib.Tactic.Positivity
import Mathlib.Tactic.Linarith
import Mathlib.Tactic.Ring

namespace Pulse.Smoothing

variable {K : Type*} [Field K]

/-! ## §1. The step. -/

/-- One step of an average over `n` values. -/
def step (n : ℕ) (a x : K) : K := (a * (n - 1) + x) / n

/-- The mean of the first `n` values, and then a step for each further one. -/
def average (n : ℕ) (xs : List K) : K := (xs.drop n).foldl (step n) ((xs.take n).sum / n)

variable {n : ℕ} {xs : List K} {a x : K}

theorem average_short (h : xs.length ≤ n) : average n xs = xs.sum / n := by
  unfold average
  rw [List.drop_eq_nil_of_le h, List.take_of_length_le h]
  rfl

theorem average_append (h : n ≤ xs.length) (x : K) :
    average n (xs ++ [x]) = step n (average n xs) x := by
  unfold average
  rw [List.drop_append_of_le_length h, List.take_append_of_le_length h, List.foldl_append]
  rfl

/-- The first two values count alike. -/
theorem average_swap (h : 2 ≤ n) (a b : K) (xs : List K) :
    average n (a :: b :: xs) = average n (b :: a :: xs) := by
  obtain ⟨k, rfl⟩ : ∃ k, n = k + 2 := ⟨n - 2, by omega⟩
  unfold average
  simp only [List.drop_succ_cons, List.take_succ_cons, List.sum_cons]
  congr 2
  ring

section Order

variable [LinearOrder K] [IsStrictOrderedRing K]

/-! ## §2. Signs. -/

theorem step_nonneg (hn : 1 ≤ n) (ha : 0 ≤ a) (hx : 0 ≤ x) : 0 ≤ step n a x := by
  have hcast : (1 : K) ≤ n := Nat.one_le_cast.mpr hn
  have hshare : 0 ≤ a * ((n : K) - 1) := mul_nonneg ha (by linarith)
  unfold step
  exact div_nonneg (by linarith) (by linarith)

theorem average_nonneg (hn : 1 ≤ n) (h : ∀ x ∈ xs, 0 ≤ x) : 0 ≤ average n xs := by
  induction xs using List.reverseRecOn with
  | nil =>
      rw [average_short (Nat.zero_le n), List.sum_nil, zero_div]
  | append_singleton xs x ih =>
      by_cases hlong : n ≤ xs.length
      · rw [average_append hlong]
        refine step_nonneg hn (ih fun y hy => h y ?_) (h x ?_)
        · exact List.mem_append_left _ hy
        · exact List.mem_append_right _ List.mem_cons_self
      · rw [average_short (by simp; omega)]
        exact div_nonneg (List.sum_nonneg h) (Nat.cast_nonneg n)

/-- A larger value is a larger step. -/
theorem step_le_step {y : K} (hn : 1 ≤ n) (hle : x ≤ y) (a : K) : step n a x ≤ step n a y := by
  have hcast : (1 : K) ≤ n := Nat.one_le_cast.mpr hn
  unfold step
  rw [div_le_div_iff_of_pos_right (by linarith)]
  linarith

/-! ## §3. Where an average is zero. -/

theorem step_eq_zero_iff (hn : 1 ≤ n) (ha : 0 ≤ a) (hx : 0 ≤ x) :
    step n a x = 0 ↔ (n = 1 ∨ a = 0) ∧ x = 0 := by
  have hcast : (1 : K) ≤ n := Nat.one_le_cast.mpr hn
  have hshare : 0 ≤ a * ((n : K) - 1) := mul_nonneg ha (by linarith)
  have hone : (n : K) - 1 = 0 ↔ n = 1 := by rw [sub_eq_zero, Nat.cast_eq_one]
  unfold step
  rw [div_eq_zero_iff, or_iff_left (by linarith : (n : K) ≠ 0), add_eq_zero_iff_of_nonneg hshare hx,
    mul_eq_zero, hone, or_comm]

theorem sum_eq_zero_iff (h : ∀ x ∈ xs, 0 ≤ x) : xs.sum = 0 ↔ ∀ x ∈ xs, x = 0 := by
  induction xs with
  | nil => simp
  | cons x xs ih =>
      have hx := h x List.mem_cons_self
      have hxs : ∀ y ∈ xs, 0 ≤ y := fun y hy => h y (List.mem_cons_of_mem _ hy)
      rw [List.sum_cons, add_eq_zero_iff_of_nonneg hx (List.sum_nonneg hxs), ih hxs,
        List.forall_mem_cons]

/-- **Nothing is forgotten**, for averages over at least two values. -/
theorem average_eq_zero_iff (hn : 2 ≤ n) (h : ∀ x ∈ xs, 0 ≤ x) :
    average n xs = 0 ↔ ∀ x ∈ xs, x = 0 := by
  have hne : (n : K) ≠ 0 := Nat.cast_ne_zero.mpr (by omega)
  induction xs using List.reverseRecOn with
  | nil => simp [average_short (show ([] : List K).length ≤ n from Nat.zero_le n)]
  | append_singleton xs x ih =>
      by_cases hlong : n ≤ xs.length
      · have hxs : ∀ y ∈ xs, 0 ≤ y := fun y hy => h y (List.mem_append_left _ hy)
        have hx : 0 ≤ x := h x (List.mem_append_right _ List.mem_cons_self)
        have hbefore : average n xs = 0 ↔ ∀ y ∈ xs, y = 0 := ih hxs
        rw [average_append hlong, step_eq_zero_iff (by omega) (average_nonneg (by omega) hxs) hx,
          or_iff_right (by omega), hbefore, List.forall_mem_append, List.forall_mem_singleton]
      · rw [average_short (by simp; omega), div_eq_zero_iff, or_iff_left hne, sum_eq_zero_iff h]

omit [LinearOrder K] [IsStrictOrderedRing K] in
/-- **All but the last value is forgotten**, for averages over one. -/
theorem average_one (xs : List K) (x : K) : average 1 (xs ++ [x]) = x := by
  by_cases hlong : 1 ≤ xs.length
  · rw [average_append hlong]
    simp [step]
  · have hnil : xs = [] := List.length_eq_zero_iff.mp (by omega)
    rw [hnil]
    simp [average]

/-- Zeros pull an average down. -/
theorem average_zeros_le (hn : 1 ≤ n) (h : ∀ x ∈ xs, 0 ≤ x) (hlong : n ≤ xs.length) (k : ℕ) :
    average n (xs ++ List.replicate k 0) ≤ average n xs := by
  have hcast : (1 : K) ≤ n := Nat.one_le_cast.mpr hn
  induction k with
  | zero => simp
  | succ k ih =>
      have hzeros : ∀ y ∈ xs ++ List.replicate k (0 : K), 0 ≤ y := by
        intro y hy
        rcases List.mem_append.mp hy with hy | hy
        · exact h y hy
        · exact (List.eq_of_mem_replicate hy).ge
      rw [List.replicate_succ', ← List.append_assoc, average_append (by simp; omega)]
      refine le_trans ?_ ih
      have hnonneg := average_nonneg hn hzeros
      unfold step
      rw [div_le_iff₀ (by linarith)]
      linarith

/-! ## §4. Values with the same end. -/

theorem average_le {b : K} (hn : 1 ≤ n) (hb : 0 ≤ b) (h : ∀ x ∈ xs, x ≤ b) :
    average n xs ≤ b := by
  have hcast : (1 : K) ≤ n := Nat.one_le_cast.mpr hn
  have hpos : (0 : K) < n := by linarith
  induction xs using List.reverseRecOn with
  | nil =>
      rw [average_short (Nat.zero_le n), List.sum_nil, zero_div]
      exact hb
  | append_singleton xs x ih =>
      by_cases hlong : n ≤ xs.length
      · have hbefore : average n xs ≤ b := ih fun y hy => h y (List.mem_append_left _ hy)
        have hlast : x ≤ b := h x (List.mem_append_right _ List.mem_cons_self)
        have hshare : average n xs * ((n : K) - 1) ≤ b * ((n : K) - 1) :=
          mul_le_mul_of_nonneg_right hbefore (by linarith)
        rw [average_append hlong, step, div_le_iff₀ hpos]
        linarith
      · -- at most `n` values
        have hcount : ((xs ++ [x]).length : K) ≤ n := by
          rw [Nat.cast_le, List.length_append, List.length_singleton]
          omega
        have hsum : (xs ++ [x]).sum ≤ (xs ++ [x]).length * b := by
          rw [← nsmul_eq_mul]
          exact List.sum_le_card_nsmul _ _ h
        rw [average_short (by simp; omega), div_le_iff₀ hpos]
        linarith [mul_le_mul_of_nonneg_right hcount hb]

omit [LinearOrder K] [IsStrictOrderedRing K] in
theorem average_append_list (h : n ≤ xs.length) (ys : List K) :
    average n (xs ++ ys) = ys.foldl (step n) (average n xs) := by
  unfold average
  rw [List.drop_append_of_le_length h, List.take_append_of_le_length h, List.foldl_append]

theorem contracts_step (hn : 1 ≤ n) : Contraction.Contracts (1 - 1 / (n : K)) (step n) := by
  have hne : (n : K) ≠ 0 := Nat.cast_ne_zero.mpr (by omega)
  intro a a' x
  unfold step
  field_simp
  ring

theorem factor_nonneg (hn : 1 ≤ n) : 0 ≤ 1 - 1 / (n : K) := by
  have hcast : (1 : K) ≤ n := Nat.one_le_cast.mpr hn
  rw [sub_nonneg, div_le_one (by linarith)]
  exact hcast

/-- **Two averages of values from `0` to `b`** that end with the same values. -/
theorem abs_average_sub_le {ys : List K} {b : K} (hn : 1 ≤ n) (hxs : n ≤ xs.length)
    (hys : n ≤ ys.length) (hb : 0 ≤ b) (h : ∀ x ∈ xs, 0 ≤ x ∧ x ≤ b)
    (h' : ∀ y ∈ ys, 0 ≤ y ∧ y ≤ b) (zs : List K) :
    |average n (xs ++ zs) - average n (ys ++ zs)| ≤ b * (1 - 1 / (n : K)) ^ zs.length := by
  have hlow := average_nonneg hn fun x hx => (h x hx).1
  have hhigh := average_le hn hb fun x hx => (h x hx).2
  have hlow' := average_nonneg hn fun y hy => (h' y hy).1
  have hhigh' := average_le hn hb fun y hy => (h' y hy).2
  have hstart : |average n xs - average n ys| ≤ b := by
    rw [abs_le]
    constructor <;> linarith
  rw [average_append_list hxs, average_append_list hys]
  exact (contracts_step hn).abs_foldl (factor_nonneg hn) hstart zs

end Order

end Pulse.Smoothing
