/-
  Pulse.Core.Double
  ─────────────────
  **DOUBLES AS INTEGERS.**

  Rounding to a double and the decimal by which a double is shown, in integer
  arithmetic, so that both can be computed.

    • `Binary.round`        — 53 bits of a fraction, ties to even,
    • `Binary.round_le`, `Binary.le_round` — rounding passes no integer of 53 bits,
    • `Double.ofRat`        — the double nearest to a number,
    • `Double.shortest`     — `repr`: the shortest decimal that reads back as the double.
-/
import Mathlib.Data.Rat.Init
import Mathlib.Data.Rat.Defs
import Mathlib.Algebra.Order.Ring.Rat
import Mathlib.Algebra.Field.Rat

namespace Pulse

/-! ## §1. Rounding. -/

/-- `n / d` to the nearest integer, ties to even. -/
def roundDiv (n d : Nat) : Nat :=
  if 2 * (n % d) < d ∨ (2 * (n % d) = d ∧ n / d % 2 = 0) then n / d else n / d + 1

/-- `mantissa * 2 ^ exponent`. -/
structure Binary where
  mantissa : Nat
  exponent : Int
  deriving DecidableEq, Repr

namespace Binary

/-- The value, as a fraction. -/
def num (x : Binary) : Nat := x.mantissa * 2 ^ x.exponent.toNat

def den (x : Binary) : Nat := 2 ^ (-x.exponent).toNat

/-- The place of the first bit of `n / d`. -/
def firstBit (n d : Nat) : Int :=
  let e : Int := (Nat.log2 n : Int) - (Nat.log2 d : Int)
  if d * 2 ^ e.toNat ≤ n * 2 ^ (-e).toNat then e else e - 1

/-- The place of the last of 53 bits; there is none below `2 ^ -1074`. -/
def lastBit (n d : Nat) : Int := max (firstBit n d - 52) (-1074)

/-- A carry into a bit more. -/
def carry (m : Nat) (e : Int) : Binary := if m = 2 ^ 53 then ⟨2 ^ 52, e + 1⟩ else ⟨m, e⟩

/-- `n / d` to 53 bits. -/
def round (n d : Nat) : Binary :=
  let e := lastBit n d
  carry (roundDiv (n * 2 ^ (-e).toNat) (d * 2 ^ e.toNat)) e

end Binary

/-! ### Rounding passes no integer of 53 bits. -/

theorem roundDiv_le {n d q : Nat} (h : n ≤ q * d) : roundDiv n d ≤ q := by
  have hdiv : n / d ≤ q := Nat.div_le_of_le_mul (by rwa [Nat.mul_comm])
  unfold roundDiv
  split
  next => exact hdiv
  next hup =>
    -- rounded up, so that there is a remainder
    rcases Nat.lt_or_eq_of_le hdiv with hlt | heq
    · exact hlt
    · have hsplit := Nat.div_add_mod n d
      rw [heq, Nat.mul_comm] at hsplit
      have hzero : n % d = 0 := by omega
      have hd : d = 0 := by
        by_contra hne
        exact hup (Or.inl (by omega))
      subst hd
      simp at hzero
      subst hzero
      simp at heq
      subst heq
      simp at hup

theorem le_roundDiv {n d q : Nat} (hd : 0 < d) (h : q * d ≤ n) : q ≤ roundDiv n d := by
  have hdiv : q ≤ n / d := (Nat.le_div_iff_mul_le hd).mpr h
  unfold roundDiv
  split
  next => exact hdiv
  next => exact Nat.le_succ_of_le hdiv

namespace Binary

theorem den_pos (x : Binary) : 0 < x.den := Nat.two_pow_pos _

/-- A carry changes nothing. -/
theorem carry_value (m : Nat) (e : Int) :
    (carry m e).num * 2 ^ (-e).toNat = m * 2 ^ e.toNat * (carry m e).den := by
  unfold carry
  split
  next hm =>
    rw [hm]
    show 2 ^ 52 * 2 ^ (e + 1).toNat * 2 ^ (-e).toNat
      = 2 ^ 53 * 2 ^ e.toNat * 2 ^ (-(e + 1)).toNat
    rw [← Nat.pow_add, ← Nat.pow_add, ← Nat.pow_add, ← Nat.pow_add]
    congr 1
    omega
  next => rfl

/-- The first bit is one. -/
theorem firstBit_le {n d : Nat} (hn : 0 < n) :
    d * 2 ^ (firstBit n d).toNat ≤ n * 2 ^ (-firstBit n d).toNat := by
  unfold firstBit
  dsimp only
  split
  next h => exact h
  next =>
    have hlow : 2 ^ Nat.log2 n ≤ n := Nat.log2_self_le (by omega)
    have hhigh : d < 2 ^ (Nat.log2 d + 1) := Nat.lt_log2_self
    generalize Nat.log2 n = a at *
    generalize Nat.log2 d = b at *
    rcases Nat.lt_or_ge b a with hab | hab
    · -- above one
      have hup : ((a : Int) - b - 1).toNat = a - b - 1 := by omega
      have hdown : (-((a : Int) - b - 1)).toNat = 0 := by omega
      rw [hup, hdown, Nat.pow_zero, Nat.mul_one]
      have hsum : 2 ^ (b + 1) * 2 ^ (a - b - 1) = 2 ^ a := by
        rw [← Nat.pow_add]
        congr 1
        omega
      calc d * 2 ^ (a - b - 1) ≤ 2 ^ (b + 1) * 2 ^ (a - b - 1) :=
            Nat.mul_le_mul_right _ hhigh.le
        _ = 2 ^ a := hsum
        _ ≤ n := hlow
    · -- below one
      have hup : ((a : Int) - b - 1).toNat = 0 := by omega
      have hdown : (-((a : Int) - b - 1)).toNat = b + 1 - a := by omega
      rw [hup, hdown, Nat.pow_zero, Nat.mul_one]
      have hsum : 2 ^ a * 2 ^ (b + 1 - a) = 2 ^ (b + 1) := by
        rw [← Nat.pow_add]
        congr 1
        omega
      calc d ≤ 2 ^ (b + 1) := hhigh.le
        _ = 2 ^ a * 2 ^ (b + 1 - a) := hsum.symm
        _ ≤ n * 2 ^ (b + 1 - a) := Nat.mul_le_mul_right _ hlow

variable {n d k : Nat}

/-- Above 53 bits the fraction is an integer of more. -/
theorem two_pow_le_of_lastBit (hn : 0 < n) (h : 0 < lastBit n d) :
    2 ^ 52 * (d * 2 ^ (lastBit n d).toNat) ≤ n := by
  have hfirst := firstBit_le (d := d) hn
  have hsplit : (firstBit n d).toNat = 52 + (lastBit n d).toNat := by
    unfold lastBit at h ⊢
    omega
  have hnone : (-firstBit n d).toNat = 0 := by
    unfold lastBit at h
    omega
  rw [hsplit, hnone, Nat.pow_zero, Nat.mul_one, Nat.pow_add] at hfirst
  calc 2 ^ 52 * (d * 2 ^ (lastBit n d).toNat) = d * (2 ^ 52 * 2 ^ (lastBit n d).toNat) := by
        rw [Nat.mul_left_comm]
    _ ≤ n := hfirst

/-- What is not above an integer is not rounded above it. -/
theorem round_le (hd : 0 < d) (hk : k < 2 ^ 53) (h : n ≤ k * d) :
    (round n d).num ≤ k * (round n d).den := by
  unfold round
  dsimp only
  rcases Nat.eq_zero_or_pos n with rfl | hn
  · have hzero : roundDiv (0 * 2 ^ (-lastBit 0 d).toNat) (d * 2 ^ (lastBit 0 d).toNat) = 0 :=
      Nat.le_zero.mp (roundDiv_le (by simp))
    rw [hzero]
    show 0 * _ ≤ _
    rw [Nat.zero_mul]
    exact Nat.zero_le _
  · have hplace : lastBit n d ≤ 0 := by
      by_contra hpos
      have hbig := two_pow_le_of_lastBit (d := d) hn (by omega)
      have htwo : 2 ≤ 2 ^ (lastBit n d).toNat := Nat.le_self_pow (by omega) 2
      have hlow : 2 ^ 53 * d ≤ 2 ^ 52 * (d * 2 ^ (lastBit n d).toNat) :=
        calc 2 ^ 53 * d = 2 ^ 52 * (d * 2) := by omega
          _ ≤ _ := Nat.mul_le_mul_left _ (Nat.mul_le_mul_left _ htwo)
      have hhigh : k * d < 2 ^ 53 * d := Nat.mul_lt_mul_of_pos_right hk hd
      omega
    generalize lastBit n d = e at *
    have hunit : e.toNat = 0 := by omega
    have hm : roundDiv (n * 2 ^ (-e).toNat) (d * 2 ^ e.toNat) ≤ k * 2 ^ (-e).toNat := by
      apply roundDiv_le
      rw [hunit, Nat.pow_zero, Nat.mul_one, Nat.mul_right_comm]
      exact Nat.mul_le_mul_right _ h
    generalize roundDiv _ _ = m at *
    have hvalue := carry_value m e
    rw [hunit, Nat.pow_zero, Nat.mul_one] at hvalue
    apply Nat.le_of_mul_le_mul_right _ (Nat.two_pow_pos (-e).toNat)
    rw [hvalue, Nat.mul_right_comm]
    exact Nat.mul_le_mul_right _ hm

/-- What is not below an integer is not rounded below it. -/
theorem le_round (hd : 0 < d) (hk : k < 2 ^ 53) (h : k * d ≤ n) :
    k * (round n d).den ≤ (round n d).num := by
  unfold round
  dsimp only
  rcases Nat.eq_zero_or_pos k with rfl | hkpos
  · rw [Nat.zero_mul]
    exact Nat.zero_le _
  have hn : 0 < n := Nat.lt_of_lt_of_le (Nat.mul_pos hkpos hd) h
  apply Nat.le_of_mul_le_mul_right _ (Nat.two_pow_pos (-lastBit n d).toNat)
  rw [carry_value, Nat.mul_right_comm]
  apply Nat.mul_le_mul_right
  rcases Int.lt_or_le 0 (lastBit n d) with hplace | hplace
  · -- the mantissa has 53 bits, and the number more
    have hbig := two_pow_le_of_lastBit hn hplace
    have hnone : (-lastBit n d).toNat = 0 := by omega
    have hm : 2 ^ 52 ≤ roundDiv (n * 2 ^ (-lastBit n d).toNat) (d * 2 ^ (lastBit n d).toNat) := by
      apply le_roundDiv (Nat.mul_pos hd (Nat.two_pow_pos _))
      rw [hnone, Nat.pow_zero, Nat.mul_one]
      exact hbig
    have htwo : 2 ≤ 2 ^ (lastBit n d).toNat := Nat.le_self_pow (by omega) 2
    rw [hnone, Nat.pow_zero, Nat.mul_one, Nat.mul_one] at *
    calc k ≤ 2 ^ 52 * 2 := by omega
      _ ≤ _ := Nat.mul_le_mul hm htwo
  · have hunit : (lastBit n d).toNat = 0 := by omega
    rw [hunit, Nat.pow_zero, Nat.mul_one, Nat.mul_one]
    apply le_roundDiv hd
    rw [Nat.mul_right_comm]
    exact Nat.mul_le_mul_right _ h

end Binary

/-- A double that is a number. -/
inductive Double where
  | fin (neg : Bool) (x : Binary)
  | inf (neg : Bool)
  deriving DecidableEq, Repr

namespace Double

/-- The double nearest to `n / d`, or to its negation. -/
def nearest (neg : Bool) (n d : Nat) : Double :=
  let x := Binary.round n d
  if x.exponent ≤ 971 then .fin neg x else .inf neg

/-- The double nearest to a number. -/
def ofRat (q : Rat) : Double := nearest (decide (q < 0)) q.num.natAbs q.den

/-- `bool(x)`. -/
def truthy : Double → Bool
  | .fin _ x => x.mantissa ≠ 0
  | .inf _ => true

/-- `math.trunc(x)`; an infinity has no integer. -/
def trunc : Double → Option Int
  | .fin neg x => some (if neg then -((x.num / x.den : Nat) : Int) else (x.num / x.den : Nat))
  | .inf _ => none

/-- The value of a double that is not infinite. -/
def value (neg : Bool) (x : Binary) : Rat :=
  let v : Rat := (x.num : Rat) / x.den
  if neg then -v else v

/-! ## §2. The decimal of a double. -/

/-- `c * 10 ^ e`, read as a double without its sign. -/
def readBack (c : Nat) (e : Int) : Binary := Binary.round (c * 10 ^ e.toNat) (10 ^ (-e).toNat)

/-- How many digits stand before the point: the first `k` with `n / d < 10 ^ k`. -/
def magnitude (n d : Nat) : Int :=
  -- a digit is worth `log2 10` bits, so that the estimate is off by few
  let k : Int := ((Nat.log2 n : Int) - Nat.log2 d) * 30103 / 100000 - 1
  let enough : Int → Bool := fun k => n * 10 ^ (-k).toNat < d * 10 ^ k.toNat
  (([k, k + 1, k + 2].find? enough).getD (k + 3))

/-- The decimal with a last digit at `10 ^ e` that reads back as `x`: of two the nearer,
and of two as near the even one. -/
def decimalAt (x : Binary) (e : Int) : Option Nat :=
  let n := x.num * 10 ^ (-e).toNat
  let d := x.den * 10 ^ e.toNat
  let low := readBack (n / d) e = x
  let high := readBack (n / d + 1) e = x
  if low ∧ high then some (roundDiv n d)
  else if low then some (n / d)
  else if high then some (n / d + 1)
  else none

/-- The digits and the exponent of `repr`: as few digits as read back, and 17 always do. -/
def shortest (x : Binary) : Nat × Int :=
  if x.mantissa = 0 then (0, 0)
  else
    let k := magnitude x.num x.den
    ((List.range 17).findSome? fun (p : Nat) =>
      (decimalAt x (k - (p + 1))).map fun c => (c, k - (p + 1))).getD (0, 0)

/-- The number that `repr` shows. -/
def shown (neg : Bool) (x : Binary) : Rat :=
  let v : Rat := ((shortest x).1 : Rat) * (10 : Rat) ^ (shortest x).2
  if neg then -v else v

/-- What is not true is shown as zero. -/
theorem shown_of_falsy {neg : Bool} {x : Binary} (h : (Double.fin neg x).truthy = false) :
    shown neg x = 0 := by
  have hzero : x.mantissa = 0 := by simpa [truthy] using h
  have hshortest : shortest x = (0, 0) := if_pos hzero
  unfold shown
  rw [hshortest]
  cases neg <;> simp

theorem trunc_of_falsy {x : Double} (h : x.truthy = false) : x.trunc = some 0 := by
  cases x with
  | fin neg x =>
      have hzero : x.mantissa = 0 := by simpa [truthy] using h
      have hnum : x.num = 0 := by simp [Binary.num, hzero]
      simp only [trunc, hnum, Nat.zero_div]
      cases neg <;> rfl
  | inf neg => exact absurd h (by simp [truthy])

end Double

end Pulse
