/-
  Pulse.Core.Float
  ────────────────
  **WHAT THE PROGRAM TAKES FROM `float`.**

  The rule classes compute with floating point.  Its arithmetic is a parameter:
  doubles, which round and have infinities and NaN, are one instance, exact
  numbers are another.  Which conversions and divisions raise is settled here.

    • `PyFloat`        — the operations,
    • `LawfulPyFloat`  — what is relied on, true of doubles as well,
    • `Json.toFloat`   — `float(x)`,
    • `Json.item`, `Json.getD` — `d[k]` and `d.get(k, default)`.
-/
import Pulse.Core.Time

namespace Pulse

/-! ## §1. The arithmetic. -/

/-- `float`. -/
class PyFloat (F : Type) extends Add F, Sub F, Mul F, Div F, Neg F, LT F, LE F where
  decLt : DecidableLT F
  decLe : DecidableLE F
  /-- An integer that is in range, rounded. -/
  ofInt : Int → F
  /-- The integer does not overflow. -/
  fits : Int → Bool
  /-- `float(d)` for a decimal, or for the text that denotes it. -/
  ofDec : Dec → F
  /-- `sum`. -/
  sum : List F → F
  /-- `x ** 2`; `none` where it is out of range. -/
  square : F → Option F
  sqrt : F → F

attribute [reducible, instance] PyFloat.decLt PyFloat.decLe

namespace PyFloat

variable {F : Type} [PyFloat F]

/-- `x == 0`. -/
def isZero (x : F) : Bool := x ≤ ofInt 0 && ofInt 0 ≤ x

/-- Not below zero; a NaN is not. -/
def Nonneg (x : F) : Prop := ¬ x < ofInt 0

/-- `max(x, y)`: the first unless the second is greater. -/
def pyMax (x y : F) : F := if x < y then y else x

/-- `abs(x)`. -/
def pyAbs (x : F) : F := if x < ofInt 0 then -x else x

/-- `float(i)`. -/
def ofPyInt (i : Int) : Except PyErr F :=
  if fits F i then .ok (ofInt i)
  else .error ⟨.overflowError, "int too large to convert to float"⟩

/-- `x / y`. -/
def pyDiv (x y : F) : Except PyErr F :=
  if isZero y then .error ⟨.zeroDivisionError, "float division by zero"⟩ else .ok (x / y)

/-- `x / i` for an integer. -/
def divInt (x : F) (i : Int) : Except PyErr F := do
  pyDiv x (← ofPyInt i)

/-- `x ** 2`; where a product would be an infinity it raises. -/
def pySq (x : F) : Except PyErr F :=
  match square x with
  | some y => .ok y
  | none => .error ⟨.overflowError, "Numerical result out of range"⟩

/-- Not above `2 ^ k` and not below its negation; a NaN is neither. -/
def Below (k : Nat) (x : F) : Prop := ¬ ofInt (2 ^ k) < x ∧ ¬ x < ofInt (-2 ^ k)

/-- `x * i` for an integer. -/
def mulInt (x : F) (i : Int) : Except PyErr F := do
  return x * (← ofPyInt i)

end PyFloat

open PyFloat in
/-- What is relied on. -/
class LawfulPyFloat (F : Type) [PyFloat F] : Prop where
  fits_small : ∀ i : Int, -2 ^ 64 ≤ i → i ≤ 2 ^ 64 → fits F i = true
  isZero_ofInt : ∀ i : Int, fits F i = true → (isZero (ofInt i : F) = true ↔ i = 0)
  nonneg_ofInt : ∀ i : Int, 0 ≤ i → Nonneg (ofInt i : F)
  nonneg_sum : ∀ xs : List F, (∀ x ∈ xs, Nonneg x) → Nonneg (sum xs)
  nonneg_add : ∀ x y : F, Nonneg x → Nonneg y → Nonneg (x + y)
  nonneg_mul : ∀ x y : F, Nonneg x → Nonneg y → Nonneg (x * y)
  nonneg_div : ∀ x y : F, Nonneg x → Nonneg y → isZero y = false → Nonneg (x / y)
  one_add : ∀ x : F, Nonneg x → isZero (ofInt 1 + x) = false
  -- far from the largest double, which is just below `2 ^ 1024`
  below_ofDec : ∀ k < 500, ∀ q : Rat, -2 ^ k ≤ q → q ≤ 2 ^ k → Below k (ofDec (.fin q) : F)
  below_nan : ∀ k < 500, Below k (ofDec .nan : F)
  below_sub : ∀ k < 500, ∀ x y : F, Below k x → Below k y → Below (k + 1) (x - y)
  below_sum : ∀ k m : Nat, k + m < 500 → ∀ xs : List F, xs.length ≤ 2 ^ m →
    (∀ x ∈ xs, Below k x) → Below (k + m + 1) (sum xs)
  below_div : ∀ k < 500, ∀ (x : F) (i : Int), 1 ≤ i → fits F i = true → Below k x →
    Below k (x / ofInt i)
  square_below : ∀ k < 500, ∀ x : F, Below k x → ∃ y, square x = some y

namespace PyFloat

variable {F : Type} [PyFloat F]

theorem pyDiv_of_nonzero (x : F) {y : F} (h : isZero y = false) : pyDiv x y = .ok (x / y) := by
  simp [pyDiv, h]

variable [LawfulPyFloat F]

theorem ofPyInt_small {i : Int} (hlow : -2 ^ 64 ≤ i) (hhigh : i ≤ 2 ^ 64) :
    (ofPyInt i : Except PyErr F) = .ok (ofInt i) := by
  simp [ofPyInt, LawfulPyFloat.fits_small i hlow hhigh]

/-- Dividing by an integer raises if it is zero or out of range. -/
theorem divInt_ok_iff {x : F} {i : Int} :
    (∃ y, divInt x i = .ok y) ↔ fits F i = true ∧ i ≠ 0 := by
  unfold divInt ofPyInt
  by_cases hfits : fits F i = true
  · rw [if_pos hfits]
    have hzero := LawfulPyFloat.isZero_ofInt (F := F) i hfits
    show (∃ y, pyDiv x (ofInt i) = .ok y) ↔ _
    by_cases hi : i = 0
    · have hdiv : isZero (ofInt i : F) = true := hzero.mpr hi
      simp only [pyDiv, if_pos hdiv]
      simp [hi]
    · have hne : isZero (ofInt i : F) = false := by
        rw [Bool.eq_false_iff]
        exact fun h => hi (hzero.mp h)
      simp [pyDiv, hne, hi, hfits]
  · rw [if_neg hfits]
    simp [hfits, bind, Except.bind]

theorem isZero_ofInt_pos {i : Int} (hpos : 0 < i) (hhigh : i ≤ 2 ^ 64) :
    isZero (ofInt i : F) = false := by
  have hfits := LawfulPyFloat.fits_small (F := F) i (by omega) hhigh
  rw [Bool.eq_false_iff]
  intro h
  have := (LawfulPyFloat.isZero_ofInt i hfits).mp h
  omega

theorem divInt_small {x : F} {i : Int} (hpos : 0 < i) (hhigh : i ≤ 2 ^ 64) :
    divInt x i = .ok (x / ofInt i) := by
  unfold divInt
  rw [ofPyInt_small (by omega) hhigh]
  exact pyDiv_of_nonzero x (isZero_ofInt_pos hpos hhigh)

/-- `max(x, 0.0)`. -/
theorem nonneg_max (x : F) : Nonneg (pyMax x (ofInt 0)) := by
  unfold pyMax
  split
  next => exact LawfulPyFloat.nonneg_ofInt 0 (le_refl 0)
  next h => exact h

end PyFloat

/-! ## §2. `float(x)`. -/

/-- `float(x)`. -/
def Json.toFloat (F : Type) [PyFloat F] : Json → Except PyErr F
  | .int i => PyFloat.ofPyInt i
  | .bool b => .ok (PyFloat.ofInt (if b then 1 else 0))
  | .num q => .ok (PyFloat.ofDec (.fin q))
  | .str s =>
      match floatOfStr s with
      | some d => .ok (PyFloat.ofDec d)
      | none => .error ⟨.valueError, "could not convert string to float"⟩
  | .null | .arr _ | .obj _ =>
      .error ⟨.typeError, "float() argument must be a string or a real number"⟩

/-- `float(d)` of a decimal. -/
def Dec.toFloat (F : Type) [PyFloat F] : Dec → Except PyErr F
  | .snan => .error ⟨.valueError, "cannot convert signaling NaN to float"⟩
  | d => .ok (PyFloat.ofDec d)

theorem Dec.toFloat_of_ne {F : Type} [PyFloat F] {d : Dec} (h : d ≠ .snan) :
    d.toFloat F = .ok (PyFloat.ofDec d) := by
  cases d with
  | snan => exact absurd rfl h
  | fin | inf | nan => rfl

/-! ## §3. Dictionaries. -/

namespace Json

/-- `k in d`. -/
def has (d : List (String × Json)) (k : String) : Bool := d.any fun e => e.1 = k

/-- `d.get(k, default)`. -/
def getD (d : List (String × Json)) (k : String) (default : Json) : Json :=
  match d.find? (fun e => e.1 = k) with
  | some e => e.2
  | none => default

/-- `d[k]`. -/
def item (d : List (String × Json)) (k : String) : Except PyErr Json :=
  match d.find? (fun e => e.1 = k) with
  | some e => .ok e.2
  | none => .error ⟨.keyError, k⟩

/-- `x == s` for a string. -/
def isStr (s : String) : Json → Bool
  | .str t => t = s
  | _ => false

end Json

end Pulse
