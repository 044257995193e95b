/-
  Pulse.Core.Numeral
  ──────────────────
  **NUMBERS IN STRINGS.**

  `int(s)`, `Decimal(s)` and `float(s)` read nearly the same strings.  They differ in
  where underscores may stand, in which blanks they strip, and in how large a number
  they take.

    • `Dec`                                — the values of `Decimal`,
    • `intOfStr`, `decOfStr`, `floatOfStr` — the three readings.
-/
import Mathlib.Data.Rat.Init
import Mathlib.Data.Rat.Defs
import Mathlib.Algebra.Order.Ring.Rat
import Mathlib.Algebra.Field.Rat

namespace Pulse

/-- `Decimal` values; a payload of a NaN is not told apart. -/
inductive Dec where
  | fin (q : Rat)
  | inf (neg : Bool)
  | nan
  | snan
  deriving DecidableEq, Repr

/-- `bool(d)`. -/
def Dec.truthy : Dec → Bool
  | .fin q => q ≠ 0
  | _ => true

/-! ## §1. Characters. -/

/-- The blanks of `str.isspace` beyond ASCII. -/
def isWideBlank (n : Nat) : Bool :=
  n = 0x85 || n = 0xa0 || n = 0x1680 || (0x2000 ≤ n && n ≤ 0x200a) || n = 0x2028 || n = 0x2029 ||
    n = 0x202f || n = 0x205f || n = 0x3000

/-- The zeros of the scripts that have decimal digits, beyond ASCII. -/
def wideZeros : List Nat :=
  [0x660, 0x6f0, 0x7c0, 0x966, 0x9e6, 0xa66, 0xae6, 0xb66, 0xbe6, 0xc66, 0xce6, 0xd66, 0xde6,
   0xe50, 0xed0, 0xf20, 0x1040, 0x1090, 0x17e0, 0x1810, 0x1946, 0x19d0, 0x1a80, 0x1a90, 0x1b50,
   0x1bb0, 0x1c40, 0x1c50, 0xa620, 0xa8d0, 0xa900, 0xa9d0, 0xa9f0, 0xaa50, 0xabf0, 0xff10,
   0x104a0, 0x10d30, 0x11066, 0x110f0, 0x11136, 0x111d0, 0x112f0, 0x11450, 0x114d0, 0x11650,
   0x116c0, 0x11730, 0x118e0, 0x11950, 0x11c50, 0x11d50, 0x11da0, 0x11f50, 0x16a60, 0x16ac0,
   0x16b50, 0x1d7ce, 0x1d7d8, 0x1d7e2, 0x1d7ec, 0x1d7f6, 0x1e140, 0x1e2f0, 0x1e4f0, 0x1e950,
   0x1fbf0]

/-- A digit or a blank of any script as the ASCII one. -/
def narrow (c : Char) : Char :=
  if c.toNat < 128 then c
  else if isWideBlank c.toNat then ' '
  else
    match wideZeros.find? fun z => z ≤ c.toNat && c.toNat < z + 10 with
    | some z => Char.ofNat ('0'.toNat + (c.toNat - z))
    | none => c

/-- The blanks that `int` and `float` strip. -/
def isBlank (c : Char) : Bool :=
  c = ' ' || c = '\t' || c = '\n' || c = '\r' || c = '\x0b' || c = '\x0c'

/-- The blanks that `Decimal` strips: the separators of ASCII as well. -/
def isSpace (c : Char) : Bool := isBlank c || (0x1c ≤ c.toNat && c.toNat ≤ 0x1f)

/-- Without the blanks at both ends. -/
def trim (blank : Char → Bool) (cs : List Char) : List Char :=
  ((cs.dropWhile blank).reverse.dropWhile blank).reverse

/-- `str.strip`. -/
def strip (cs : List Char) : List Char := trim (fun c => isSpace c || isWideBlank c.toNat) cs

/-- An optional sign (`true` for minus) and what follows it. -/
def takeSign : List Char → Bool × List Char
  | '-' :: cs => (true, cs)
  | '+' :: cs => (false, cs)
  | cs => (false, cs)

/-- The value of a run of digits. -/
def digitsVal (ds : List Char) : Nat :=
  ds.foldl (fun n d => 10 * n + (d.toNat - '0'.toNat)) 0

/-- How many digits an integer has. -/
def digitCount (n : Nat) : Nat := (Nat.toDigits 10 n).length

/-- How many digits of an integer the interpreter converts. -/
def maxStrDigits : Nat := 4300

/-! ## §2. `int(s)`. -/

/-- Digits with single underscores between them. -/
def isIntLiteral : List Char → Bool
  | [] => false
  | [c] => c.isDigit
  | c :: '_' :: cs => c.isDigit && isIntLiteral cs
  | c :: cs => c.isDigit && isIntLiteral cs

/-- `int(s)` for a string; `none` where it raises `ValueError`. -/
def intOfStr (s : String) : Option Int :=
  let (neg, ds) := takeSign (trim isBlank (s.toList.map narrow))
  let digits := ds.filter (· ≠ '_')
  if isIntLiteral ds && digits.length ≤ maxStrDigits then
    let n : Int := digitsVal digits
    some (if neg then -n else n)
  else none

/-! ## §3. `Decimal(s)` and `float(s)`. -/

/-- A decimal literal: `coefficient * 10 ^ exponent`. -/
structure Numeral where
  neg : Bool
  coefficient : Nat
  exponent : Int

/-- The number that it denotes. -/
def Numeral.value (x : Numeral) : Rat :=
  let q : Rat := (x.coefficient : Rat) * (10 : Rat) ^ x.exponent
  if x.neg then -q else q

/-- The exponents that `Decimal` has: of the first digit and of the last. -/
def Numeral.inRange (x : Numeral) : Bool :=
  (digitCount x.coefficient : Int) - 1 + x.exponent ≤ 999999999999999999 &&
    -1999999999999999997 ≤ x.exponent

/-- The exponent part of a decimal literal: nothing, or `e`, a sign, digits. -/
def takeExponent : List Char → Option Int
  | [] => some 0
  | c :: cs =>
      if c = 'e' ∨ c = 'E' then
        let (neg, ds) := takeSign cs
        if ds.isEmpty || !ds.all Char.isDigit then none
        else some (if neg then -(digitsVal ds : Int) else digitsVal ds)
      else none

/-- Digits, then perhaps a point and more digits, then perhaps an exponent. -/
def numeralOf (neg : Bool) (cs : List Char) : Option Numeral :=
  let ip := cs.takeWhile Char.isDigit
  let rest := cs.dropWhile Char.isDigit
  let (fp, tail) := match rest with
    | '.' :: r => (r.takeWhile Char.isDigit, r.dropWhile Char.isDigit)
    | r => ([], r)
  if (ip ++ fp).isEmpty then none
  else (takeExponent tail).map fun e => ⟨neg, digitsVal (ip ++ fp), e - fp.length⟩

/-- `Decimal(s)` for a string; `none` where it raises `InvalidOperation`. -/
def decOfStr (s : String) : Option Dec :=
  let (neg, cs) := takeSign ((trim isSpace (s.toList.map narrow)).filter (· ≠ '_'))
  let word := cs.map Char.toLower
  if word = "inf".toList ∨ word = "infinity".toList then some (.inf neg)
  else if "nan".toList.isPrefixOf word then
    if (word.drop 3).all Char.isDigit then some .nan else none
  else if "snan".toList.isPrefixOf word then
    if (word.drop 4).all Char.isDigit then some .snan else none
  else
    match numeralOf neg cs with
    | some x => if x.inRange then some (.fin x.value) else none
    | none => none

/-- Every underscore stands between two digits. -/
def underscoresBetween : List Char → Bool
  | a :: '_' :: b :: cs => a.isDigit && b.isDigit && underscoresBetween (b :: cs)
  | '_' :: _ => false
  | [_, '_'] => false
  | _ :: cs => underscoresBetween cs
  | [] => true

/-- `float(s)` for a string, as the number it denotes; `none` where it raises
`ValueError`. -/
def floatOfStr (s : String) : Option Dec :=
  let (neg, cs) := takeSign (trim isBlank (s.toList.map narrow))
  let word := cs.map Char.toLower
  if word = "inf".toList ∨ word = "infinity".toList then some (.inf neg)
  else if word = "nan".toList then some .nan
  else if underscoresBetween cs then
    (numeralOf neg (cs.filter (· ≠ '_'))).map fun x => .fin x.value
  else none

example : intOfStr " -1_000 " = some (-1000) ∧ intOfStr "１２" = some 12 := by decide

example : underscoresBetween "1_0.5e1_0".toList = true ∧
    underscoresBetween "1__0".toList = false := by decide

end Pulse
