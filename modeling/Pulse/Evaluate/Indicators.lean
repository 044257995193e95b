/-
  Pulse.Evaluate.Indicators
  ─────────────────────────
  `worker/evaluate/indicators.py`, over any arithmetic.  The periods are whatever
  integers the caller passes: slices and indices are those of the language, with
  negative bounds counted from the end, and a division by a period of zero raises.

    • `calculateEma`, `calculateMacd`,
    • `calculateRsi`,
    • `calculateBollingerBands`.
-/
import Pulse.Core.Float

namespace Pulse

open PyFloat

/-! ## §1. Sequences. -/

/-- `xs[:i]`. -/
def sliceTo {α : Type} (xs : List α) (i : Int) : List α :=
  if 0 ≤ i then xs.take i.toNat else xs.take (xs.length - i.natAbs)

/-- `xs[i:]`. -/
def sliceFrom {α : Type} (xs : List α) (i : Int) : List α :=
  if 0 ≤ i then xs.drop i.toNat else xs.drop (xs.length - i.natAbs)

/-- `xs[i]`. -/
def index {α : Type} (xs : List α) (i : Int) : Except PyErr α :=
  match if 0 ≤ i then xs[i.toNat]? else if i.natAbs ≤ xs.length then
      xs[xs.length - i.natAbs]? else none with
  | some x => .ok x
  | none => .error ⟨.other, "list index out of range"⟩

/-- `range(a, b)`. -/
def pyRange (a b : Int) : List Int := (List.range (b - a).toNat).map fun k : Nat => a + k

variable {F : Type} [PyFloat F]

/-! ## §2. Moving averages. -/

/-- The loop of `calculate_ema`, from the value before. -/
def emaValues (multiplier ema : F) : List F → List F
  | [] => [ema]
  | price :: prices => ema :: emaValues multiplier ((price - ema) * multiplier + ema) prices

/-- `calculate_ema`. -/
def calculateEma (prices : List F) (period : Int) : Except PyErr (List F) :=
  if (prices.length : Int) < period then return []
  else do
    let multiplier ← divInt (ofInt 2) (period + 1)
    let sma ← divInt (PyFloat.sum (sliceTo prices period)) period
    return emaValues multiplier sma (sliceFrom prices period)

/-- The differences of two series, aligned at their ends. -/
def alignedDifference (xs ys : List F) : List F :=
  let minLen : Int := min xs.length ys.length
  List.zipWith (· - ·) (sliceFrom xs (-minLen)) (sliceFrom ys (-minLen))

/-- `calculate_macd` from the MACD line on: the line, its signal line and the histogram. -/
def macdSignal (macdLine : List F) (signalPeriod : Int) :
    Except PyErr (List F × List F × List F) :=
  if (macdLine.length : Int) < signalPeriod then return ([], [], [])
  else do
    let signalLine ← calculateEma macdLine signalPeriod
    if signalLine.length = 0 then return ([], [], [])
    else return (macdLine, signalLine, alignedDifference macdLine signalLine)

/-- `calculate_macd`. -/
def calculateMacd (prices : List F) (fastPeriod slowPeriod signalPeriod : Int) :
    Except PyErr (List F × List F × List F) :=
  if (prices.length : Int) < slowPeriod + signalPeriod then return ([], [], [])
  else do
    let fastEma ← calculateEma prices fastPeriod
    let slowEma ← calculateEma prices slowPeriod
    if (fastEma.length : Int) < slowPeriod || slowEma.length = 0 then return ([], [], [])
    else macdSignal (alignedDifference fastEma slowEma) signalPeriod

/-! ## §3. The relative strength index. -/

/-- `_rsi_from_avgs`. -/
def rsiFromAvgs (avgGain avgLoss : F) : Except PyErr F :=
  if isZero avgLoss then return ofInt 100
  else do
    let rs ← pyDiv avgGain avgLoss
    return ofInt 100 - (← pyDiv (ofInt 100) (ofInt 1 + rs))

/-- The change from each price to the next. -/
def changes : List F → List F
  | a :: b :: prices => (b - a) :: changes (b :: prices)
  | _ => []

/-- `gains` and `losses` of `calculate_rsi`. -/
def gainsOf (prices : List F) : List F := (changes prices).map fun c => pyMax c (ofInt 0)

def lossesOf (prices : List F) : List F := (changes prices).map fun c => pyMax (-c) (ofInt 0)

/-- Wilder's average, with the value that is looked up on the way. -/
def wilder (avg : F) (period : Int) (x : Except PyErr F) : Except PyErr F := do
  divInt ((← mulInt avg (period - 1)) + (← x)) period

/-- The loop of `calculate_rsi` over the indices `is`. -/
def rsiValues (gains losses : List F) (period : Int) :
    List Int → F → F → Except PyErr (List F)
  | [], _, _ => return []
  | i :: is, avgGain, avgLoss => do
      let avgGain ← wilder avgGain period (index gains i)
      let avgLoss ← wilder avgLoss period (index losses i)
      let rsi ← rsiFromAvgs avgGain avgLoss
      return rsi :: (← rsiValues gains losses period is avgGain avgLoss)

/-- `calculate_rsi`. -/
def calculateRsi (prices : List F) (period : Int) : Except PyErr (List F) :=
  if (prices.length : Int) ≤ period then return []
  else do
    let avgGain ← divInt (PyFloat.sum (sliceTo (gainsOf prices) period)) period
    let avgLoss ← divInt (PyFloat.sum (sliceTo (lossesOf prices) period)) period
    let first ← rsiFromAvgs avgGain avgLoss
    return first :: (← rsiValues (gainsOf prices) (lossesOf prices) period
      (pyRange period (gainsOf prices).length) avgGain avgLoss)

/-! ## §4. Bollinger bands. -/

/-- The bands of one window: upper, middle and lower. -/
def bandsOf (period : Int) (stdDev : F) (window : List F) : Except PyErr (F × F × F) := do
  let mean ← divInt (PyFloat.sum window) period
  let squares ← window.mapM fun p => pySq (p - mean)
  let variance ← divInt (PyFloat.sum squares) period
  let sd := PyFloat.sqrt variance
  return (mean + stdDev * sd, mean, mean - stdDev * sd)

/-- `prices[i - period + 1 : i + 1]`, for an index from `period - 1` on. -/
def windowAt (prices : List F) (period i : Int) : List F :=
  (prices.drop (i - period + 1).toNat).take period.toNat

/-- `calculate_bollinger_bands`: upper, middle and lower. -/
def calculateBollingerBands (prices : List F) (period : Int) (stdDev : F) :
    Except PyErr (List F × List F × List F) :=
  if (prices.length : Int) < period || period ≤ 0 then return ([], [], [])
  else do
    let bands ← (pyRange (period - 1) prices.length).mapM fun i =>
      bandsOf period stdDev (windowAt prices period i)
    return (bands.map (·.1), bands.map (·.2.1), bands.map (·.2.2))

/-! ## §5. Where they raise. -/

theorem index_of_lt {α : Type} (xs : List α) {i : Int} (h : 0 ≤ i) (hi : i < xs.length) :
    ∃ x ∈ xs, index xs i = .ok x := by
  have hlt : i.toNat < xs.length := by omega
  refine ⟨xs[i.toNat], List.getElem_mem hlt, ?_⟩
  unfold index
  rw [if_pos h, List.getElem?_eq_getElem hlt]

/-- The last items. -/
theorem index_neg {α : Type} {xs : List α} {k : Nat} (h : 1 ≤ k) (hk : k ≤ xs.length) :
    ∃ x, index xs (-k) = .ok x := by
  have hlt : xs.length - k < xs.length := by omega
  refine ⟨xs[xs.length - k], ?_⟩
  unfold index
  rw [if_neg (by omega), Int.natAbs_neg, Int.natAbs_natCast, if_pos hk,
    List.getElem?_eq_getElem hlt]

theorem index_nil {α : Type} {i : Int} {x : α} : index ([] : List α) i ≠ .ok x := by
  unfold index
  split
  next y hy => split at hy <;> simp at hy
  next => simp

theorem index_last {α : Type} (xs : List α) (h : 1 ≤ xs.length) : ∃ x, index xs (-1) = .ok x :=
  index_neg (le_refl 1) h

theorem index_previous {α : Type} (xs : List α) (h : 2 ≤ xs.length) :
    ∃ x, index xs (-2) = .ok x :=
  index_neg (by decide : 1 ≤ 2) h

theorem length_of_index_previous {α : Type} {xs : List α} {x : α} (h : index xs (-2) = .ok x) :
    2 ≤ xs.length := by
  by_contra hshort
  unfold index at h
  rw [if_neg (by decide), if_neg (by simp; omega)] at h
  cases h

theorem mem_pyRange {a b i : Int} (h : i ∈ pyRange a b) : a ≤ i ∧ i < b := by
  unfold pyRange at h
  obtain ⟨k, hk, rfl⟩ := List.mem_map.mp h
  have := List.mem_range.mp hk
  omega

@[simp] theorem length_pyRange (a b : Int) : (pyRange a b).length = (b - a).toNat := by
  simp [pyRange]

@[simp] theorem length_emaValues (multiplier ema : F) (prices : List F) :
    (emaValues multiplier ema prices).length = prices.length + 1 := by
  induction prices generalizing ema with
  | nil => rfl
  | cons price prices ih => simp [emaValues, ih]

theorem length_sliceFrom {α : Type} (xs : List α) (i : Int) :
    (sliceFrom xs i).length = if 0 ≤ i then xs.length - i.toNat else min i.natAbs xs.length := by
  unfold sliceFrom
  split
  next => simp
  next =>
    rw [List.length_drop]
    omega

@[simp] theorem length_changes : ∀ prices : List F, (changes prices).length = prices.length - 1
  | [] => rfl
  | [_] => rfl
  | _ :: b :: prices => by simp [changes, length_changes (b :: prices)]

@[simp] theorem length_alignedDifference (xs ys : List F) :
    (alignedDifference xs ys).length = min xs.length ys.length := by
  unfold alignedDifference
  rw [List.length_zipWith, length_sliceFrom, length_sliceFrom]
  split <;> omega

/-- One value for each index. -/
theorem rsiValues_length {gains losses : List F} {period : Int} {is : List Int} {avgGain avgLoss : F}
    {values : List F} (h : rsiValues gains losses period is avgGain avgLoss = .ok values) :
    values.length = is.length := by
  induction is generalizing avgGain avgLoss values with
  | nil =>
      obtain rfl := Except.ok.inj h
      rfl
  | cons i is ih =>
      unfold rsiValues at h
      obtain ⟨avgGain, -, h⟩ := bind_ok h
      obtain ⟨avgLoss, -, h⟩ := bind_ok h
      obtain ⟨rsi, -, h⟩ := bind_ok h
      obtain ⟨rest, hrest, h⟩ := bind_ok h
      obtain rfl := Except.ok.inj h
      rw [List.length_cons, List.length_cons, ih hrest]

/-- How many values `calculate_rsi` returns. -/
theorem calculateRsi_length {prices values : List F} {period : Int} (hpos : 0 ≤ period)
    (hlong : period < prices.length) (h : calculateRsi prices period = .ok values) :
    (values.length : Int) = prices.length - period := by
  unfold calculateRsi at h
  rw [if_neg (by omega)] at h
  obtain ⟨avgGain, -, h⟩ := bind_ok h
  obtain ⟨avgLoss, -, h⟩ := bind_ok h
  obtain ⟨first, -, h⟩ := bind_ok h
  obtain ⟨rest, hrest, h⟩ := bind_ok h
  obtain rfl := Except.ok.inj h
  have hcount := rsiValues_length hrest
  rw [length_pyRange] at hcount
  have hgains : (gainsOf prices).length = prices.length - 1 := by simp [gainsOf]
  rw [List.length_cons, hcount, hgains]
  omega

section Lawful

variable [LawfulPyFloat F]

variable (F) in
/-- A moving average of this period can be computed. -/
def Divides (period : Int) : Prop :=
  (fits F (period + 1) = true ∧ period + 1 ≠ 0) ∧ fits F period = true ∧ period ≠ 0

theorem divides_of_pos {period : Int} (hpos : 1 ≤ period) (hsmall : period < 2 ^ 64) :
    Divides F period :=
  ⟨⟨LawfulPyFloat.fits_small _ (by omega) (by omega), by omega⟩,
    LawfulPyFloat.fits_small _ (by omega) (by omega), by omega⟩

/-- `calculate_ema` raises unless there are too few prices or the period divides. -/
theorem calculateEma_ok_iff {prices : List F} {period : Int} :
    (∃ ema, calculateEma prices period = .ok ema) ↔
      (prices.length : Int) < period ∨ Divides F period := by
  unfold calculateEma
  split
  next h => exact iff_of_true ⟨_, rfl⟩ (Or.inl h)
  next h =>
    rw [or_iff_right h]
    unfold Divides
    rw [← divInt_ok_iff (F := F) (x := ofInt 2), ← divInt_ok_iff
      (F := F) (x := PyFloat.sum (sliceTo prices period))]
    constructor
    · rintro ⟨ema, hema⟩
      obtain ⟨multiplier, hmultiplier, hema⟩ := bind_ok hema
      obtain ⟨sma, hsma, -⟩ := bind_ok hema
      exact ⟨⟨multiplier, hmultiplier⟩, sma, hsma⟩
    · rintro ⟨⟨multiplier, hmultiplier⟩, sma, hsma⟩
      rw [hmultiplier, hsma]
      exact ⟨_, rfl⟩

omit [LawfulPyFloat F] in
/-- How many values `calculate_ema` returns. -/
theorem calculateEma_length {prices ema : List F} {period : Int}
    (h : calculateEma prices period = .ok ema) :
    (ema.length : Int) = if (prices.length : Int) < period then 0
      else if 0 ≤ period then prices.length - period + 1
      else min (-period) prices.length + 1 := by
  unfold calculateEma at h
  split at h
  next hshort =>
    obtain rfl := Except.ok.inj h
    simp [hshort]
  next hlong =>
    obtain ⟨multiplier, -, h⟩ := bind_ok h
    obtain ⟨sma, -, h⟩ := bind_ok h
    obtain rfl := Except.ok.inj h
    rw [if_neg hlong, length_emaValues, length_sliceFrom]
    split
    next => omega
    next => omega

variable (F) in
/-- A moving average of this period never raises. -/
def UsablePeriod (period : Int) : Prop := 1 ≤ period ∨ Divides F period

theorem usablePeriod_iff {period : Int} {n : Nat} (hn : n < 2 ^ 64) :
    ((n : Int) < period ∨ Divides F period) ↔ UsablePeriod F period := by
  constructor
  · rintro (h | h)
    · exact Or.inl (by omega)
    · exact Or.inr h
  · rintro (h | h)
    · by_cases hlt : (n : Int) < period
      · exact Or.inl hlt
      · exact Or.inr (divides_of_pos h (by omega))
    · exact Or.inr h

/-- `calculate_macd` gets as far as the signal line on `n` prices. -/
def ReachesSignal (n : Nat) (fastPeriod slowPeriod : Int) : Prop :=
  slowPeriod ≤ 0 ∨ (1 ≤ fastPeriod ∧ fastPeriod + slowPeriod ≤ n + 1) ∨
    (fastPeriod ≤ 0 ∧ slowPeriod ≤ n ∧ slowPeriod ≤ 1 - fastPeriod)

/-- The test before the MACD line is passed exactly then. -/
theorem reachesSignal_iff {prices fastEma slowEma : List F} {fastPeriod slowPeriod : Int}
    (hfast : calculateEma prices fastPeriod = .ok fastEma)
    (hslow : calculateEma prices slowPeriod = .ok slowEma) :
    ((fastEma.length : Int) < slowPeriod || slowEma.length = 0) = false ↔
      ReachesSignal prices.length fastPeriod slowPeriod := by
  have hf := calculateEma_length hfast
  have hs := calculateEma_length hslow
  -- a period of zero would have raised
  have hzero : fastPeriod ≠ 0 := by
    rcases calculateEma_ok_iff.mp ⟨fastEma, hfast⟩ with h | h
    · omega
    · exact h.2.2
  simp only [Bool.or_eq_false_iff, decide_eq_false_iff_not, ReachesSignal]
  split at hf <;> split at hs <;> (try split at hf) <;> (try split at hs) <;> omega

/-- The rest of `calculate_macd` raises unless the signal period can be used. -/
theorem macdSignal_ok_iff {macdLine : List F} {signalPeriod : Int}
    (hn : macdLine.length < 2 ^ 64) :
    (∃ out, macdSignal macdLine signalPeriod = .ok out) ↔ UsablePeriod F signalPeriod := by
  rw [← usablePeriod_iff hn]
  unfold macdSignal
  split
  next h => exact iff_of_true ⟨_, rfl⟩ (Or.inl h)
  next h =>
    rw [← calculateEma_ok_iff]
    constructor
    · rintro ⟨out, hout⟩
      obtain ⟨signalLine, hsignal, -⟩ := bind_ok hout
      exact ⟨signalLine, hsignal⟩
    · rintro ⟨signalLine, hsignal⟩
      rw [hsignal]
      show ∃ out, (if signalLine.length = 0 then _ else _ : Except PyErr _) = .ok out
      split <;> exact ⟨_, rfl⟩

/-- **`calculate_macd` raises** unless there are too few prices or its periods can be
used, that of the signal as far as it is reached. -/
theorem calculateMacd_ok_iff (prices : List F) (fastPeriod slowPeriod signalPeriod : Int)
    (hn : prices.length < 2 ^ 63) :
    (∃ out, calculateMacd prices fastPeriod slowPeriod signalPeriod = .ok out) ↔
      (prices.length : Int) < slowPeriod + signalPeriod ∨
        (UsablePeriod F fastPeriod ∧ UsablePeriod F slowPeriod ∧
          (ReachesSignal prices.length fastPeriod slowPeriod → UsablePeriod F signalPeriod)) := by
  have hema : ∀ period, (∃ ema, calculateEma prices period = .ok ema) ↔ UsablePeriod F period :=
    fun period => calculateEma_ok_iff.trans (usablePeriod_iff (by omega))
  -- the moving averages are not longer than the prices, but for one value
  have hlength : ∀ {period : Int} {ema : List F}, calculateEma prices period = .ok ema →
      ema.length < 2 ^ 64 := by
    intro period ema h
    have := calculateEma_length h
    split at this <;> (try split at this) <;> omega
  unfold calculateMacd
  split
  next h => exact iff_of_true ⟨_, rfl⟩ (Or.inl h)
  next h =>
    rw [or_iff_right h, ← hema, ← hema]
    constructor
    · rintro ⟨out, hout⟩
      obtain ⟨fastEma, hfast, hout⟩ := bind_ok hout
      obtain ⟨slowEma, hslow, hout⟩ := bind_ok hout
      refine ⟨⟨fastEma, hfast⟩, ⟨slowEma, hslow⟩, fun hreaches => ?_⟩
      rw [(reachesSignal_iff hfast hslow).mpr hreaches] at hout
      refine (macdSignal_ok_iff ?_).mp ⟨out, hout⟩
      rw [length_alignedDifference]
      exact lt_of_le_of_lt (min_le_left _ _) (hlength hfast)
    · rintro ⟨⟨fastEma, hfast⟩, ⟨slowEma, hslow⟩, hsignal⟩
      rw [hfast, hslow]
      show ∃ out, (if ((fastEma.length : Int) < slowPeriod || slowEma.length = 0) = true then _
        else macdSignal (alignedDifference fastEma slowEma) signalPeriod) = .ok out
      split
      next => exact ⟨_, rfl⟩
      next hreaches =>
        refine (macdSignal_ok_iff ?_).mpr (hsignal ?_)
        · rw [length_alignedDifference]
          exact lt_of_le_of_lt (min_le_left _ _) (hlength hfast)
        · exact (reachesSignal_iff hfast hslow).mp (Bool.eq_false_iff.mpr hreaches)

/-- Lines that are not empty got as far as the signal line. -/
theorem calculateMacd_reaches {prices macdLine signalLine histogram : List F}
    {fastPeriod slowPeriod signalPeriod : Int}
    (h : calculateMacd prices fastPeriod slowPeriod signalPeriod
      = .ok (macdLine, signalLine, histogram)) (hline : macdLine ≠ []) :
    ReachesSignal prices.length fastPeriod slowPeriod := by
  have hempty : (Except.ok ([], [], []) : Except PyErr (List F × List F × List F))
      ≠ .ok (macdLine, signalLine, histogram) :=
    fun heq => hline (congrArg Prod.fst (Except.ok.inj heq)).symm
  unfold calculateMacd at h
  split at h
  next => exact absurd h hempty
  next =>
    obtain ⟨fastEma, hfast, h⟩ := bind_ok h
    obtain ⟨slowEma, hslow, h⟩ := bind_ok h
    split at h
    next => exact absurd h hempty
    next hreaches => exact (reachesSignal_iff hfast hslow).mp (Bool.eq_false_iff.mpr hreaches)

/-! ### The relative strength index. -/

variable {avg avgGain avgLoss : F} {period : Int}

theorem nonneg_gainsOf (prices : List F) : ∀ x ∈ gainsOf prices, Nonneg x := by
  intro x hx
  obtain ⟨c, -, rfl⟩ := List.mem_map.mp hx
  exact nonneg_max c

theorem nonneg_lossesOf (prices : List F) : ∀ x ∈ lossesOf prices, Nonneg x := by
  intro x hx
  obtain ⟨c, -, rfl⟩ := List.mem_map.mp hx
  exact nonneg_max (-c)

theorem rsiFromAvgs_ok (hgain : Nonneg avgGain) (hloss : Nonneg avgLoss) :
    ∃ rsi, rsiFromAvgs avgGain avgLoss = .ok rsi := by
  unfold rsiFromAvgs
  split
  next => exact ⟨_, rfl⟩
  next hzero =>
    have hne : isZero avgLoss = false := Bool.eq_false_iff.mpr hzero
    have hrs := LawfulPyFloat.nonneg_div avgGain avgLoss hgain hloss hne
    rw [pyDiv_of_nonzero avgGain hne]
    show ∃ rsi, (pyDiv (ofInt 100) (ofInt 1 + avgGain / avgLoss) >>= _) = Except.ok rsi
    rw [pyDiv_of_nonzero _ (LawfulPyFloat.one_add _ hrs)]
    exact ⟨_, rfl⟩

theorem wilder_ok (hpos : 1 ≤ period) (hsmall : period ≤ 2 ^ 64) (havg : Nonneg avg) {x : F}
    (hx : Nonneg x) : ∃ next, wilder avg period (.ok x) = .ok next ∧ Nonneg next := by
  refine ⟨(avg * ofInt (period - 1) + x) / ofInt period, ?_, ?_⟩
  · unfold wilder mulInt
    rw [ofPyInt_small (by omega) (by omega)]
    exact divInt_small (by omega) hsmall
  · refine LawfulPyFloat.nonneg_div _ _ (LawfulPyFloat.nonneg_add _ _
      (LawfulPyFloat.nonneg_mul _ _ havg (LawfulPyFloat.nonneg_ofInt _ (by omega))) hx)
      (LawfulPyFloat.nonneg_ofInt _ (by omega)) (isZero_ofInt_pos (by omega) hsmall)

/-- The loop of `calculate_rsi`, by induction on the indices; both averages stay
non-negative. -/
theorem rsiValues_ok {gains losses : List F} (hpos : 1 ≤ period) (hsmall : period ≤ 2 ^ 64)
    (hgains : ∀ x ∈ gains, Nonneg x) (hlosses : ∀ x ∈ losses, Nonneg x)
    (hlength : losses.length = gains.length) :
    ∀ (is : List Int) (avgGain avgLoss : F), (∀ i ∈ is, 0 ≤ i ∧ i < gains.length) →
      Nonneg avgGain → Nonneg avgLoss →
      ∃ values, rsiValues gains losses period is avgGain avgLoss = .ok values := by
  intro is
  induction is with
  | nil => exact fun _ _ _ _ _ => ⟨[], rfl⟩
  | cons i is ih =>
      intro avgGain avgLoss hrange hgain hloss
      obtain ⟨hlow, hhigh⟩ := hrange i List.mem_cons_self
      obtain ⟨x, hx, hix⟩ := index_of_lt gains hlow hhigh
      obtain ⟨y, hy, hiy⟩ := index_of_lt losses hlow (by omega)
      obtain ⟨gain, hgain', hgain⟩ := wilder_ok hpos hsmall hgain (hgains x hx)
      obtain ⟨loss, hloss', hloss⟩ := wilder_ok hpos hsmall hloss (hlosses y hy)
      obtain ⟨rsi, hrsi⟩ := rsiFromAvgs_ok hgain hloss
      obtain ⟨values, hvalues⟩ := ih gain loss (fun j hj => hrange j (List.mem_cons_of_mem _ hj))
        hgain hloss
      refine ⟨rsi :: values, ?_⟩
      unfold rsiValues
      rw [hix, hiy, hgain', hloss']
      show (rsiFromAvgs gain loss >>= _) = _
      rw [hrsi]
      show (rsiValues gains losses period is gain loss >>= _) = _
      rw [hvalues]
      rfl

/-- **`calculate_rsi` raises nothing** for a positive period. -/
theorem calculateRsi_ok (prices : List F) (hpos : 1 ≤ period) (hsmall : period ≤ 2 ^ 64) :
    ∃ values, calculateRsi prices period = .ok values := by
  unfold calculateRsi
  split
  next => exact ⟨_, rfl⟩
  next =>
    have hmean : ∀ xs : List F, (∀ x ∈ xs, Nonneg x) →
        Nonneg (PyFloat.sum (sliceTo xs period) / ofInt period) := by
      intro xs hxs
      refine LawfulPyFloat.nonneg_div _ _ (LawfulPyFloat.nonneg_sum _ fun x hx => hxs x ?_)
        (LawfulPyFloat.nonneg_ofInt _ (by omega)) (isZero_ofInt_pos (by omega) hsmall)
      unfold sliceTo at hx
      split at hx <;> exact List.mem_of_mem_take hx
    have hgains := nonneg_gainsOf prices
    have hlosses := nonneg_lossesOf prices
    obtain ⟨first, hfirst⟩ := rsiFromAvgs_ok (hmean _ hgains) (hmean _ hlosses)
    obtain ⟨values, hvalues⟩ := rsiValues_ok hpos hsmall hgains hlosses
      (by simp [gainsOf, lossesOf]) (pyRange period (gainsOf prices).length) _ _
      (fun i hi => by have := mem_pyRange hi; omega) (hmean _ hgains) (hmean _ hlosses)
    refine ⟨first :: values, ?_⟩
    rw [divInt_small (by omega) hsmall, divInt_small (by omega) hsmall]
    show (rsiFromAvgs _ _ >>= _) = _
    rw [hfirst]
    show (rsiValues _ _ _ _ _ _ >>= _) = _
    rw [hvalues]
    rfl

/-! ### Bollinger bands. -/

/-- A price that is far from the largest double. -/
def Moderate (p : F) : Prop := ∀ k, 40 ≤ k → k < 500 → Below k p

/-- The squares of moderate prices are in range. -/
theorem bandsOf_ok (stdDev : F) {window : List F} (hpos : 1 ≤ period) (hsmall : period ≤ 2 ^ 63)
    (hlength : window.length ≤ 2 ^ 63) (hprices : ∀ p ∈ window, Moderate p) :
    ∃ bands, bandsOf period stdDev window = .ok bands := by
  have hfits := LawfulPyFloat.fits_small (F := F) period (by omega) (by omega)
  have hsum : Below 104 (PyFloat.sum window) :=
    LawfulPyFloat.below_sum 40 63 (by decide) window hlength
      fun p hp => hprices p hp 40 (le_refl _) (by decide)
  have hmean := LawfulPyFloat.below_div 104 (by decide) _ _ hpos hfits hsum
  have hsquare : ∀ p ∈ window,
      ∃ y, pySq (p - PyFloat.sum window / ofInt period) = .ok y := by
    intro p hp
    obtain ⟨y, hy⟩ := LawfulPyFloat.square_below 105 (by decide) _
      (LawfulPyFloat.below_sub 104 (by decide) _ _ (hprices p hp 104 (by decide) (by decide)) hmean)
    exact ⟨y, by rw [pySq, hy]⟩
  obtain ⟨squares, hsquares⟩ := mapM_of_forall window hsquare
  unfold bandsOf
  rw [divInt_small (by omega) (by omega), ok_bind, hsquares, ok_bind,
    divInt_small (by omega) (by omega)]
  exact ⟨_, rfl⟩

/-- **`calculate_bollinger_bands` raises nothing** on moderate prices; it returns bands for every
index from `period - 1` on. -/
theorem calculateBollingerBands_ok {prices : List F} (stdDev : F) (hsmall : period ≤ 2 ^ 63)
    (hprices : ∀ p ∈ prices, Moderate p) :
    ∃ upper middle lower,
      calculateBollingerBands prices period stdDev = .ok (upper, middle, lower) ∧
      lower.length = upper.length ∧
      (upper.length : Int) = if (prices.length : Int) < period ∨ period ≤ 0 then 0
        else prices.length - period + 1 := by
  unfold calculateBollingerBands
  split
  next h =>
    rw [Bool.or_eq_true, decide_eq_true_eq, decide_eq_true_eq] at h
    exact ⟨[], [], [], rfl, rfl, by rw [if_pos h]; rfl⟩
  next h =>
    rw [Bool.or_eq_true, decide_eq_true_eq, decide_eq_true_eq] at h
    have hpos : 1 ≤ period := by omega
    have hwindow : ∀ i, (windowAt prices period i).length ≤ 2 ^ 63 ∧
        ∀ p ∈ windowAt prices period i, Moderate p := by
      intro i
      refine ⟨(List.length_take_le _ _).trans (by omega), fun p hp => hprices p ?_⟩
      exact List.mem_of_mem_drop (List.mem_of_mem_take hp)
    obtain ⟨bands, hbands⟩ := mapM_of_forall (pyRange (period - 1) prices.length)
      fun i _ => bandsOf_ok stdDev hpos hsmall (hwindow i).1 (hwindow i).2
    have hlength := (mapM_forall₂ hbands).length_eq
    rw [length_pyRange] at hlength
    rw [hbands, if_neg h]
    refine ⟨_, _, _, rfl, by simp, ?_⟩
    rw [List.length_map]
    omega

end Lawful

end Pulse
