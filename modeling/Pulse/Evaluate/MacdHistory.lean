/-
  Pulse.Evaluate.MacdHistory
  ──────────────────────────
  **IS THE HISTORY LONG ENOUGH FOR A MACD?**

  `calculate_macd` asks for `slow_period + signal_period` prices and says that this
  is enough.  A second test, on the fast average, compares the number of its values
  with the slow period; it asks for `fast_period + slow_period - 1` prices.

    • `calculateMacd_short`         — where that test fails, nothing is returned,
    • `calculateMacd_long`          — where it is passed, all three lines are there,
    • `calculateMacd_announced_iff` — the two together.
-/
import Pulse.Core.Exact
import Pulse.Evaluate.Indicators

namespace Pulse

open PyFloat

/-! ## §1. What is announced. -/

section Lawful

variable {F : Type} [PyFloat F]

/-- The lines that `calculate_macd` announces for `n` prices, with two signal values to
compare. -/
def Announced (n : Nat) (slowPeriod signalPeriod : Int)
    (out : Except PyErr (List F × List F × List F)) : Prop :=
  ∃ macdLine signalLine histogram, out = .ok (macdLine, signalLine, histogram) ∧
    (macdLine.length : Int) = n - slowPeriod + 1 ∧
    (signalLine.length : Int) = n - slowPeriod - signalPeriod + 2 ∧
    (histogram.length : Int) = n - slowPeriod - signalPeriod + 2 ∧
    2 ≤ signalLine.length

variable (F) in
/-- The length of a list of `n` prices, and the one after it, do not overflow. -/
def FitsLength (n : Nat) : Prop := ∀ i : Int, 1 ≤ i → i ≤ n + 1 → fits F i = true

/-! ## §2. The averages. -/

theorem FitsLength.divides {n : Nat} (h : FitsLength F n) {period : Int} (hpos : 1 ≤ period)
    (hle : period ≤ n) : Divides F period := by
  refine ⟨⟨h _ ?_ ?_, ?_⟩, h _ hpos ?_, ?_⟩
  · omega
  · omega
  · omega
  · omega
  · omega

variable [LawfulPyFloat F]

/-- An average of a period that is not longer than the prices. -/
theorem FitsLength.calculateEma_ok {n : Nat} (h : FitsLength F n) {prices : List F} {period : Int}
    (hpos : 1 ≤ period) (hle : period ≤ prices.length) (hn : prices.length ≤ n) :
    ∃ ema, calculateEma prices period = .ok ema ∧
      (ema.length : Int) = prices.length - period + 1 := by
  have hdivides : Divides F period := h.divides hpos (by omega)
  have hok : ∃ ema, calculateEma prices period = .ok ema :=
    calculateEma_ok_iff.mpr (Or.inr hdivides)
  obtain ⟨ema, hema⟩ := hok
  have hlength := calculateEma_length hema
  rw [if_neg (by omega), if_pos (by omega)] at hlength
  exact ⟨ema, hema, hlength⟩

section Macd

variable {prices : List F} {fastPeriod slowPeriod signalPeriod : Int}
  (hfits : FitsLength F prices.length) (hfast : 1 ≤ fastPeriod) (hle : fastPeriod ≤ slowPeriod)
  (hsignal : 1 ≤ signalPeriod) (hlong : slowPeriod + signalPeriod ≤ prices.length)

include hfits hfast hle hsignal hlong

/-- Too few values of the fast average: no line is returned. -/
theorem calculateMacd_short (h : prices.length + 1 < fastPeriod + slowPeriod) :
    calculateMacd prices fastPeriod slowPeriod signalPeriod = .ok ([], [], []) := by
  obtain ⟨fastEma, hfastEma, hfastLength⟩ :=
    hfits.calculateEma_ok hfast (by omega) (le_refl prices.length)
  obtain ⟨slowEma, hslowEma, hslowLength⟩ :=
    hfits.calculateEma_ok (show 1 ≤ slowPeriod by omega) (by omega) (le_refl prices.length)
  have hfew : (fastEma.length : Int) < slowPeriod := by omega
  unfold calculateMacd
  rw [if_neg (by omega), hfastEma, ok_bind, hslowEma, ok_bind, if_pos (by simp [hfew])]
  rfl

/-- Enough of them: the three lines. -/
theorem calculateMacd_long (h : fastPeriod + slowPeriod ≤ prices.length + 1) :
    Announced prices.length slowPeriod signalPeriod
      (calculateMacd prices fastPeriod slowPeriod signalPeriod) := by
  obtain ⟨fastEma, hfastEma, hfastLength⟩ :=
    hfits.calculateEma_ok hfast (by omega) (le_refl prices.length)
  obtain ⟨slowEma, hslowEma, hslowLength⟩ :=
    hfits.calculateEma_ok (show 1 ≤ slowPeriod by omega) (by omega) (le_refl prices.length)
  have hreaches := (reachesSignal_iff hfastEma hslowEma).mpr (Or.inr (Or.inl ⟨hfast, h⟩))
  -- the slow average is the shorter one, so the line has its length
  have hline : ((alignedDifference fastEma slowEma).length : Int)
      = prices.length - slowPeriod + 1 := by
    rw [length_alignedDifference]
    omega
  obtain ⟨signalLine, hsignalLine, hsignalLength⟩ :=
    hfits.calculateEma_ok hsignal (show (_ : Int) ≤ (alignedDifference fastEma slowEma).length by
      omega) (by omega)
  refine ⟨alignedDifference fastEma slowEma, signalLine,
    alignedDifference (alignedDifference fastEma slowEma) signalLine, ?_, hline, ?_, ?_, ?_⟩
  · unfold calculateMacd
    rw [if_neg (by omega), hfastEma, ok_bind, hslowEma, ok_bind, hreaches]
    show macdSignal (alignedDifference fastEma slowEma) signalPeriod = _
    unfold macdSignal
    rw [if_neg (by omega), hsignalLine, ok_bind, if_neg (by omega)]
    rfl
  · omega
  · rw [length_alignedDifference]
    omega
  · omega

/-- **The three lines are returned exactly if there are also as many prices as the two averages
take together, less one.** -/
theorem calculateMacd_announced_iff :
    Announced prices.length slowPeriod signalPeriod
        (calculateMacd prices fastPeriod slowPeriod signalPeriod) ↔
      fastPeriod + slowPeriod ≤ prices.length + 1 := by
  constructor
  · intro hannounced
    by_contra hfew
    obtain ⟨macdLine, signalLine, histogram, hlines, hline, -, -, -⟩ := hannounced
    rw [calculateMacd_short hfits hfast hle hsignal hlong (by omega)] at hlines
    have hempty : macdLine = [] := (congrArg Prod.fst (Except.ok.inj hlines)).symm
    rw [hempty, List.length_nil] at hline
    omega
  · exact calculateMacd_long hfits hfast hle hsignal hlong

end Macd

end Lawful

/-! ### The usual periods, on 37 and on 35 prices. -/

theorem calculateMacd_announced_usual :
    (FitsLength ℝ 37 ∧ (1 : Int) ≤ 12 ∧ (12 : Int) ≤ 26 ∧ (1 : Int) ≤ 9) ∧
    (Announced 37 26 9 (calculateMacd (List.replicate 37 (1 : ℝ)) 12 26 9) ↔
      (12 + 26 : Int) ≤ 37 + 1) := by
  have h := @calculateMacd_announced_iff ℝ _ _ (List.replicate 37 (1 : ℝ)) 12 26 9 (fun _ _ _ => rfl) (by decide) (by decide) (by decide)
    (by simp)
  rw [List.length_replicate] at h
  exact ⟨⟨fun _ _ _ => rfl, by decide, by decide, by decide⟩, h⟩

/-- **35 prices are announced to be enough**, and are not. -/
theorem calculateMacd_announced_fails :
    ¬ ∀ (prices : List ℝ) (fastPeriod slowPeriod signalPeriod : Int), 1 ≤ fastPeriod →
      fastPeriod ≤ slowPeriod → 1 ≤ signalPeriod → slowPeriod + signalPeriod ≤ prices.length →
      Announced prices.length slowPeriod signalPeriod
        (calculateMacd prices fastPeriod slowPeriod signalPeriod) := by
  intro h
  have hlong : (26 + 9 : Int) ≤ (List.replicate 35 (1 : ℝ)).length := by simp
  obtain ⟨macdLine, signalLine, histogram, hlines, hline, -, -, -⟩ :=
    h (List.replicate 35 1) 12 26 9 (by decide) (by decide) (by decide) hlong
  rw [calculateMacd_short (fun _ _ _ => rfl) (by decide) (by decide) (by decide) hlong (by simp)]
    at hlines
  have hempty : macdLine = [] := (congrArg Prod.fst (Except.ok.inj hlines)).symm
  rw [hempty, List.length_nil, List.length_replicate] at hline
  omega

end Pulse
