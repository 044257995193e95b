/-
  Pulse.Evaluate.Crossings
  ────────────────────────
  **ARE RSI CROSSINGS REPORTED EXACTLY ONCE?**

  At every bar the rule computes the average anew from the newest candles and
  compares the last two of its values.  As long as all candles of the run are
  among the newest, the last value but one is the last value of the bar before.
  Afterwards the window has dropped its first candle, the average starts from
  another seed, and the two need not agree.

    • `previous_of_short`      — a run within the lookback,
    • `previous_of_one`        — averages over one value forget the seed,
    • `crossings_misreported`  — a run of any greater length, period 2 and up,
    • `crossings_reported_iff` — the lengths for which every run is right.
-/
import Pulse.Evaluate.BarRun
import Pulse.Evaluate.Strength

namespace Pulse

open PyFloat Smoothing Pulse.Store

/-! ## §1. What is asked. -/

/-- `cur(t)`: the latest value of `calculate_rsi` at the bar of `candle`, if there is one. -/
noncomputable def currentRsi (n : ℕ) (candle : Candle) (store : List Candle) : Option ℝ :=
  match calculateRsi (rsiWindow (closeOf ℝ) n candle store) n with
  | .ok values => (index values (-1)).toOption
  | .error _ => none

/-- At every bar of the run that has a value, as the bar before it has, the rule fires exactly if
the value crossed the threshold between the two. -/
def CrossingsReported (n : ℕ) (base : Table Candle.key) (candles : List Candle) : Prop :=
  ∀ older c c', older ++ [c, c'] <+: candles →
    ∀ previous, currentRsi n c (storeAll base (older ++ [c])).rows = some previous →
    ∀ current, currentRsi n c' (storeAll base (older ++ [c, c'])).rows = some current →
    ∀ overbought threshold,
      RsiFires (closeOf ℝ) n overbought threshold c' (storeAll base (older ++ [c, c'])).rows ↔
        Crosses overbought threshold previous current

/-! ## §2. The values at a bar. -/

/-- The closes of a run. -/
noncomputable def closesOf (candles : List Candle) : List ℝ := candles.map (closeOf ℝ)

section Bar

variable {symbol : String} {candles older : List Candle} {base : Table Candle.key} {c : Candle}
  {n : ℕ}

/-- The window at the last bar. -/
theorem BarRun.rsiWindow_last (h : BarRun symbol (older ++ [c])) (hclear : Clear symbol base)
    (n : ℕ) :
    rsiWindow (closeOf ℝ) n c (storeAll base (older ++ [c])).rows
      = (closesOf (older ++ [c])).rtake (rsiLookback n) := by
  unfold rsiWindow
  rw [h.symbol c (List.mem_append_right _ List.mem_cons_self)]
  exact h.pricesBy_newest hclear _ _

/-- A value is computed from more than `n` closes. -/
theorem currentRsi_eq_some (h : BarRun symbol (older ++ [c])) (hclear : Clear symbol base)
    (hn : 1 ≤ n) {v : ℝ} :
    currentRsi n c (storeAll base (older ++ [c])).rows = some v ↔
      n < (older ++ [c]).length ∧ v = rsi n ((closesOf (older ++ [c])).rtake (rsiLookback n)) := by
  have hlookback : n < rsiLookback n := by
    unfold rsiLookback
    omega
  have hlength : ((closesOf (older ++ [c])).rtake (rsiLookback n)).length
      = min (rsiLookback n) (older ++ [c]).length := by
    rw [length_rtake, closesOf, List.length_map]
  unfold currentRsi
  rw [h.rsiWindow_last hclear]
  generalize (closesOf (older ++ [c])).rtake (rsiLookback n) = prices at hlength ⊢
  by_cases hlong : n < (older ++ [c]).length
  · -- the last of the values
    obtain ⟨m, hm⟩ : ∃ m, prices.length - n = m + 1 := ⟨prices.length - n - 1, by omega⟩
    have hlast : n + m + 1 = prices.length := by omega
    have hvalues := calculateRsi_real hn (show n < prices.length by omega)
    rw [hm, List.range'_1_concat, List.map_append, List.map_singleton, hlast,
      List.take_of_length_le (le_refl _)] at hvalues
    have hindex : ∀ (xs : List ℝ) (x : ℝ), index (xs ++ [x]) (-1) = .ok x := by
      intro xs x
      unfold index
      simp
    rw [hvalues]
    dsimp only
    rw [hindex, and_iff_right hlong]
    exact ⟨fun hv => (Option.some.inj hv).symm, fun hv => hv ▸ rfl⟩
  · have hnone : calculateRsi prices n = .ok [] := by
      unfold calculateRsi
      rw [if_pos (by omega)]
      rfl
    have hindex : index ([] : List ℝ) (-1) = .error ⟨.other, "list index out of range"⟩ := rfl
    rw [hnone]
    dsimp only
    rw [hindex]
    exact iff_of_false (by simp [Except.toOption]) fun hv => hlong hv.1

/-- The rule compares with the value of the window without its newest close. -/
theorem rsiFires_iff (h : BarRun symbol (older ++ [c])) (hclear : Clear symbol base)
    (hn : 1 ≤ n) {overbought : Bool} {threshold : ℝ} :
    RsiFires (closeOf ℝ) n overbought threshold c (storeAll base (older ++ [c])).rows ↔
      n + 2 ≤ (older ++ [c]).length ∧ Crosses overbought threshold
        (rsi n ((closesOf older).rtake (rsiLookback n - 1)))
        (rsi n ((closesOf (older ++ [c])).rtake (rsiLookback n))) := by
  have hlookback : n + 2 ≤ rsiLookback n ∧ rsiLookback n - 1 + 1 = rsiLookback n := by
    unfold rsiLookback
    omega
  have hlength : ((closesOf (older ++ [c])).rtake (rsiLookback n)).length
      = min (rsiLookback n) (older ++ [c]).length := by
    rw [length_rtake, closesOf, List.length_map]
  have hbefore : ((closesOf (older ++ [c])).rtake (rsiLookback n)).dropLast
      = (closesOf older).rtake (rsiLookback n - 1) := by
    rw [← hlookback.2, closesOf, List.map_append, List.map_singleton, List.rtake_concat_succ,
      List.dropLast_concat, Nat.add_sub_cancel]
    rfl
  -- the lookback exceeds `n + 2`, so it never shortens a window that is long enough
  rw [rsiFires_iff_window hn, h.rsiWindow_last hclear, hbefore, hlength]
  constructor
  · rintro ⟨hlong, hcrosses⟩
    exact ⟨by omega, hcrosses⟩
  · rintro ⟨hlong, hcrosses⟩
    exact ⟨by omega, hcrosses⟩

end Bar

/-! ## §3. Where the seed does not matter. -/

/-- All closes are within the lookback. -/
theorem previous_of_short {n : ℕ} {closes : List ℝ} (h : closes.length + 1 ≤ rsiLookback n) :
    rsi n (closes.rtake (rsiLookback n - 1)) = rsi n (closes.rtake (rsiLookback n)) := by
  rw [rtake_of_length_le (by omega), rtake_of_length_le (by omega)]

/-- The value of an average over one is that of the last change. -/
theorem rsi_one (closes : List ℝ) (a b : ℝ) :
    rsi 1 (closes ++ [a, b]) = strength (max (b - a) 0) (max (-(b - a)) 0) := by
  unfold rsi gainsOf lossesOf
  rw [changes_append, List.map_append, List.map_append, List.map_singleton, List.map_singleton,
    average_one, average_one, pyMax_real, pyMax_real]

theorem previous_of_one {closes : List ℝ} (h : 2 ≤ closes.length) :
    rsi 1 (closes.rtake (rsiLookback 1 - 1)) = rsi 1 (closes.rtake (rsiLookback 1)) := by
  obtain ⟨front, a, b, rfl⟩ := exists_append_two h
  have hwindow : ∀ k, (front ++ [a, b]).rtake (k + 2) = front.rtake k ++ [a, b] := by
    intro k
    rw [List.append_cons, List.rtake_concat_succ, List.rtake_concat_succ, List.append_assoc]
    rfl
  show rsi 1 ((front ++ [a, b]).rtake (97 + 2)) = rsi 1 ((front ++ [a, b]).rtake (98 + 2))
  rw [hwindow, hwindow, rsi_one, rsi_one]

/-- Where the two values agree, a bar is right. -/
theorem crossing_of_previous {symbol : String} {older : List Candle} {c c' : Candle}
    {base : Table Candle.key} {n : ℕ} (h : BarRun symbol (older ++ [c, c']))
    (hclear : Clear symbol base) (hn : 1 ≤ n)
    (hagree : rsi n ((closesOf (older ++ [c])).rtake (rsiLookback n - 1))
      = rsi n ((closesOf (older ++ [c])).rtake (rsiLookback n)))
    {previous current : ℝ}
    (hprevious : currentRsi n c (storeAll base (older ++ [c])).rows = some previous)
    (hcurrent : currentRsi n c' (storeAll base (older ++ [c, c'])).rows = some current)
    (overbought : Bool) (threshold : ℝ) :
    RsiFires (closeOf ℝ) n overbought threshold c' (storeAll base (older ++ [c, c'])).rows ↔
      Crosses overbought threshold previous current := by
  rw [List.append_cons] at h hcurrent ⊢
  obtain ⟨hlong, hprevious⟩ :=
    (currentRsi_eq_some (h.upTo (List.prefix_append _ _)) hclear hn).mp hprevious
  obtain ⟨-, hcurrent⟩ := (currentRsi_eq_some h hclear hn).mp hcurrent
  rw [rsiFires_iff h hclear hn, hagree, ← hprevious, ← hcurrent, and_iff_right]
  rw [List.length_append, List.length_singleton]
  omega

/-! ## §4. A run that is longer. -/

/-- A fall, and then nothing. -/
def fallen (k : ℕ) : List ℝ := 2 :: (List.replicate (k + 1) 1 ++ [1])

theorem gainsOf_fallen (k : ℕ) : gainsOf (fallen k) = List.replicate (k + 2) 0 := by
  have h := map_changes_flat 2 1 1 k (f := fun x => x) rfl
  show (changes (fallen k)).map _ = _
  unfold fallen
  rw [h, List.replicate_succ, List.replicate_succ']
  norm_num

theorem lossesOf_fallen (k : ℕ) : lossesOf (fallen k) = 1 :: List.replicate (k + 1) 0 := by
  have h := map_changes_flat 2 1 1 k (f := fun x => -x) neg_zero
  show (changes (fallen k)).map _ = _
  unfold fallen
  rw [h, List.replicate_succ']
  norm_num

section Fallen

variable {n k : ℕ} (hn : 2 ≤ n) (hk : n ≤ k + 2)

include hn

theorem average_loss_pos : 0 < average n (1 :: List.replicate k (0 : ℝ)) := by
  have hnonneg : ∀ x ∈ (1 : ℝ) :: List.replicate k 0, 0 ≤ x := by
    intro x hx
    rcases List.mem_cons.mp hx with rfl | hx
    · exact zero_le_one
    · exact (List.eq_of_mem_replicate hx).ge
  refine lt_of_le_of_ne (average_nonneg (by omega) hnonneg) fun hzero => ?_
  have hall := (average_eq_zero_iff hn hnonneg).mp hzero.symm
  exact absurd (hall 1 List.mem_cons_self) one_ne_zero

theorem average_zeros (k : ℕ) : average n (List.replicate k (0 : ℝ)) = 0 := by
  have hzeros : ∀ x ∈ List.replicate k (0 : ℝ), x = 0 := fun x hx => List.eq_of_mem_replicate hx
  exact (average_eq_zero_iff hn fun x hx => (hzeros x hx).ge).mpr hzeros

/-- Without the rise before it, the window has no gain. -/
theorem rsi_fallen : rsi n (fallen k) = 0 := by
  unfold rsi
  rw [gainsOf_fallen, lossesOf_fallen, average_zeros hn]
  exact strength_of_no_gain (average_loss_pos hn).ne'

/-- With it, gain and loss are equal. -/
theorem rsi_risen : rsi n (1 :: fallen k) = 50 := by
  have hgains : gainsOf (1 :: fallen k) = 1 :: 0 :: List.replicate (k + 1) 0 := by
    have hcons : gainsOf (1 :: fallen k) = pyMax (2 - 1) (ofInt 0) :: gainsOf (fallen k) := rfl
    rw [hcons, gainsOf_fallen, pyMax_real, List.replicate_succ]
    norm_num
  have hlosses : lossesOf (1 :: fallen k) = 0 :: 1 :: List.replicate (k + 1) 0 := by
    have hcons : lossesOf (1 :: fallen k) = pyMax (-(2 - 1)) (ofInt 0) :: lossesOf (fallen k) := rfl
    rw [hcons, lossesOf_fallen, pyMax_real]
    norm_num
  have hpos := average_loss_pos (k := k + 2) hn
  rw [List.replicate_succ] at hpos
  unfold rsi
  -- the gain and the loss come in the first two changes, before the averages start to fade
  rw [hgains, hlosses, average_swap hn 0 1]
  generalize average n (1 :: 0 :: List.replicate (k + 1) (0 : ℝ)) = a at hpos ⊢
  rw [strength_eq hpos.le hpos]
  field_simp
  norm_num

include hk

/-- After the last rise the gain is at least the loss. -/
theorem le_rsi_recovered : 50 ≤ rsi n (fallen k ++ [2]) := by
  have happend : fallen k ++ [2] = (2 :: List.replicate (k + 1) 1) ++ [1, 2] := by simp [fallen]
  have hfallen : fallen k = (2 :: List.replicate (k + 1) 1) ++ [1] := by simp [fallen]
  have hgains : gainsOf (fallen k ++ [2]) = List.replicate (k + 2) 0 ++ [1] := by
    rw [← gainsOf_fallen, happend, gainsOf, changes_append, List.map_append, ← hfallen, ← gainsOf,
      List.map_singleton, pyMax_real]
    norm_num
  have hlosses : lossesOf (fallen k ++ [2])
      = (1 :: List.replicate (n - 1) 0) ++ List.replicate (k + 3 - n) 0 := by
    rw [happend, lossesOf, changes_append, List.map_append, ← hfallen, ← lossesOf, lossesOf_fallen,
      List.map_singleton, pyMax_real, List.cons_append, List.cons_append, ← List.replicate_add,
      show n - 1 + (k + 3 - n) = k + 1 + 1 by omega, List.replicate_succ' (n := k + 1)]
    norm_num
  have hshare : (0 : ℝ) < n := Nat.cast_pos.mpr (by omega)
  -- the last rise counts in full, the fall has faded since the window began
  have hgain : average n (List.replicate (k + 2) (0 : ℝ) ++ [(1 : ℝ)]) = (1 : ℝ) / n := by
    rw [average_append (by simpa using hk), average_zeros hn]
    unfold step
    ring
  have hloss : average n (((1 : ℝ) :: List.replicate (n - 1) (0 : ℝ))
      ++ List.replicate (k + 3 - n) (0 : ℝ)) ≤ (1 : ℝ) / n := by
    refine (average_zeros_le (by omega) ?_ (by simp; omega) _).trans_eq ?_
    · intro x hx
      rcases List.mem_cons.mp hx with rfl | hx
      · exact zero_le_one
      · exact (List.eq_of_mem_replicate hx).ge
    · rw [average_short (by simp; omega)]
      simp
  have hpos : 0 < average n (((1 : ℝ) :: List.replicate (n - 1) (0 : ℝ))
      ++ List.replicate (k + 3 - n) (0 : ℝ)) := by
    rw [List.cons_append, ← List.replicate_add]
    exact average_loss_pos hn
  unfold rsi
  rw [hgains, hlosses, hgain]
  generalize average n (((1 : ℝ) :: List.replicate (n - 1) (0 : ℝ))
    ++ List.replicate (k + 3 - n) (0 : ℝ)) = l at hloss hpos ⊢
  have hg : (0 : ℝ) < 1 / n := by positivity
  rw [strength_eq hg.le hpos, le_div_iff₀ (by linarith)]
  linarith

end Fallen

/-! ## §5. The lengths for which every run is right. -/

/-- The closes of a run with a rise, a fall and a last rise, `j` bars after its start. -/
def risenCloses (j k : ℕ) : List Rat :=
  List.replicate j 1 ++ (1 :: 2 :: List.replicate (k + 2) 1) ++ [2]

theorem closesOf_risen (j k : ℕ) :
    closesOf (barsFrom "BTC" 0 (risenCloses j k))
      = List.replicate j 1 ++ (1 :: fallen k) ++ [2] := by
  unfold closesOf risenCloses fallen
  rw [map_closeOf_barsFrom, List.map_append, List.map_append, List.map_replicate, List.map_cons,
    List.map_cons, List.map_replicate, List.map_singleton, List.replicate_succ']
  simp

/-- **A run that is longer than the lookback**, with periods over at least two changes, can end
with a bar that fires without a crossing. -/
theorem crossings_misreported {n m : ℕ} (hn : 2 ≤ n) (hm : rsiLookback n < m) :
    ∃ candles, BarRun "BTC" candles ∧ candles.length = m ∧
      ¬ CrossingsReported n .empty candles := by
  have hlookback : n + 4 ≤ rsiLookback n := by
    unfold rsiLookback
    omega
  obtain ⟨k, hk⟩ : ∃ k, rsiLookback n = k + 4 := ⟨rsiLookback n - 4, by omega⟩
  obtain ⟨j, rfl⟩ : ∃ j, m = j + k + 5 := ⟨m - k - 5, by omega⟩
  have hclear : Clear "BTC" .empty := fun r hr => absurd hr List.not_mem_nil
  have hrun : BarRun "BTC" (barsFrom "BTC" 0 (risenCloses j k)) := barRun_barsFrom 0
  have hcloses := closesOf_risen j k
  have hlength : (barsFrom "BTC" 0 (risenCloses j k)).length = j + k + 5 := by
    rw [length_barsFrom, risenCloses]
    simp
    omega
  refine ⟨_, hrun, hlength, fun hreported => ?_⟩
  obtain ⟨older, c, c', hsplit⟩ := exists_append_two
    (show 2 ≤ (barsFrom "BTC" 0 (risenCloses j k)).length by omega)
  rw [hsplit] at hrun hcloses hlength hreported
  have hbar := hreported older c c' (List.prefix_refl _)
  rw [List.append_cons older c [c']] at hrun hcloses hlength hbar
  -- the window at the bar before the last, and at the last
  have hbefore : closesOf (older ++ [c]) = List.replicate j 1 ++ (1 :: fallen k) := by
    unfold closesOf at hcloses ⊢
    rw [List.map_append] at hcloses
    exact (List.append_inj' hcloses rfl).1
  have hrisen : (closesOf (older ++ [c])).rtake (rsiLookback n) = 1 :: fallen k := by
    rw [hbefore, hk, rtake_append_of_length _ (by simp [fallen])]
  have hfallen : (closesOf (older ++ [c])).rtake (rsiLookback n - 1) = fallen k := by
    rw [hbefore, hk, List.append_cons _ 1 (fallen k), rtake_append_of_length _ (by simp [fallen])]
  have hrecovered : (closesOf (older ++ [c] ++ [c'])).rtake (rsiLookback n) = fallen k ++ [2] := by
    rw [hcloses, hk, List.rtake_concat_succ, List.append_cons _ 1 (fallen k),
      rtake_append_of_length _ (by simp [fallen])]
  have hlong : n + 1 < (older ++ [c] ++ [c']).length := by omega
  have hprevious := (currentRsi_eq_some (hrun.upTo (List.prefix_append _ _)) hclear
    (show 1 ≤ n by omega)).mpr ⟨by simpa using hlong, rfl⟩
  have hcurrent := (currentRsi_eq_some hrun hclear (show 1 ≤ n by omega)).mpr
    ⟨show n < (older ++ [c] ++ [c']).length by omega, rfl⟩
  rw [hrisen, rsi_risen hn] at hprevious
  rw [hrecovered] at hcurrent
  -- it fires at a threshold that was reached before
  have hfires : RsiFires (closeOf ℝ) n true 50 c' (storeAll .empty (older ++ [c] ++ [c'])).rows := by
    rw [rsiFires_iff hrun hclear (by omega), hfallen, hrecovered, rsi_fallen hn]
    refine ⟨by omega, ?_⟩
    unfold Crosses
    rw [if_pos rfl]
    exact ⟨by norm_num, le_rsi_recovered hn (by omega)⟩
  have hcrosses := (hbar 50 hprevious _ hcurrent true 50).mp hfires
  unfold Crosses at hcrosses
  rw [if_pos rfl] at hcrosses
  exact absurd hcrosses.1 (lt_irrefl 50)

/-- **In every run of `m` bars crossings are reported exactly once, for every threshold, if the
averages are over one change or all bars are within the lookback, and only then.** -/
theorem crossings_reported_iff {n m : ℕ} (hn : 1 ≤ n) :
    (∀ (symbol : String) (base : Table Candle.key) (candles : List Candle),
        BarRun symbol candles → Clear symbol base → candles.length = m →
        CrossingsReported n base candles) ↔
      n = 1 ∨ m ≤ rsiLookback n := by
  constructor
  · intro h
    by_contra hwide
    obtain ⟨hone, hlong⟩ := not_or.mp hwide
    obtain ⟨candles, hrun, hlength, hfails⟩ :=
      crossings_misreported (show 2 ≤ n by omega) (not_le.mp hlong)
    exact hfails (h "BTC" .empty candles hrun (fun r hr => absurd hr List.not_mem_nil) hlength)
  · intro hnarrow symbol base candles hrun hclear hlength older c c' hinit previous hprevious
      current hcurrent overbought threshold
    have hbars := hrun.upTo hinit
    refine crossing_of_previous hbars hclear hn ?_ hprevious hcurrent overbought threshold
    have hcount := hinit.length_le
    have hcloses : (closesOf (older ++ [c])).length = older.length + 1 := by
      rw [closesOf, List.length_map, List.length_append, List.length_singleton]
    rw [List.length_append, List.length_cons, List.length_singleton] at hcount
    rcases hnarrow with rfl | hshort
    · -- a value needs two closes
      have hbefore := hbars.upTo (show older ++ [c] <+: older ++ [c, c'] by simp)
      have htwo := ((currentRsi_eq_some hbefore hclear hn).mp hprevious).1
      rw [List.length_append, List.length_singleton] at htwo
      exact previous_of_one (by omega)
    · exact previous_of_short (by omega)

/-! ### A period of 14 within 100 bars, and a period of 2 on 101. -/

theorem crossings_reported_usual : 1 ≤ 14 ∧
    ((∀ (symbol : String) (base : Table Candle.key) (candles : List Candle),
        BarRun symbol candles → Clear symbol base → candles.length = 100 →
        CrossingsReported 14 base candles) ↔ 14 = 1 ∨ 100 ≤ rsiLookback 14) :=
  ⟨by decide, crossings_reported_iff (by decide)⟩

/-- **After a hundred bars a crossing is reported that was none.** -/
theorem crossings_reported_fails : ¬ ∀ n, 1 ≤ n →
    ∀ (symbol : String) (base : Table Candle.key) (candles : List Candle),
      BarRun symbol candles → Clear symbol base → CrossingsReported n base candles := by
  intro h
  obtain ⟨candles, hrun, -, hfails⟩ :=
    crossings_misreported (n := 2) (m := 101) (le_refl 2) (by decide)
  exact hfails (h 2 (by decide) "BTC" .empty candles hrun fun r hr => absurd hr List.not_mem_nil)

end Pulse
