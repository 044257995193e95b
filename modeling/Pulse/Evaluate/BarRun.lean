/-
  Pulse.Evaluate.BarRun
  ─────────────────────
  **RUNS OF BARS, STORED AND EVALUATED ONE AT A TIME.**

  The candles of one symbol, of 900 seconds each, that follow one another without
  a gap.  The main loop stores each and then evaluates it, so at every bar the
  table holds the bars up to it, next to whatever it held of other symbols and
  intervals before.

    • `BarRun`   — the candles of a run, in chronological order,
    • `storeAll` — the table after some of them,
    • `BarRun.pricesBy_newest` — what a query for the newest reads at a bar.
-/
import Mathlib.Data.List.DropRight
import Pulse.Evaluate.History
import Pulse.Evaluate.Readings

namespace Pulse

open Pulse.Store

/-! ## §1. Runs. -/

/-- Bars of one symbol that follow one another, in chronological order. -/
structure BarRun (symbol : String) (candles : List Candle) : Prop where
  symbol : ∀ c ∈ candles, c.symbol = symbol
  interval : ∀ c ∈ candles, c.intervalSeconds = 900
  consecutive : candles.IsChain fun c d => d.timestamp = c.timestamp + seconds 900

/-- No bar of the symbol is stored yet. -/
def Clear (symbol : String) (base : Table Candle.key) : Prop :=
  ∀ r ∈ base.rows, ¬ (r.symbol = symbol ∧ r.intervalSeconds = 900)

/-- The table after the candles were stored, one after the other. -/
def storeAll (base : Table Candle.key) (candles : List Candle) : Table Candle.key :=
  candles.foldl Table.insertNew base

section Run

variable {symbol : String} {candles older : List Candle} {base : Table Candle.key}

/-- A run up to one of its bars. -/
theorem BarRun.upTo (h : BarRun symbol candles) (hinit : older <+: candles) :
    BarRun symbol older where
  symbol c hc := h.symbol c (hinit.subset hc)
  interval c hc := h.interval c (hinit.subset hc)
  consecutive := h.consecutive.prefix hinit

instance : Trans (fun c d : Candle => c.timestamp < d.timestamp)
    (fun c d : Candle => c.timestamp < d.timestamp)
    (fun c d : Candle => c.timestamp < d.timestamp) :=
  ⟨fun h h' => lt_trans h h'⟩

theorem BarRun.sorted (h : BarRun symbol candles) :
    candles.Pairwise fun c d => c.timestamp < d.timestamp := by
  have hchain : candles.IsChain fun c d => c.timestamp < d.timestamp := by
    refine h.consecutive.imp fun c d hcd => ?_
    rw [hcd]
    exact Int.lt_add_of_pos_right _ (by decide)
  exact hchain.pairwise

/-- No bar is refused. -/
theorem BarRun.storeAll_rows (h : BarRun symbol candles) (hclear : Clear symbol base) :
    (storeAll base candles).rows = base.rows ++ candles := by
  apply Table.foldl_insertNew_rows
  rw [List.map_append, List.nodup_append]
  refine ⟨base.nodup, ?_, ?_⟩
  · rw [List.Nodup, List.pairwise_map]
    refine h.sorted.imp fun {c d} hlt hkey => ?_
    exact absurd (congrArg (fun k => k.2.1) hkey) (ne_of_lt hlt)
  · intro k hk k' hk' heq
    obtain ⟨r, hr, rfl⟩ := List.mem_map.mp hk
    obtain ⟨c, hc, rfl⟩ := List.mem_map.mp hk'
    have hsymbol : r.symbol = c.symbol := congrArg (fun k => k.1) heq
    have hinterval : r.intervalSeconds = c.intervalSeconds := congrArg (fun k => k.2.2) heq
    exact hclear r hr ⟨hsymbol.trans (h.symbol c hc), hinterval.trans (h.interval c hc)⟩

/-! ## §2. What a query reads. -/

/-- The query for the newest finds the last bars. -/
theorem BarRun.newest (h : BarRun symbol candles) (hclear : Clear symbol base) (limit : Nat) :
    newest symbol limit (storeAll base candles).rows = candles.reverse.take limit := by
  have hbase : base.rows.filter (fun r => r.symbol = symbol ∧ r.intervalSeconds = 900) = [] := by
    rw [List.filter_eq_nil_iff]
    intro r hr
    simpa using hclear r hr
  have hbars : candles.filter (fun r => r.symbol = symbol ∧ r.intervalSeconds = 900) = candles := by
    rw [List.filter_eq_self]
    intro c hc
    simp [h.symbol c hc, h.interval c hc]
  have hsorted : candles.reverse.Pairwise fun c d => d.timestamp ≤ c.timestamp := by
    rw [List.pairwise_reverse]
    exact h.sorted.imp fun hlt => le_of_lt hlt
  have hperm : (candles.insertionSort fun c d : Candle => d.timestamp ≤ c.timestamp)
      = candles.reverse := by
    refine List.Perm.eq_of_pairwise ?_ (List.pairwise_insertionSort _ candles) hsorted
      ((List.perm_insertionSort _ candles).trans (List.reverse_perm candles).symm)
    -- two bars of one time are one
    intro c d hc hd hcd hdc
    have hc : c ∈ candles := (List.mem_insertionSort _).mp hc
    have hd : d ∈ candles := List.mem_reverse.mp hd
    have hinj := (List.nodup_map_iff_inj_on ?_).mp ?_ c hc d hd (le_antisymm hdc hcd)
    · exact hinj
    · exact h.sorted.imp fun hlt heq => absurd (congrArg Candle.timestamp heq) (ne_of_lt hlt)
    · rw [List.Nodup, List.pairwise_map]
      exact h.sorted.imp fun hlt => ne_of_lt hlt
  unfold Pulse.newest
  rw [h.storeAll_rows hclear, List.filter_append, hbase, hbars, List.nil_append, hperm]

variable {F : Type}

/-- The closes of the last bars, in chronological order. -/
theorem BarRun.pricesBy_newest (h : BarRun symbol candles) (hclear : Clear symbol base)
    (read : Candle → F) (limit : Nat) :
    pricesBy read (Pulse.newest symbol limit (storeAll base candles).rows)
      = (candles.map read).rtake limit := by
  unfold pricesBy
  rw [h.newest hclear, List.rtake_eq_reverse_take_reverse, List.map_reverse, List.map_take,
    List.map_reverse]

end Run

/-! ## §3. Bars with given closes. -/

/-- Bars one after the other, the first at `t`. -/
def barsFrom (symbol : String) : Time → List Rat → List Candle
  | _, [] => []
  | t, close :: closes => bar symbol t close :: barsFrom symbol (t + seconds 900) closes

variable {symbol : String} {closes : List Rat}

theorem barRun_barsFrom (t : Time) : BarRun symbol (barsFrom symbol t closes) := by
  induction closes generalizing t with
  | nil => exact ⟨by simp [barsFrom], by simp [barsFrom], .nil⟩
  | cons close closes ih =>
      have hrest := ih (t + seconds 900)
      refine ⟨?_, ?_, ?_⟩
      · intro c hc
        rcases List.mem_cons.mp hc with rfl | hc
        · rfl
        · exact hrest.symbol c hc
      · intro c hc
        rcases List.mem_cons.mp hc with rfl | hc
        · rfl
        · exact hrest.interval c hc
      · cases closes with
        | nil => exact .singleton _
        | cons close' closes => exact .cons_cons rfl hrest.consecutive

@[simp] theorem length_barsFrom (t : Time) : (barsFrom symbol t closes).length = closes.length := by
  induction closes generalizing t with
  | nil => rfl
  | cons close closes ih => simp [barsFrom, ih]

/-- Their closes. -/
theorem map_closeOf_barsFrom (F : Type) [PyFloat F] (t : Time) :
    (barsFrom symbol t closes).map (closeOf F) = closes.map fun q => PyFloat.ofDec (.fin q) := by
  induction closes generalizing t with
  | nil => rfl
  | cons close closes ih =>
      rw [barsFrom, List.map_cons, List.map_cons, ih]
      rfl

end Pulse
