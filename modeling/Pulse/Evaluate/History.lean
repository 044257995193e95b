/-
  Pulse.Evaluate.History
  ──────────────────────
  Candle histories: bars of a quarter of an hour that follow one another, as the
  ingest stores them, and what the queries of the rule classes find in them.
-/
import Pulse.Evaluate.Rules
import Pulse.Store.Sorting
import Mathlib.Order.Interval.Finset.Basic
import Mathlib.Data.Int.Interval
import Mathlib.Tactic.Linarith
import Mathlib.Tactic.Ring

namespace Pulse

open Pulse.Store

/-! ## §1. What the queries return. -/

instance : Std.Total (fun r s : Candle => s.timestamp ≤ r.timestamp) :=
  ⟨fun r s => Int.le_total s.timestamp r.timestamp⟩

instance : IsTrans Candle (fun r s => s.timestamp ≤ r.timestamp) :=
  ⟨fun _ _ _ h h' => Int.le_trans h' h⟩

instance : Std.Total Older := ⟨fun r s => by
  unfold Older
  rcases lt_trichotomy r.timestamp s.timestamp with h | h | h
  · exact Or.inl (Or.inl h)
  · rcases Nat.le_total r.intervalSeconds s.intervalSeconds with h' | h'
    · exact Or.inl (Or.inr ⟨h, h'⟩)
    · exact Or.inr (Or.inr ⟨h.symm, h'⟩)
  · exact Or.inr (Or.inl h)⟩

instance : IsTrans Candle Older := ⟨fun r s t h h' => by
  rcases h with h | ⟨h, hi⟩ <;> rcases h' with h' | ⟨h', hi'⟩
  · exact Or.inl (lt_trans h h')
  · exact Or.inl (h' ▸ h)
  · exact Or.inl (h ▸ h')
  · exact Or.inr ⟨h.trans h', le_trans hi hi'⟩⟩

theorem Older.timestamp_le {r s : Candle} (h : Older r s) : r.timestamp ≤ s.timestamp := by
  rcases h with h | h
  · exact le_of_lt h
  · exact le_of_eq h.1

theorem Older.antisymm {r s : Candle} (h : Older r s) (h' : Older s r) :
    r.timestamp = s.timestamp ∧ r.intervalSeconds = s.intervalSeconds := by
  have htime := le_antisymm h.timestamp_le h'.timestamp_le
  rcases h with hlt | ⟨-, hi⟩
  · exact absurd htime (ne_of_lt hlt)
  · rcases h' with hlt | ⟨-, hi'⟩
    · exact absurd htime (ne_of_gt hlt)
    · exact ⟨htime, le_antisymm hi hi'⟩

section Queries

variable {r s : Candle}

theorem mem_newest {symbol : String} {limit : Nat} {rows : List Candle}
    (h : r ∈ newest symbol limit rows) :
    r ∈ rows ∧ r.symbol = symbol ∧ r.intervalSeconds = 900 := by
  have hmem := (List.mem_insertionSort _).mp (List.mem_of_mem_take h)
  have hfilter := List.mem_filter.mp hmem
  exact ⟨hfilter.1, by simpa using hfilter.2⟩

theorem mem_oldestSince {symbol : String} {start : Time} {rows : List Candle}
    (h : r ∈ oldestSince symbol start rows) :
    r ∈ rows ∧ r.symbol = symbol ∧ start ≤ r.timestamp := by
  have hmem := (List.mem_insertionSort _).mp (List.mem_of_mem_take h)
  have hfilter := List.mem_filter.mp hmem
  exact ⟨hfilter.1, by simpa using hfilter.2⟩

/-- No two rows of a symbol have the same time and interval. -/
theorem eq_of_time {table : Table Candle.key} (hr : r ∈ table.rows) (hs : s ∈ table.rows)
    (hsymbol : r.symbol = s.symbol) (htime : r.timestamp = s.timestamp)
    (hinterval : r.intervalSeconds = s.intervalSeconds) : r = s := by
  refine List.inj_on_of_nodup_map table.nodup hr hs ?_
  unfold Candle.key
  rw [hsymbol, htime, hinterval]

end Queries

/-! ## §2. Bars. -/

/-- A bar that opens at `t`. -/
def bar (symbol : String) (t : Time) (close : Rat) : Candle where
  symbol := symbol
  timestamp := t
  openPrice := .fin close
  high := .fin close
  low := .fin close
  close := .fin close
  volume := none
  intervalSeconds := 900

/-- Bars one after the other, newest first; the newest opens at `t`. -/
def bars (symbol : String) : Time → List Rat → List Candle
  | _, [] => []
  | t, close :: closes => bar symbol t close :: bars symbol (t - seconds 900) closes

variable {symbol : String} {closes : List Rat}

@[simp] theorem length_bars (t : Time) : (bars symbol t closes).length = closes.length := by
  induction closes generalizing t with
  | nil => rfl
  | cons close closes ih => simp [bars, ih]

theorem mem_bars {t : Time} {r : Candle} (h : r ∈ bars symbol t closes) :
    r.symbol = symbol ∧ r.intervalSeconds = 900 ∧ r.timestamp ≤ t := by
  induction closes generalizing t with
  | nil => exact absurd h (by simp [bars])
  | cons close closes ih =>
      rcases List.mem_cons.mp h with rfl | h
      · exact ⟨rfl, rfl, le_refl _⟩
      · obtain ⟨hsymbol, hinterval, hle⟩ := ih h
        exact ⟨hsymbol, hinterval, hle.trans (Int.sub_le_self t (by decide))⟩

/-- Newest first. -/
theorem bars_sorted (t : Time) :
    (bars symbol t closes).Pairwise fun r s => s.timestamp < r.timestamp := by
  induction closes generalizing t with
  | nil => exact List.Pairwise.nil
  | cons close closes ih =>
      refine List.pairwise_cons.mpr ⟨fun r hr => ?_, ih _⟩
      exact lt_of_le_of_lt (mem_bars hr).2.2 (Int.sub_lt_self t (by decide))

/-- No key twice. -/
theorem bars_nodup (t : Time) : ((bars symbol t closes).map Candle.key).Nodup := by
  rw [List.Nodup, List.pairwise_map]
  refine (bars_sorted t).imp fun {r s} hlt hkey => ?_
  exact absurd (congrArg (fun k => k.2.1) hkey) (ne_of_gt hlt)

/-- The candle table of these bars. -/
def barTable (symbol : String) (t : Time) (closes : List Rat) : Table Candle.key :=
  ⟨bars symbol t closes, bars_nodup t⟩

/-- The query for the newest finds them as they stand. -/
theorem newest_bars (t : Time) (limit : Nat) :
    newest symbol limit (bars symbol t closes) = (bars symbol t closes).take limit := by
  unfold newest
  rw [List.filter_eq_self.mpr fun r hr => by
    have := mem_bars hr
    simp [this.1, this.2.1]]
  rw [List.Pairwise.insertionSort_eq ((bars_sorted t).imp fun hlt => le_of_lt hlt)]

variable {F : Type} [PyFloat F]

/-- The closes of the bars. -/
theorem map_closeOf_bars (t : Time) : (bars symbol t closes).map (closeOf F)
    = closes.map fun q => PyFloat.ofDec (.fin q) := by
  induction closes generalizing t with
  | nil => rfl
  | cons close closes ih =>
      rw [bars, List.map_cons, List.map_cons, ih]
      rfl

theorem pricesOf_bars (t : Time) : pricesOf F (bars symbol t closes)
    = closes.reverse.map fun q => PyFloat.ofDec (.fin q) := by
  rw [pricesOf, List.map_reverse, map_closeOf_bars, List.map_reverse]

/-! ## §3. The candle that is evaluated. -/

/-- `candle` is stored, and no bar of its symbol is newer. -/
structure NewestRow (candle : Candle) (store : Table Candle.key) : Prop where
  stored : candle ∈ store.rows
  interval : candle.intervalSeconds = 900
  newest : ∀ r ∈ store.rows, r.symbol = candle.symbol → r.intervalSeconds = 900 →
    r.timestamp ≤ candle.timestamp

/-- The query for the newest finds it first. -/
theorem NewestRow.newest_eq {candle : Candle} {store : Table Candle.key}
    (h : NewestRow candle store) {limit : Nat} (hlimit : 1 ≤ limit) :
    ∃ older, Pulse.newest candle.symbol limit store.rows = candle :: older := by
  have hmem : candle ∈ store.rows.filter fun r =>
      r.symbol = candle.symbol ∧ r.intervalSeconds = 900 :=
    List.mem_filter.mpr ⟨h.stored, by simp [h.interval]⟩
  obtain ⟨k, rfl⟩ : ∃ k, limit = k + 1 := ⟨limit - 1, by omega⟩
  unfold Pulse.newest
  cases hsort : (store.rows.filter fun r =>
      r.symbol = candle.symbol ∧ r.intervalSeconds = 900).insertionSort
        (fun r s => s.timestamp ≤ r.timestamp) with
  | nil =>
      have hsorted := (List.mem_insertionSort (fun r s : Candle => s.timestamp ≤ r.timestamp)).mpr hmem
      rw [hsort] at hsorted
      exact absurd hsorted List.not_mem_nil
  | cons m ms =>
      -- the first has the newest time, and no two rows share symbol, time and interval
      obtain ⟨hm, hleast⟩ := least_of_insertionSort hsort
      obtain ⟨hstored, hkey⟩ := List.mem_filter.mp hm
      obtain ⟨hsymbol, hinterval⟩ : m.symbol = candle.symbol ∧ m.intervalSeconds = 900 := by
        simpa using hkey
      rw [List.take_succ_cons, eq_of_time hstored h.stored hsymbol
        (le_antisymm (h.newest m hstored hsymbol hinterval) (hleast candle hmem))
        (hinterval.trans h.interval.symm)]
      exact ⟨_, rfl⟩

/-! ## §4. What the main loop has stored. -/

/-- How many multiples of 900 seconds are a `datetime`. -/
def gridSlots : Nat := 350597664

/-- The last of them. -/
def lastSlot : Time := minTime + (gridSlots - 1) * seconds 900

/-- The store when the main loop evaluates `candle`: bars of one symbol on the grid of 900
seconds with positive closes, of which `candle` is the newest. -/
structure Produced (candle : Candle) (store : Table Candle.key) : Prop where
  symbol : ∀ r ∈ store.rows, r.symbol = candle.symbol
  interval : ∀ r ∈ store.rows, r.intervalSeconds = 900
  grid : ∀ r ∈ store.rows, seconds 900 ∣ r.timestamp
  calendar : ∀ r ∈ store.rows, minTime ≤ r.timestamp ∧ r.timestamp ≤ maxTime
  positive : ∀ r ∈ store.rows, ∃ q : Rat, r.close = .fin q ∧ 0 < q
  stored : candle ∈ store.rows
  newest : ∀ r ∈ store.rows, r.timestamp ≤ candle.timestamp

section Produced

variable {candle r : Candle} {store : Table Candle.key}

/-- One bar for each time. -/
theorem Produced.eq_of_time (h : Produced candle store) {s : Candle} (hr : r ∈ store.rows)
    (hs : s ∈ store.rows) (htime : r.timestamp = s.timestamp) : r = s :=
  Pulse.eq_of_time hr hs ((h.symbol r hr).trans (h.symbol s hs).symm) htime
    ((h.interval r hr).trans (h.interval s hs).symm)

/-- There are no more bars than times. -/
theorem Produced.length_le (h : Produced candle store) : store.rows.length ≤ gridSlots := by
  have hsecond : seconds 900 = 900000000 := rfl
  have hmin : minTime = -62135596800000000 := rfl
  have hmax : maxTime = 253402300799999999 := rfl
  have hnodup : (store.rows.map fun r => r.timestamp / seconds 900).Nodup := by
    apply List.Nodup.map_on
    · intro r hr s hs hslot
      apply h.eq_of_time hr hs
      rw [← Int.ediv_mul_cancel (h.grid r hr), ← Int.ediv_mul_cancel (h.grid s hs), hslot]
    · exact List.Nodup.of_map _ store.nodup
  have hsubset : (store.rows.map fun r => r.timestamp / seconds 900).toFinset
      ⊆ Finset.Icc (-69039552) 281558111 := by
    intro slot hslot
    obtain ⟨r, hr, rfl⟩ := List.mem_map.mp (List.mem_toFinset.mp hslot)
    have hcalendar := h.calendar r hr
    rw [Finset.mem_Icc, hsecond]
    rw [hmin, hmax] at hcalendar
    constructor
    · exact Int.le_ediv_of_mul_le (by decide) (by linarith [hcalendar.1])
    · exact Int.le_of_lt_add_one (Int.ediv_lt_of_lt_mul (by decide) (by linarith [hcalendar.2]))
  calc store.rows.length
      = (store.rows.map fun r => r.timestamp / seconds 900).toFinset.card := by
        rw [List.toFinset_card_of_nodup hnodup, List.length_map]
    _ ≤ (Finset.Icc (-69039552 : Int) 281558111).card := Finset.card_le_card hsubset
    _ = gridSlots := by
        rw [Int.card_Icc]
        rfl

theorem Produced.timestamp_le (h : Produced candle store) (hr : r ∈ store.rows) :
    r.timestamp ≤ lastSlot := by
  have hsecond : seconds 900 = 900000000 := rfl
  have hlast : lastSlot = 281558111 * 900000000 := rfl
  have hmax : maxTime = 253402300799999999 := rfl
  have hcalendar := (h.calendar r hr).2
  obtain ⟨i, hi⟩ := h.grid r hr
  rw [hsecond] at hi
  rw [hmax] at hcalendar
  have hslot : i ≤ 281558111 := by
    by_contra hlate
    have : 281558112 ≤ i := by omega
    linarith
  rw [hi, hlast]
  linarith

theorem Produced.newestRow (h : Produced candle store) : NewestRow candle store :=
  ⟨h.stored, h.interval candle h.stored, fun r hr _ _ => h.newest r hr⟩

/-- The newest of them is the candle. -/
theorem Produced.newest_eq (h : Produced candle store) {limit : Nat} (hlimit : 1 ≤ limit) :
    ∃ older, Pulse.newest candle.symbol limit store.rows = candle :: older :=
  h.newestRow.newest_eq hlimit

/-- The closes that are read end with the one of the candle. -/
theorem Produced.prices_eq (h : Produced candle store) (F : Type) [PyFloat F] (limit : Nat)
    (hlimit : 1 ≤ limit) :
    ∃ older, pricesOf F (Pulse.newest candle.symbol limit store.rows)
      = older ++ [closeOf F candle] := by
  obtain ⟨older, holder⟩ := h.newest_eq hlimit
  rw [holder, pricesOf, List.reverse_cons, List.map_append]
  exact ⟨_, rfl⟩

theorem Produced.length_newest_le (h : Produced candle store) (limit : Nat) :
    (Pulse.newest candle.symbol limit store.rows).length ≤ gridSlots := by
  unfold Pulse.newest
  calc _ ≤ (store.rows.filter fun r =>
            r.symbol = candle.symbol ∧ r.intervalSeconds = 900).length := by
          rw [List.length_take, List.length_insertionSort]
          exact Nat.min_le_right _ _
    _ ≤ store.rows.length := List.length_filter_le _ _
    _ ≤ gridSlots := h.length_le

/-- The first of some bars is their newest row. -/
theorem newestRow_bars (t : Time) (close : Rat) (closes : List Rat) :
    NewestRow (bar symbol t close) (barTable symbol t (close :: closes)) where
  stored := List.mem_cons_self
  interval := rfl
  newest _ hr _ _ := (mem_bars hr).2.2

/-- Where and when a bar stands. -/
theorem mem_bars_slot {t : Time} (h : r ∈ bars symbol t closes) :
    ∃ i < closes.length, r.timestamp = t - i * seconds 900 ∧ ∃ q ∈ closes, r.close = .fin q := by
  induction closes generalizing t with
  | nil => exact absurd h (by simp [bars])
  | cons close closes ih =>
      rcases List.mem_cons.mp h with rfl | h
      · exact ⟨0, by simp, by simp [bar], close, List.mem_cons_self, rfl⟩
      · obtain ⟨i, hi, htime, q, hq, hclose⟩ := ih h
        refine ⟨i + 1, by simpa using hi, ?_, q, List.mem_cons_of_mem _ hq, hclose⟩
        rw [htime]
        push_cast
        ring

/-- **Bars up to the last time are a store of the main loop**, if the calendar has room. -/
theorem produced_bars {close : Rat} (hroom : closes.length < gridSlots) (hclose : 0 < close)
    (hpositive : ∀ q ∈ closes, 0 < q) :
    Produced (bar symbol lastSlot close) (barTable symbol lastSlot (close :: closes)) where
  symbol r hr := (mem_bars hr).1
  interval r hr := (mem_bars hr).2.1
  grid r hr := by
    obtain ⟨i, -, htime, -⟩ := mem_bars_slot hr
    rw [htime]
    exact Int.dvd_sub ⟨281558111, rfl⟩ (Int.dvd_mul_left _ _)
  calendar r hr := by
    obtain ⟨i, hi, htime, -⟩ := mem_bars_slot hr
    have hsecond : seconds 900 = 900000000 := rfl
    have hlast : lastSlot = 253402299900000000 := rfl
    have hmin : minTime = -62135596800000000 := rfl
    have hmax : maxTime = 253402300799999999 := rfl
    have hslots : gridSlots = 350597664 := rfl
    rw [List.length_cons] at hi
    have hi : (i : Int) ≤ 350597663 := by omega
    rw [htime, hsecond, hlast, hmin, hmax]
    constructor <;> linarith
  positive r hr := by
    obtain ⟨-, -, -, q, hq, hqr⟩ := mem_bars_slot hr
    rcases List.mem_cons.mp hq with rfl | hq
    · exact ⟨q, hqr, hclose⟩
    · exact ⟨q, hqr, hpositive q hq⟩
  stored := List.mem_cons_self
  newest r hr := (mem_bars hr).2.2

end Produced

end Pulse
