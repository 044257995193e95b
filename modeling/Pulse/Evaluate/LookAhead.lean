/-
  Pulse.Evaluate.LookAhead
  ────────────────────────
  **WHAT A RULE SEES OF THE FUTURE.**

  The queries of the rule classes have no upper bound: `newest` takes the newest
  candles there are, `oldestSince` the oldest since a start.  A rule looks past the
  candle it evaluates as soon as newer ones are stored.

    • `SamePast`       — two stores with the same candles up to the evaluated one,
    • `PastOnly`       — the query finds no candle that is newer,
    • `no_look_ahead`  — then only the past counts,
    • `looks_ahead`    — otherwise it does not, by example.
-/
import Pulse.Core.Exact
import Pulse.Evaluate.History

namespace Pulse

open Pulse.Async Pulse.Store PyFloat

/-! ## §1. Two stores. -/

/-- The stores agree on the candles of the symbol up to `candle`. -/
def SamePast (candle : Candle) (store store' : Table Candle.key) : Prop :=
  ∀ r : Candle, r.symbol = candle.symbol → r.timestamp ≤ candle.timestamp →
    (r ∈ store.rows ↔ r ∈ store'.rows)

/-- The query a program starts with, if it gets that far. -/
def asked {α : Type} : Prog α → Option (List Candle → List Candle)
  | .await (.selectCandles query) _ => some query
  | _ => none

/-- Once `evaluate` asks, no newer candle is in the way: there is an older one since the start
of the window, or none that is newer; for the newest candles, none that is newer at all. -/
def PastOnly (F : Type) [PyFloat F] [Driver] (t : RuleType) (config : Config) (candle : Candle)
    (rows : List Candle) : Prop :=
  (asked (t.evaluate F config candle)).isSome = true →
    match t with
    | .priceThreshold | .candleClose => True
    | .percentMove => ∀ windowSeconds startTime,
        ((Json.item config "window_seconds") >>= Json.toInt) = .ok windowSeconds →
        timeBefore candle.timestamp windowSeconds = .ok startTime →
        (∃ r ∈ rows, r.symbol = candle.symbol ∧ startTime ≤ r.timestamp ∧
          r.timestamp ≤ candle.timestamp) ∨
        ∀ r ∈ rows, r.symbol = candle.symbol → startTime ≤ r.timestamp →
          r.timestamp ≤ candle.timestamp
    | .macdCross | .rsi | .bollingerBands => ∀ r ∈ rows, r.symbol = candle.symbol →
        r.intervalSeconds = 900 → r.timestamp ≤ candle.timestamp

/-! ## §2. What a query finds. -/

section Queries

variable {candle : Candle} {store store' : Table Candle.key} {r : Candle}

/-- The newest candles depend on the past, where there is nothing else. -/
theorem newest_congr {limit : Nat} (hpast : SamePast candle store store')
    (h : ∀ r ∈ store.rows, r.symbol = candle.symbol → r.intervalSeconds = 900 →
      r.timestamp ≤ candle.timestamp)
    (h' : ∀ r ∈ store'.rows, r.symbol = candle.symbol → r.intervalSeconds = 900 →
      r.timestamp ≤ candle.timestamp) :
    newest candle.symbol limit store.rows = newest candle.symbol limit store'.rows := by
  have hnodup : ∀ table : Table Candle.key,
      (table.rows.filter fun r => r.symbol = candle.symbol ∧ r.intervalSeconds = 900).Nodup :=
    fun table => (List.Nodup.of_map _ table.nodup).filter _
  unfold newest
  refine congrArg (List.take limit) (insertionSort_congr (hnodup store) (hnodup store') ?_ ?_)
  · intro r
    simp only [List.mem_filter, decide_eq_true_eq]
    constructor
    · rintro ⟨hr, hsymbol, hinterval⟩
      exact ⟨(hpast r hsymbol (h r hr hsymbol hinterval)).mp hr, hsymbol, hinterval⟩
    · rintro ⟨hr, hsymbol, hinterval⟩
      exact ⟨(hpast r hsymbol (h' r hr hsymbol hinterval)).mpr hr, hsymbol, hinterval⟩
  · intro r hr s hs hrs hsr
    simp only [List.mem_filter, decide_eq_true_eq] at hr hs
    exact eq_of_time hr.1 hs.1 (hr.2.1.trans hs.2.1.symm) (le_antisymm hsr hrs)
      (hr.2.2.trans hs.2.2.symm)

/-- The oldest row since a start is in the past if any is; then it is the oldest of both stores. -/
theorem oldestSince_congr_of_mem {start : Time} (hpast : SamePast candle store store')
    (hr : r ∈ store.rows) (hsymbol : r.symbol = candle.symbol) (hstart : start ≤ r.timestamp)
    (hle : r.timestamp ≤ candle.timestamp) :
    oldestSince candle.symbol start store.rows = oldestSince candle.symbol start store'.rows := by
  unfold oldestSince
  cases hsort : (store.rows.filter fun r =>
      r.symbol = candle.symbol ∧ start ≤ r.timestamp).insertionSort Older with
  | nil =>
      have hmem : r ∈ (store.rows.filter fun r =>
          r.symbol = candle.symbol ∧ start ≤ r.timestamp).insertionSort Older :=
        (List.mem_insertionSort _).mpr (List.mem_filter.mpr ⟨hr, by simp [hsymbol, hstart]⟩)
      rw [hsort] at hmem
      exact absurd hmem List.not_mem_nil
  | cons m ms =>
      obtain ⟨hm, hleast⟩ := least_of_insertionSort hsort
      have hmr := hleast r (List.mem_filter.mpr ⟨hr, by simp [hsymbol, hstart]⟩)
      simp only [List.mem_filter, decide_eq_true_eq] at hm hleast
      have hmpast : m.timestamp ≤ candle.timestamp := le_trans hmr.timestamp_le hle
      have hm' : m ∈ store'.rows := (hpast m hm.2.1 hmpast).mp hm.1
      refine (take_one_insertionSort (List.mem_filter.mpr ⟨hm', by simpa using hm.2⟩) ?_).symm
      intro x hx hxm
      simp only [List.mem_filter, decide_eq_true_eq] at hx
      have hxpast : x.timestamp ≤ candle.timestamp := le_trans hxm.timestamp_le hmpast
      obtain ⟨htime, hinterval⟩ := hxm.antisymm (hleast x ⟨(hpast x hx.2.1 hxpast).mpr hx.1, hx.2⟩)
      exact eq_of_time hx.1 hm' (hx.2.1.trans hm.2.1.symm) htime hinterval

/-- The oldest candle since a start depends on the past, where it is past. -/
theorem oldestSince_congr {start : Time} (hpast : SamePast candle store store')
    (h : ∀ r ∈ oldestSince candle.symbol start store.rows, r.timestamp ≤ candle.timestamp)
    (h' : ∀ r ∈ oldestSince candle.symbol start store'.rows, r.timestamp ≤ candle.timestamp) :
    oldestSince candle.symbol start store.rows = oldestSince candle.symbol start store'.rows := by
  cases hold : oldestSince candle.symbol start store.rows with
  | cons m ms =>
      have hm : m ∈ oldestSince candle.symbol start store.rows := hold ▸ List.mem_cons_self
      obtain ⟨hrow, hsymbol, hstart⟩ := mem_oldestSince hm
      rw [← hold]
      exact oldestSince_congr_of_mem hpast hrow hsymbol hstart (h m hm)
  | nil =>
      cases hold' : oldestSince candle.symbol start store'.rows with
      | nil => rfl
      | cons m ms =>
          have hm : m ∈ oldestSince candle.symbol start store'.rows := hold' ▸ List.mem_cons_self
          obtain ⟨hrow, hsymbol, hstart⟩ := mem_oldestSince hm
          have hpast' : SamePast candle store' store := fun r hr ht => (hpast r hr ht).symm
          rw [← hold, ← hold']
          exact (oldestSince_congr_of_mem hpast' hrow hsymbol hstart (h' m hm)).symm

/-- The newest candles are past exactly if all are. -/
theorem newest_past_iff {symbol : String} {limit : Nat} (hlimit : 1 ≤ limit)
    {rows : List Candle} {t : Time} :
    (∀ r ∈ newest symbol limit rows, r.timestamp ≤ t) ↔
      ∀ r ∈ rows, r.symbol = symbol → r.intervalSeconds = 900 → r.timestamp ≤ t := by
  constructor
  · intro h r hr hsymbol hinterval
    have hmem : r ∈ (rows.filter fun r =>
        r.symbol = symbol ∧ r.intervalSeconds = 900).insertionSort
          (fun r s => s.timestamp ≤ r.timestamp) :=
      (List.mem_insertionSort _).mpr (List.mem_filter.mpr ⟨hr, by simp [hsymbol, hinterval]⟩)
    cases hsort : (rows.filter fun r =>
        r.symbol = symbol ∧ r.intervalSeconds = 900).insertionSort
          (fun r s => s.timestamp ≤ r.timestamp) with
    | nil =>
        rw [hsort] at hmem
        exact absurd hmem List.not_mem_nil
    | cons m ms =>
        obtain ⟨k, rfl⟩ : ∃ k, limit = k + 1 := ⟨limit - 1, by omega⟩
        have hm : m.timestamp ≤ t := by
          apply h
          unfold newest
          rw [hsort, List.take_succ_cons]
          exact List.mem_cons_self
        exact le_trans ((least_of_insertionSort hsort).2 r ((List.mem_insertionSort _).mp hmem)) hm
  · intro h r hr
    obtain ⟨hr, hsymbol, hinterval⟩ := mem_newest hr
    exact h r hr hsymbol hinterval

/-- The oldest candle since a start is past if there is a past one since then, or none that
is not. -/
theorem oldestSince_past_iff {symbol : String} {start : Time} {rows : List Candle} {t : Time} :
    (∀ r ∈ oldestSince symbol start rows, r.timestamp ≤ t) ↔
      (∃ r ∈ rows, r.symbol = symbol ∧ start ≤ r.timestamp ∧ r.timestamp ≤ t) ∨
        ∀ r ∈ rows, r.symbol = symbol → start ≤ r.timestamp → r.timestamp ≤ t := by
  have hmem : ∀ r ∈ rows, r.symbol = symbol → start ≤ r.timestamp →
      r ∈ rows.filter fun r => r.symbol = symbol ∧ start ≤ r.timestamp :=
    fun r hr hsymbol hstart => List.mem_filter.mpr ⟨hr, by simp [hsymbol, hstart]⟩
  unfold oldestSince
  cases hsort : (rows.filter fun r =>
      r.symbol = symbol ∧ start ≤ r.timestamp).insertionSort Older with
  | nil =>
      refine iff_of_true (by simp) (Or.inr fun r hr hsymbol hstart => ?_)
      have hr := (List.mem_insertionSort Older).mpr (hmem r hr hsymbol hstart)
      rw [hsort] at hr
      exact absurd hr List.not_mem_nil
  | cons m ms =>
      obtain ⟨hm, hleast⟩ := least_of_insertionSort hsort
      rw [List.take_succ_cons, List.take_zero]
      simp only [List.mem_filter, decide_eq_true_eq] at hm
      constructor
      · intro h
        exact Or.inl ⟨m, hm.1, hm.2.1, hm.2.2, h m List.mem_cons_self⟩
      · intro h r hr
        obtain rfl := List.mem_singleton.mp hr
        rcases h with ⟨r', hr', hsymbol, hstart, hle⟩ | h
        · exact le_trans (hleast r' (hmem r' hr' hsymbol hstart)).timestamp_le hle
        · exact h r hm.1 hm.2.1 hm.2.2

end Queries

/-! ## §3. One query. -/

section OneQuery

variable {α β : Type} {Q : (List Candle → List Candle) → Prop}

/-- A program that asks once, at its start and with a query in `Q`, or not at all. -/
def OneQuery (Q : (List Candle → List Candle) → Prop) : Prog α → Prop
  | .await (.selectCandles query) k => Q query ∧ ∀ rows, ∃ r, k rows = Coro.ofExcept r
  | .await _ _ => False
  | _ => True

theorem OneQuery.ofExcept (r : Except PyErr α) : OneQuery Q (Coro.ofExcept r : Prog α) := by
  cases r <;> trivial

/-- What is read from the configuration before. -/
theorem OneQuery.read {r : Except PyErr α} {f : α → Prog β}
    (h : ∀ a, r = .ok a → OneQuery Q (f a)) : OneQuery Q (Coro.ofExcept r >>= f) := by
  cases r with
  | ok a => exact h a rfl
  | error e => trivial

theorem OneQuery.select {query : List Candle → List Candle} (h : Q query)
    (f : List Candle → Except PyErr α) :
    OneQuery Q (selectCandles query >>= fun rows => Coro.ofExcept (f rows)) := by
  refine ⟨h, fun rows => ?_⟩
  cases rows with
  | ok rows => exact ⟨f rows, rfl⟩
  | error e => exact ⟨.error e, rfl⟩

theorem OneQuery.selectNewest [Driver] {symbol : String} {limit : Int}
    (h : Q (newest symbol limit.toNat)) (f : List Candle → Except PyErr α) :
    OneQuery Q (selectNewest symbol limit >>= fun rows => Coro.ofExcept (f rows)) := by
  unfold Pulse.selectNewest
  split
  next => exact .select h f
  next => trivial

theorem OneQuery.of_asked {p : Prog α} (hp : OneQuery Q p) {query : List Candle → List Candle}
    (h : asked p = some query) : Q query := by
  cases p with
  | pure a => exact absurd h (by simp [asked])
  | raise e => exact absurd h (by simp [asked])
  | await o k =>
      cases o with
      | selectCandles q =>
          obtain rfl := Option.some.inj h
          exact hp.1
      | _ => exact hp.elim

/-- Such a program does the same on two stores where its query finds the same. -/
theorem OneQuery.onStore_eq {p : Prog α} (hp : OneQuery Q p) {rows rows' : List Candle}
    (h : ∀ query, asked p = some query → query rows = query rows') :
    onStore rows p = onStore rows' p := by
  cases p with
  | pure a => rfl
  | raise e => rfl
  | await o k =>
      cases o with
      | selectCandles query =>
          obtain ⟨r, hr⟩ := hp.2 (.ok (query rows'))
          rw [onStore, onStore, h query rfl, hr, onStore_ofExcept, onStore_ofExcept]
      | _ => exact hp.elim

end OneQuery

/-! ## §4. The rules. -/

variable {F : Type} [PyFloat F] {t : RuleType} {config : Config} {candle : Candle}

/-- The queries of a rule type. -/
def Queries (t : RuleType) (config : Config) (candle : Candle)
    (query : List Candle → List Candle) : Prop :=
  match t with
  | .priceThreshold | .candleClose => False
  | .percentMove => ∃ windowSeconds startTime,
      ((Json.item config "window_seconds") >>= Json.toInt) = .ok windowSeconds ∧
      timeBefore candle.timestamp windowSeconds = .ok startTime ∧
      query = oldestSince candle.symbol startTime
  | .macdCross | .rsi | .bollingerBands =>
      ∃ limit : Nat, 1 ≤ limit ∧ query = newest candle.symbol limit

/-- Each class asks once. -/
theorem RuleType.oneQuery_evaluate [Driver] (t : RuleType) (config : Config) (candle : Candle) :
    OneQuery (Queries t config candle) (t.evaluate F config candle) := by
  cases t with
  | priceThreshold => exact .ofExcept _
  | candleClose => exact .ofExcept _
  | percentMove =>
      apply OneQuery.read
      intro percentThreshold _
      apply OneQuery.read
      intro windowSeconds hwindow
      apply OneQuery.read
      intro startTime hstart
      exact .select ⟨windowSeconds, startTime, hwindow, hstart, rfl⟩ _
  | macdCross =>
      apply OneQuery.read
      intro fastPeriod _
      apply OneQuery.read
      intro slowPeriod _
      apply OneQuery.read
      intro signalPeriod _
      apply OneQuery.read
      intro crossoverType _
      exact .selectNewest ⟨50, by decide, rfl⟩ _
  | rsi =>
      apply OneQuery.read
      intro period _
      apply OneQuery.read
      intro direction _
      dsimp only
      split
      next => trivial
      next =>
        -- the default of the threshold depends on the direction
        apply OneQuery.read
        intro threshold _
        exact .selectNewest ⟨(max (period * 5) 100).toNat, by omega, rfl⟩ _
  | bollingerBands =>
      apply OneQuery.read
      intro period _
      apply OneQuery.read
      intro stdDev _
      apply OneQuery.read
      intro band _
      apply OneQuery.read
      intro event _
      split
      next => trivial
      next => exact .selectNewest ⟨(max (period * 3) 60).toNat, by omega, rfl⟩ _

/-- **The condition leaves out only the stores where the query returns a newer candle.** -/
theorem pastOnly_iff [Driver] {rows : List Candle} : PastOnly F t config candle rows ↔
    ∀ query, asked (t.evaluate F config candle) = some query →
      ∀ r ∈ query rows, r.timestamp ≤ candle.timestamp := by
  unfold PastOnly
  cases hasked : asked (t.evaluate F config candle) with
  | none => simp
  | some query =>
      have hquery := (t.oneQuery_evaluate config candle).of_asked hasked
      simp only [Option.isSome_some, forall_const, Option.some.injEq, forall_eq']
      cases t with
      | priceThreshold | candleClose => exact hquery.elim
      | percentMove =>
          obtain ⟨windowSeconds, startTime, hwindow, hstart, rfl⟩ := hquery
          rw [oldestSince_past_iff]
          constructor
          · exact fun h => h windowSeconds startTime hwindow hstart
          · intro h windowSeconds' startTime' hwindow' hstart'
            obtain rfl := Except.ok.inj (hwindow.symm.trans hwindow')
            obtain rfl := Except.ok.inj (hstart.symm.trans hstart')
            exact h
      | macdCross | rsi | bollingerBands =>
          obtain ⟨limit, hlimit, rfl⟩ := hquery
          exact (newest_past_iff hlimit).symm

/-- What a query finds in two stores, where it finds nothing newer. -/
theorem query_congr {store store' : Table Candle.key} {query : List Candle → List Candle}
    (hquery : Queries t config candle query) (hpast : SamePast candle store store')
    (h : ∀ r ∈ query store.rows, r.timestamp ≤ candle.timestamp)
    (h' : ∀ r ∈ query store'.rows, r.timestamp ≤ candle.timestamp) :
    query store.rows = query store'.rows := by
  cases t with
  | priceThreshold | candleClose => exact hquery.elim
  | percentMove =>
      obtain ⟨_, startTime, _, _, rfl⟩ := hquery
      exact oldestSince_congr hpast h h'
  | macdCross | rsi | bollingerBands =>
      obtain ⟨limit, hlimit, rfl⟩ := hquery
      exact newest_congr hpast ((newest_past_iff hlimit).mp h) ((newest_past_iff hlimit).mp h')

/-- **Where no newer candle is in the way, `evaluate` returns the same on two stores that
agree up to the candle.** -/
theorem no_look_ahead [Driver] {store store' : Table Candle.key}
    (hpast : SamePast candle store store')
    (h : PastOnly F t config candle store.rows) (h' : PastOnly F t config candle store'.rows) :
    t.evaluateOn F config candle store.rows = t.evaluateOn F config candle store'.rows := by
  have hone := t.oneQuery_evaluate (F := F) config candle
  apply hone.onStore_eq
  intro query hasked
  exact query_congr (hone.of_asked hasked) hpast (pastOnly_iff.mp h query hasked)
    (pastOnly_iff.mp h' query hasked)

/-! ### A window that starts in the past, and bands of one candle. -/

/-- The bar before, the bar that is evaluated, and the one after. -/
def pastBars : Table Candle.key := barTable "BTC" 0 [2, 1]

def laterBars : Table Candle.key := barTable "BTC" (seconds 900) [1, 2, 1]

theorem samePast_laterBars : SamePast (bar "BTC" 0 2) pastBars laterBars := by
  intro r _ htime
  have hrows : laterBars.rows = bar "BTC" (seconds 900) 1 :: pastBars.rows := rfl
  rw [hrows, List.mem_cons]
  constructor
  · exact Or.inr
  · rintro (rfl | hr)
    · exact absurd htime (by decide)
    · exact hr

attribute [local instance] integerDriver

theorem no_look_ahead_percentMove :
    RuleType.evaluateOn ℝ .percentMove
        [("percent_threshold", .int 5), ("window_seconds", .int 3600)] (bar "BTC" 0 2)
        pastBars.rows
      = RuleType.evaluateOn ℝ .percentMove
        [("percent_threshold", .int 5), ("window_seconds", .int 3600)] (bar "BTC" 0 2)
        laterBars.rows := by
  have hseen : ∀ rows : List Candle, bar "BTC" 0 2 ∈ rows → PastOnly ℝ .percentMove
      [("percent_threshold", .int 5), ("window_seconds", .int 3600)] (bar "BTC" 0 2) rows := by
    intro rows hmem _ windowSeconds startTime hwindow hstart
    obtain rfl : (3600 : Int) = windowSeconds := Except.ok.inj hwindow
    obtain rfl : (-3600000000 : Time) = startTime := Except.ok.inj hstart
    exact Or.inl ⟨bar "BTC" 0 2, hmem, rfl, by decide, by decide⟩
  exact no_look_ahead samePast_laterBars (hseen _ List.mem_cons_self)
    (hseen _ (List.mem_cons_of_mem _ List.mem_cons_self))

/-- The bands of one price. -/
theorem bandsOf_one (stdDev x : ℝ) : bandsOf 1 stdDev [x] = .ok (x, x, x) := by
  have hdiv : ∀ y : ℝ, divInt y 1 = .ok y := by
    intro y
    rw [divInt_small (by decide) (by decide)]
    exact congrArg Except.ok (by simp [PyFloat.ofInt])
  unfold bandsOf
  simp [hdiv, PyFloat.sum, PyFloat.sqrt, ok_bind]

theorem calculateBollingerBands_one (stdDev : ℝ) :
    calculateBollingerBands [1, 2] 1 stdDev = .ok ([1, 2], [1, 2], [1, 2]) ∧
      calculateBollingerBands [1, 2, 1] 1 stdDev = .ok ([1, 2, 1], [1, 2, 1], [1, 2, 1]) := by
  have hrange : pyRange 0 2 = [0, 1] ∧ pyRange 0 3 = [0, 1, 2] := by decide
  unfold calculateBollingerBands
  constructor
  · rw [if_neg (by simp)]
    simp [hrange.1, windowAt, bandsOf_one]
    rfl
  · rw [if_neg (by simp)]
    simp [hrange.2, windowAt, bandsOf_one]
    rfl

/-- **A newer bar that has been stored fires a rule** on a candle it does not fire on
without. -/
theorem looks_ahead : ¬ ∀ t ∈ [RuleType.percentMove, .macdCross, .rsi, .bollingerBands],
    ∀ (config : Config) (candle : Candle) (store store' : Table Candle.key),
      SamePast candle store store' →
      t.evaluateOn ℝ config candle store.rows = t.evaluateOn ℝ config candle store'.rows := by
  intro h
  have heq := h .bollingerBands (by simp)
    [("band", .str "upper"), ("event", .str "break"), ("period", .int 1)] (bar "BTC" 0 2)
    pastBars laterBars samePast_laterBars
  have hrun : ∀ rows, RuleType.evaluateOn ℝ .bollingerBands
      [("band", .str "upper"), ("event", .str "break"), ("period", .int 1)] (bar "BTC" 0 2) rows
      = BollingerBandsRule.decideOn ℝ 1 (PyFloat.ofDec (.fin 2)) true true (bar "BTC" 0 2)
          (newest "BTC" 60 rows) := by
    intro rows
    rw [evaluateOn_bollingerBands]
    rfl
  have hpast : pricesOf ℝ (newest "BTC" 60 pastBars.rows) = [1, 2] := by
    rw [pastBars, barTable, newest_bars, List.take_of_length_le (by simp), pricesOf_bars]
    simp [PyFloat.ofDec]
  have hlater : pricesOf ℝ (newest "BTC" 60 laterBars.rows) = [1, 2, 1] := by
    rw [laterBars, barTable, newest_bars, List.take_of_length_le (by simp), pricesOf_bars]
    simp [PyFloat.ofDec]
  have hclose : currentClose ℝ (bar "BTC" 0 2) = .ok 2 := by
    simp [currentClose, Dec.toFloat, bar, PyFloat.ofDec]
  have hquiet : BollingerBandsRule.decideOn ℝ 1 (PyFloat.ofDec (.fin 2)) true true (bar "BTC" 0 2)
      (newest "BTC" 60 pastBars.rows) = .ok none := by
    unfold BollingerBandsRule.decideOn BollingerBandsRule.decideWith
    rw [hpast, hclose, if_neg (by simp)]
    rw [(calculateBollingerBands_one _).1]
    simp [index, bind, Except.bind, pure, Except.pure]
  have hfires : BollingerBandsRule.decideOn ℝ 1 (PyFloat.ofDec (.fin 2)) true true (bar "BTC" 0 2)
      (newest "BTC" 60 laterBars.rows) = .ok (some 2) := by
    unfold BollingerBandsRule.decideOn BollingerBandsRule.decideWith
    rw [hlater, hclose, if_neg (by simp)]
    rw [(calculateBollingerBands_one _).2]
    simp [index, bind, Except.bind, pure, Except.pure]
  rw [hrun, hrun, hquiet, hfires] at heq
  exact absurd heq (by simp)

end Pulse
