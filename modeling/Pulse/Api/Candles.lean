/-
  Pulse.Api.Candles
  ─────────────────
  **LISTING CANDLES PAGE BY PAGE.**

  `list_candles` of `api/routes/candles.py` filters by symbol, interval and time, and
  orders by `timestamp`, up or down.  Within one symbol and interval timestamps are
  unique, so its pages fit together where those of `list_alerts` need not.

    • `listCandles`    — the route,
    • `requestPage`    — a page at offset `k * limit`, or the refusal of the offset,
    • `candles_listed` — what a reader of a table collects, up or down.
-/
import Pulse.Store.Growing
import Pulse.Worker.World

namespace Pulse

open Pulse.Store

/-! ## §1. The route. -/

/-- `order`, of pattern `^(asc|desc)$`. -/
inductive SortOrder where
  | asc
  | desc
  deriving DecidableEq, Repr

def SortOrder.value : SortOrder → String
  | .asc => "asc"
  | .desc => "desc"

/-- The columns of a candle row that the database fills in and no query reads. -/
structure RowDefaults where
  id : Nat
  createdAt : Time
  deriving DecidableEq, Repr

/-- `CandleResponse`. -/
structure CandleResponse where
  id : Nat
  symbol : String
  timestamp : Time
  openPrice : Dec
  high : Dec
  low : Dec
  close : Dec
  volume : Option Dec
  intervalSeconds : Nat
  createdAt : Time
  deriving DecidableEq

/-- `CandleResponse.model_validate`. -/
def CandleResponse.ofCandle (defaults : String × Time × Nat → RowDefaults) (c : Candle) :
    CandleResponse where
  id := (defaults c.key).id
  symbol := c.symbol
  timestamp := c.timestamp
  openPrice := c.openPrice
  high := c.high
  low := c.low
  close := c.close
  volume := c.volume
  intervalSeconds := c.intervalSeconds
  createdAt := (defaults c.key).createdAt

/-- `CandleListResponse`. -/
structure CandleListResponse where
  candles : List CandleResponse
  total : Nat
  limit : Nat
  offset : Nat
  order : String

/-- The parameters of a request, within their bounds. -/
structure CandleParams where
  symbol : String
  intervalSeconds : Nat := 900
  startTime : Option Time := none
  endTime : Option Time := none
  limit : Nat := 200
  offset : Nat := 0
  order : SortOrder := .desc
  symbolLength : 1 ≤ symbol.length ∧ symbol.length ≤ 20
  intervalBound : 60 ≤ intervalSeconds
  limitBounds : 1 ≤ limit ∧ limit ≤ 500
  offsetBound : offset ≤ 100000

/-- The rows of the query before it is ordered. -/
def matchingCandles (q : CandleParams) (rows : List Candle) : List Candle :=
  let query := rows.filter fun c => c.symbol = upper q.symbol
  let query := query.filter fun c => c.intervalSeconds = q.intervalSeconds
  let query := match q.startTime with
    | some start => query.filter fun c => start ≤ c.timestamp
    | none => query
  match q.endTime with
  | some stop => query.filter fun c => c.timestamp ≤ stop
  | none => query

/-- How the database answers `ORDER BY timestamp` up and down. -/
structure TimeOrder where
  asc : Arrangement fun c : Candle => OrderDual.toDual c.timestamp
  desc : Arrangement Candle.timestamp

def TimeOrder.arrange (db : TimeOrder) : SortOrder → List Candle → List Candle
  | .asc => db.asc.arrange
  | .desc => db.desc.arrange

/-- `list_candles`. -/
def listCandles (db : TimeOrder) (defaults : String × Time × Nat → RowDefaults)
    (table : Table Candle.key) (q : CandleParams) : CandleListResponse :=
  let query := matchingCandles q table.rows
  { candles := (slice q.offset q.limit (db.arrange q.order query)).map
      (CandleResponse.ofCandle defaults)
    total := query.length
    limit := q.limit
    offset := q.offset
    order := q.order.value }

/-- The request for the page at offset `k * limit`; an offset above 100000 is refused. -/
def requestPage (db : TimeOrder) (defaults : String × Time × Nat → RowDefaults)
    (table : Table Candle.key) (q : CandleParams) (k : ℕ) : Option CandleListResponse :=
  if h : k * q.limit ≤ 100000 then
    some (listCandles db defaults table { q with offset := k * q.limit, offsetBound := h })
  else none

/-! ## §2. What is asked. -/

/-- Timestamps in the order that was asked for. -/
def SortOrder.Before : SortOrder → Candle → Candle → Prop
  | .asc, c, c' => c.timestamp < c'.timestamp
  | .desc, c, c' => c'.timestamp < c.timestamp

variable (defaults : String × Time × Nat → RowDefaults) in
/-- A reader asks for pages `0` to `m`, each of the table and the database of its moment,
until one is not full. -/
structure ReadsPages (tables : ℕ → Table Candle.key) (q : CandleParams) (m : ℕ)
    (page : ℕ → CandleListResponse) : Prop where
  answered : ∃ db : ℕ → TimeOrder, ∀ k ≤ m,
    requestPage (db k) defaults (tables k) q k = some (page k)
  full : ∀ k < m, (page k).candles.length = q.limit
  short : (page m).candles.length < q.limit

/-- What the reader holds in the end. -/
def collectedPages (page : ℕ → CandleListResponse) (m : ℕ) : List CandleResponse :=
  (List.range (m + 1)).flatMap fun k => (page k).candles

variable (defaults : String × Time × Nat → RowDefaults) in
/-- The candles of `table` that match, each once and in the order that was asked for. -/
def ListsAll (table : Table Candle.key) (q : CandleParams) (candles : List CandleResponse) : Prop :=
  ∃ rows : List Candle, rows.Perm (matchingCandles q table.rows) ∧ rows.Pairwise q.order.Before ∧
    candles = rows.map (CandleResponse.ofCandle defaults)

/-- Rows were inserted, none was removed or rewritten. -/
def RowsKept (t t' : Table Candle.key) : Prop := t.rows ⊆ t'.rows

/-- The rows that were inserted are later than those of their symbol and interval. -/
def RowsLater (t t' : Table Candle.key) : Prop :=
  ∀ c ∈ t'.rows, c ∉ t.rows → ∀ r ∈ t.rows, r.symbol = c.symbol →
    r.intervalSeconds = c.intervalSeconds → r.timestamp < c.timestamp

theorem RowsLater.refl (t : Table Candle.key) : RowsLater t t := fun _ hc hnew => absurd hc hnew

theorem RowsLater.trans {t t' t'' : Table Candle.key} (h : RowsLater t t') (hkept : RowsKept t t')
    (h' : RowsLater t' t'') : RowsLater t t'' := by
  intro c hc hnew r hr hsymbol hinterval
  by_cases hmid : c ∈ t'.rows
  · exact h c hmid hnew r hr hsymbol hinterval
  · exact h' c hc hmid r (hkept hr) hsymbol hinterval

/-! ## §3. The rows of a query. -/

section Query

variable {table : Table Candle.key} {q : CandleParams} {rows : List Candle} {c : Candle}

theorem mem_matchingCandles : c ∈ matchingCandles q rows ↔ c ∈ rows ∧
    (c.symbol = upper q.symbol ∧ c.intervalSeconds = q.intervalSeconds) ∧
    (∀ start ∈ q.startTime, start ≤ c.timestamp) ∧ ∀ stop ∈ q.endTime, c.timestamp ≤ stop := by
  unfold matchingCandles
  cases q.startTime <;> cases q.endTime <;> simp <;> tauto

theorem matchingCandles_sublist (q : CandleParams) (rows : List Candle) :
    (matchingCandles q rows).Sublist rows := by
  have hfirst : ((rows.filter fun c => c.symbol = upper q.symbol).filter fun c =>
      c.intervalSeconds = q.intervalSeconds).Sublist rows :=
    List.filter_sublist.trans List.filter_sublist
  unfold matchingCandles
  cases q.startTime with
  | none => cases q.endTime with
    | none => exact hfirst
    | some stop => exact List.filter_sublist.trans hfirst
  | some start => cases q.endTime with
    | none => exact List.filter_sublist.trans hfirst
    | some stop => exact List.filter_sublist.trans (List.filter_sublist.trans hfirst)

/-- **No two matching candles tie**: the key that they share otherwise is unique. -/
theorem matching_timestamps_nodup :
    ((matchingCandles q table.rows).map Candle.timestamp).Nodup := by
  have hkeys : ((matchingCandles q table.rows).map Candle.key).Nodup :=
    table.nodup.sublist ((matchingCandles_sublist q table.rows).map Candle.key)
  rw [List.Nodup, List.pairwise_map] at hkeys ⊢
  refine hkeys.imp_of_mem fun {c c'} hc hc' hne htime => hne ?_
  obtain ⟨-, ⟨hsymbol, hinterval⟩, -⟩ := mem_matchingCandles.mp hc
  obtain ⟨-, ⟨hsymbol', hinterval'⟩, -⟩ := mem_matchingCandles.mp hc'
  show (c.symbol, c.timestamp, c.intervalSeconds) = (c'.symbol, c'.timestamp, c'.intervalSeconds)
  rw [hsymbol, hsymbol', hinterval, hinterval', htime]

theorem matching_dual_nodup : ((matchingCandles q table.rows).map fun c =>
    OrderDual.toDual c.timestamp).Nodup := matching_timestamps_nodup

theorem matching_nodup : (matchingCandles q table.rows).Nodup := matching_timestamps_nodup.of_map

variable (db db' : TimeOrder)

theorem TimeOrder.perm (order : SortOrder) (rows : List Candle) :
    (db.arrange order rows).Perm rows := by
  cases order with
  | asc => exact db.asc.perm rows
  | desc => exact db.desc.perm rows

theorem TimeOrder.before (order : SortOrder) :
    (db.arrange order (matchingCandles q table.rows)).Pairwise order.Before := by
  cases order with
  | asc => exact arrange_strict matching_dual_nodup db.asc
  | desc => exact arrange_strict matching_timestamps_nodup db.desc

/-- Up or down, the database has one answer. -/
theorem TimeOrder.unique (order : SortOrder) :
    db.arrange order (matchingCandles q table.rows)
      = db'.arrange order (matchingCandles q table.rows) := by
  cases order with
  | asc => exact arrange_unique matching_dual_nodup _ _
  | desc => exact arrange_unique matching_timestamps_nodup _ _

end Query

/-! ## §4. The pages of a reader. -/

section Reader

variable {defaults : String × Time × Nat → RowDefaults} {tables : ℕ → Table Candle.key}
  {table : Table Candle.key} {q : CandleParams} {m : ℕ} {page : ℕ → CandleListResponse}

/-- The rows of the query behind page `k`, in their order. -/
def queryRows (db : ℕ → TimeOrder) (tables : ℕ → Table Candle.key) (q : CandleParams) (k : ℕ) :
    List Candle := (db k).arrange q.order (matchingCandles q (tables k).rows)

/-- A page is a slice of its query. -/
theorem requestPage_some {d : TimeOrder} {k : ℕ} {response : CandleListResponse}
    (h : requestPage d defaults table q k = some response) :
    response.candles = (slice (k * q.limit) q.limit
        (d.arrange q.order (matchingCandles q table.rows))).map
          (CandleResponse.ofCandle defaults) ∧
      response.total = (matchingCandles q table.rows).length ∧ k * q.limit ≤ 100000 := by
  unfold requestPage at h
  split at h
  next hoffset =>
    obtain rfl := Option.some.inj h
    exact ⟨rfl, rfl, hoffset⟩
  next => exact absurd h (by simp)

/-- So the reader holds the slices of the queries, one after the other. -/
theorem ReadsPages.slices (h : ReadsPages defaults tables q m page) : ∃ db : ℕ → TimeOrder,
    (∀ k ≤ m, (page k).candles = (slice (k * q.limit) q.limit (queryRows db tables q k)).map
      (CandleResponse.ofCandle defaults)) ∧
    (∀ k < m, (slice (k * q.limit) q.limit (queryRows db tables q k)).length = q.limit) ∧
    (slice (m * q.limit) q.limit (queryRows db tables q m)).length < q.limit ∧
    collectedPages page m = ((List.range (m + 1)).flatMap fun k =>
      slice (k * q.limit) q.limit (queryRows db tables q k)).map (CandleResponse.ofCandle defaults) := by
  obtain ⟨⟨db, hanswered⟩, hfull, hshort⟩ := h
  have hpage : ∀ k ≤ m, (page k).candles
      = (slice (k * q.limit) q.limit (queryRows db tables q k)).map
        (CandleResponse.ofCandle defaults) :=
    fun k hk => (requestPage_some (hanswered k hk)).1
  refine ⟨db, hpage, fun k hk => ?_, ?_, ?_⟩
  · have hlength := hfull k hk
    rw [hpage k hk.le, List.length_map] at hlength
    exact hlength
  · rw [hpage m (le_refl m), List.length_map] at hshort
    exact hshort
  · unfold collectedPages
    rw [List.map_flatMap]
    refine List.flatMap_congr fun k hk => hpage k ?_
    exact Nat.lt_succ_iff.mp (List.mem_range.mp hk)

/-- Rows that enter later enter behind the others, if the query ascends. -/
theorem queryRows_prefix {db : ℕ → TimeOrder} {k : ℕ} (horder : q.order = .asc)
    (hkept : RowsKept (tables k) (tables (k + 1))) (hlater : RowsLater (tables k) (tables (k + 1))) :
    queryRows db tables q k <+: queryRows db tables q (k + 1) := by
  unfold queryRows
  rw [horder]
  refine arrange_prefix matching_nodup matching_dual_nodup ?_ ?_ (db k).asc (db (k + 1)).asc
  · intro c hc
    have hmatch := mem_matchingCandles.mp hc
    exact mem_matchingCandles.mpr ⟨hkept hmatch.1, hmatch.2⟩
  · intro r hr c hc hnew
    obtain ⟨hin, hmatch⟩ := mem_matchingCandles.mp hc
    obtain ⟨hrin, hrmatch⟩ := mem_matchingCandles.mp hr
    have hfresh : c ∉ (tables k).rows := fun hold => hnew (mem_matchingCandles.mpr ⟨hold, hmatch⟩)
    show r.timestamp < c.timestamp
    exact hlater c hin hfresh r hrin (hrmatch.1.1.trans hmatch.1.1.symm)
      (hrmatch.1.2.trans hmatch.1.2.symm)

/-- **A reader that goes up** holds the candles of its last query, though rows entered behind
the others. -/
theorem ReadsPages.ascending (h : ReadsPages defaults tables q m page) (horder : q.order = .asc)
    (hkept : ∀ k < m, RowsKept (tables k) (tables (k + 1)))
    (hlater : ∀ k < m, RowsLater (tables k) (tables (k + 1))) :
    ListsAll defaults (tables m) q (collectedPages page m) := by
  obtain ⟨db, -, hfull, hshort, hcollected⟩ := h.slices
  have hgrow : ∀ k < m, queryRows db tables q k <+: queryRows db tables q (k + 1) :=
    fun k hk => queryRows_prefix horder (hkept k hk) (hlater k hk)
  rw [collected_all hgrow hfull hshort] at hcollected
  exact ⟨queryRows db tables q m, (db m).perm _ _, (db m).before _, hcollected⟩

/-- **A reader that goes up or down** misses no candle of its first query, wherever rows enter. -/
theorem ReadsPages.seen (h : ReadsPages defaults tables q m page)
    (hkept : ∀ k < m, RowsKept (tables k) (tables (k + 1))) {c : Candle}
    (hc : c ∈ matchingCandles q (tables 0).rows) :
    CandleResponse.ofCandle defaults c ∈ collectedPages page m := by
  obtain ⟨db, -, -, hshort, hcollected⟩ := h.slices
  have hgrow : ∀ k < m, matchingCandles q (tables k).rows
      ⊆ matchingCandles q (tables (k + 1)).rows := by
    intro k hk r hr
    have hmatch := mem_matchingCandles.mp hr
    exact mem_matchingCandles.mpr ⟨hkept k hk hmatch.1, hmatch.2⟩
  obtain ⟨k, hk, hslice⟩ : ∃ k ≤ m, c ∈ slice (k * q.limit) q.limit (queryRows db tables q k) := by
    unfold queryRows at hshort ⊢
    cases horder : q.order with
    | asc =>
        rw [horder] at hshort
        obtain ⟨k, hk, -, hslice⟩ := seen_of_inserted (fun _ _ => matching_dual_nodup) hgrow
          (fun k => (db k).asc) hshort hc
        exact ⟨k, hk, hslice⟩
    | desc =>
        rw [horder] at hshort
        obtain ⟨k, hk, -, hslice⟩ := seen_of_inserted (fun _ _ => matching_timestamps_nodup) hgrow
          (fun k => (db k).desc) hshort hc
        exact ⟨k, hk, hslice⟩
  rw [hcollected]
  refine List.mem_map_of_mem (List.mem_flatMap.mpr ⟨k, ?_, hslice⟩)
  exact List.mem_range.mpr (by omega)

/-! ## §5. A table that nobody writes. -/

theorem length_queryRows {db : ℕ → TimeOrder} (k : ℕ) : (queryRows db tables q k).length
    = (matchingCandles q (tables k).rows).length := ((db k).perm _ _).length_eq

/-- The reader stops at the first page that is not full. -/
theorem ReadsPages.last (h : ReadsPages defaults (fun _ => table) q m page) :
    m = (matchingCandles q table.rows).length / q.limit := by
  obtain ⟨db, -, hfull, hshort, -⟩ := h.slices
  have hpos := q.limitBounds.1
  have hlow : m * q.limit ≤ (matchingCandles q table.rows).length := by
    cases m with
    | zero => omega
    | succ m =>
        have hpage := hfull m (Nat.lt_succ_self m)
        rw [length_slice, length_queryRows] at hpage
        rw [Nat.succ_mul]
        omega
  have hhigh : (matchingCandles q table.rows).length < (m + 1) * q.limit := by
    rw [length_slice, length_queryRows] at hshort
    rw [Nat.succ_mul]
    omega
  exact (Nat.div_eq_of_lt_le hlow hhigh).symm

/-- Up or down, the reader of one table holds all that matches. -/
theorem ReadsPages.listsAll (h : ReadsPages defaults (fun _ => table) q m page) :
    ListsAll defaults table q (collectedPages page m) := by
  obtain ⟨db, -, hfull, hshort, hcollected⟩ := h.slices
  have hgrow : ∀ k < m, queryRows db (fun _ => table) q k <+: queryRows db (fun _ => table) q (k + 1) :=
    fun k _ => by
      have hsame : queryRows db (fun _ => table) q k = queryRows db (fun _ => table) q (k + 1) :=
        (db k).unique (db (k + 1)) q.order
      exact hsame ▸ List.prefix_refl _
  rw [collected_all hgrow hfull hshort] at hcollected
  exact ⟨queryRows db (fun _ => table) q m, (db m).perm _ _, (db m).before _, hcollected⟩

/-- One way to answer, up and down. -/
def insertionOrder : TimeOrder where
  asc := tied (fun c : Candle => OrderDual.toDual c.timestamp) (OrderDual.toDual 0) false
  desc := tied Candle.timestamp 0 false

/-- The pages of one table in that order. -/
def pagesOf (defaults : String × Time × Nat → RowDefaults) (table : Table Candle.key)
    (q : CandleParams) (k : ℕ) : CandleListResponse :=
  (requestPage insertionOrder defaults table q k).getD ⟨[], 0, 0, 0, ""⟩

theorem requestPage_pagesOf {k : ℕ} (hoffset : k * q.limit ≤ 100000) :
    requestPage insertionOrder defaults table q k = some (pagesOf defaults table q k) := by
  unfold pagesOf requestPage
  rw [dif_pos hoffset, Option.getD_some]

/-- Every page up to the last is answered, if the offset of the last is. -/
theorem reads_pagesOf (hreach : (matchingCandles q table.rows).length / q.limit * q.limit ≤ 100000) :
    ReadsPages defaults (fun _ => table) q ((matchingCandles q table.rows).length / q.limit)
      (pagesOf defaults table q) := by
  have hpos := q.limitBounds.1
  have hbound := Nat.div_mul_le_self (matchingCandles q table.rows).length q.limit
  have hnext : (matchingCandles q table.rows).length
      < (matchingCandles q table.rows).length / q.limit * q.limit + q.limit :=
    Nat.lt_div_mul_add hpos
  obtain ⟨last, hlast⟩ : ∃ last, (matchingCandles q table.rows).length / q.limit = last := ⟨_, rfl⟩
  rw [hlast] at hreach hbound hnext ⊢
  have hanswered : ∀ k ≤ last, requestPage insertionOrder defaults table q k
      = some (pagesOf defaults table q k) :=
    fun k hk => requestPage_pagesOf ((Nat.mul_le_mul_right _ hk).trans hreach)
  have hlength : ∀ k ≤ last, (pagesOf defaults table q k).candles.length
      = min q.limit ((matchingCandles q table.rows).length - k * q.limit) := by
    intro k hk
    rw [(requestPage_some (hanswered k hk)).1, List.length_map, length_slice,
      (insertionOrder.perm _ _).length_eq]
  refine ⟨⟨fun _ => insertionOrder, hanswered⟩, fun k hk => ?_, ?_⟩
  · rw [hlength k hk.le]
    have hfit : (k + 1) * q.limit ≤ last * q.limit := Nat.mul_le_mul_right _ hk
    rw [Nat.succ_mul] at hfit
    omega
  · rw [hlength last (le_refl last)]
    omega

/-- **Every matching candle is listed once, in order**, however the database breaks ties: pages
are asked for until one is not full, which happens iff the offset of that page is accepted. -/
theorem candles_listed (defaults : String × Time × Nat → RowDefaults) (table : Table Candle.key)
    (q : CandleParams) :
    (∀ m page, ReadsPages defaults (fun _ => table) q m page →
      ListsAll defaults table q (collectedPages page m) ∧
        ∀ k ≤ m, (page k).total = (collectedPages page m).length) ∧
    ((∃ m page, ReadsPages defaults (fun _ => table) q m page) ↔
      (matchingCandles q table.rows).length / q.limit * q.limit ≤ 100000) := by
  constructor
  · intro m page h
    refine ⟨h.listsAll, fun k hk => ?_⟩
    obtain ⟨db, hanswered⟩ := h.answered
    obtain ⟨rows, hperm, -, hcollected⟩ := h.listsAll
    rw [(requestPage_some (hanswered k hk)).2.1, hcollected,
      List.length_map, hperm.length_eq]
  · constructor
    · rintro ⟨m, page, h⟩
      obtain ⟨db, hanswered⟩ := h.answered
      rw [← h.last]
      exact (requestPage_some (hanswered m (le_refl m))).2.2
    · exact fun hreach => ⟨_, _, reads_pagesOf hreach⟩

end Reader

/-! ### Three candles, two on a page. -/

/-- Candles of three quarters of an hour, as they came. -/
def quarterHours : Table Candle.key :=
  [1800, 0, 900].foldl (fun t s => t.insertNew
    { sampleCandle with timestamp := seconds s, intervalSeconds := 900 }) .empty

/-- The defaults are within their bounds. -/
theorem interval_default : 60 ≤ 900 := by decide

theorem offset_default : 0 ≤ 100000 := by decide

theorem length_btc : 1 ≤ "btc".length ∧ "btc".length ≤ 20 := by decide

/-- `?symbol=btc&limit=2&order=asc`. -/
def oldestFirst : CandleParams where
  symbol := "btc"
  limit := 2
  order := .asc
  symbolLength := length_btc
  intervalBound := interval_default
  limitBounds := by decide
  offsetBound := offset_default

theorem candles_listed_quarterHours (defaults : String × Time × Nat → RowDefaults) :
    ∃ page, ReadsPages defaults (fun _ => quarterHours) oldestFirst 1 page ∧
      ListsAll defaults quarterHours oldestFirst (collectedPages page 1) ∧
      (collectedPages page 1).length = 3 := by
  have hlisted := candles_listed defaults quarterHours oldestFirst
  obtain ⟨m, page, h⟩ := hlisted.2.mpr (by decide)
  have hlast : m = 1 := h.last.trans (by decide)
  subst hlast
  obtain ⟨hall, -⟩ := hlisted.1 1 page h
  refine ⟨page, h, hall, ?_⟩
  obtain ⟨rows, hperm, -, hcollected⟩ := hall
  rw [hcollected, List.length_map, hperm.length_eq]
  decide

end Pulse
