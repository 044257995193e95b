/-
  Pulse.Main.Chronicle
  ────────────────────
  **CANDLES ARE READ WHILE THEY ARE RECORDED.**

  A reader of `list_candles` asks for its pages while the worker goes on.  The
  worker removes no row.  It also records each symbol's candles in order of time,
  as long as no process starts with a cursor that is behind a row, which only a
  process that ended between the row's commit and the cursor's can leave.

    • `Chronicled`        — what a process has recorded is behind what it yields next,
    • `candles_read_live` — a reader misses nothing that was there when it began, and
                            one that goes up holds the table of its last page.
-/
import Pulse.Api.Candles
import Pulse.Main.Cursor

namespace Pulse

open Pulse.Async Pulse.Store

/-! ## §1. The rows of the candle in process. -/

/-- Of all candles, only `candle` is inserted. -/
def Op.stores (candle : Candle) : Op → Prop
  | .insertCandle c => c = candle
  | _ => True

section Candle

variable {ruleClasses : RuleClasses} {candle : Candle} {rules : List Rule} {o : Op}

theorem Op.records.stores (ho : o.records candle) : o.stores candle := by
  cases o <;> first | exact ho | trivial

theorem Op.processes.stores {rule : Rule}
    (ho : o.processes ruleClasses rule candle) : o.stores candle := by
  cases o <;> try trivial
  rcases ho with ho | ho | ⟨_, ho⟩
  · exact ho.elim
  · exact absurd ho (by simp)
  · exact ho.elim

theorem stores_processCandle :
    (processCandle ruleClasses rules candle).Uses (Op.stores candle) (fun _ => True) := by
  unfold processCandle
  refine Coro.Uses.bind (uses_recordCandle.mono (fun _ ho => ho.stores) fun _ h => h) fun _ _ => ?_
  exact Coro.Uses.forEach fun _ _ => uses_processRule.mono (fun _ ho => ho.stores) fun _ h => h

variable {i : Nat} {inp : Input} {w w' : World Nat} {r : Resp o}

/-- The candle's row is added, or the rows stay. -/
theorem World.perform_stores (ho : o.stores candle) (h : perform i o inp w = some (r, w')) :
    w'.candles = w.candles ∨
      w.candles.get candle.key = none ∧ w'.candles = w.candles.insertNew candle := by
  have heffect := perform_effect h
  show w'.candles = (w.tick inp.elapsed).candles ∨
    (w.tick inp.elapsed).candles.get candle.key = none ∧
      w'.candles = (w.tick inp.elapsed).candles.insertNew candle
  generalize w.tick inp.elapsed = w₁ at heffect ⊢
  cases heffect with
  | nothing | abort | call | post | fault | undone | refused | insert | commit | cursor =>
      exact Or.inl rfl
  | delivery alert records => exact Or.inl (storeDelivery_apart w₁ i alert records).candles
  | candle hnone =>
      obtain rfl : _ = candle := ho
      exact Or.inr ⟨hnone, rfl⟩

end Candle

namespace Pipeline

/-! ## §2. What is asked. -/

/-- No stored 15-minute candle is ahead of its symbol's cursor. -/
def CaughtUp (w : World Nat) : Prop :=
  ∀ row ∈ w.candles.rows, row.intervalSeconds = 900 →
    ∃ t ∈ w.cursors row.symbol, row.timestamp ≤ t

/-- What is assumed of the exchange and the database, and that a process starts with cursors
that have caught up. -/
def Orderly (p : Pipeline) (a : Action) : Prop :=
  p.Assumed a ∧ match a with
    | .boot _ _ _ => CaughtUp p.world
    | _ => True

variable {ruleClasses : RuleClasses} {p p' p₀ : Pipeline}

/-! ## §3. One action. -/

/-- A candle that the process was seeded with, or one at or behind a candle that it yielded. -/
def Passed (p : Pipeline) (row : Candle) : Prop :=
  (∃ t, p.seeds row.symbol = some t ∧ row.timestamp ≤ t) ∨
    ∃ y ∈ p.client.world.yielded, y.candle.symbol = row.symbol ∧
      row.timestamp ≤ y.candle.timestamp

/-- The invariant. -/
structure Chronicled (p : Pipeline) : Prop where
  sound : Traceable p
  passed : p.alive = true → ∀ row ∈ p.world.candles.rows, row.intervalSeconds = 900 → p.Passed row
  /-- The main loop stores the candle yielded last, and no other. -/
  busy : p.task.returned = false → ∃ earlier y, p.client.world.yielded = earlier ++ [y] ∧
    p.task.Uses (Op.stores y.candle) (fun _ => True)

/-- What was yielded stays yielded. -/
theorem Passed.yielded {row : Candle} (h : p.Passed row) (hseeds : p'.seeds = p.seeds)
    (hkept : ∀ y ∈ p.client.world.yielded, y ∈ p'.client.world.yielded) : p'.Passed row := by
  unfold Passed
  rw [hseeds]
  refine h.imp_right ?_
  intro ⟨y, hy, hsymbol, htime⟩
  exact ⟨y, hkept y hy, hsymbol, htime⟩

/-- **The candle in process is later** than the rows of its symbol, unless it is one of them. -/
theorem Chronicled.later {earlier : List Ingest.Yielded} {y : Ingest.Yielded}
    (h : Chronicled p) (halive : p.alive = true)
    (hyielded : p.client.world.yielded = earlier ++ [y])
    (hfresh : p.world.candles.get y.candle.key = none) :
    ∀ r ∈ p.world.candles.rows, r.symbol = y.candle.symbol →
      r.intervalSeconds = y.candle.intervalSeconds → r.timestamp < y.candle.timestamp := by
  intro r hr hsymbol hinterval
  have hforward := h.sound.forward halive
  have hy : y ∈ p.client.world.yielded := by rw [hyielded]; simp
  have hle : r.timestamp ≤ y.candle.timestamp := by
    rcases h.passed halive r hr (hinterval.trans (hforward.regular y hy).2) with
      ⟨t, ht, hle⟩ | ⟨y', hy', hsymbol', hle⟩
    · rw [hsymbol] at ht
      exact hle.trans (hforward.ascending.seeds y hy t ht).le
    · have horder := hforward.ascending.order
      rw [hyielded, List.pairwise_append] at horder
      rw [hyielded] at hy'
      rcases List.mem_append.mp hy' with hy' | hy'
      · exact hle.trans (horder.2.2 y' hy' y (List.mem_singleton_self _)
          (hsymbol'.trans hsymbol)).le
      · rw [List.mem_singleton.mp hy'] at hle
        exact hle
  refine lt_of_le_of_ne hle fun htime => ?_
  -- it would be the row of the candle's key
  refine Table.get_eq_none.mp hfresh r hr ?_
  show (r.symbol, r.timestamp, r.intervalSeconds) = _
  rw [hsymbol, htime, hinterval]
  rfl

theorem Chronicled.answer {inp : Input} (h : Chronicled p) (hok : p.Assumed (.answer inp))
    (hstep : step ruleClasses p (.answer inp) = some p') :
    Chronicled p' ∧ RowsLater p.world.candles p'.world.candles := by
  have hsound := (h.sound.answer hok hstep).1
  obtain ⟨o, k, r, w, ht, hperf, rfl⟩ := answer_cases hstep
  obtain ⟨earlier, y, hyielded, huses⟩ := h.busy (by rw [ht]; rfl)
  have halive : p.alive = true := (h.sound.busy (by rw [ht]; rfl)).1
  rw [ht] at huses
  have hbusy : ∃ earlier y, p.client.world.yielded = earlier ++ [y] ∧
      (k r).Uses (Op.stores y.candle) (fun _ => True) := ⟨earlier, y, hyielded, huses.2 r⟩
  rcases World.perform_stores huses.1 hperf with hsame | ⟨hfresh, hinsert⟩
  · -- no candle is stored
    have hsame : w.candles = p.world.candles := hsame
    refine ⟨⟨hsound, fun _ row hrow => ?_, fun _ => hbusy⟩, ?_⟩
    · have hrow : row ∈ w.candles.rows := hrow
      rw [hsame] at hrow
      exact h.passed halive row hrow
    · show RowsLater p.world.candles w.candles
      rw [hsame]
      exact RowsLater.refl _
  · -- the candle in process is stored, behind all that are there
    have hrows : w.candles.rows = p.world.candles.rows ++ [y.candle] := by
      rw [hinsert]
      exact Table.insertNew_rows_of_fresh hfresh
    have hcases : ∀ row ∈ w.candles.rows, row ∈ p.world.candles.rows ∨ row = y.candle := by
      intro row hrow
      rw [hrows] at hrow
      simpa using hrow
    refine ⟨⟨hsound, fun _ row hrow hinterval => ?_, fun _ => hbusy⟩, ?_⟩
    · rcases hcases row hrow with hrow | rfl
      · exact h.passed halive row hrow hinterval
      · exact Or.inr ⟨y, by rw [hyielded]; simp, rfl, le_refl _⟩
    · intro c hc hnew
      obtain rfl := (hcases c hc).resolve_left hnew
      exact h.later halive hyielded hfresh

theorem Chronicled.stream {a : Loop.Action Ingest.Input} (h : Chronicled p)
    (hok : p.Assumed (.stream a)) (hstep : step ruleClasses p (.stream a) = some p') :
    Chronicled p' ∧ RowsLater p.world.candles p'.world.candles := by
  have hsound := (h.sound.stream hok hstep).1
  obtain ⟨halive, -, client, hclient, rfl⟩ := stream_cases hstep
  refine ⟨⟨hsound, fun _ row hrow hinterval => ?_, fun hbusy => ?_⟩, RowsLater.refl _⟩
  · exact (h.passed halive row hrow hinterval).yielded rfl (yielded_grows hclient)
  · have hbusy : (handOver ruleClasses p.rules p.client.task).returned = false := hbusy
    rcases handOver_cases ruleClasses p.rules hclient with ⟨hidle, -⟩ | ⟨y, hprocess, hmore⟩
    · rw [hidle] at hbusy
      exact absurd hbusy (by simp [Coro.returned])
    · refine ⟨p.client.world.yielded, y, hmore, ?_⟩
      show (handOver ruleClasses p.rules p.client.task).Uses _ _
      rw [hprocess]
      exact stores_processCandle

theorem Chronicled.boot {mode : Ingest.Mode} {symbols : String} {clock : Time}
    (h : Chronicled p) (hcaught : CaughtUp p.world)
    (hstep : step ruleClasses p (.boot mode symbols clock) = some p') :
    Chronicled p' ∧ RowsLater p.world.candles p'.world.candles := by
  have hsound := (h.sound.boot hstep).1
  obtain ⟨-, rfl⟩ := boot_cases hstep
  refine ⟨⟨hsound, fun _ row hrow hinterval => ?_, fun hb => ?_⟩, RowsLater.refl _⟩
  · obtain ⟨t, ht, hle⟩ := hcaught row hrow hinterval
    exact Or.inl ⟨t, ht, hle⟩
  · exact absurd hb (by simp [Coro.returned])

theorem Chronicled.die (h : Chronicled p) (hstep : step ruleClasses p .die = some p') :
    Chronicled p' ∧ RowsLater p.world.candles p'.world.candles := by
  have hsound := (h.sound.die hstep).1
  obtain ⟨-, rfl⟩ := die_cases hstep
  refine ⟨⟨hsound, fun ha => ?_, fun hb => ?_⟩, RowsLater.refl _⟩
  · exact absurd ha (by simp)
  · exact absurd hb (by simp [Coro.returned])

/-- **One action** inserts a candle that is later than those of its symbol, if it inserts one. -/
theorem Chronicled.step {a : Action} (h : Chronicled p) (hok : Orderly p a)
    (hstep : Pipeline.step ruleClasses p a = some p') :
    Chronicled p' ∧ RowsLater p.world.candles p'.world.candles := by
  obtain ⟨hassumed, hboot⟩ := hok
  cases a with
  | boot mode symbols clock => exact h.boot hboot hstep
  | stream a => exact h.stream hassumed hstep
  | answer inp => exact h.answer hassumed hstep
  | die => exact h.die hstep
  | others rules alerts attempts =>
      have hsound := (h.sound.others hstep).1
      obtain rfl := Option.some.inj hstep
      exact ⟨⟨hsound, h.passed, h.busy⟩, RowsLater.refl _⟩

/-- No action removes a row. -/
theorem kept_step {a : Action} (hstep : Pipeline.step ruleClasses p a = some p') :
    RowsKept p.world.candles p'.world.candles := by
  intro c hc
  cases a with
  | answer inp =>
      obtain ⟨o, k, r, w, ht, hperf, rfl⟩ := answer_cases hstep
      -- the only operation on `candles` is an insert
      have hget := (World.perform_progress hperf).candles c.key c (Table.get_of_mem hc)
      exact (Table.get_eq_some.mp hget).1
  | boot mode symbols clock =>
      obtain ⟨-, rfl⟩ := boot_cases hstep
      exact hc
  | stream a =>
      obtain ⟨-, -, client, -, rfl⟩ := stream_cases hstep
      exact hc
  | die =>
      obtain ⟨-, rfl⟩ := die_cases hstep
      exact hc
  | others rules alerts attempts =>
      obtain rfl := Option.some.inj hstep
      exact hc

/-! ## §4. Whole runs. -/

theorem kept_run {P : Pipeline → Action → Prop}
    (hrun : Reaches (Pipeline.step ruleClasses) P p p') :
    RowsKept p.world.candles p'.world.candles := by
  refine hrun.invariant (I := fun q => RowsKept p.world.candles q.world.candles) ?_ fun _ hc => hc
  exact fun q a q' hkept _ hstep c hc => kept_step hstep (hkept hc)

theorem Chronicled.start (h₀ : Start p₀) : Chronicled p₀ where
  sound := .start h₀
  passed := fun ha => absurd ha (by rw [h₀.alive]; simp)
  busy := fun hb => absurd hb (by rw [h₀.task]; simp [Coro.returned])

/-- **Along every orderly run** candles are recorded in order of time. -/
theorem Chronicled.run (h : Chronicled p)
    (hrun : Reaches (Pipeline.step ruleClasses) Orderly p p') :
    Chronicled p' ∧ RowsLater p.world.candles p'.world.candles := by
  have hall : Chronicled p' ∧ RowsKept p.world.candles p'.world.candles ∧
      RowsLater p.world.candles p'.world.candles := by
    refine hrun.invariant (I := fun q => Chronicled q ∧ RowsKept p.world.candles q.world.candles ∧
      RowsLater p.world.candles q.world.candles) ?_ ⟨h, fun _ hc => hc, RowsLater.refl _⟩
    intro q a q' ⟨hq, hkept, hlater⟩ hok hstep
    obtain ⟨hq', hlater'⟩ := hq.step hok hstep
    exact ⟨hq', fun _ hc => kept_step hstep (hkept hc), hlater.trans hkept hlater'⟩
  exact ⟨hall.1, hall.2.2⟩

/-- **Candles are read while they are recorded.**  A reader's pages meet the worker at states
`p 0` to `p m` of one run, with any crashes.  Up or down, it gets every candle that matched when
it began; and it gets what matches at the end, each candle once and in order, if it goes up and
processes start with cursors that have caught up. -/
theorem candles_read_live {defaults : String × Time × Nat → RowDefaults} {p : ℕ → Pipeline}
    {q : CandleParams} {m : ℕ} {page : ℕ → CandleListResponse}
    (hreads : ReadsPages defaults (fun k => (p k).world.candles) q m page) :
    ((∀ k < m, Reaches (Pipeline.step ruleClasses) (fun _ _ => True) (p k) (p (k + 1))) →
      ∀ c ∈ matchingCandles q (p 0).world.candles.rows,
        CandleResponse.ofCandle defaults c ∈ collectedPages page m) ∧
    (q.order = .asc → Start p₀ → Reaches (Pipeline.step ruleClasses) Orderly p₀ (p 0) →
      (∀ k < m, Reaches (Pipeline.step ruleClasses) Orderly (p k) (p (k + 1))) →
      ListsAll defaults (p m).world.candles q (collectedPages page m)) := by
  constructor
  · intro hruns c hc
    exact hreads.seen (fun k hk => kept_run (hruns k hk)) hc
  · intro horder hstart hfirst hruns
    have hchronicled : ∀ k ≤ m, Chronicled (p k) := by
      intro k
      induction k with
      | zero => exact fun _ => ((Chronicled.start hstart).run hfirst).1
      | succ k ih => exact fun hk => ((ih (by omega)).run (hruns k hk)).1
    refine hreads.ascending horder (fun k hk => kept_run (hruns k hk)) fun k hk => ?_
    exact ((hchronicled k hk.le).run (hruns k hk)).2

/-! ### A reader of one candle at a time, and two processes. -/

def decidableBehind (cursor : Option Time) (t : Time) : Decidable (∃ u ∈ cursor, t ≤ u) :=
  match cursor with
  | none => isFalse (by simp)
  | some u => decidable_of_iff (t ≤ u) (by simp)

instance decidableCaughtUp (w : World Nat) : Decidable (CaughtUp w) :=
  let behind (row : Candle) : Decidable (row.intervalSeconds = 900 →
      ∃ t ∈ w.cursors row.symbol, row.timestamp ≤ t) :=
    @instDecidableForall _ _ (instDecidableEqNat _ _) (decidableBehind _ _)
  @List.decidableBAll _ _ behind w.candles.rows

instance decidableOrderly (p : Pipeline) : (a : Action) → Decidable (Orderly p a)
  | .boot _ _ _ => inferInstanceAs (Decidable (_ ∧ CaughtUp p.world))
  | .stream a => inferInstanceAs (Decidable (p.Assumed (.stream a) ∧ True))
  | .answer inp => inferInstanceAs (Decidable (p.Assumed (.answer inp) ∧ True))
  | .die | .others _ _ _ => inferInstanceAs (Decidable (True ∧ True))

/-- `?symbol=BTC&limit=1&order=asc`. -/
def oneByOne : CandleParams where
  symbol := "BTC"
  limit := 1
  order := .asc
  symbolLength := by decide
  intervalBound := interval_default
  limitBounds := by decide
  offsetBound := offset_default

/-- No columns beside those of the candle. -/
def noDefaults : String × Time × Nat → RowDefaults := fun _ => ⟨0, 0⟩

/-- The timestamps on page `k` of that reader. -/
def pageTimes (p : Pipeline) (k : ℕ) : List Time :=
  (pagesOf noDefaults p.world.candles oneByOne k).candles.map CandleResponse.timestamp

/-- The next process records its candle. -/
def nextSchedule : List Action :=
  [.die, .boot .poll "BTC" (seconds 4600)] ++ pollStream.map .stream ++ [.answer {}]

theorem candles_read_live_twice : ∃ (p : ℕ → Pipeline) (page : ℕ → CandleListResponse),
    ReadsPages noDefaults (fun k => (p k).world.candles) oneByOne 2 page ∧
    ListsAll noDefaults (p 2).world.candles oneByOne (collectedPages page 2) ∧
    (collectedPages page 2).map CandleResponse.timestamp = [seconds 2700, seconds 3600] := by
  have hruns : (runs (fun p a => if Orderly p a then step alwaysMatches p a else none)
      liveSchedule initial).any (fun p => (pageTimes p 0 = [seconds 2700] : Bool) &&
        (runs (fun p a => if Orderly p a then step alwaysMatches p a else none)
          nextSchedule p).any (fun p' => (pageTimes p' 1 = [seconds 3600] : Bool) &&
            (pageTimes p' 2 = [] : Bool))) = true := by
    decide
  obtain ⟨p, hp, htest⟩ := Reaches.exists_of_runs hruns
  obtain ⟨hfirst, hnext⟩ := Bool.and_eq_true_iff.mp htest
  obtain ⟨p', hp', htest'⟩ := Reaches.exists_of_runs hnext
  obtain ⟨hsecond, hthird⟩ := Bool.and_eq_true_iff.mp htest'
  have hfirst := of_decide_eq_true hfirst
  have hsecond := of_decide_eq_true hsecond
  have hthird := of_decide_eq_true hthird
  -- the first page is read before the second process, the others after it
  obtain ⟨state, hstate⟩ : ∃ state : ℕ → Pipeline, state = fun k => if k = 0 then p else p' :=
    ⟨_, rfl⟩
  obtain ⟨page, hpage⟩ : ∃ page : ℕ → CandleListResponse,
      page = fun k => pagesOf noDefaults (state k).world.candles oneByOne k := ⟨_, rfl⟩
  have htimes : ∀ k, (page k).candles.map CandleResponse.timestamp = pageTimes (state k) k :=
    fun k => by rw [hpage]; rfl
  have hlength : ∀ k, (page k).candles.length = (pageTimes (state k) k).length :=
    fun k => by rw [← htimes, List.length_map]
  have hreads : ReadsPages noDefaults (fun k => (state k).world.candles) oneByOne 2 page := by
    refine ⟨⟨fun _ => insertionOrder, fun k hk => ?_⟩, fun k hk => ?_, ?_⟩
    · rw [hpage]
      refine requestPage_pagesOf ?_
      show k * 1 ≤ 100000
      omega
    · rw [hlength, hstate]
      obtain rfl | rfl : k = 0 ∨ k = 1 := by omega
      · exact congrArg List.length hfirst
      · exact congrArg List.length hsecond
    · rw [hlength, hstate]
      exact (congrArg List.length hthird).trans_lt (by decide)
  refine ⟨state, page, hreads, ?_, ?_⟩
  · have hlive := @candles_read_live alwaysMatches initial noDefaults state oneByOne 2 page hreads
    refine hlive.2 rfl start_initial ?_ fun k hk => ?_
    · rw [hstate]
      exact hp
    · rw [hstate]
      obtain rfl | rfl : k = 0 ∨ k = 1 := by omega
      · exact hp'
      · exact .refl
  · show ((List.range 3).flatMap fun k => (page k).candles).map _ = _
    rw [List.map_flatMap]
    simp only [htimes, hstate]
    show pageTimes p 0 ++ (pageTimes p' 1 ++ (pageTimes p' 2 ++ [])) = _
    rw [hfirst, hsecond, hthird]
    rfl

end Pipeline

end Pulse
