/-
  Pulse.Evaluate.Tracks
  ─────────────────────
  **THE EVALUATOR DOES WHAT THE MONITOR SAYS.**

  The tables are tracked by a monitor: its candles and cursors are the stored ones, its
  notices the alerts without identifiers and deliveries.  One session works on a candle
  and no statement is made to fail; the rest of the system delivers alerts.

    • `Tracks`            — the tables are what the monitor says,
    • `Meanwhile`         — what the rest of the system may do meanwhile,
    • `tracking_evaluate` — `RuleEvaluator.evaluate` is one `check`.
-/
import Pulse.Evaluate.Monitor

namespace Pulse

open Pulse.Async Pulse.Store

variable {ruleClasses : RuleClasses} {life : Nat} {rules : List Rule} {rule : Rule}
  {candle : Candle} {w w' : World Nat} {m : Monitor}

/-! ## §1. Tables and monitor. -/

/-- The tables are what the monitor says, up to uncommitted rows; the rules are there, and the
session of process `life` is usable. -/
structure Tracks (life : Nat) (rules : List Rule) (inflight : List (Nat × Alert)) (w : World Nat)
    (m : Monitor) : Prop where
  candles : w.candles = m.candles
  cursors : w.cursors = m.cursors
  notices : w.alerts.rows.map Alert.notice = m.notices
  clock : m.clock ≤ w.clock
  inflight : w.inflight = inflight
  usable : w.failed life = false
  rules : ∀ rule ∈ rules, (w.rules.get rule.id).isSome

/-- What the rest of the system may do: alerts are delivered and time passes. -/
structure Meanwhile (life : Nat) (rules : List Rule) (w w' : World Nat) : Prop where
  candles : w'.candles = w.candles
  cursors : w'.cursors = w.cursors
  raised : w'.alerts.rows.map Alert.asRaised = w.alerts.rows.map Alert.asRaised
  clock : w.clock ≤ w'.clock
  inflight : w'.inflight = w.inflight
  usable : w'.failed life = w.failed life
  rules : ∀ rule ∈ rules, (w.rules.get rule.id).isSome → (w'.rules.get rule.id).isSome

theorem Meanwhile.trans {w'' : World Nat} (h : Meanwhile life rules w w')
    (h' : Meanwhile life rules w' w'') : Meanwhile life rules w w'' where
  candles := h'.candles.trans h.candles
  cursors := h'.cursors.trans h.cursors
  raised := h'.raised.trans h.raised
  clock := le_trans h.clock h'.clock
  inflight := h'.inflight.trans h.inflight
  usable := h'.usable.trans h.usable
  rules := fun rule hrule hrow => h'.rules rule hrule (h.rules rule hrule hrow)

/-- Notices and identifiers are what was raised. -/
theorem map_notice_of_raised {rows rows' : List Alert}
    (h : rows'.map Alert.asRaised = rows.map Alert.asRaised) :
    rows'.map Alert.notice = rows.map Alert.notice := by
  have hnotice : ∀ rows : List Alert, rows.map Alert.notice
      = (rows.map Alert.asRaised).map Alert.notice := by
    intro rows
    rw [List.map_map]
    rfl
  rw [hnotice, h, ← hnotice]

variable {inflight : List (Nat × Alert)}

theorem Tracks.meanwhile (h : Tracks life rules inflight w m) (hs : Meanwhile life rules w w') :
    Tracks life rules inflight w' m where
  candles := hs.candles.trans h.candles
  cursors := hs.cursors.trans h.cursors
  notices := (map_notice_of_raised hs.raised).trans h.notices
  clock := le_trans h.clock hs.clock
  inflight := hs.inflight.trans h.inflight
  usable := hs.usable.trans h.usable
  rules := fun rule hrule => hs.rules rule hrule (h.rules rule hrule)

theorem Tracks.tick (h : Tracks life rules inflight w m) (n : ℕ) :
    Tracks life rules inflight (w.tick n) m :=
  ⟨h.candles, h.cursors, h.notices, le_trans h.clock (World.kept_tick life w n).clock, h.inflight,
    h.usable, h.rules⟩

/-- The monitor's clock may catch up. -/
theorem Tracks.wait (h : Tracks life rules inflight w m) :
    ∃ n : ℕ, m.clock + n = w.clock ∧ Tracks life rules inflight w (m.wait n) := by
  obtain ⟨n, hn⟩ := Int.le.dest h.clock
  exact ⟨n, hn, h.candles, h.cursors, h.notices, le_of_eq hn, h.inflight, h.usable, h.rules⟩

/-- **The newest alert** of a rule, as the database answers it, is the monitor's latest. -/
theorem Tracks.latest (h : Tracks life rules inflight w m) {ruleId : RuleId} {symbol : String}
    {page : List Alert} (hpage : IsPage (fun a => OrderDual.toDual a.triggeredAt) 1
      (w.alertsOf ruleId symbol) page) :
    m.latest ruleId symbol = page.head?.map Alert.triggeredAt := by
  have htimes : (m.notices.filter fun a => a.ruleId = ruleId ∧ a.symbol = symbol).map
      Alert.triggeredAt = (w.alertsOf ruleId symbol).map Alert.triggeredAt := by
    rw [← h.notices, List.filter_map, List.map_map]
    rfl
  unfold Monitor.latest
  rw [htimes]
  obtain ⟨-, hlength, -, hmem, hleft⟩ := hpage
  cases page with
  | nil =>
      have hnone : w.alertsOf ruleId symbol = [] := by
        rw [List.length_nil] at hlength
        exact List.length_eq_zero_iff.mp (by omega)
      rw [hnone]
      rfl
  | cons last rest =>
      refine List.max?_eq_some_iff.mpr ⟨List.mem_map_of_mem (hmem last List.mem_cons_self), ?_⟩
      intro t ht
      obtain ⟨a, ha, rfl⟩ := List.mem_map.mp ht
      have hshort : rest = [] := by
        rw [List.length_cons] at hlength
        exact List.length_eq_zero_iff.mp (by omega)
      subst hshort
      rcases hleft a ha with hin | hout
      · rw [List.mem_singleton.mp hin]
      · exact hout last (List.mem_singleton_self last)

/-! ## §2. Operations that read. -/

/-- What neither the monitor nor the session notices. -/
def Op.unseen : Op → Prop
  | .utcnow | .uniform _ | .call _ | .payload _ _ _ | .post _ _ _ => True
  | .selectRule _ | .selectLastAlert _ _ | .selectCandles _ | .savepoint | .refreshAlert _ => True
  | .selectCursor _ => True
  | _ => False

theorem Tracks.unseen {o : Op} {inp : Input} {r : Resp o} (ho : o.unseen)
    (hinp : inp.fault = none) (hperf : World.perform life o inp w = some (r, w'))
    (h : Tracks life rules inflight w m) : Tracks life rules inflight w' m := by
  have ht := h.tick inp.elapsed
  cases o with
  | utcnow | call _ | payload _ _ _ | post _ _ _ =>
      obtain ⟨-, rfl⟩ := World.answer_inj hperf
      exact ⟨ht.candles, ht.cursors, ht.notices, ht.clock, ht.inflight, ht.usable, ht.rules⟩
  | uniform hi =>
      simp only [World.perform] at hperf
      split at hperf
      next =>
        obtain ⟨-, rfl⟩ := World.answer_inj hperf
        exact ht
      next => exact absurd hperf (by simp)
  | selectRule _ | selectCandles _ | savepoint | refreshAlert _ | selectCursor _ =>
      simp only [World.perform, World.statement_healthy ht.usable hinp] at hperf
      obtain ⟨-, rfl⟩ := World.answer_inj hperf
      exact ht
  | selectLastAlert _ _ =>
      simp only [World.perform, World.statement_healthy ht.usable hinp] at hperf
      split at hperf
      next =>
        obtain ⟨-, rfl⟩ := World.answer_inj hperf
        exact ht
      next => exact absurd hperf (by simp)
  | _ => exact ho.elim

variable (life rules) in
/-- Process `life` works while the rest of the system is steady, and no statement is made to
fail. -/
abbrev tracking {α : Type} (Q : α → World Nat → Prop) (E : PyErr → World Nat → Prop)
    (p : Prog α) (w : World Nat) : Prop :=
  Coro.wp (World.perform life) (fun _ inp _ => inp.fault = none) (Meanwhile life rules)
    (fun _ _ => True) Q E p w

/-- **The cooldown check** agrees with the monitor at the time it reads; it raises only where
the monitor lets the rule rest. -/
theorem tracking_isInCooldown {symbol : String} (h : Tracks life rules [] w m) :
    tracking life rules
      (fun resting u => ∃ n : ℕ, Tracks life rules [] u (m.wait n) ∧
        resting = (m.wait n).rests rule symbol)
      (fun _ u => ∃ n : ℕ, Tracks life rules [] u (m.wait n) ∧
        (m.wait n).rests rule symbol = true)
      (isInCooldown rule symbol) w := by
  have hwait : ∀ u, Tracks life rules [] u m → Tracks life rules [] u (m.wait 0) := by
    intro u hu
    have hclock : m.clock + (0 : ℕ) ≤ u.clock := by
      rw [Nat.cast_zero, add_zero]
      exact hu.clock
    exact ⟨hu.candles, hu.cursors, hu.notices, hclock, hu.inflight, hu.usable, hu.rules⟩
  unfold isInCooldown
  split
  next hzero =>
    exact ⟨0, hwait w h, (Monitor.rests_of_zero hzero).symm⟩
  next hzero =>
    intro s hs inp r u hinp hperf
    have hu := (h.meanwhile hs).unseen (by trivial) hinp hperf
    refine ⟨trivial, ?_⟩
    obtain ⟨page, hpage, rfl⟩ : ∃ page, IsPage (fun a => OrderDual.toDual a.triggeredAt) 1
        (s.alertsOf rule.id (upper symbol)) page ∧ r = .ok page.head? := by
      simp only [World.perform,
        World.statement_healthy ((h.meanwhile hs).tick inp.elapsed).usable hinp] at hperf
      split at hperf
      next hpage => exact ⟨_, hpage, ((World.answer_inj hperf).1).symm⟩
      next => exact absurd hperf (by simp)
    have hlatest := (h.meanwhile hs).latest hpage
    have hsame : ∀ n : ℕ, (m.wait n).latest rule.id (upper symbol)
        = page.head?.map Alert.triggeredAt := fun _ => hlatest
    cases hhead : page.head? with
    | none =>
        rw [hhead] at hsame
        exact ⟨0, hwait u hu, (Monitor.rests_of_silent (hsame 0)).symm⟩
    | some lastAlert =>
        rw [hhead] at hsame
        cases hcooldown : rule.cooldownSeconds with
        | none =>
            -- `timedelta(seconds=None)`
            exact ⟨0, hwait u hu, Monitor.rests_of_missing hcooldown (hsame 0)⟩
        | some cooldown =>
            intro s₁ hs₁ inp₁ now u₁ hinp₁ hperf₁
            have hu₁ := (hu.meanwhile hs₁).unseen (by trivial) hinp₁ hperf₁
            obtain ⟨n, hn, hcaught⟩ := hu₁.wait
            have hne : cooldown ≠ 0 := fun h => hzero (hcooldown.trans (congrArg some h))
            have hnow : now = u₁.clock := by
              obtain ⟨rfl, rfl⟩ := World.answer_inj hperf₁
              rfl
            refine ⟨trivial, n, hcaught, ?_⟩
            have hclock : (m.wait n).clock = u₁.clock := hn
            rw [Monitor.rests_of_cooldown hcooldown hne (hsame n), hnow, hclock]

/-- **A rule class** answers what the monitor's candles say, or raises what they say. -/
theorem tracking_onStore {α : Type} {p : Prog α} (hp : Strict p)
    (h : Tracks life rules inflight w m) :
    tracking life rules
      (fun a u => onStore m.candles.rows p = .ok a ∧ Tracks life rules inflight u m)
      (fun e u => onStore m.candles.rows p = .error e ∧ Tracks life rules inflight u m) p w := by
  induction p generalizing w with
  | pure a => exact ⟨rfl, h⟩
  | raise e => exact ⟨rfl, h⟩
  | await o k ih =>
      cases o with
      | selectCandles query =>
          intro s hs inp r u hinp hperf
          have hu := (h.meanwhile hs).unseen (by trivial) hinp hperf
          refine ⟨trivial, ?_⟩
          simp only [World.perform,
            World.statement_healthy ((h.meanwhile hs).tick inp.elapsed).usable hinp] at hperf
          obtain ⟨rfl, rfl⟩ := World.answer_inj hperf
          have hrows : (s.tick inp.elapsed).candles = m.candles := (h.meanwhile hs).candles
          rw [hrows]
          exact ih (.ok (query m.candles.rows)) (hp.2 _) hu
      | _ => exact hp.elim

/-! ## §3. An alert is inserted. -/

variable {a row : Alert}

/-- The window is taken for the database iff it is for the monitor. -/
theorem Tracks.any_windowKey (h : Tracks life rules inflight w m) (a : Alert) :
    w.alerts.rows.any (fun b => b.windowKey = a.windowKey)
      = m.notices.any fun b => b.windowKey = a.windowKey := by
  rw [← h.notices, List.any_map]
  rfl

theorem insertAlert_healthy {alert : Alert} {inp : Input} {r : Except PyErr AlertId}
    (hf : (w.tick inp.elapsed).failed life = false) (hi : inp.fault = none)
    (h : World.perform life (.insertAlert alert) inp w = some (r, w')) :
    (w.tick inp.elapsed).insertRow life
      { alert with id := inp.uuid, createdAt := (w.tick inp.elapsed).clock } = some (r, w') := by
  simp only [World.perform, hf, hi] at h
  exact h

/-- **The insert** is refused where the monitor gives no notice, and else adds the row. -/
theorem Tracks.insertRow (h : Tracks life rules [] w m) (hrule : rule ∈ rules)
    (hid : row.ruleId = rule.id) (hrow : row.notice = a) {r : Except PyErr AlertId}
    (hinsert : w.insertRow life row = some (r, w')) :
    (∃ e, r = .error e ∧ e.cls = .integrityError ∧ Tracks life rules [] w' (m.give a)) ∨
      (r = .ok row.id ∧ Tracks life rules [(life, row)] w' m ∧
        m.give a = { m with notices := m.notices ++ [a] } ∧
        row.id ∉ w'.alerts.rows.map Alert.id) := by
  have hkey : row.windowKey = a.windowKey := by rw [← hrow]; rfl
  have htaken := h.any_windowKey a
  unfold World.insertRow at hinsert
  rw [hid, h.inflight, hkey] at hinsert
  split at hinsert
  next hnone =>
    -- the rule is still there, so the foreign key holds
    have hthere := h.rules rule hrule
    rw [Option.isNone_iff_eq_none.mp hnone] at hthere
    exact absurd hthere (by simp)
  next =>
    split at hinsert
    next htake =>
      obtain ⟨rfl, rfl⟩ := World.answer_inj hinsert
      -- `IntegrityError` where the monitor has given notice in this window
      refine Or.inl ⟨_, rfl, rfl, ?_⟩
      rw [List.any_nil, Bool.or_false, htaken] at htake
      unfold Monitor.give
      rw [if_pos htake]
      exact h
    next hfree =>
      split at hinsert
      next => exact absurd hinsert (by simp)
      next hfresh =>
        obtain ⟨rfl, rfl⟩ := World.answer_inj hinsert
        refine Or.inr ⟨rfl, ?_, ?_, ?_⟩
        · exact ⟨h.candles, h.cursors, h.notices, h.clock, rfl, h.usable, h.rules⟩
        · rw [List.any_nil, Bool.or_false, htaken] at hfree
          unfold Monitor.give
          rw [if_neg hfree]
        · intro hmem
          -- a primary key that is taken would have been refused
          obtain ⟨b, hb, hbid⟩ := List.mem_map.mp hmem
          refine hfresh ?_
          rw [List.any_nil, List.any_nil, Bool.false_or, Bool.or_false, List.any_eq_true]
          exact ⟨b, hb, decide_eq_true hbid⟩

/-- **The commit** makes it the last alert. -/
theorem Tracks.commitRows (h : Tracks life rules [(life, row)] w m) (hrow : row.notice = a)
    (hfresh : row.id ∉ w.alerts.rows.map Alert.id) :
    Tracks life rules [] (w.commitRows life) { m with notices := m.notices ++ [a] } ∧
      (w.commitRows life).alerts.rows = w.alerts.rows ++ [row] := by
  have hnone : w.alerts.get row.id = none := by
    rw [← Option.not_isSome_iff_eq_none, get_isSome_iff]
    exact hfresh
  have hown : (w.inflight.filter fun e => e.1 = life) = [(life, row)] := by
    rw [h.inflight]
    simp
  have hrows : (w.commitRows life).alerts.rows = w.alerts.rows ++ [row] := by
    show (((w.inflight.filter fun e => e.1 = life).map Prod.snd).foldl Table.insertNew
      w.alerts).rows = _
    rw [hown]
    exact Table.insertNew_rows_of_fresh hnone
  refine ⟨⟨h.candles, h.cursors, ?_, h.clock, ?_, h.usable, h.rules⟩, hrows⟩
  · rw [hrows, List.map_append, h.notices, List.map_singleton, hrow]
  · show (w.inflight.filter fun e => e.1 ≠ life) = []
    rw [h.inflight]
    simp

/-- What `insertInSavepoint` leaves behind. -/
def Placed (life : Nat) (rules : List Rule) (m : Monitor) (a : Alert) (u : World Nat) :
    Option AlertId → Prop
  | none => Tracks life rules [] u (m.give a)
  | some id => ∃ row, row.notice = a ∧ row.id = id ∧ Tracks life rules [(life, row)] u m ∧
      m.give a = { m with notices := m.notices ++ [a] } ∧ id ∉ u.alerts.rows.map Alert.id

theorem tracking_insertInSavepoint (h : Tracks life rules [] w m) (hrule : rule ∈ rules)
    (triggerValue : Rat) :
    tracking life rules
      (fun inserted u => Placed life rules m (Monitor.noticeOf rule candle triggerValue) u inserted)
      (fun _ _ => False)
      (insertInSavepoint (Monitor.noticeOf rule candle triggerValue)) w := by
  unfold insertInSavepoint
  refine Coro.wp_tryCatch ?_
  intro s hs inp r u hinp hperf
  have hu := (h.meanwhile hs).unseen (by trivial) hinp hperf
  refine ⟨trivial, ?_⟩
  obtain rfl : r = .ok () := by
    simp only [World.perform,
      World.statement_healthy ((h.meanwhile hs).tick inp.elapsed).usable hinp] at hperf
    exact ((World.answer_inj hperf).1).symm
  intro s₁ hs₁ inp₁ r₁ u₁ hinp₁ hperf₁
  refine ⟨trivial, ?_⟩
  have ht := (hu.meanwhile hs₁).tick inp₁.elapsed
  obtain ⟨e, rfl, he, htracks⟩ | ⟨rfl, htracks, hgive, hfresh⟩ :=
    ht.insertRow hrule rfl rfl (insertAlert_healthy ht.usable hinp₁ hperf₁)
  · show tracking life rules _ _ (if e.cls = .integrityError then pure none else throw e) u₁
    rw [if_pos he]
    exact htracks
  · exact ⟨_, rfl, rfl, htracks, hgive, hfresh⟩

/-- A stored alert as it was loaded. -/
def Stored (u : World Nat) (alert : AlertObj) : Prop :=
  ∃ loaded, alert = AlertObj.ofRow loaded ∧ (u.alerts.get loaded.id).isSome

theorem tracking_commitNewAlert {inserted : Option AlertId}
    (h : Placed life rules m a w inserted) :
    tracking life rules
      (fun out u => Tracks life rules [] u (m.give a) ∧ ∀ alert, out = some alert → Stored u alert)
      (fun _ _ => False) (commitNewAlert inserted) w := by
  cases inserted with
  | none => exact ⟨h, fun alert halert => absurd halert (by simp)⟩
  | some id =>
      obtain ⟨row, hrow, rfl, htracks, hgive, hfresh⟩ := h
      intro s hs inp r u hinp hperf
      have ht := (htracks.meanwhile hs).tick inp.elapsed
      simp only [World.perform, World.statement_healthy ht.usable hinp] at hperf
      obtain ⟨rfl, rfl⟩ := World.answer_inj hperf
      -- the commit: meanwhile no alert with this id was stored
      have hfresh' : row.id ∉ (s.tick inp.elapsed).alerts.rows.map Alert.id := by
        show row.id ∉ s.alerts.rows.map Alert.id
        rw [map_id_of_raised hs.raised]
        exact hfresh
      obtain ⟨hcommitted, hrows⟩ := ht.commitRows hrow hfresh'
      rw [← hgive] at hcommitted
      have hthere : row.id ∈ ((s.tick inp.elapsed).commitRows life).alerts.rows.map Alert.id := by
        rw [hrows, List.map_append]
        exact List.mem_append_right _ (List.mem_singleton_self _)
      generalize (s.tick inp.elapsed).commitRows life = v at hcommitted hthere
      refine ⟨trivial, fun s₁ hs₁ inp₁ r₁ u₁ hinp₁ hperf₁ => ⟨trivial, ?_⟩⟩
      -- the refresh: the alert is still stored
      have hu₁ := (hcommitted.meanwhile hs₁).unseen (by trivial) hinp₁ hperf₁
      simp only [World.perform, World.statement_healthy
        ((hcommitted.meanwhile hs₁).tick inp₁.elapsed).usable hinp₁] at hperf₁
      obtain ⟨rfl, rfl⟩ := World.answer_inj hperf₁
      have hstays : (s₁.alerts.get row.id).isSome := by
        rw [get_isSome_iff, map_id_of_raised hs₁.raised]
        exact hthere
      obtain ⟨stored, hstored⟩ := Option.isSome_iff_exists.mp hstays
      have hget : (s₁.tick inp₁.elapsed).alerts.get row.id = some stored := hstored
      rw [hget]
      refine ⟨hu₁, fun alert halert => ?_⟩
      obtain rfl := Option.some.inj halert
      exact ⟨_, rfl, hstays⟩

theorem tracking_createAlert (h : Tracks life rules [] w m) (hrule : rule ∈ rules)
    (triggerValue : Rat) :
    tracking life rules
      (fun out u => Tracks life rules [] u (m.give (Monitor.noticeOf rule candle triggerValue)) ∧
        ∀ alert, out = some alert → Stored u alert)
      (fun _ _ => False)
      (createAlert rule candle (getIdempotencyWindow candle.timestamp).1
        (getIdempotencyWindow candle.timestamp).2 triggerValue) w := by
  unfold createAlert
  intro s hs inp r u hinp hperf
  have hu := (h.meanwhile hs).unseen (by trivial) hinp hperf
  refine ⟨trivial, ?_⟩
  show tracking life rules _ _ (insertInSavepoint _ >>= commitNewAlert) u
  exact Coro.wp_bind (Coro.wp_mono (fun inserted v hv => tracking_commitNewAlert hv)
    (fun _ _ he => he) (tracking_insertInSavepoint hu hrule triggerValue))

/-! ## §4. The evaluator. -/

variable (ruleClasses rules candle life) in
/-- The tables are what the monitor says after it checked the rule. -/
def Checked (m : Monitor) (rule : Rule) (u : World Nat) : Prop :=
  ∃ n : ℕ, Tracks life rules [] u ((m.wait n).check ruleClasses candle rule)

theorem Checked.meanwhile (h : Checked ruleClasses life rules candle m rule w)
    (hs : Meanwhile life rules w w') : Checked ruleClasses life rules candle m rule w' := by
  obtain ⟨n, hn⟩ := h
  exact ⟨n, hn.meanwhile hs⟩

/-- The monitor gives no notice. -/
theorem checked_of_silent {n : ℕ} (h : Tracks life rules [] w (m.wait n))
    (hsilent : (m.wait n).rests rule candle.symbol = true ∨
      (m.wait n).verdict ruleClasses rule candle = none) :
    Checked ruleClasses life rules candle m rule w := by
  refine ⟨n, ?_⟩
  unfold Monitor.check
  rcases hsilent with hrests | hverdict
  · rw [if_pos hrests]
    exact h
  · rw [hverdict]
    split
    next => exact h
    next => exact h

/-- **`evaluate`** is one check, at the time at which the cooldown was looked at. -/
theorem tracking_evaluate (hstrict : StrictClasses ruleClasses)
    (h : Tracks life rules [] w m) (hrule : rule ∈ rules) :
    tracking life rules
      (fun out u => Checked ruleClasses life rules candle m rule u ∧
        ∀ alert, out = some alert → Stored u alert)
      (fun _ u => Checked ruleClasses life rules candle m rule u)
      (evaluate ruleClasses rule candle) w := by
  have hnone : ∀ {u : World Nat} {alert : AlertObj}, (none : Option AlertObj) = some alert →
      Stored u alert := fun halert => absurd halert (by simp)
  intro s hs inp r u hinp hperf
  -- the call is noted, and nothing else happens
  have hu := (h.meanwhile hs).unseen (by trivial) hinp hperf
  refine ⟨trivial, ?_⟩
  show tracking life rules _ _ (isInCooldown rule candle.symbol >>= _) u
  refine Coro.wp_bind (Coro.wp_mono (fun resting v hv => ?_) (fun _ v hv => ?_)
    (tracking_isInCooldown hu))
  · obtain ⟨n, hv, hresting⟩ := hv
    split
    -- the rule rests: nothing is evaluated
    next hrests =>
      exact ⟨checked_of_silent hv (Or.inl (hresting.symm.trans hrests)), fun _ => hnone⟩
    next hawake =>
      have hawake : (m.wait n).rests rule candle.symbol = false := by
        rw [← hresting]
        exact Bool.eq_false_iff.mpr hawake
      split
      next hcls =>
        -- no class for the type of the rule
        refine ⟨checked_of_silent hv (Or.inr ?_), fun _ => hnone⟩
        unfold Monitor.verdict
        rw [hcls]
      next cls hcls =>
        have hverdict : (m.wait n).verdict ruleClasses rule candle
            = (onStore (m.wait n).candles.rows (cls.evaluate rule.config candle)).toOption.join := by
          unfold Monitor.verdict
          rw [hcls]
        refine Coro.wp_tryCatch (Coro.wp_bind (Coro.wp_mono (fun value x hx => ?_)
          (fun e x hx => ?_) (tracking_onStore (hstrict _ cls hcls rule.config candle) hv)))
        · obtain ⟨hvalue, hx⟩ := hx
          rw [hvalue] at hverdict
          cases value with
          | none => exact ⟨checked_of_silent hx (Or.inr hverdict), fun _ => hnone⟩
          | some triggerValue =>
              show tracking life rules _ _ (createAlert _ _ _ _ _) x
              refine Coro.wp_mono (fun out y hy => ⟨⟨n, ?_⟩, hy.2⟩) (fun _ _ he => he.elim)
                (tracking_createAlert hx hrule triggerValue)
              unfold Monitor.check
              rw [if_neg (by rw [hawake]; simp), hverdict]
              exact hy.1
        · -- the `except` of `evaluate`
          rw [hx.1] at hverdict
          exact ⟨checked_of_silent hx.2 (Or.inr hverdict), fun _ => hnone⟩
  · obtain ⟨n, hv, hrests⟩ := hv
    exact checked_of_silent hv (Or.inl hrests)

end Pulse
