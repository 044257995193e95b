/-
  Pulse.Main.Refines
  ──────────────────
  **THE WORKER REFINES THE MONITOR.**

  As long as no statement is made to fail and the process does not die, the main loop is
  a monitor of the candles that the stream yields: whatever the receivers answer, however
  time passes, and whatever the retry scheduler and the API do meanwhile.

    • `tracking_processCandle` — the work on one candle,
    • `Pipeline.Calm`          — no faults, no crash; alerts are delivered, rules stay,
    • `main_loop_refines`      — between two candles the tables are those of a monitor
                                 that watched every candle yielded.
-/
import Pulse.Dispatch.Settles
import Pulse.Evaluate.Tracks
import Pulse.Main.Cursor

namespace Pulse

open Pulse.Async Pulse.Store

variable {ruleClasses : RuleClasses} {life : Nat} {rules : List Rule} {rule : Rule}
  {candle : Candle} {w w' : World Nat} {m : Monitor}

/-! ## §1. One rule. -/

theorem Tracks.abort {inflight : List (Nat × Alert)} (h : Tracks life rules inflight w m)
    (hown : ∀ e ∈ inflight, e.1 = life) : Tracks life rules [] (w.abort life) m where
  candles := h.candles
  cursors := h.cursors
  notices := h.notices
  clock := h.clock
  inflight := by
    show (w.inflight.filter fun e => e.1 ≠ life) = []
    rw [h.inflight, List.filter_eq_nil_iff]
    intro e he
    simp [hown e he]
  usable := Function.update_self _ _ _
  rules := h.rules

/-- So the notices are as they were. -/
theorem Tracks.storeDelivery (h : Tracks life rules [] w m) (alert : AlertObj)
    (records : List AlertDeliveryAttempt) (hthere : (w.alerts.get alert.row.id).isSome) :
    ∃ v, w.storeDelivery life alert records = (.ok (), v) ∧ Tracks life rules [] v m ∧
      v.alerts.rows.map Alert.id = w.alerts.rows.map Alert.id := by
  obtain ⟨stored, hstored⟩ := Option.isSome_iff_exists.mp hthere
  have hraised := World.raised_storeDelivery w life alert records
  unfold World.storeDelivery at hraised ⊢
  rw [hstored] at hraised ⊢
  refine ⟨_, rfl, ?_, map_id_of_raised hraised⟩
  exact ⟨h.candles, h.cursors, (map_notice_of_raised hraised).trans h.notices, h.clock, h.inflight,
    h.usable, h.rules⟩

/-- **The delivery** of a stored alert is no concern of the monitor. -/
theorem tracking_dispatch {loaded : Alert} (h : Tracks life rules [] w m)
    (hthere : (w.alerts.get loaded.id).isSome) :
    tracking life rules (fun _ u => Tracks life rules [] u m) (fun _ u => Tracks life rules [] u m)
      (dispatch (AlertObj.ofRow loaded)) w := by
  refine Coro.wp_mono (fun _ u hu => hu.2.1) (fun _ u hu => hu.1) (Coro.wp_of_uses
    (I := fun u => Tracks life rules [] u m ∧ loaded.id ∈ u.alerts.rows.map Alert.id) ?_ ?_
    (uses_dispatch (S := fun _ => True) trivial trivial)
    ⟨h, get_isSome_iff.mp hthere⟩)
  · -- the others may update the alert, and keep its id
    intro s s' hs ⟨hI, hin⟩
    rw [map_id_of_raised hs.raised]
    exact ⟨hI.meanwhile hs, hin⟩
  · intro o inp s r s' ho hinp hperf ⟨hI, hin⟩
    refine ⟨trivial, ?_⟩
    cases o with
    | utcnow | payload _ _ _ | post _ _ _ =>
        refine ⟨hI.unseen (by trivial) hinp hperf, ?_⟩
        obtain ⟨-, rfl⟩ := World.answer_inj hperf
        exact hin
    | uniform hi =>
        refine ⟨hI.unseen (by trivial) hinp hperf, ?_⟩
        simp only [World.perform] at hperf
        split at hperf
        next =>
          obtain ⟨-, rfl⟩ := World.answer_inj hperf
          exact hin
        next => exact absurd hperf (by simp)
    | selectRule id =>
        refine ⟨hI.unseen (by trivial) hinp hperf, ?_⟩
        simp only [World.perform,
          World.statement_healthy (hI.tick inp.elapsed).usable hinp] at hperf
        obtain ⟨-, rfl⟩ := World.answer_inj hperf
        exact hin
    | commitDelivery alert records =>
        obtain ⟨-, hid, -⟩ := ho
        have ht := hI.tick inp.elapsed
        -- the commit of the delivery writes columns that the monitor does not have
        obtain ⟨v, hv, htracks, hids⟩ := ht.storeDelivery alert records (by
          rw [get_isSome_iff, hid]
          exact hin)
        simp only [World.perform, World.statement_healthy ht.usable hinp, hv] at hperf
        obtain ⟨-, rfl⟩ := World.answer_inj hperf
        refine ⟨htracks, ?_⟩
        rw [hids]
        exact hin
    | _ => exact ho.elim

/-- **One round of the inner loop** is one check. -/
theorem tracking_processRule (hstrict : StrictClasses ruleClasses) (h : Tracks life rules [] w m)
    (hrule : rule ∈ rules) :
    tracking life rules (fun _ u => Checked ruleClasses life rules candle m rule u)
      (fun _ _ => False) (processRule ruleClasses candle rule) w := by
  have hrollback : ∀ (e : PyErr) (u : World Nat), Checked ruleClasses life rules candle m rule u →
      tracking life rules (fun _ v => Checked ruleClasses life rules candle m rule v)
        (fun _ _ => False) rollback u := by
    intro e u ⟨n, hn⟩ s hs inp r v _ hperf
    obtain ⟨-, rfl⟩ := World.answer_inj hperf
    exact ⟨trivial, n, ((hn.meanwhile hs).tick inp.elapsed).abort fun e he => absurd he (by simp)⟩
  unfold processRule
  refine Coro.wp_tryCatch (Coro.wp_bind (Coro.wp_mono (fun out u hu => ?_) hrollback
    (tracking_evaluate hstrict h hrule)))
  obtain ⟨⟨n, hn⟩, hloaded⟩ := hu
  cases out with
  | none => exact ⟨n, hn⟩
  | some alert =>
      obtain ⟨loaded, rfl, hthere⟩ := hloaded alert rfl
      exact Coro.wp_mono (fun _ v hv => ⟨n, hv⟩) (fun e v hv => hrollback e v ⟨n, hv⟩)
        (tracking_dispatch hn hthere)

/-! ## §2. One candle. -/

/-- **`save_candle`**: the row is there, whether it was stored before or not. -/
theorem tracking_saveCandle (h : Tracks life rules [] w m) :
    tracking life rules
      (fun _ u => Tracks life rules [] u { m with candles := m.candles.insertNew candle })
      (fun _ _ => False) (saveCandle candle) w := by
  unfold saveCandle
  refine Coro.wp_tryCatch ?_
  intro s hs inp r u hinp hperf
  have ht := (h.meanwhile hs).tick inp.elapsed
  refine ⟨trivial, ?_⟩
  simp only [World.perform, World.statement_healthy ht.usable hinp] at hperf
  split at hperf
  next row hrow =>
    -- a duplicate: the session rolls back, and the row of the earlier save stays
    obtain ⟨rfl, rfl⟩ := World.answer_inj hperf
    have hsame : m.candles.insertNew candle = m.candles := by
      rw [ht.candles] at hrow
      obtain ⟨hmem, hkey⟩ := Table.get_eq_some.mp hrow
      unfold Table.insertNew
      exact dif_pos (List.mem_map.mpr ⟨row, hmem, hkey⟩)
    intro s₁ hs₁ inp₁ r₁ u₁ _ hperf₁
    obtain ⟨-, rfl⟩ := World.answer_inj hperf₁
    refine ⟨trivial, ?_⟩
    rw [hsame]
    have hclock : m.clock ≤ (s₁.tick inp₁.elapsed).clock :=
      le_trans (le_trans ht.clock hs₁.clock) (World.kept_tick life s₁ inp₁.elapsed).clock
    refine ⟨hs₁.candles.trans ht.candles, hs₁.cursors.trans ht.cursors,
      (map_notice_of_raised hs₁.raised).trans ht.notices, hclock, ?_,
      Function.update_self _ _ _, fun r hr => hs₁.rules r hr (ht.rules r hr)⟩
    show (s₁.inflight.filter fun e => e.1 ≠ life) = []
    rw [hs₁.inflight.trans ht.inflight]
    rfl
  next =>
    obtain ⟨rfl, rfl⟩ := World.answer_inj hperf
    have hcandles : (s.tick inp.elapsed).candles.insertNew candle
        = m.candles.insertNew candle := by rw [ht.candles]
    exact ⟨hcandles, ht.cursors, ht.notices, ht.clock, ht.inflight, ht.usable, ht.rules⟩

/-- **`update_cursor`**: nobody else writes cursors, so the row is updated or inserted. -/
theorem tracking_updateCursor {symbol : String} {timestamp : Time}
    (h : Tracks life rules [] w m) :
    tracking life rules
      (fun _ u => Tracks life rules [] u
        { m with cursors := Function.update m.cursors (upper symbol) (some timestamp) })
      (fun _ _ => False) (updateCursor symbol timestamp) w := by
  intro s hs inp r u hinp hperf
  have hu := (h.meanwhile hs).unseen (by trivial) hinp hperf
  refine ⟨trivial, ?_⟩
  simp only [World.perform,
    World.statement_healthy ((h.meanwhile hs).tick inp.elapsed).usable hinp] at hperf
  obtain ⟨rfl, rfl⟩ := World.answer_inj hperf
  intro s₁ hs₁ inp₁ r₁ u₁ hinp₁ hperf₁
  have ht := (hu.meanwhile hs₁).tick inp₁.elapsed
  have hsame : (s₁.tick inp₁.elapsed).cursors = (s.tick inp.elapsed).cursors :=
    ht.cursors.trans hu.cursors.symm
  refine ⟨trivial, ?_⟩
  simp only [World.perform, World.statement_healthy ht.usable hinp₁] at hperf₁
  split at hperf₁
  next hconflict =>
    rw [hsame] at hconflict
    exact absurd hconflict (by cases (s.tick inp.elapsed).cursors (upper symbol) <;> simp)
  next =>
    obtain ⟨rfl, rfl⟩ := World.answer_inj hperf₁
    refine ⟨ht.candles, ?_, ht.notices, ht.clock, ht.inflight, ht.usable, ht.rules⟩
    show Function.update (s₁.tick inp₁.elapsed).cursors _ _ = _
    rw [ht.cursors]

theorem tracking_recordCandle (h : Tracks life rules [] w m) :
    tracking life rules (fun _ u => Tracks life rules [] u (m.record candle)) (fun _ _ => False)
      (recordCandle candle) w := by
  unfold recordCandle
  exact Coro.wp_bind (Coro.wp_mono (fun _ _ hu => tracking_updateCursor hu) (fun _ _ he => he)
    (tracking_saveCandle h))

variable (ruleClasses rules candle life) in
/-- The tables are what the monitor says after the candle. -/
def AfterCandle (m : Monitor) (u : World Nat) : Prop :=
  ∃ m', Monitor.Checks ruleClasses candle (Monitor.asked rules candle) (m.record candle) m' ∧
    Tracks life rules [] u m'

/-- **The work on one candle**; nothing is raised. -/
theorem tracking_processCandle (hstrict : StrictClasses ruleClasses)
    (h : Tracks life rules [] w m) :
    tracking life rules (fun _ u => AfterCandle ruleClasses life rules candle m u) (fun _ _ => False)
      (processCandle ruleClasses rules candle) w := by
  unfold processCandle
  refine Coro.wp_bind (Coro.wp_mono (fun _ u hu => ?_) (fun _ _ he => he)
    (tracking_recordCandle h))
  -- what is left to check from here is what is left of all the checks
  refine Coro.wp_mono (fun _ v hv => ?_) (fun _ _ he => he) (Coro.wp_forEach
    (I := fun rest v => rest ⊆ Monitor.asked rules candle ∧ ∃ m', Tracks life rules [] v m' ∧
      ∀ m'', Monitor.Checks ruleClasses candle rest m' m'' →
        Monitor.Checks ruleClasses candle (Monitor.asked rules candle) (m.record candle) m'')
    (fun rule rest v hv => ?_) (symbolRules rules candle) u
    ⟨List.Subset.refl _, _, hu, fun _ hm => hm⟩)
  · obtain ⟨-, m', hm', hall⟩ := hv
    exact ⟨m', hall m' (.nil m'), hm'⟩
  · obtain ⟨hsub, m', hm', hall⟩ := hv
    obtain ⟨hrule, hrest⟩ := List.cons_subset.mp hsub
    refine Coro.wp_mono (fun _ x hx => ?_) (fun _ _ he => he)
      (tracking_processRule hstrict hm' (List.mem_filter.mp hrule).1)
    obtain ⟨n, hn⟩ := hx
    exact ⟨hrest, _, hn, fun m'' hm'' => hall m'' (.cons n hm'')⟩

theorem tracking_meanwhile {p : Prog Unit}
    (h : tracking life rules (fun _ u => AfterCandle ruleClasses life rules candle m u)
      (fun _ _ => False) p w) (hs : Meanwhile life rules w w') :
    tracking life rules (fun _ u => AfterCandle ruleClasses life rules candle m u)
      (fun _ _ => False) p w' := by
  refine Coro.wp_rely (fun _ _ _ h h' => h.trans h') (fun _ s s' hs hQ => ?_)
    (fun _ _ _ _ he => he) hs h
  obtain ⟨m', hchecks, hm'⟩ := hQ
  exact ⟨m', hchecks, hm'.meanwhile hs⟩

/-! ## §3. The worker. -/

namespace Pipeline

/-- No statement is made to fail and the process does not die; the others only write delivery
columns of alerts, and no rule that the process loaded is deleted. -/
def Calm (p : Pipeline) : Action → Prop
  | .answer inp => inp.fault = none
  | .others rules alerts _ =>
      alerts.rows.map Alert.asRaised = p.world.alerts.rows.map Alert.asRaised ∧
        ∀ rule ∈ p.rules, (rules.get rule.id).isSome
  | .die => False
  | .boot _ _ _ | .stream _ => True

/-- A process that has just started, over tables with no uncommitted row. -/
structure Booted (p : Pipeline) : Prop where
  alive : p.alive = true
  task : p.task = .pure ()
  yielded : p.client.world.yielded = []
  inflight : p.world.inflight = []
  usable : p.world.failed p.life = false
  rules : ∀ rule ∈ p.rules, (p.world.rules.get rule.id).isSome

/-- **The retry scheduler is calm**, whatever the receivers answer it. -/
theorem calm_of_retry {p : Pipeline} {j : Nat} {o : Op} {inp : Input} {r : Resp o}
    (hrules : ∀ rule ∈ p.rules, (p.world.rules.get rule.id).isSome) (ho : o.redelivers)
    (h : World.perform j o inp p.world = some (r, w')) :
    p.Calm (.others w'.rules w'.alerts w'.attempts) := by
  refine ⟨World.perform_raised ho h, ?_⟩
  rw [(World.perform_kept h).rules]
  exact hrules

/-- The candles that the stream has yielded. -/
def seen (p : Pipeline) : List Candle := p.client.world.yielded.map Ingest.Yielded.candle

/-- The monitor of the tables as they stand. -/
def monitor (p : Pipeline) : Monitor where
  candles := p.world.candles
  cursors := p.world.cursors
  notices := p.world.alerts.rows.map Alert.notice
  clock := p.world.clock

variable {p p' p₀ : Pipeline} {m₀ : Monitor}

/-- **The simulation**: between two candles the tables are tracked by a monitor that watched
every candle yielded, and during one by a monitor that watched those before it. -/
structure Follows (ruleClasses : RuleClasses) (m₀ : Monitor) (p : Pipeline) : Prop where
  alive : p.alive = true
  state : (p.task = .pure () ∧ ∃ m, Monitor.Watches ruleClasses p.rules p.seen m₀ m ∧
      Tracks p.life p.rules [] p.world m) ∨
    ∃ earlier candle m, p.seen = earlier ++ [candle] ∧
      Monitor.Watches ruleClasses p.rules earlier m₀ m ∧
      tracking p.life p.rules (fun _ u => AfterCandle ruleClasses p.life p.rules candle m u)
        (fun _ _ => False) p.task p.world

theorem Follows.boot (h₀ : Booted p₀) : Follows ruleClasses p₀.monitor p₀ where
  alive := h₀.alive
  state := by
    refine Or.inl ⟨h₀.task, p₀.monitor, ?_, ?_⟩
    · unfold seen
      rw [h₀.yielded]
      exact .nil _
    · exact ⟨rfl, rfl, rfl, le_refl _, h₀.inflight, h₀.usable, h₀.rules⟩

/-- **Between two candles.** -/
theorem Follows.idle (h : Follows ruleClasses m₀ p) (hidle : p.task.returned = true) :
    ∃ m, Monitor.Watches ruleClasses p.rules p.seen m₀ m ∧ Tracks p.life p.rules [] p.world m := by
  rcases h.state with ⟨-, hdone⟩ | ⟨earlier, candle, m, hseen, hwatches, htask⟩
  · exact hdone
  · obtain ⟨_, hpure⟩ := Coro.returned_iff.mp hidle
    rw [hpure] at htask
    obtain ⟨m', hchecks, htracks⟩ := htask
    rw [hseen]
    exact ⟨m', .snoc hwatches hchecks, htracks⟩

theorem Follows.answer {inp : Input} (h : Follows ruleClasses m₀ p) (hok : p.Calm (.answer inp))
    (hstep : step ruleClasses p (.answer inp) = some p') : Follows ruleClasses m₀ p' := by
  obtain ⟨o, k, r, w, ht, hperf, rfl⟩ := answer_cases hstep
  refine ⟨h.alive, Or.inr ?_⟩
  rcases h.state with ⟨hpure, -⟩ | ⟨earlier, candle, m, hseen, hwatches, htask⟩
  · rw [hpure] at ht
    exact absurd ht (by simp)
  · rw [ht] at htask
    have hrefl : Meanwhile p.life p.rules p.world p.world :=
      ⟨rfl, rfl, rfl, le_refl _, rfl, rfl, fun _ _ h => h⟩
    exact ⟨earlier, candle, m, hseen, hwatches, (htask p.world hrefl inp r w hok hperf).2⟩

theorem Follows.stream {a : Loop.Action Ingest.Input} (hstrict : StrictClasses ruleClasses)
    (h : Follows ruleClasses m₀ p) (hstep : step ruleClasses p (.stream a) = some p') :
    Follows ruleClasses m₀ p' := by
  obtain ⟨halive, hidle, client, hclient, rfl⟩ := stream_cases hstep
  obtain ⟨m, hwatches, htracks⟩ := h.idle hidle
  refine ⟨halive, ?_⟩
  rcases handOver_cases ruleClasses p.rules hclient with ⟨hnothing, hsame⟩ | ⟨y, hprocess, hmore⟩
  · refine Or.inl ⟨hnothing, m, ?_, htracks⟩
    show Monitor.Watches ruleClasses p.rules (client.world.yielded.map _) m₀ m
    rw [hsame]
    exact hwatches
  · refine Or.inr ⟨p.seen, y.candle, m, ?_, hwatches, ?_⟩
    · show client.world.yielded.map _ = p.client.world.yielded.map _ ++ [y.candle]
      rw [hmore, List.map_append]
      rfl
    · show tracking p.life p.rules _ _ (handOver ruleClasses p.rules p.client.task) p.world
      rw [hprocess]
      exact tracking_processCandle hstrict htracks

theorem Follows.others {rules : Table Rule.id} {alerts : Table Alert.id}
    {attempts : List AlertDeliveryAttempt} (h : Follows ruleClasses m₀ p)
    (hok : p.Calm (.others rules alerts attempts))
    (hstep : step ruleClasses p (.others rules alerts attempts) = some p') :
    Follows ruleClasses m₀ p' := by
  obtain rfl := Option.some.inj hstep
  have hmeanwhile : Meanwhile p.life p.rules p.world
      { p.world with rules := rules, alerts := alerts, attempts := attempts } :=
    ⟨rfl, rfl, hok.1, le_refl _, rfl, rfl, fun rule hrule _ => hok.2 rule hrule⟩
  refine ⟨h.alive, ?_⟩
  rcases h.state with ⟨hpure, m, hwatches, htracks⟩ | ⟨earlier, candle, m, hseen, hwatches, htask⟩
  · exact Or.inl ⟨hpure, m, hwatches, htracks.meanwhile hmeanwhile⟩
  · exact Or.inr ⟨earlier, candle, m, hseen, hwatches, tracking_meanwhile htask hmeanwhile⟩

/-- **One action.** -/
theorem Follows.step {a : Action} (hstrict : StrictClasses ruleClasses)
    (h : Follows ruleClasses m₀ p) (hok : p.Calm a)
    (hstep : Pipeline.step ruleClasses p a = some p') : Follows ruleClasses m₀ p' := by
  cases a with
  | boot mode symbols clock =>
      obtain ⟨hdead, -⟩ := boot_cases hstep
      exact absurd (h.alive.symm.trans hdead) (by simp)
  | stream a => exact h.stream hstrict hstep
  | answer inp => exact h.answer hok hstep
  | die => exact hok.elim
  | others rules alerts attempts => exact h.others hok hstep

/-- Only a new process loads rules. -/
theorem rules_step {a : Action} (halive : p.alive = true)
    (hstep : Pipeline.step ruleClasses p a = some p') : p'.rules = p.rules := by
  cases a with
  | boot mode symbols clock =>
      obtain ⟨hdead, -⟩ := boot_cases hstep
      exact absurd (halive.symm.trans hdead) (by simp)
  | stream a =>
      obtain ⟨-, -, client, -, rfl⟩ := stream_cases hstep
      rfl
  | answer inp =>
      obtain ⟨_, _, _, _, -, -, rfl⟩ := answer_cases hstep
      rfl
  | die =>
      obtain ⟨-, rfl⟩ := die_cases hstep
      rfl
  | others rules alerts attempts =>
      obtain rfl := Option.some.inj hstep
      rfl

/-- **The worker refines the monitor.**  Whenever the main loop awaits a candle, the tables are
those of a monitor that watched all candles yielded so far; without cooldowns they are a function
of these candles. -/
theorem main_loop_refines (hstrict : StrictClasses ruleClasses) (h₀ : Booted p₀)
    (hrun : Reaches (Pipeline.step ruleClasses) Calm p₀ p) (hidle : p.task.returned = true) :
    ∃ m, Monitor.Watches ruleClasses p₀.rules p.seen p₀.monitor m ∧
      Tracks p.life p₀.rules [] p.world m ∧
      ((∀ rule ∈ p₀.rules, rule.cooldownSeconds = some 0) →
        Monitor.Same m (Monitor.replay ruleClasses p₀.rules p.seen p₀.monitor)) := by
  have hfollows : Follows ruleClasses p₀.monitor p ∧ p.rules = p₀.rules := by
    refine hrun.invariant (I := fun q => Follows ruleClasses p₀.monitor q ∧ q.rules = p₀.rules)
      ?_ ⟨.boot h₀, rfl⟩
    intro q a q' ⟨hq, hrules⟩ hok hstep
    exact ⟨hq.step hstrict hok hstep, (rules_step hq.alive hstep).trans hrules⟩
  obtain ⟨m, hwatches, htracks⟩ := hfollows.1.idle hidle
  rw [hfollows.2] at hwatches htracks
  exact ⟨m, hwatches, htracks, fun hrules => hwatches.same hrules⟩

/-! ### A rule that always matches, and one live candle. -/

/-- A process over a database with one rule. -/
def freshProcess : Pipeline where
  world := .initial sampleRules
  life := 1
  alive := true
  loaded := sampleRules.rows
  symbols := "BTC"
  seeds := fun _ => none
  client := startClient .ws (fun _ => none) (seconds 3000)
  task := .pure ()

/-- The candle of 2700 is recorded, and the alert that it raised delivered. -/
def calmSchedule : List Action :=
  liveStream.map .stream ++ List.replicate 15 (.answer { uuid := 7 })

def decidableNoFault (fault : Option PyErr) : Decidable (fault = none) :=
  match fault with
  | none => isTrue rfl
  | some _ => isFalse (by simp)

instance decidableCalm (p : Pipeline) : (a : Action) → Decidable (p.Calm a)
  | .answer inp => decidableNoFault inp.fault
  | .others rules alerts _ =>
      @instDecidableAnd _ _ (inferInstanceAs (Decidable (alerts.rows.map Alert.asRaised
          = p.world.alerts.rows.map Alert.asRaised)))
        (List.decidableBAll (fun rule => (rules.get rule.id).isSome = true) p.rules)
  | .die => instDecidableFalse
  | .boot _ _ _ | .stream _ => instDecidableTrue

theorem main_loop_refines_live : ∃ p : Pipeline, p.world.alerts.rows.map Alert.id = [7] ∧
    p.world.requests.length = 1 ∧ ∃ m, Monitor.Watches alwaysMatches freshProcess.rules p.seen
      freshProcess.monitor m ∧ Tracks p.life freshProcess.rules [] p.world m ∧
      Monitor.Same m (Monitor.replay alwaysMatches freshProcess.rules p.seen
        freshProcess.monitor) := by
  have hend : (runs (fun p a => if Calm p a then Pipeline.step alwaysMatches p a else none)
      calmSchedule freshProcess).any (fun p => p.task.returned &&
        ((p.world.alerts.rows.map Alert.id = [7] : Bool) &&
          (p.world.requests.length = 1 : Bool))) = true := by decide
  obtain ⟨p, hp, htest⟩ := Reaches.exists_of_runs hend
  obtain ⟨hidle, htest⟩ := Bool.and_eq_true_iff.mp htest
  obtain ⟨halerts, hrequests⟩ := Bool.and_eq_true_iff.mp htest
  have hbooted : Booted freshProcess := ⟨rfl, rfl, rfl, rfl, rfl, by decide⟩
  obtain ⟨m, hwatches, htracks, hsame⟩ :=
    main_loop_refines strict_alwaysMatches hbooted hp hidle
  exact ⟨p, of_decide_eq_true halerts, of_decide_eq_true hrequests, m, hwatches, htracks,
    hsame (by decide)⟩

end Pipeline

end Pulse
