/-
  Pulse.Main.Provenance
  ─────────────────────
  **EVERY ROW HAS A REASON.**

  From the exchange to the alerts table, over any number of processes: a stored candle
  was parsed from a payload that the client received, and an alert is what a rule that
  was active in the database made of such a candle, against the candles stored then.

    • `Raised`     — the alert is what the rule makes of the candle,
    • `Produces`   — what the work on one candle adds to the tables,
    • `Provenant`  — the invariant of the whole worker,
    • `provenance` — nothing is stored that was not received or raised.
-/
import Pulse.Main.Cursor
import Pulse.Ingest.Sourced
import Pulse.Evaluate.Outcome
import Pulse.Worker.Immutable

namespace Pulse

open Pulse.Async Pulse.Store

/-! ## §1. Reasons. -/

/-- The alert is what the rule makes of the candle, whose row is stored, against the
candles stored in `w`.  Deliveries may have gone on since. -/
structure Raised (ruleClasses : RuleClasses) (rule : Rule) (candle : Candle) (w : World Nat)
    (a : Alert) : Prop where
  stored : (w.candles.get candle.key).isSome
  value : ∃ cls, ruleClasses rule.ruleType = some cls ∧
    onStore w.candles.rows (cls.evaluate rule.config candle) = .ok (some a.triggerValue)
  built : a.asRaised = { newAlert rule candle (getIdempotencyWindow candle.timestamp).1
    (getIdempotencyWindow candle.timestamp).2 a.triggerValue with
      id := a.id, createdAt := a.createdAt }

variable {ruleClasses : RuleClasses} {rule : Rule} {rules : List Rule} {candle : Candle}
  {life : Nat} {w w' : World Nat} {a b : Alert}

/-- Deliveries do not change the reason. -/
theorem Raised.of_asRaised (h : Raised ruleClasses rule candle w b)
    (hab : a.asRaised = b.asRaised) : Raised ruleClasses rule candle w a := by
  have hvalue : a.asRaised.triggerValue = b.asRaised.triggerValue := by rw [hab]
  have hid : a.asRaised.id = b.asRaised.id := by rw [hab]
  have hcreated : a.asRaised.createdAt = b.asRaised.createdAt := by rw [hab]
  simp only [Alert.asRaised_triggerValue, Alert.asRaised_id, Alert.asRaised_createdAt] at *
  refine ⟨h.stored, ?_, ?_⟩
  · rw [hvalue]
    exact h.value
  · rw [hab, hvalue, hid, hcreated]
    exact h.built

/-! ## §2. The work on one candle. -/

/-- What the rest of the system leaves alone while a process works on a candle. -/
structure TablesStay (w w' : World Nat) : Prop where
  candles : w'.candles = w.candles
  cursors : w'.cursors = w.cursors
  inflight : w'.inflight = w.inflight

/-- What one operation of the work on `candle` adds to the tables. -/
structure Produces (ruleClasses : RuleClasses) (rules : List Rule) (candle : Candle)
    (w w' : World Nat) : Prop where
  candles : ∀ c ∈ w'.candles.rows, c ∈ w.candles.rows ∨ c = candle
  inflight : ∀ e ∈ w'.inflight, e ∈ w.inflight ∨
    ∃ rule ∈ symbolRules rules candle, Raised ruleClasses rule candle w e.2
  alerts : ∀ a ∈ w'.alerts.rows, (∃ b ∈ w.alerts.rows, a.asRaised = b.asRaised) ∨
    ∃ e ∈ w.inflight, a.asRaised = e.2.asRaised

/-- An operation that inserts no candle but `candle`, and no alert. -/
def Op.plain (candle : Candle) : Op → Prop
  | .insertCandle c => c = candle
  | .insertAlert _ => False
  | _ => True

/-- Not the insert of a candle. -/
def Op.leavesCandles : Op → Prop
  | .insertCandle _ => False
  | _ => True

namespace World

theorem perform_candles {o : Op} {inp : Input} {r : Resp o} (ho : o.leavesCandles)
    (h : perform life o inp w = some (r, w')) : w'.candles = w.candles := by
  show w'.candles = (w.tick inp.elapsed).candles
  have heffect := perform_effect h
  generalize w.tick inp.elapsed = w₁ at heffect ⊢
  cases heffect with
  | nothing | abort | call | post | fault | undone | refused | insert | commit | cursor => rfl
  | delivery alert records => exact (storeDelivery_apart w₁ life alert records).candles
  | candle hnone => exact ho.elim

/-- An operation that inserts no alert. -/
theorem perform_produces {o : Op} {inp : Input} {r : Resp o} (ho : o.plain candle)
    (h : perform life o inp w = some (r, w')) : Produces ruleClasses rules candle w w' := by
  refine ⟨?_, ?_, fun a ha => ?_⟩
  · intro c hc
    show c ∈ (w.tick inp.elapsed).candles.rows ∨ c = candle
    have heffect := perform_effect h
    generalize w.tick inp.elapsed = w₁ at heffect ⊢
    cases heffect with
    | nothing | abort | call | post | fault | undone | refused | insert | commit | cursor =>
        exact Or.inl hc
    | delivery alert records =>
        rw [(storeDelivery_apart w₁ life alert records).candles] at hc
        exact Or.inl hc
    | candle hnone =>
        -- the only candle that is inserted is the one in process
        have hcandle : _ = candle := ho
        subst hcandle
        exact Table.mem_insertNew hc
  · intro e he
    refine Or.inl ?_
    show e ∈ (w.tick inp.elapsed).inflight
    have heffect := perform_effect h
    generalize w.tick inp.elapsed = w₁ at heffect ⊢
    cases heffect with
    | nothing | call | post | fault | undone | refused | candle | cursor => exact he
    | abort | commit => exact (List.mem_filter.mp he).1
    | delivery alert records =>
        rw [(storeDelivery_apart w₁ life alert records).inflight] at he
        exact he
    -- an insert of an alert is no plain operation
    | insert alert => exact ho.elim
  · rcases (perform_written h).origin a ha with hold | hnew
    · exact Or.inl hold
    · exact Or.inr ⟨(life, a), hnew, rfl⟩

/-- **The insert of the alert** that a rule was found to raise. -/
theorem insertAlert_produces {inp : Input} {triggerValue : Rat} {cls : RuleClass}
    {r : Resp (.insertAlert (newAlert rule candle (getIdempotencyWindow candle.timestamp).1
      (getIdempotencyWindow candle.timestamp).2 triggerValue))}
    (hrule : rule ∈ symbolRules rules candle) (hstored : (w.candles.get candle.key).isSome)
    (hcls : ruleClasses rule.ruleType = some cls)
    (hvalue : onStore w.candles.rows (cls.evaluate rule.config candle) = .ok (some triggerValue))
    (h : perform life (.insertAlert (newAlert rule candle (getIdempotencyWindow candle.timestamp).1
      (getIdempotencyWindow candle.timestamp).2 triggerValue)) inp w = some (r, w')) :
    Produces ruleClasses rules candle w w' := by
  have hwritten := perform_written h
  refine ⟨fun c hc => ?_, fun e he => ?_, fun a ha => ?_⟩
  · rw [perform_candles (by trivial) h] at hc
    exact Or.inl hc
  · show e ∈ (w.tick inp.elapsed).inflight ∨ _
    have heffect := perform_effect h
    generalize w.tick inp.elapsed = w₁ at heffect ⊢
    cases heffect with
    | nothing | abort | fault | undone | refused =>
        first
        | exact Or.inl he
        | exact Or.inl (List.mem_filter.mp he).1
    | insert =>
        -- the rows that were open before, and the one that the rule raises
        rcases List.mem_append.mp he with hold | hnew
        · exact Or.inl hold
        · rw [List.mem_singleton.mp hnew]
          exact Or.inr ⟨rule, hrule, hstored, ⟨cls, hcls, hvalue⟩, rfl⟩
  · rcases hwritten.origin a ha with hold | hnew
    · exact Or.inl hold
    · exact Or.inr ⟨(life, a), hnew, rfl⟩

end World

/-- Neither a candle nor an alert is inserted. -/
def Op.settled : Op → Prop
  | .insertCandle _ | .insertAlert _ => False
  | _ => True

theorem Op.settled.plain {o : Op} (h : o.settled) : o.plain candle := by
  cases o <;> first | exact h.elim | trivial

theorem Op.settled.leavesCandles {o : Op} (h : o.settled) : o.leavesCandles := by
  cases o <;> first | exact h.elim | trivial

theorem Op.delivers.settled {o : Op} {loaded : Alert} {S : DeliveryStatus → Prop}
    (h : o.delivers loaded S) : o.settled := by
  cases o <;> first | exact h.elim | trivial

section Candle

variable (ruleClasses rules candle life) in
/-- Process `life` works on `candle`, while others keep away from candles, cursors and
uncommitted rows. -/
abbrev producing {α : Type} (Q : α → World Nat → Prop) (E : PyErr → World Nat → Prop)
    (p : Prog α) (w : World Nat) : Prop :=
  Coro.wp (World.perform life) World.UniqueKeyOnly TablesStay (Produces ruleClasses rules candle) Q E
    p w

/-- What inserts nothing leaves the candle table as it is. -/
theorem producing_settled {α : Type} {ρ : α → Prop} {P : Table Candle.key → Prop} {p : Prog α}
    (hp : p.Uses Op.settled ρ) (h : P w.candles) :
    producing ruleClasses rules candle life (fun a u => ρ a ∧ P u.candles)
      (fun _ u => P u.candles) p w := by
  refine Coro.wp_of_uses (I := fun u : World Nat => P u.candles) (fun s s' hs hI => ?_)
    (fun o inp s r s' ho _ hperf hI => ?_) hp h
  · rw [hs.candles]
    exact hI
  · refine ⟨World.perform_produces ho.plain hperf, ?_⟩
    rw [World.perform_candles ho.leavesCandles hperf]
    exact hI

variable (candle) in
/-- The row of the candle is there. -/
def Recorded (t : Table Candle.key) : Prop := (t.get candle.key).isSome

/-- **After the candle was recorded its row is there.** -/
theorem producing_recordCandle :
    producing ruleClasses rules candle life (fun _ u => Recorded candle u.candles)
      (fun _ _ => True) (recordCandle candle) w := by
  have hrow : recording candle life (fun _ u => Recorded candle u.candles)
      (recordCandle candle) w := by
    unfold recordCandle
    exact Coro.wp_bind (Coro.wp_mono (fun _ u hu => recording_uses uses_updateCursor hu)
      (fun _ _ _ => trivial) recording_saveCandle)
  have hadds : producing ruleClasses rules candle life (fun _ _ => True) (fun _ _ => True)
      (recordCandle candle) w := by
    refine Coro.wp_mono (fun _ _ _ => trivial) (fun _ _ _ => trivial)
      (Coro.wp_of_uses (H := World.perform life) (G := Produces ruleClasses rules candle)
        (I := fun _ => True) (fun _ _ _ _ => trivial)
        (fun o inp s r s' ho _ hperf _ => ⟨World.perform_produces ?_ hperf, trivial⟩)
        uses_recordCandle trivial)
    cases o <;> first | exact ho | exact ho.elim | trivial
  refine Coro.wp_mono (fun _ u hu => hu.1) (fun _ _ _ => trivial) (Coro.wp_weaken (fun _ _ h => h)
    (fun _ _ hG => hG.2) (Coro.wp_inter (Coro.wp_weaken ?_ (fun _ _ hG => hG) hrow) hadds))
  intro s s' hs
  exact ⟨hs.candles, hs.cursors⟩

/-- **The insert in its savepoint.** -/
theorem producing_insertInSavepoint {triggerValue : Rat} {cls : RuleClass}
    {P : Table Candle.key → Prop} (hrule : rule ∈ symbolRules rules candle)
    (hcls : ruleClasses rule.ruleType = some cls)
    (hP : ∀ t : Table Candle.key, P t → Recorded candle t ∧
      onStore t.rows (cls.evaluate rule.config candle) = .ok (some triggerValue))
    (h : P w.candles) :
    producing ruleClasses rules candle life (fun _ u => P u.candles) (fun _ u => P u.candles)
      (insertInSavepoint (newAlert rule candle (getIdempotencyWindow candle.timestamp).1
        (getIdempotencyWindow candle.timestamp).2 triggerValue)) w := by
  unfold insertInSavepoint
  have hcatch : ∀ (e : PyErr) (u : World Nat), P u.candles →
      producing ruleClasses rules candle life (fun _ u => P u.candles) (fun _ u => P u.candles)
        (if e.cls = .integrityError then pure none else throw e : Prog (Option AlertId)) u := by
    intro e u hu
    split
    next => exact hu
    next => exact hu
  refine Coro.wp_tryCatch (Coro.wp_bind (Coro.wp_mono (fun _ u hu => ?_) hcatch
    (producing_settled (P := P) (ρ := fun _ => True) ⟨trivial, fun _ => .ofExcept _⟩ h)))
  intro s hs inp r s' _ hperf
  have hPs : P s.candles := by
    rw [hs.candles]
    exact hu.2
  obtain ⟨hrow, hvalue⟩ := hP s.candles hPs
  refine ⟨World.insertAlert_produces hrule hrow hcls hvalue hperf, ?_⟩
  have hPs' : P s'.candles := by
    rw [World.perform_candles (by trivial) hperf]
    exact hPs
  cases r with
  | ok id => exact hPs'
  | error e => exact hcatch e s' hPs'

theorem settled_commitNewAlert {inserted : Option AlertId} :
    (commitNewAlert inserted).Uses Op.settled (fun _ => True) := by
  unfold commitNewAlert
  split
  next => trivial
  next id =>
    refine Coro.Uses.bind (ρ := fun _ => True) ⟨trivial, fun _ => .ofExcept _⟩ fun _ _ => ?_
    exact Coro.Uses.bind (ρ := fun _ => True) ⟨trivial, fun _ => .ofExcept _⟩ fun _ _ => trivial

/-- **`evaluate`**, once the candle is recorded: an alert that is inserted has the value that
the class computes from the candles stored then. -/
theorem producing_evaluate (hstrict : StrictClasses ruleClasses)
    (hrule : rule ∈ symbolRules rules candle) (h : Recorded candle w.candles) :
    producing ruleClasses rules candle life (fun _ u => Recorded candle u.candles)
      (fun _ u => Recorded candle u.candles) (evaluate ruleClasses rule candle) w := by
  unfold evaluate
  refine Coro.wp_bind (Coro.wp_mono (fun _ u hu => ?_) (fun _ _ he => he)
    (producing_settled (ρ := fun _ => True) ⟨trivial, fun _ => trivial⟩ h))
  refine Coro.wp_bind (Coro.wp_mono (fun inCooldown v hv => ?_) (fun _ _ he => he)
    (producing_settled (uses_isInCooldown (fun _ => trivial) trivial) hu.2))
  split
  next => exact hv.2
  next =>
    split
    next => exact hv.2
    next cls hcls =>
      refine Coro.wp_tryCatch (Coro.wp_bind (Coro.wp_mono (fun value x hx => ?_)
        (fun e x hx => ?_) (wp_onStore (fun _ _ hs => hs.candles)
          (fun _ _ _ _ _ hperf => World.perform_produces (by trivial) hperf)
          (hstrict _ cls hcls rule.config candle) rfl)))
      · obtain ⟨hvalue, hsame⟩ := hx
        have hx : Recorded candle x.candles := hsame ▸ hv.2
        rw [← hsame] at hvalue
        cases value with
        | none => exact hx
        | some triggerValue =>
            -- the table stays as it was evaluated until the alert is inserted
            let P : Table Candle.key → Prop := fun t => Recorded candle t ∧
              onStore t.rows (cls.evaluate rule.config candle) = .ok (some triggerValue)
            show producing ruleClasses rules candle life _ _ (createAlert _ _ _ _ _) x
            unfold createAlert
            refine Coro.wp_bind (Coro.wp_mono (fun _ y hy => ?_) (fun _ _ he => he.1)
              (producing_settled (P := P) (ρ := fun _ => True) ⟨trivial, fun _ => trivial⟩
                ⟨hx, hvalue⟩))
            refine Coro.wp_bind (Coro.wp_mono (fun inserted z hz => ?_) (fun _ _ he => he.1)
              (producing_insertInSavepoint hrule hcls (fun _ ht => ht) hy.2))
            exact Coro.wp_mono (fun _ _ hq => hq.2) (fun _ _ he => he)
              (producing_settled settled_commitNewAlert hz.1)
      · show Recorded candle x.candles
        rw [hx]
        exact hv.2

/-- One round of the inner loop. -/
theorem producing_processRule (hstrict : StrictClasses ruleClasses)
    (hrule : rule ∈ symbolRules rules candle) (h : Recorded candle w.candles) :
    producing ruleClasses rules candle life (fun _ u => Recorded candle u.candles)
      (fun _ _ => True) (processRule ruleClasses candle rule) w := by
  unfold processRule
  have hevaluate : producing ruleClasses rules candle life
      (fun out u => Recorded candle u.candles ∧
        ∀ alert, out = some alert → ∃ loaded, alert = AlertObj.ofRow loaded)
      (fun _ u => Recorded candle u.candles) (evaluate ruleClasses rule candle) w := by
    refine Coro.wp_mono (fun _ u hu => ⟨hu.1, hu.2.1⟩) (fun _ u hu => hu.1)
      (Coro.wp_weaken (fun _ _ hs => hs) (fun _ _ hG => hG.1)
        (Coro.wp_inter (producing_evaluate hstrict hrule h)
          (Coro.wp_of_uses (G := fun _ _ => True) (I := fun _ => True) (fun _ _ _ _ => trivial)
            (fun _ _ _ _ _ _ _ _ _ => ⟨trivial, trivial⟩)
            (uses_evaluateOn ruleClasses rule candle) trivial)))
  have hrollback : ∀ (e : PyErr) (u : World Nat), Recorded candle u.candles →
      producing ruleClasses rules candle life (fun _ u => Recorded candle u.candles)
        (fun _ _ => True) rollback u := by
    intro e u hu
    exact Coro.wp_mono (fun _ _ hq => hq.2) (fun _ _ _ => trivial)
      (producing_settled (ρ := fun _ => True) ⟨trivial, fun _ => trivial⟩ hu)
  refine Coro.wp_tryCatch (Coro.wp_bind (Coro.wp_mono (fun out u hu => ?_) hrollback hevaluate))
  cases out with
  | none => exact hu.1
  | some alert =>
      obtain ⟨loaded, rfl⟩ := hu.2 alert rfl
      exact Coro.wp_mono (fun _ _ hq => hq.2) hrollback
        (producing_settled ((uses_dispatch (S := fun _ => True) trivial trivial).mono
          (fun _ ho => ho.settled) fun _ hr => hr) hu.1)

/-- **The work on one candle.** -/
theorem producing_processCandle (hstrict : StrictClasses ruleClasses) :
    producing ruleClasses rules candle life (fun _ _ => True) (fun _ _ => True)
      (processCandle ruleClasses rules candle) w := by
  unfold processCandle
  refine Coro.wp_bind (Coro.wp_mono (fun _ u hu => ?_) (fun _ _ _ => trivial)
    producing_recordCandle)
  refine Coro.wp_mono (fun _ _ _ => trivial) (fun _ _ _ => trivial)
    (Coro.wp_forEach (E := fun _ _ => True)
      (I := fun xs v => Recorded candle v.candles ∧ xs ⊆ symbolRules rules candle)
      (fun rule xs v hv => ?_) _ u ⟨hu, List.Subset.refl _⟩)
  obtain ⟨hrule, hrest⟩ := List.cons_subset.mp hv.2
  exact Coro.wp_mono (fun _ _ hq => ⟨hq, hrest⟩) (fun _ _ he => he)
    (producing_processRule hstrict hrule hv.1)

theorem producing_aside {p : Prog Unit}
    (h : producing ruleClasses rules candle life (fun _ _ => True) (fun _ _ => True) p w)
    (haside : TablesStay w w') :
    producing ruleClasses rules candle life (fun _ _ => True) (fun _ _ => True) p w' :=
  Coro.wp_rely (fun _ _ _ h h' => ⟨h'.candles.trans h.candles, h'.cursors.trans h.cursors,
    h'.inflight.trans h.inflight⟩) (fun _ _ _ _ _ => trivial) (fun _ _ _ _ _ => trivial) haside h

end Candle

/-! ## §3. The whole worker. -/

namespace Pipeline

/-- What is assumed of the database and of the others: alerts that they store are rows that
were there, with new delivery columns. -/
def Supervised (p : Pipeline) : Action → Prop
  | .answer inp =>
      match p.task with
      | .await o _ => World.UniqueKeyOnly o inp p.world
      | _ => True
  | .others _ alerts _ =>
      ∀ a ∈ alerts.rows, ∃ b ∈ p.world.alerts.rows, a.asRaised = b.asRaised
  | _ => True

variable {p p' p₀ : Pipeline} {c : Candle}

variable (ruleClasses) in
/-- A supervised run. -/
abbrev Runs (p p' : Pipeline) : Prop := Reaches (Pipeline.step ruleClasses) Supervised p p'

variable (ruleClasses) in
/-- Between `p₀` and `p` a process received a payload that parses to the candle. -/
def Received (p₀ p : Pipeline) (c : Candle) : Prop :=
  ∃ q, Runs ruleClasses p₀ q ∧ Runs ruleClasses q p ∧ q.alive = true ∧
    Ingest.ParsedFrom q.client.world.payloads c

variable (ruleClasses) in
/-- Between `p₀` and `p` a rule that was active in the database was loaded, and later raised
the alert on a candle of its symbol that was received. -/
def Founded (p₀ p : Pipeline) (a : Alert) : Prop :=
  ∃ q₁ q rule candle, Runs ruleClasses p₀ q₁ ∧ Runs ruleClasses q₁ q ∧ Runs ruleClasses q p ∧
    q.rules = loadActiveRules q₁.world.rules.rows ∧
    rule ∈ q₁.world.rules.rows ∧ rule.isActive = true ∧ rule.symbol = candle.symbol ∧
    q.alive = true ∧ Ingest.ParsedFrom q.client.world.payloads candle ∧
    Raised ruleClasses rule candle q.world a

theorem Received.later (h : Received ruleClasses p₀ p c) (hrun : Runs ruleClasses p p') :
    Received ruleClasses p₀ p' c := by
  obtain ⟨q, hq, hqp, hrest⟩ := h
  exact ⟨q, hq, hqp.trans hrun, hrest⟩

theorem Founded.later (h : Founded ruleClasses p₀ p a) (hrun : Runs ruleClasses p p') :
    Founded ruleClasses p₀ p' a := by
  obtain ⟨q₁, q, rule, candle, h₁, hq, hqp, hrest⟩ := h
  exact ⟨q₁, q, rule, candle, h₁, hq, hqp.trans hrun, hrest⟩

theorem Founded.of_asRaised (h : Founded ruleClasses p₀ p b) (hab : a.asRaised = b.asRaised) :
    Founded ruleClasses p₀ p a := by
  obtain ⟨q₁, q, rule, candle, h₁, hq, hqp, hloaded, hrule, hactive, hsymbol, halive, hparsed,
    hraised⟩ := h
  exact ⟨q₁, q, rule, candle, h₁, hq, hqp, hloaded, hrule, hactive, hsymbol, halive, hparsed,
    hraised.of_asRaised hab⟩

/-- No process runs, and nothing is uncommitted; the tables may be in use. -/
structure Down (p : Pipeline) : Prop where
  alive : p.alive = false
  task : p.task = .pure ()
  inflight : p.world.inflight = []

variable (ruleClasses) in
/-- The invariant. -/
structure Provenant (p₀ p : Pipeline) : Prop where
  run : Runs ruleClasses p₀ p
  candles : ∀ c ∈ p.world.candles.rows,
    c ∈ p₀.world.candles.rows ∨ Received ruleClasses p₀ p c
  inflight : ∀ e ∈ p.world.inflight, Founded ruleClasses p₀ p e.2
  alerts : ∀ a ∈ p.world.alerts.rows,
    (∃ b ∈ p₀.world.alerts.rows, a.asRaised = b.asRaised) ∨ Founded ruleClasses p₀ p a
  /-- The rules in use were loaded from the database. -/
  loaded : p.alive = true → ∃ q, Runs ruleClasses p₀ q ∧ Runs ruleClasses q p ∧
    p.rules = loadActiveRules q.world.rules.rows
  client : p.alive = true → Ingest.Sourced p.client.world ∧ ∃ mode c₀,
    Ingest.Client.Start mode c₀ ∧
    Reaches (Ingest.Client.step (Ingest.symbolList p.symbols)) (fun _ _ => True) c₀ p.client
  /-- The main loop works on a candle that was yielded. -/
  busy : p.task.returned = false → p.alive = true ∧ ∃ y ∈ p.client.world.yielded,
    producing ruleClasses p.rules y.candle p.life (fun _ _ => True) (fun _ _ => True) p.task
      p.world

/-- What was there stays accounted for. -/
theorem Provenant.tables (h : Provenant ruleClasses p₀ p) (hrun : Runs ruleClasses p p')
    (hcandles : p'.world.candles = p.world.candles)
    (hinflight : ∀ e ∈ p'.world.inflight, e ∈ p.world.inflight)
    (halerts : ∀ a ∈ p'.world.alerts.rows, ∃ b ∈ p.world.alerts.rows, a.asRaised = b.asRaised) :
    (∀ c ∈ p'.world.candles.rows, c ∈ p₀.world.candles.rows ∨ Received ruleClasses p₀ p' c) ∧
    (∀ e ∈ p'.world.inflight, Founded ruleClasses p₀ p' e.2) ∧
    (∀ a ∈ p'.world.alerts.rows,
      (∃ b ∈ p₀.world.alerts.rows, a.asRaised = b.asRaised) ∨ Founded ruleClasses p₀ p' a) := by
  refine ⟨fun c hc => ?_, fun e he => (h.inflight e (hinflight e he)).later hrun,
    fun a ha => ?_⟩
  · rw [hcandles] at hc
    exact (h.candles c hc).imp_right fun hr => hr.later hrun
  · obtain ⟨b, hb, hab⟩ := halerts a ha
    rcases h.alerts b hb with ⟨b₀, hb₀, hbb⟩ | hfounded
    · exact Or.inl ⟨b₀, hb₀, hab.trans hbb⟩
    · exact Or.inr ((hfounded.of_asRaised hab).later hrun)

theorem Provenant.boot {mode : Ingest.Mode} {symbols : String} {clock : Time}
    (h : Provenant ruleClasses p₀ p) (hrun : Runs ruleClasses p p')
    (hstep : Pipeline.step ruleClasses p (.boot mode symbols clock) = some p') :
    Provenant ruleClasses p₀ p' := by
  obtain ⟨-, rfl⟩ := boot_cases hstep
  obtain ⟨hcandles, hinflight, halerts⟩ :=
    h.tables hrun rfl (fun _ he => he) (fun a ha => ⟨a, ha, rfl⟩)
  refine ⟨h.run.trans hrun, hcandles, hinflight, halerts, fun _ => ⟨p, h.run, hrun, rfl⟩,
    fun _ => ⟨fun y hy => absurd hy (by simp [startClient]), mode, _, ⟨rfl, rfl⟩, .refl⟩,
    fun hb => ?_⟩
  exact absurd hb (by simp [Coro.returned])

theorem Provenant.stream (hstrict : StrictClasses ruleClasses)
    {a : Loop.Action Ingest.Input} (h : Provenant ruleClasses p₀ p)
    (hrun : Runs ruleClasses p p')
    (hstep : Pipeline.step ruleClasses p (.stream a) = some p') :
    Provenant ruleClasses p₀ p' := by
  obtain ⟨halive, -, client, hclient, rfl⟩ := stream_cases hstep
  obtain ⟨hcandles, hinflight, halerts⟩ :=
    h.tables hrun rfl (fun _ he => he) (fun a ha => ⟨a, ha, rfl⟩)
  obtain ⟨-, mode, c₀, hstart, hclientRun⟩ := h.client halive
  have hclientRun' := hclientRun.step trivial hclient
  obtain ⟨q, hq, hqp, hrules⟩ := h.loaded halive
  refine ⟨h.run.trans hrun, hcandles, hinflight, halerts,
    fun _ => ⟨q, hq, hqp.trans hrun, hrules⟩,
    fun _ => ⟨Ingest.Sourced.run hstart hclientRun', mode, c₀, hstart, hclientRun'⟩,
    fun hbusy => ?_⟩
  have hbusy : (handOver ruleClasses p.rules p.client.task).returned = false := hbusy
  rcases handOver_cases ruleClasses p.rules hclient with ⟨hidle, -⟩ | ⟨y, hprocess, hmore⟩
  · rw [hidle] at hbusy
    exact absurd hbusy (by simp [Coro.returned])
  · refine ⟨halive, y, ?_, ?_⟩
    · show y ∈ client.world.yielded
      rw [hmore]
      exact List.mem_append_right _ (List.mem_singleton_self y)
    · show producing ruleClasses p.rules y.candle p.life _ _
        (handOver ruleClasses p.rules p.client.task) p.world
      rw [hprocess]
      exact producing_processCandle hstrict

/-- **An operation of the main loop** stores the candle in process, which was received, or an
alert that a loaded rule raises on it. -/
theorem Provenant.answer {inp : Input} (h : Provenant ruleClasses p₀ p)
    (hrun : Runs ruleClasses p p') (hok : p.Supervised (.answer inp))
    (hstep : Pipeline.step ruleClasses p (.answer inp) = some p') :
    Provenant ruleClasses p₀ p' := by
  obtain ⟨o, k, r, w, ht, hperf, rfl⟩ := answer_cases hstep
  obtain ⟨halive, y, hy, hrest⟩ := h.busy (by rw [ht]; rfl)
  rw [ht] at hrest
  simp only [Supervised, ht] at hok
  obtain ⟨hproduces, hrest⟩ := hrest p.world ⟨rfl, rfl, rfl⟩ inp r w hok hperf
  -- what is in process was yielded, and so was received
  have hparsed : Ingest.ParsedFrom p.client.world.payloads y.candle :=
    (h.client halive).1 y hy
  obtain ⟨q, hq, hqp, hrules⟩ := h.loaded halive
  refine ⟨h.run.trans hrun, fun c hc => ?_, fun e he => ?_, fun a ha => ?_,
    fun _ => ⟨q, hq, hqp.trans hrun, hrules⟩, h.client, fun _ => ⟨halive, y, hy, hrest⟩⟩
  · rcases hproduces.candles c hc with hold | rfl
    · exact (h.candles c hold).imp_right fun hr => hr.later hrun
    · exact Or.inr ⟨p, h.run, hrun, halive, hparsed⟩
  · rcases hproduces.inflight e he with hold | ⟨rule, hrule, hraised⟩
    · exact (h.inflight e hold).later hrun
    · -- the rule is one of those that were active when the process started
      obtain ⟨hmem, hsymbol⟩ := List.mem_filter.mp hrule
      obtain ⟨hsymbol, -⟩ := Bool.and_eq_true_iff.mp hsymbol
      rw [hrules] at hmem
      obtain ⟨hrow, hactive⟩ := List.mem_filter.mp hmem
      exact ⟨q, p, rule, y.candle, hq, hqp, hrun, hrules, hrow, hactive,
        of_decide_eq_true hsymbol, halive, hparsed, hraised⟩
  · -- a committed alert was stored before, or was inserted by a session that commits now
    rcases hproduces.alerts a ha with ⟨b, hb, hab⟩ | ⟨e, he, hae⟩
    · rcases h.alerts b hb with ⟨b₀, hb₀, hbb⟩ | hfounded
      · exact Or.inl ⟨b₀, hb₀, hab.trans hbb⟩
      · exact Or.inr ((hfounded.of_asRaised hab).later hrun)
    · exact Or.inr (((h.inflight e he).of_asRaised hae).later hrun)

theorem Provenant.die (h : Provenant ruleClasses p₀ p) (hrun : Runs ruleClasses p p')
    (hstep : Pipeline.step ruleClasses p .die = some p') : Provenant ruleClasses p₀ p' := by
  obtain ⟨-, rfl⟩ := die_cases hstep
  obtain ⟨hcandles, hinflight, halerts⟩ :=
    h.tables hrun rfl (fun _ he => (List.mem_filter.mp he).1) (fun a ha => ⟨a, ha, rfl⟩)
  refine ⟨h.run.trans hrun, hcandles, hinflight, halerts, fun ha => ?_, fun ha => ?_,
    fun hb => ?_⟩
  · exact absurd ha (by simp)
  · exact absurd ha (by simp)
  · exact absurd hb (by simp [Coro.returned])

theorem Provenant.others {rules : Table Rule.id} {alerts : Table Alert.id}
    {attempts : List AlertDeliveryAttempt} (h : Provenant ruleClasses p₀ p)
    (hrun : Runs ruleClasses p p') (hok : p.Supervised (.others rules alerts attempts))
    (hstep : Pipeline.step ruleClasses p (.others rules alerts attempts) = some p') :
    Provenant ruleClasses p₀ p' := by
  obtain rfl := Option.some.inj hstep
  obtain ⟨hcandles, hinflight, halerts⟩ := h.tables hrun rfl (fun _ he => he) hok
  refine ⟨h.run.trans hrun, hcandles, hinflight, halerts, fun ha => ?_, h.client, fun hb => ?_⟩
  · obtain ⟨q, hq, hqp, hrules⟩ := h.loaded ha
    exact ⟨q, hq, hqp.trans hrun, hrules⟩
  · obtain ⟨halive, y, hy, hrest⟩ := h.busy hb
    exact ⟨halive, y, hy, producing_aside hrest ⟨rfl, rfl, rfl⟩⟩

/-- **One action** keeps every row accounted for. -/
theorem Provenant.step (hstrict : StrictClasses ruleClasses) {a : Action}
    (h : Provenant ruleClasses p₀ p) (hok : p.Supervised a)
    (hstep : Pipeline.step ruleClasses p a = some p') : Provenant ruleClasses p₀ p' := by
  have hrun : Runs ruleClasses p p' := .step .refl hok hstep
  cases a with
  | boot mode symbols clock => exact h.boot hrun hstep
  | stream a => exact h.stream hstrict hrun hstep
  | answer inp => exact h.answer hrun hok hstep
  | die => exact h.die hrun hstep
  | others rules alerts attempts => exact h.others hrun hok hstep

theorem Provenant.start (h₀ : Down p₀) : Provenant ruleClasses p₀ p₀ where
  run := .refl
  candles := fun _ hc => Or.inl hc
  inflight := fun e he => absurd he (by rw [h₀.inflight]; simp)
  alerts := fun a ha => Or.inl ⟨a, ha, rfl⟩
  loaded := fun ha => absurd ha (by rw [h₀.alive]; simp)
  client := fun ha => absurd ha (by rw [h₀.alive]; simp)
  busy := fun hb => absurd hb (by rw [h₀.task]; simp [Coro.returned])

def decidableOldRows (rows old : List Alert) :
    Decidable (∀ a ∈ rows, ∃ b ∈ old, a.asRaised = b.asRaised) :=
  let same (a b : Alert) : Decidable (a.asRaised = b.asRaised) := instDecidableEqAlert _ _
  let old (a : Alert) : Decidable (∃ b ∈ old, a.asRaised = b.asRaised) :=
    @List.decidableBEx _ _ (same a) old
  @List.decidableBAll _ _ old rows

instance decidableSupervised (p : Pipeline) : (a : Action) → Decidable (p.Supervised a)
  | .answer inp => inferInstanceAs (Decidable (p.Assumed (.answer inp)))
  | .others _ alerts _ =>
      decidableOldRows alerts.rows p.world.alerts.rows
  | .boot _ _ _ | .stream _ | .die => inferInstanceAs (Decidable True)

end Pipeline

end Pulse
