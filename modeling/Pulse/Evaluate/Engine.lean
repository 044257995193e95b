/-
  Pulse.Evaluate.Engine
  ─────────────────────
  `worker/evaluate/engine.py`: the rule evaluation engine.  The rule classes are
  a parameter: whatever they compute, they read candles and nothing else, and a
  `RuleClass` carries the proof of that.
-/
import Pulse.Worker.Op

namespace Pulse

open Pulse.Async

/-! ## §1. Rule classes. -/

/-- A query over the candle table. -/
def Op.readsCandles : Op → Prop
  | .selectCandles _ => True
  | _ => False

/-- A rule class: what its `evaluate` answers, `none` when the rule does not
match. -/
structure RuleClass where
  evaluate : Config → Candle → Prog (Option Rat)
  reads : ∀ config candle,
    (evaluate config candle).Uses Op.readsCandles (fun _ => True)

/-- `rule_classes`, from the rule types to their classes. -/
abbrev RuleClasses := RuleType → Option RuleClass

/-- A class whose rules always match. -/
def alwaysMatch : RuleClass := ⟨fun _ _ => pure (some 1), fun _ _ => trivial⟩

/-- Every rule type has that class. -/
def alwaysMatches : RuleClasses := fun _ => some alwaysMatch

/-! ## §2. The engine. -/

/-- `_get_idempotency_window`: the minute of a timestamp. -/
def getIdempotencyWindow (timestamp : Time) : Time × Time :=
  (timestamp - timestamp % minute, timestamp - timestamp % minute + minute)

/-- `_is_in_cooldown`.  The cooldown runs from `triggered_at` of the alert with
the latest one. -/
def isInCooldown (rule : Rule) (symbol : String) : Prog Bool :=
  if rule.cooldownSeconds = some 0 then pure false
  else do
    match ← selectLastAlert rule.id (upper symbol) with
    | none => pure false
    | some lastAlert =>
        match rule.cooldownSeconds with
        -- `timedelta(seconds=None)`
        | none => throw ⟨.typeError, "unsupported type for timedelta seconds component"⟩
        | some cooldown => do
            let now ← utcnow
            pure (now < lastAlert.triggeredAt + seconds cooldown)

/-- The alert that `_create_alert` adds.  The identifier and `created_at` are
column defaults and are set by the insert. -/
def newAlert (rule : Rule) (candle : Candle) (windowStart windowEnd : Time)
    (triggerValue : Rat) : Alert where
  id := 0
  ruleId := rule.id
  symbol := candle.symbol
  ruleType := rule.ruleType
  triggeredAt := candle.timestamp
  triggerValue := triggerValue
  windowStart := windowStart
  windowEnd := windowEnd
  deliveryStatus := .pending
  deliveryAttempts := 0
  lastDeliveryAttempt := none
  createdAt := 0

/-- The `try` of `_create_alert`: the insert in its savepoint, `none` on an
integrity error. -/
def insertInSavepoint (alert : Alert) : Prog (Option AlertId) := do
  try
    savepoint
    let id ← insertAlert alert
    pure (some id)
  catch e => if e.cls = .integrityError then pure none else throw e

/-- What `_create_alert` does after its `try`. -/
def commitNewAlert (inserted : Option AlertId) : Prog (Option AlertObj) :=
  match inserted with
  | none => pure none
  | some id => do
      commitAlert
      let row ← refreshAlert id
      pure (some (AlertObj.ofRow { row with id := id }))

/-- `_create_alert`. -/
def createAlert (rule : Rule) (candle : Candle) (windowStart windowEnd : Time)
    (triggerValue : Rat) : Prog (Option AlertObj) := do
  call (.createAlert rule.id windowStart)
  let inserted ← insertInSavepoint
    (newAlert rule candle windowStart windowEnd triggerValue)
  commitNewAlert inserted

/-- The `try` of `evaluate`. -/
def evaluateClass (cls : RuleClass) (rule : Rule) (candle : Candle) :
    Prog (Option AlertObj) := do
  match ← cls.evaluate rule.config candle with
  | none => pure none
  | some triggerValue =>
      createAlert rule candle (getIdempotencyWindow candle.timestamp).1
        (getIdempotencyWindow candle.timestamp).2 triggerValue

/-- `RuleEvaluator.evaluate`.  The cooldown check is outside the `try`. -/
def evaluate (ruleClasses : RuleClasses) (rule : Rule) (candle : Candle) :
    Prog (Option AlertObj) := do
  call (.evaluate rule candle)
  let inCooldown ← isInCooldown rule candle.symbol
  if inCooldown then pure none
  else
    match ruleClasses rule.ruleType with
    | none => pure none
    | some cls =>
        try evaluateClass cls rule candle
        catch _ => pure none

/-- What the cooldown check can ask for. -/
theorem uses_isInCooldown {φ : Op → Prop} {rule : Rule} {symbol : String}
    (hselect : ∀ s, φ (.selectLastAlert rule.id s)) (hclock : φ .utcnow) :
    (isInCooldown rule symbol).Uses φ (fun _ => True) := by
  unfold isInCooldown
  split
  next => trivial
  next =>
    refine Coro.Uses.bind (ρ := fun _ => True) ⟨hselect _, fun _ => .ofExcept _⟩
      fun last _ => ?_
    split
    next => trivial
    next lastAlert =>
      split
      next => trivial
      next cooldown => exact ⟨hclock, fun _ => trivial⟩

/-- The operations of `evaluate`. -/
def Op.evaluates (ruleId : RuleId) : Op → Prop
  | .utcnow | .selectCandles _ | .savepoint | .commitAlert | .refreshAlert _ => True
  | .call _ => True
  | .selectLastAlert id _ => id = ruleId
  | .insertAlert alert => alert.ruleId = ruleId
  | _ => False

/-- The rule's class may give the value for the candle. -/
def Rule.Answers (ruleClasses : RuleClasses) (rule : Rule) (candle : Candle)
    (triggerValue : Rat) : Prop :=
  ∃ cls, ruleClasses rule.ruleType = some cls ∧
    (cls.evaluate rule.config candle).MayReturn (some triggerValue)

/-- The operations of `evaluate` on a candle: an alert it inserts is made of the rule and
the candle, with a value that the class gives. -/
def Op.evaluatesOn (ruleClasses : RuleClasses) (rule : Rule) (candle : Candle) : Op → Prop
  | .call (.evaluate r c) => r = rule ∧ c = candle
  | .insertAlert alert => ∃ triggerValue, rule.Answers ruleClasses candle triggerValue ∧
      alert = newAlert rule candle (getIdempotencyWindow candle.timestamp).1
        (getIdempotencyWindow candle.timestamp).2 triggerValue
  | o => o.evaluates rule.id

/-- What `evaluate` can ask for; an alert that it returns is freshly loaded. -/
theorem uses_evaluateOn (ruleClasses : RuleClasses) (rule : Rule) (candle : Candle) :
    (evaluate ruleClasses rule candle).Uses (Op.evaluatesOn ruleClasses rule candle)
      (fun out => ∀ alert, out = some alert → ∃ loaded, alert = AlertObj.ofRow loaded) := by
  have hnone : ∀ alert : AlertObj, (none : Option AlertObj) = some alert →
      ∃ loaded, alert = AlertObj.ofRow loaded := fun _ h => absurd h (by simp)
  unfold evaluate
  refine Coro.Uses.bind (ρ := fun _ => True) ⟨⟨rfl, rfl⟩, fun _ => trivial⟩ fun _ _ => ?_
  -- the cooldown is outside the `try`
  refine Coro.Uses.bind (uses_isInCooldown (fun _ => rfl) trivial) fun inCooldown _ => ?_
  split
  next => exact hnone
  next =>
    split
    next => exact hnone
    next cls hcls =>
      -- whatever the class raises, `None` is returned
      refine Coro.Uses.tryCatch ?_ fun _ => hnone
      unfold evaluateClass
      refine Coro.Uses.bind ((cls.reads rule.config candle).mayReturn.mono ?_ (fun _ h => h.2))
        fun value hvalue => ?_
      · intro o ho
        cases o <;> first | exact ho.elim | trivial
      · split
        next => exact hnone
        next triggerValue =>
          unfold createAlert
          refine Coro.Uses.bind (ρ := fun _ => True) ⟨trivial, fun _ => trivial⟩
            fun _ _ => ?_
          refine Coro.Uses.bind (ρ := fun _ => True) ?_ fun inserted _ => ?_
          · -- the savepoint and the insert
            refine Coro.Uses.tryCatch ?_ fun e => by split <;> trivial
            refine Coro.Uses.bind (ρ := fun _ => True) ⟨trivial, fun _ => .ofExcept _⟩
              fun _ _ => ?_
            exact Coro.Uses.bind (ρ := fun _ => True)
              ⟨⟨triggerValue, ⟨cls, hcls, hvalue⟩, rfl⟩, fun _ => .ofExcept _⟩ fun _ _ => trivial
          · unfold commitNewAlert
            split
            next => exact hnone
            next id =>
              refine Coro.Uses.bind (ρ := fun _ => True) ⟨trivial, fun _ => .ofExcept _⟩
                fun _ _ => ?_
              refine Coro.Uses.bind (ρ := fun _ => True) ⟨trivial, fun _ => .ofExcept _⟩
                fun row _ alert halert => ?_
              exact ⟨_, (Option.some.inj halert).symm⟩

theorem uses_evaluate (ruleClasses : RuleClasses) (rule : Rule) (candle : Candle) :
    (evaluate ruleClasses rule candle).Uses (Op.evaluates rule.id)
      (fun out => ∀ alert, out = some alert → ∃ loaded, alert = AlertObj.ofRow loaded) := by
  refine (uses_evaluateOn ruleClasses rule candle).mono ?_ fun _ h => h
  intro o ho
  cases o with
  | insertAlert alert =>
      obtain ⟨triggerValue, -, rfl⟩ := ho
      rfl
  | call _ => trivial
  | _ => exact ho

/-- The window of a timestamp is the minute that contains it. -/
theorem window_contains (t : Time) :
    (getIdempotencyWindow t).1 ≤ t ∧ t < (getIdempotencyWindow t).2 := by
  have h₁ : 0 ≤ t % minute := Int.emod_nonneg t (by decide)
  have h₂ : t % minute < minute := Int.emod_lt_of_pos t (by decide)
  refine ⟨Int.sub_le_self t h₁, ?_⟩
  show t < t - t % minute + minute
  calc t = t - t % minute + t % minute := (Int.sub_add_cancel t _).symm
    _ < t - t % minute + minute := Int.add_lt_add_left h₂ _

end Pulse
