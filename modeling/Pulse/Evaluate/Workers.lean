/-
  Pulse.Evaluate.Workers
  ──────────────────────
  **MANY WORKERS EVALUATE THE SAME RULES.**

  Sessions run `evaluate` on any rules and candles, one call at a time, and die
  at any await.  The stages of a call, from its first query to its return, are
  read off its text:

    • `evaluate_leads` — before it reaches `_create_alert` a call only reads,
    • `Entered`, `Inserting`, `Committing`, `Refreshing` — what is left of it
      from there on.
-/
import Pulse.Evaluate.Alerts

namespace Pulse

open Pulse.Async Pulse.Store

/-! ## §1. The system. -/

/-- Sessions that evaluate rules. -/
structure Workers (ι : Type) where
  pool : Pool ι Resp PyErr (Option AlertObj) (World ι)
  /-- The window for which the session's call has entered `_create_alert`. -/
  creating : ι → Option Window
  /-- The windows of the calls that entered `_create_alert` and ended without a
  crash. -/
  survived : List Window
  /-- The alerts that calls returned. -/
  returned : List AlertId

namespace Workers

inductive Action (ι : Type) where
  | evaluate (i : ι) (rule : Rule) (candle : Candle)
  | answer (i : ι) (inp : Input)
  /-- The worker dies, or an idle one calls `rollback`: the session's transaction
  is rolled back. -/
  | crash (i : ι)

variable {ι : Type} [DecidableEq ι]

abbrev world (c : Workers ι) : World ι := c.pool.world

abbrev task (c : Workers ι) (i : ι) : Prog (Option AlertObj) := c.pool.task i

/-- Idle workers over a database with the given rules. -/
def initial (rules : Table Rule.id) : Workers ι where
  pool := { world := .initial rules, task := fun _ => .pure none }
  creating := fun _ => none
  survived := []
  returned := []

/-- The window whose `_create_alert` a call is about to enter. -/
def enters (p : Prog (Option AlertObj)) : Option Window :=
  match p with
  | .await (.call (.createAlert ruleId windowStart)) _ => some (ruleId, windowStart)
  | _ => none

/-- The alert that a call returned. -/
def result (p : Prog (Option AlertObj)) : Option AlertId :=
  match p with
  | .pure (some alert) => some alert.row.id
  | _ => none

/-- The window of session `i`'s call after the operation it awaits. -/
def entered (c : Workers ι) (i : ι) : Option Window :=
  match enters (c.task i) with
  | some window => some window
  | none => c.creating i

/-- Session `i` has been answered and is left with `pool`. -/
def proceed (c : Workers ι) (i : ι)
    (pool : Pool ι Resp PyErr (Option AlertObj) (World ι)) : Workers ι :=
  if (pool.task i).finished then
    { pool := pool
      creating := Function.update c.creating i none
      survived := c.survived ++ (c.entered i).toList
      returned := c.returned ++ (result (pool.task i)).toList }
  else
    { c with
      pool := pool
      creating := Function.update c.creating i (c.entered i) }

/-- One action. -/
def step (ruleClasses : RuleClasses) (c : Workers ι) : Action ι → Option (Workers ι)
  | .evaluate i rule candle =>
      if (c.task i).finished && (c.world.rules.get rule.id).isSome then
        some { c with pool := c.pool.assign i (Pulse.evaluate ruleClasses rule candle) }
      else none
  | .answer i inp => (c.pool.answer World.perform i inp).map (c.proceed i)
  | .crash i =>
      some { c with
        pool := { world := c.world.abort i
                  task := Function.update c.pool.task i (.pure none) }
        creating := Function.update c.creating i none }

/-- The database carries out the savepoint, the insert and the commit of an
alert: an insert fails on a conflict only.  Every other statement may fail. -/
def Obliging (c : Workers ι) : Action ι → Prop
  | .answer i inp =>
      match c.task i with
      | .await .savepoint _ | .await (.insertAlert _) _ | .await .commitAlert _ =>
          inp.fault = none ∧ c.world.failed i = false
      | _ => True
  | _ => True

instance (c : Workers ι) (a : Action ι) : Decidable (c.Obliging a) := by
  unfold Obliging
  repeat' split
  all_goals infer_instance

/-! ## §2. The stages of a call. -/

end Workers

/-- `except Exception: return None`. -/
def giveUp (_ : PyErr) : Prog (Option AlertObj) := pure none

/-- In `_create_alert`, about to open the savepoint. -/
def Entered (row : Alert) : Prog (Option AlertObj) :=
  tryCatch (insertInSavepoint row >>= commitNewAlert) giveUp

/-- The savepoint is open, about to flush the insert. -/
def Inserting (row : Alert) : Prog (Option AlertObj) :=
  tryCatch (tryCatch (insertAlert row >>= fun id => pure (some id))
    (fun e => if e.cls = .integrityError then pure none else throw e) >>= commitNewAlert)
    giveUp

/-- Inserted, about to commit. -/
def Committing (id : AlertId) : Prog (Option AlertObj) :=
  tryCatch (commitNewAlert (some id)) giveUp

/-- Committed, about to refresh. -/
def Refreshing (id : AlertId) : Prog (Option AlertObj) :=
  tryCatch (refreshAlert id >>= fun row =>
    pure (some (AlertObj.ofRow { row with id := id }))) giveUp

@[simp] theorem finished_entered (row : Alert) : (Entered row).finished = false := rfl

@[simp] theorem finished_inserting (row : Alert) : (Inserting row).finished = false := rfl

@[simp] theorem finished_committing (id : AlertId) : (Committing id).finished = false := rfl

@[simp] theorem finished_refreshing (id : AlertId) : (Refreshing id).finished = false := rfl

/-- Where the reading part of a call on rule `ruleId` ends: it returns `none` or
raises, or it enters `_create_alert`. -/
inductive Parked (ruleId : RuleId) : Prog (Option AlertObj) → Prop
  | nothing : Parked ruleId (.pure none)
  | raised (e : PyErr) : Parked ruleId (.raise e)
  | enters (row : Alert) (hrule : row.ruleId = ruleId)
      (hwindow : row.windowEnd = row.windowStart + minute) :
      Parked ruleId (.await (.call (.createAlert ruleId row.windowStart))
        fun _ => Entered row)

/-- **Before it enters `_create_alert` a call only reads.** -/
theorem evaluate_leads (ruleClasses : RuleClasses) (rule : Rule) (candle : Candle) :
    Coro.Leads Op.harmless (Parked rule.id) (evaluate ruleClasses rule candle) := by
  unfold evaluate
  refine Coro.Leads.bind (ρ := fun _ => True) ⟨trivial, fun _ => trivial⟩ (fun _ _ => ?_)
    .raised
  refine Coro.Leads.bind (uses_isInCooldown (fun _ => trivial) trivial)
    (fun inCooldown _ => ?_) .raised
  split
  next => exact .nothing
  next =>
    split
    next => exact .nothing
    next cls _ =>
      unfold evaluateClass
      refine Coro.Leads.tryCatch_bind ((cls.reads rule.config candle).mono ?_
        (fun _ h => h)) (fun v _ => ?_) (fun _ => .nothing)
      · intro o ho
        cases o <;> first | exact ho | trivial
      · split
        next => exact .nothing
        next triggerValue =>
          exact Coro.Leads.of (.enters (newAlert rule candle
            (getIdempotencyWindow candle.timestamp).1
            (getIdempotencyWindow candle.timestamp).2 triggerValue) rfl rfl)

end Pulse
