/-
  Pulse.Main.MainLoop
  ───────────────────
  `worker/main.py` and `worker/ingest/cursor.py`: what the main loop does with
  one candle.  All of it runs on one session.

    • `uses_recordCandle`, `uses_processRule` — the operations of its two parts,
    • `worker` — the processes that run the loop, one after the other.
-/
import Pulse.Async.Lives
import Pulse.Evaluate.Engine
import Pulse.Dispatch.Footprint

namespace Pulse

open Pulse.Async Pulse.Store

/-! ## §1. The functions. -/

/-- `save_candle`: a duplicate is rolled back and skipped. -/
def saveCandle (candle : Candle) : Prog Unit := do
  try
    insertCandle candle
  catch e => if e.cls = .integrityError then rollback else throw e

/-- `get_cursor`. -/
def getCursor (symbol : String) : Prog (Option Time) := selectCursor (upper symbol)

/-- `update_cursor`: an update if there is a cursor, else an insert. -/
def updateCursor (symbol : String) (timestamp : Time) : Prog Unit := do
  let cursor ← getCursor symbol
  commitCursor cursor.isSome (upper symbol) timestamp

/-- `load_active_rules`, on the rules of the database. -/
def loadActiveRules (rules : List Rule) : List Rule := rules.filter (·.isActive)

/-- `symbol_rules`. -/
def symbolRules (rules : List Rule) (candle : Candle) : List Rule :=
  rules.filter fun r => r.symbol = candle.symbol && r.isActive

/-- One round of the inner loop.  Only what escapes from `evaluate` and `dispatch`
is rolled back. -/
def processRule (ruleClasses : RuleClasses) (candle : Candle) (rule : Rule) : Prog Unit := do
  try
    match ← evaluate ruleClasses rule candle with
    | none => pure ()
    | some alert => dispatch alert
  catch _ => rollback

/-- What the loop does before the rules. -/
def recordCandle (candle : Candle) : Prog Unit := do
  saveCandle candle
  updateCursor candle.symbol candle.timestamp

/-- One round of the loop over the stream. -/
def processCandle (ruleClasses : RuleClasses) (rules : List Rule) (candle : Candle) :
    Prog Unit := do
  recordCandle candle
  Coro.forEach (symbolRules rules candle) (processRule ruleClasses candle)

/-! ## §2. Their footprints. -/

/-- The operations that store a candle and its cursor. -/
def Op.records (candle : Candle) : Op → Prop
  | .insertCandle c => c = candle
  | .rollback | .selectCursor _ => True
  | .commitCursor _ symbol timestamp =>
      symbol = upper candle.symbol ∧ timestamp = candle.timestamp
  | _ => False

/-- The operations of one round of the inner loop. -/
def Op.processes (ruleClasses : RuleClasses) (rule : Rule) (candle : Candle) (o : Op) : Prop :=
  o.evaluatesOn ruleClasses rule candle ∨ o = .rollback ∨ ∃ loaded, o.delivers loaded fun _ => True

variable {candle : Candle}

theorem uses_recordCandle : (recordCandle candle).Uses (Op.records candle) (fun _ => True) := by
  unfold recordCandle
  refine Coro.Uses.bind (ρ := fun _ => True) ?_ fun _ _ => ?_
  · refine Coro.Uses.tryCatch ⟨rfl, fun _ => .ofExcept _⟩ fun e => ?_
    split
    next => exact ⟨trivial, fun _ => trivial⟩
    next => trivial
  · exact Coro.Uses.bind (ρ := fun _ => True) ⟨trivial, fun _ => .ofExcept _⟩
      fun cursor _ => ⟨⟨rfl, rfl⟩, fun _ => .ofExcept _⟩

theorem uses_processRule {ruleClasses : RuleClasses} {rule : Rule} :
    (processRule ruleClasses candle rule).Uses (Op.processes ruleClasses rule candle)
      (fun _ => True) := by
  unfold processRule
  refine Coro.Uses.tryCatch ?_ fun _ => ⟨Or.inr (Or.inl rfl), fun _ => trivial⟩
  refine Coro.Uses.bind ((uses_evaluateOn ruleClasses rule candle).mono
    (fun _ ho => Or.inl ho) fun _ h => h) fun alert halert => ?_
  split
  next => trivial
  next alert =>
    obtain ⟨loaded, rfl⟩ := halert alert rfl
    exact (uses_dispatch trivial trivial).mono (fun _ ho => Or.inr (Or.inr ⟨loaded, ho⟩))
      fun _ h => h

/-! ## §3. The worker. -/

/-- The tables that others write: the API the rules, the retry scheduler the alerts and
the attempts. -/
structure Others where
  rules : Table Rule.id
  alerts : Table Alert.id
  attempts : List AlertDeliveryAttempt

def World.others (w : World Nat) (e : Others) : World Nat :=
  { w with rules := e.rules, alerts := e.alerts, attempts := e.attempts }

/-- The worker processes; the session of process `n` is `n`. -/
abbrev Worker := Lives Resp PyErr (List Rule) (World Nat)

/-- One action: a process loads the active rules, and is given candles. -/
abbrev worker (ruleClasses : RuleClasses) :
    Worker → Lives.Action Input Candle Others → Option Worker :=
  Lives.step World.perform (fun w => loadActiveRules w.rules.rows) (processCandle ruleClasses)
    (fun i w => w.abort i) fun e w => some (w.others e)

end Pulse
