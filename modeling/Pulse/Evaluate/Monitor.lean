/-
  Pulse.Evaluate.Monitor
  ──────────────────────
  **WHAT THE WORKER IS FOR.**

  A monitor records each candle and asks each rule of its symbol, in order, whether
  the candles recorded so far match; a rule that matches gives a notice, at most one
  a minute, and rests for its cooldown.  There are no sessions, savepoints, statements
  or identifiers in it.

    • `Monitor.check`   — one rule,
    • `Monitor.Watches` — any number of candles, with time passing before each rule,
    • `Watches.same`    — without cooldowns the notices are a function of the candles.
-/
import Pulse.Evaluate.Outcome
import Pulse.Worker.Immutable

namespace Pulse

open Pulse.Async Pulse.Store

/-! ## §1. The monitor. -/

/-- An alert without what the database fills in and deliveries write. -/
def Alert.notice (a : Alert) : Alert := { a.asRaised with id := 0, createdAt := 0 }

/-- The candles and notices so far, the newest candle of each symbol, and the time. -/
structure Monitor where
  candles : Table Candle.key
  cursors : String → Option Time
  notices : List Alert
  clock : Time

namespace Monitor

variable (ruleClasses : RuleClasses)

/-- A candle is recorded unless it was before. -/
def record (m : Monitor) (candle : Candle) : Monitor where
  candles := m.candles.insertNew candle
  cursors := Function.update m.cursors (upper candle.symbol) (some candle.timestamp)
  notices := m.notices
  clock := m.clock

def wait (m : Monitor) (n : ℕ) : Monitor := { m with clock := m.clock + n }

/-- The latest candle that gave a notice of the rule. -/
def latest (m : Monitor) (ruleId : RuleId) (symbol : String) : Option Time :=
  ((m.notices.filter fun a => a.ruleId = ruleId ∧ a.symbol = symbol).map Alert.triggeredAt).max?

/-- The rule is not asked: it is in its cooldown, or has none where one is needed. -/
def rests (m : Monitor) (rule : Rule) (symbol : String) : Bool :=
  if rule.cooldownSeconds = some 0 then false
  else
    match m.latest rule.id (upper symbol) with
    | none => false
    | some t =>
        match rule.cooldownSeconds with
        | none => true
        | some cooldown => m.clock < t + seconds cooldown

/-- What the rule makes of the candle; a rule that raises makes nothing of it. -/
def verdict (m : Monitor) (rule : Rule) (candle : Candle) : Option Rat :=
  match ruleClasses rule.ruleType with
  | none => none
  | some cls => (onStore m.candles.rows (cls.evaluate rule.config candle)).toOption.join

/-- The notice of a match. -/
def noticeOf (rule : Rule) (candle : Candle) (triggerValue : Rat) : Alert :=
  newAlert rule candle (getIdempotencyWindow candle.timestamp).1
    (getIdempotencyWindow candle.timestamp).2 triggerValue

/-- A notice is given unless the rule gave one in this minute. -/
def give (m : Monitor) (a : Alert) : Monitor :=
  if m.notices.any (fun b => b.windowKey = a.windowKey) then m
  else { m with notices := m.notices ++ [a] }

/-- One rule. -/
def check (candle : Candle) (m : Monitor) (rule : Rule) : Monitor :=
  if m.rests rule candle.symbol then m
  else
    match m.verdict ruleClasses rule candle with
    | none => m
    | some triggerValue => m.give (noticeOf rule candle triggerValue)

/-- The active rules of the candle's symbol. -/
def asked (rules : List Rule) (candle : Candle) : List Rule :=
  rules.filter fun r => r.symbol = candle.symbol && r.isActive

/-- The rules in order, with time passing before each. -/
inductive Checks (candle : Candle) : List Rule → Monitor → Monitor → Prop
  | nil (m : Monitor) : Checks candle [] m m
  | cons {rule : Rule} {rules : List Rule} {m m' : Monitor} (n : ℕ)
      (h : Checks candle rules ((m.wait n).check ruleClasses candle rule) m') :
      Checks candle (rule :: rules) m m'

/-- Candles in order, and for each the rules that are asked. -/
inductive Watches (rules : List Rule) : List Candle → Monitor → Monitor → Prop
  | nil (m : Monitor) : Watches rules [] m m
  | snoc {candle : Candle} {candles : List Candle} {m m' m'' : Monitor}
      (h : Watches rules candles m m')
      (hcandle : Checks ruleClasses candle (asked rules candle) (m'.record candle) m'') :
      Watches rules (candles ++ [candle]) m m''

/-- The same but for the time. -/
def Same (m m' : Monitor) : Prop :=
  m.candles = m'.candles ∧ m.cursors = m'.cursors ∧ m.notices = m'.notices

/-- The rules in order, at once. -/
def checkAll (candle : Candle) (rules : List Rule) (m : Monitor) : Monitor :=
  rules.foldl (check ruleClasses candle) m

/-- Candles in order, at once. -/
def replay (rules : List Rule) (candles : List Candle) (m : Monitor) : Monitor :=
  candles.foldl (fun m candle => checkAll ruleClasses candle (asked rules candle)
    (m.record candle)) m

variable {ruleClasses} {rule : Rule} {rules : List Rule} {candle : Candle} {m m' m'' : Monitor}

theorem Same.trans (h : Same m m') (h' : Same m' m'') : Same m m'' :=
  ⟨h.1.trans h'.1, h.2.1.trans h'.2.1, h.2.2.trans h'.2.2⟩

theorem Same.record (h : Same m m') : Same (m.record candle) (m'.record candle) := by
  obtain ⟨hcandles, hcursors, hnotices⟩ := h
  refine ⟨?_, ?_, hnotices⟩
  · show m.candles.insertNew candle = m'.candles.insertNew candle
    rw [hcandles]
  · show Function.update m.cursors _ _ = Function.update m'.cursors _ _
    rw [hcursors]

theorem Same.give (h : Same m m') (a : Alert) : Same (m.give a) (m'.give a) := by
  obtain ⟨hcandles, hcursors, hnotices⟩ := h
  unfold Monitor.give
  rw [hnotices]
  split
  next => exact ⟨hcandles, hcursors, hnotices⟩
  next => exact ⟨hcandles, hcursors, rfl⟩

/-! ### When a rule rests. -/

theorem rests_of_zero {symbol : String} (hzero : rule.cooldownSeconds = some 0) :
    m.rests rule symbol = false := by
  unfold rests
  rw [if_pos hzero]

theorem rests_of_silent {symbol : String} (hlatest : m.latest rule.id (upper symbol) = none) :
    m.rests rule symbol = false := by
  unfold rests
  rw [hlatest, ite_self]

theorem rests_of_missing {symbol : String} {t : Time} (hnone : rule.cooldownSeconds = none)
    (hlatest : m.latest rule.id (upper symbol) = some t) : m.rests rule symbol = true := by
  unfold rests
  rw [hlatest, hnone, if_neg (by simp)]

theorem rests_of_cooldown {symbol : String} {t : Time} {cooldown : Int}
    (hcooldown : rule.cooldownSeconds = some cooldown) (hne : cooldown ≠ 0)
    (hlatest : m.latest rule.id (upper symbol) = some t) :
    m.rests rule symbol = decide (m.clock < t + seconds cooldown) := by
  unfold rests
  rw [hlatest, hcooldown, if_neg fun h => hne (Option.some.inj h)]

/-! ### Without cooldowns, time does not matter. -/

/-- **A rule without a cooldown** does not look at the clock. -/
theorem Same.check (h : Same m m') (hrule : rule.cooldownSeconds = some 0) :
    Same (m.check ruleClasses candle rule) (m'.check ruleClasses candle rule) := by
  have hrests : ∀ m : Monitor, m.rests rule candle.symbol = false := fun _ => rests_of_zero hrule
  have hverdict : m.verdict ruleClasses rule candle = m'.verdict ruleClasses rule candle := by
    unfold Monitor.verdict
    rw [h.1]
  unfold Monitor.check
  rw [hrests, hrests, hverdict]
  cases m'.verdict ruleClasses rule candle with
  | none => exact h
  | some triggerValue => exact h.give _

theorem Same.checkAll (h : Same m m') (hrules : ∀ rule ∈ rules, rule.cooldownSeconds = some 0) :
    Same (checkAll ruleClasses candle rules m) (checkAll ruleClasses candle rules m') := by
  induction rules generalizing m m' with
  | nil => exact h
  | cons rule rules ih =>
      exact ih (h.check (hrules rule List.mem_cons_self))
        fun r hr => hrules r (List.mem_cons_of_mem rule hr)

theorem Checks.same (h : Checks ruleClasses candle rules m m')
    (hrules : ∀ rule ∈ rules, rule.cooldownSeconds = some 0) :
    Same m' (checkAll ruleClasses candle rules m) := by
  induction h with
  | nil m => exact ⟨rfl, rfl, rfl⟩
  | @cons rule rules m m' n h ih =>
      have hwait : Same (m.wait n) m := ⟨rfl, rfl, rfl⟩
      have hrest : ∀ r ∈ rules, r.cooldownSeconds = some 0 :=
        fun r hr => hrules r (List.mem_cons_of_mem rule hr)
      exact (ih hrest).trans ((hwait.check (hrules rule List.mem_cons_self)).checkAll hrest)

/-- **Notices are a function of the candles**, if no rule has a cooldown. -/
theorem Watches.same {candles : List Candle} (h : Watches ruleClasses rules candles m m')
    (hrules : ∀ rule ∈ rules, rule.cooldownSeconds = some 0) :
    Same m' (replay ruleClasses rules candles m) := by
  induction h with
  | nil m => exact ⟨rfl, rfl, rfl⟩
  | @snoc candle candles m m' m'' h hcandle ih =>
      have hactive : ∀ rule ∈ asked rules candle, rule.cooldownSeconds = some 0 :=
        fun r hr => hrules r (List.mem_filter.mp hr).1
      unfold replay
      rw [List.foldl_append]
      exact (hcandle.same hactive).trans ((Same.record ih).checkAll hactive)

end Monitor

end Pulse
