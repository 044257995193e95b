/-
  Pulse.Main.Processes
  ────────────────────
  **PROCESSES THAT SHARE A DATABASE.**

  Any number of sessions, of any number of processes: the main loops of some, the retry
  schedulers of others.  Candles and passes come in any order, every statement can fail,
  a process can end at any await, and rules are edited meanwhile.

    • `processes`   — one action of the system,
    • `World.Grows` — the tables of an append-only history.
-/
import Pulse.Async.Crew
import Pulse.Main.MainLoop
import Pulse.Worker.Immutable

namespace Pulse

open Pulse.Async Pulse.Store

/-! ## §1. The system. -/

/-- What a session can be given to do. -/
inductive Job where
  /-- A candle of the stream, with the rules that its process has loaded. -/
  | candle (rules : List Rule) (c : Candle)
  /-- A pass of the retry scheduler. -/
  | retries (retryBackoffMax : Nat)

def Job.prog (ruleClasses : RuleClasses) : Job → Prog Unit
  | .candle rules c => processCandle ruleClasses rules c
  | .retries retryBackoffMax => processPendingAlerts retryBackoffMax

/-- What can happen in the system. -/
abbrev SystemAction (ι : Type) := Crew.Action ι Input Job (Table Rule.id)

variable {ι : Type} [DecidableEq ι]

/-- Rules are created, edited and deleted. -/
def World.editRules (rules : Table Rule.id) (w : World ι) : World ι := { w with rules := rules }

/-- One action: a process that ends drops its transaction. -/
abbrev processes (ruleClasses : RuleClasses) :
    Pool ι Resp PyErr Unit (World ι) → SystemAction ι → Option (Pool ι Resp PyErr Unit (World ι)) :=
  Crew.step World.perform (Job.prog ruleClasses) (fun i w => w.abort i) World.editRules

/-- The sessions have nothing to do. -/
def Idle {σ : Type} (p : Pool ι Resp PyErr Unit σ) : Prop := ∀ i, (p.task i).finished = true

/-! ## §2. Nothing is taken back. -/

/-- Rows are added; of those that are there only an alert's delivery columns change. -/
structure World.Grows (w w' : World ι) : Prop where
  candles : ∀ k row, w.candles.get k = some row → w'.candles.get k = some row
  attempts : w.attempts <+: w'.attempts
  requests : w.requests <+: w'.requests
  alerts : ∀ a row, w.alerts.get a = some row →
    ∃ row', w'.alerts.get a = some row' ∧ row'.asRaised = row.asRaised

omit [DecidableEq ι] in
theorem World.Grows.of_eq {w w' : World ι} (hcandles : w'.candles = w.candles)
    (hattempts : w'.attempts = w.attempts) (hrequests : w'.requests = w.requests)
    (halerts : w'.alerts = w.alerts) : Grows w w' where
  candles := fun k row h => by rw [hcandles]; exact h
  attempts := hattempts ▸ List.prefix_refl _
  requests := hrequests ▸ List.prefix_refl _
  alerts := fun a row h => ⟨row, by rw [halerts]; exact h, rfl⟩

omit [DecidableEq ι] in
theorem World.Grows.refl (w : World ι) : Grows w w := .of_eq rfl rfl rfl rfl

omit [DecidableEq ι] in
theorem World.Grows.trans (w w' w'' : World ι) (h : Grows w w') (h' : Grows w' w'') :
    Grows w w'' where
  candles := fun k row hrow => h'.candles k row (h.candles k row hrow)
  attempts := h.attempts.trans h'.attempts
  requests := h.requests.trans h'.requests
  alerts := by
    intro a row hrow
    obtain ⟨row', hrow', hraised⟩ := h.alerts a row hrow
    obtain ⟨row'', hrow'', hraised'⟩ := h'.alerts a row' hrow'
    exact ⟨row'', hrow'', hraised'.trans hraised⟩

omit [DecidableEq ι] in
theorem World.Written.grows {i : ι} {w w' : World ι} (h : Written i w w') : Grows w w' :=
  ⟨h.candles, h.attempts, h.requests, h.kept⟩

/-! ## §3. A first delivery that fails, and a retry. -/

/-- The alert of the sample candle after a first delivery that failed. -/
def undelivered : Alert where
  id := 7
  ruleId := 1
  symbol := "BTC"
  ruleType := .priceThreshold
  triggeredAt := 0
  triggerValue := 1
  windowStart := 0
  windowEnd := minute
  deliveryStatus := .pending
  deliveryAttempts := 1
  lastDeliveryAttempt := some 0
  createdAt := 0

/-- The receiver fails the first time; the retry a while later gets through. -/
def twice : List (SystemAction Bool) :=
  [.take false (.candle [sampleRule] sampleCandle)] ++
    List.replicate 15 (.answer false { uuid := 7, reply := .response 500 }) ++
    [.take true (.retries 5), .answer true {}, .answer true { rows := [undelivered] }] ++
    List.replicate 8 (.answer true { elapsed := 2000000 })

end Pulse
