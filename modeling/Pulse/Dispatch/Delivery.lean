/-
  Pulse.Dispatch.Delivery
  ───────────────────────
  **THE DELIVERY SYSTEM.**

  Sessions share the database and interleave at every await.  A session stores
  a new alert and delivers it (the main loop), or runs a pass over the pending
  alerts (the retry scheduler).  The database itself does not fail here.

  An alert is IN HAND of a session from the moment the session created or
  loaded it until its task ends.

    • `Delivery.step`      — one action,
    • `Delivery.Exclusive` — nobody loads an alert that another session has in hand,
    • `step_answer`        — what an answer does to the system.
-/
import Pulse.Dispatch.Round

namespace Pulse

open Pulse.Async Pulse.Store

/-! ## §1. States and actions. -/

/-- The sessions of the delivery system and the alerts they have loaded. -/
structure Delivery (ι : Type) where
  pool : Pool ι Resp PyErr Unit (World ι)
  /-- The rows a session created or loaded since its task began. -/
  hand : ι → List Alert

namespace Delivery

inductive Action (ι : Type) where
  /-- The main loop commits a new alert and goes on to deliver it. -/
  | create (i : ι) (row : Alert)
  /-- A new alert is committed and its worker dies before delivering it. -/
  | orphan (row : Alert)
  /-- A pass over the pending alerts begins. -/
  | retry (i : ι)
  /-- The operation that session `i` awaits is answered. -/
  | answer (i : ι) (inp : Input)
  /-- Somebody edits a rule; rules are not deleted. -/
  | edit (rule : Rule)

variable {ι : Type} [DecidableEq ι]

abbrev world (c : Delivery ι) : World ι := c.pool.world

abbrev task (c : Delivery ι) (i : ι) : Prog Unit := c.pool.task i

/-- A row as the column defaults make it: pending, no attempts, its rule there,
its identifier new. -/
def canStore (w : World ι) (row : Alert) : Bool :=
  row.deliveryStatus = .pending && row.deliveryAttempts = 0
    && row.lastDeliveryAttempt = none && (w.alerts.get row.id).isNone
    && (w.rules.get row.ruleId).isSome

/-- Commit a new alert. -/
def store (w : World ι) (row : Alert) : World ι :=
  { w with alerts := w.alerts.insertNew row }

/-- Replace the rule of the same identifier. -/
def editRule (w : World ι) (rule : Rule) : World ι :=
  { w with
    rules := w.rules.modify rule.id (fun r => { rule with id := r.id }) (fun _ => rfl) }

/-- Session `i` starts task `t` with `rows` in hand. -/
def start (c : Delivery ι) (w : World ι) (i : ι) (t : Prog Unit) (rows : List Alert) :
    Delivery ι where
  pool := { world := w, task := Function.update c.pool.task i t }
  hand := Function.update c.hand i rows

section Start

variable (c : Delivery ι) (w : World ι) (i : ι) (t : Prog Unit) (rows : List Alert)

@[simp] theorem start_world : (c.start w i t rows).world = w := rfl

@[simp] theorem start_task_self : (c.start w i t rows).task i = t := by
  simp [start, task]

@[simp] theorem start_hand_self : (c.start w i t rows).hand i = rows := by
  simp [start]

variable {i}

theorem start_task_other {j : ι} (h : j ≠ i) : (c.start w i t rows).task j = c.task j := by
  simp [start, task, h]

theorem start_hand_other {j : ι} (h : j ≠ i) : (c.start w i t rows).hand j = c.hand j := by
  simp [start, h]

end Start

/-- The rows that an answer puts into a session's hands. -/
def loads (p : Prog Unit) (inp : Input) : List Alert :=
  match p with
  | .await (.selectPending _) _ => inp.rows
  | _ => []

/-- One action, when `retry_backoff_max` is `M`. -/
def step (M : Nat) (c : Delivery ι) : Action ι → Option (Delivery ι)
  | .create i row =>
      if (c.task i).finished && !c.world.failed i && canStore c.world row then
        some (c.start (store c.world row) i (deliver row.id) [row])
      else none
  | .orphan row =>
      if canStore c.world row then
        some { c with pool := { c.pool with world := store c.world row } }
      else none
  | .retry i =>
      if (c.task i).finished then
        some (c.start c.world i (processPendingAlerts M) [])
      else none
  | .answer i inp =>
      if inp.fault = none then
        (c.pool.answer World.perform i inp).map fun pool =>
          { pool := pool
            hand := Function.update c.hand i (c.hand i ++ loads (c.task i) inp) }
      else none
  | .edit rule =>
      some { c with pool := { c.pool with world := editRule c.world rule } }

/-- Session `j` is at work with alert `a` in hand. -/
def InHand (c : Delivery ι) (j : ι) (a : AlertId) : Prop :=
  (c.task j).finished = false ∧ ∃ row ∈ c.hand j, row.id = a

/-- **Exclusive loading** of alert `a`: an answer does not put it into the hands
of one session while another has it. -/
def Exclusive (a : AlertId) (c : Delivery ι) : Action ι → Prop
  | .answer i inp => ∀ row ∈ loads (c.task i) inp, row.id = a →
      ∀ j, j ≠ i → ¬ c.InHand j a
  | _ => True

/-- Nobody is at work, and alert `a` does not exist. -/
structure Start (a : AlertId) (c : Delivery ι) : Prop where
  idle : ∀ j, (c.task j).finished = true
  unborn : c.world.ledger a = Ledger.empty

/-! ## §2. What the actions do. -/

section Actions

variable {M : Nat} {a : AlertId}

/-- The task is the beginning of a pass that has loaded nothing yet. -/
def PassStart (M : Nat) (p : Prog Unit) : Prop :=
  p = processPendingAlerts M ∨
    p = (selectPending M >>= fun alerts => Coro.forEach alerts (retryAlert M))

/-- A task `p` that cannot touch `a`, or is about to load. -/
def Unconcerned (M : Nat) (a : AlertId) (p : Prog Unit) : Prop :=
  Aloof a p ∨ PassStart M p

theorem unconcerned_of_finished {p : Prog Unit} (h : p.finished = true) :
    Unconcerned M a p := Or.inl (aloof_of_finished h)

/-- What an answer does to the system. -/
theorem step_answer {c c' : Delivery ι} {i : ι} {inp : Input}
    (h : step M c (.answer i inp) = some c') :
    inp.Healthy ∧ ∃ o k r, c.task i = .await o k ∧
      World.perform i o inp c.world = some (r, c'.world) ∧ c'.task i = k r ∧
      (∀ j, j ≠ i → c'.task j = c.task j ∧ c'.hand j = c.hand j) ∧
      c'.hand i = c.hand i ++ loads (c.task i) inp := by
  simp only [step] at h
  split at h
  next hok =>
    rw [Option.map_eq_some_iff] at h
    obtain ⟨pool, hpool, rfl⟩ := h
    obtain ⟨o, k, r, ht, hperf, htask, hother⟩ := Pool.answer_cases hpool
    exact ⟨hok, o, k, r, ht, hperf, htask,
      fun j hj => ⟨hother j hj, by simp [hj]⟩, by simp⟩
  next => exact absurd h (by simp)

/-- A first delivery begins with the commit of its alert. -/
theorem step_create {c c' : Delivery ι} {i : ι} {row : Alert}
    (h : step M c (.create i row) = some c') :
    (c.task i).finished = true ∧ canStore c.world row = true ∧
      c' = c.start (store c.world row) i (deliver row.id) [row] := by
  simp only [step] at h
  split at h
  next hguard =>
    simp only [Bool.and_eq_true] at hguard
    exact ⟨hguard.1.1, hguard.2, (Option.some.inj h).symm⟩
  next => exact absurd h (by simp)

theorem step_orphan {c c' : Delivery ι} {row : Alert} (h : step M c (.orphan row) = some c') :
    canStore c.world row = true ∧
      c' = { c with pool := { c.pool with world := store c.world row } } := by
  simp only [step] at h
  split at h
  next hcan => exact ⟨hcan, (Option.some.inj h).symm⟩
  next => exact absurd h (by simp)

theorem step_retry {c c' : Delivery ι} {i : ι} (h : step M c (.retry i) = some c') :
    (c.task i).finished = true ∧ c' = c.start c.world i (processPendingAlerts M) [] := by
  simp only [step] at h
  split at h
  next hf => exact ⟨hf, (Option.some.inj h).symm⟩
  next => exact absurd h (by simp)

omit [DecidableEq ι] in
theorem canStore_iff {w : World ι} {row : Alert} :
    canStore w row = true ↔ row.deliveryStatus = .pending ∧ row.deliveryAttempts = 0 ∧
      row.lastDeliveryAttempt = none ∧ w.alerts.get row.id = none ∧
      (w.rules.get row.ruleId).isSome := by
  simp [canStore, and_assoc]

omit [DecidableEq ι] in
theorem ledger_store_other (w : World ι) {row : Alert} (h : row.id ≠ a) :
    (store w row).ledger a = w.ledger a := by
  simp only [World.ledger, store, Table.get_insertNew_other h]

omit [DecidableEq ι] in
theorem ledger_store_self {w : World ι} {row : Alert} (h : w.ledger row.id = Ledger.empty) :
    (store w row).ledger row.id = Ledger.fresh row := by
  have hrow : w.alerts.get row.id = none := congrArg Ledger.row h
  have hrec := congrArg Ledger.records h
  have hreq := congrArg Ledger.requests h
  have hcom := congrArg Ledger.commits h
  simp only [World.ledger, Ledger.empty] at hrec hreq hcom
  simp only [World.ledger, store, Table.get_insertNew_self hrow, hrec, hreq, hcom,
    Ledger.fresh]

omit [DecidableEq ι] in
theorem rules_editRule (w : World ι) (rule : Rule) (id : RuleId)
    (h : (w.rules.get id).isSome) : ((editRule w rule).rules.get id).isSome := by
  by_cases hid : rule.id = id
  · subst hid
    rw [editRule, Table.get_modify_self, Option.isSome_map]
    exact h
  · rw [editRule, Table.get_modify_other _ _ _ hid]
    exact h

end Actions

/-! ## §3. One worker. -/

/-- The two tasks of a worker process, each with a session of its own. -/
inductive WorkerTask where
  | mainLoop
  | retryScheduler
  deriving DecidableEq, Repr

instance {p : WorkerTask → Prop} [DecidablePred p] : Decidable (∀ j, p j) :=
  decidable_of_iff (p .mainLoop ∧ p .retryScheduler)
    ⟨fun h j => by cases j; exacts [h.1, h.2], fun h => ⟨h _, h _⟩⟩

instance (c : Delivery ι) (j : ι) (a : AlertId) : Decidable (c.InHand j a) :=
  inferInstanceAs (Decidable (_ ∧ _))

instance (a : AlertId) (c : Delivery WorkerTask) :
    (act : Action WorkerTask) → Decidable (Exclusive a c act)
  | .answer i inp => inferInstanceAs (Decidable
      (∀ row ∈ loads (c.task i) inp, row.id = a → ∀ j, j ≠ i → ¬ c.InHand j a))
  | .create _ _ | .orphan _ | .retry _ | .edit _ => inferInstanceAs (Decidable True)

/-- Nothing was done yet: the given rules, no alerts. -/
def initial (rules : Table Rule.id) : Delivery ι where
  pool := { world := .initial rules, task := fun _ => .pure () }
  hand := fun _ => []

omit [DecidableEq ι] in
theorem start_initial (rules : Table Rule.id) (a : AlertId) :
    Start a (initial rules : Delivery ι) := ⟨fun _ => rfl, rfl⟩

/-- An alert of the sample rule as it is created. -/
def sampleAlert : Alert where
  id := 7
  ruleId := 1
  symbol := "BTC"
  ruleType := .priceThreshold
  triggeredAt := 0
  triggerValue := 0
  windowStart := 0
  windowEnd := minute
  deliveryStatus := .pending
  deliveryAttempts := 0
  lastDeliveryAttempt := none
  createdAt := 0

/-- `sampleAlert` after a failed first delivery at the epoch. -/
def sampleRetried : Alert := sampleAlert.afterRound .pending 0

/-- The first delivery, answered with `reply`. -/
def firstDelivery (reply : Reply) : List (Action WorkerTask) :=
  [.create .mainLoop sampleAlert,
   .answer .mainLoop {}, .answer .mainLoop {}, .answer .mainLoop {},
   .answer .mainLoop {}, .answer .mainLoop { reply := reply },
   .answer .mainLoop {}, .answer .mainLoop {}]

/-- A pass two seconds after a failed delivery, answered with `reply`. -/
def secondDelivery (reply : Reply) : List (Action WorkerTask) :=
  [.retry .retryScheduler,
   .answer .retryScheduler { elapsed := 2000000 },
   .answer .retryScheduler { rows := [sampleRetried] },
   .answer .retryScheduler {}, .answer .retryScheduler { jitter := 500000 },
   .answer .retryScheduler {}, .answer .retryScheduler {},
   .answer .retryScheduler {}, .answer .retryScheduler { reply := reply },
   .answer .retryScheduler {}, .answer .retryScheduler {}]

/-- The first delivery fails; the pass after it gets through. -/
def recoverySchedule : List (Action WorkerTask) :=
  firstDelivery (.response 500) ++ secondDelivery (.response 204)

end Delivery

end Pulse
