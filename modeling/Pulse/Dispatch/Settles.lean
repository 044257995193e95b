/-
  Pulse.Dispatch.Settles
  ──────────────────────
  **EVERY PENDING ALERT IS SETTLED IN THE END.**

  `retry_scheduler` runs a pass, sleeps, and runs the next, whatever became of the
  first: a statement may fail, the process may die in the middle of a pass.  What is
  needed is passes that are not disturbed; how many is known beforehand.

    • `retrySchedulerRound` — the body of its loop,
    • `Turned`      — what a pass, disturbed or not, can make of an alert,
    • `Scheduled`   — passes with pauses between them,
    • `settled_within` — the alert is delivered or given up after a number of
                      undisturbed passes that the attempt limit and the poll
                      interval determine.
-/
import Pulse.Dispatch.Due
import Pulse.Worker.Immutable

namespace Pulse

open Pulse.Async Pulse.Store

variable {ι : Type} [DecidableEq ι]

/-! ## §1. The scheduler. -/

/-- One round of the loop of `retry_scheduler`; the pause comes after it. -/
def retrySchedulerRound (M : Nat) : Prog Unit := do
  try
    processPendingAlerts M
  catch _ => pure ()

/-- The operations of the retry scheduler. -/
def Op.redelivers : Op → Prop
  | .openSession | .selectPending _ | .utcnow | .uniform _ | .payload _ _ _ | .selectRule _ => True
  | .post _ _ _ | .commitDelivery _ _ => True
  | _ => False

theorem uses_processPendingAlerts (M : Nat) :
    (processPendingAlerts M).Uses Op.redelivers (fun _ => True) := by
  unfold processPendingAlerts
  refine Coro.Uses.bind (ρ := fun _ => True) ⟨trivial, fun _ => trivial⟩ fun _ _ => ?_
  refine Coro.Uses.bind (ρ := fun _ => True) ⟨trivial, fun _ => .ofExcept _⟩ fun alerts _ => ?_
  refine Coro.Uses.forEach fun row _ => uses_retryAlert.mono (fun o ho => ?_) fun _ h => h
  cases o <;> trivial

/-- It raises no alert and changes none but in its delivery columns. -/
theorem World.perform_raised {j : ι} {o : Op} {inp : Input} {r : Resp o} (ho : o.redelivers)
    {w w' : World ι} (h : perform j o inp w = some (r, w')) :
    w'.alerts.rows.map Alert.asRaised = w.alerts.rows.map Alert.asRaised := by
  have heffect := perform_effect h
  show _ = (w.tick inp.elapsed).alerts.rows.map Alert.asRaised
  generalize w.tick inp.elapsed = w₁ at heffect ⊢
  cases heffect with
  | nothing | abort | call | post | fault | undone | refused | insert | candle | cursor => rfl
  | delivery alert records => exact raised_storeDelivery w₁ j alert records
  | commit => exact ho.elim

/-- Nor does a round, also one that a crash cuts off. -/
theorem raised_of_run {M : Nat} {i : ι} {ls : List Input} {p' : Prog Unit} {w w' : World ι}
    (hrun : Coro.run (World.perform i) ls (retrySchedulerRound M) w = some (p', w')) :
    w'.alerts.rows.map Alert.asRaised = w.alerts.rows.map Alert.asRaised := by
  let Raised : World ι → Prop :=
    fun u => u.alerts.rows.map Alert.asRaised = w.alerts.rows.map Alert.asRaised
  have hstay : ∀ s s' : World ι, s = s' → Raised s → Raised s' := fun _ _ hs hI => hs ▸ hI
  have huses : (retrySchedulerRound M).Uses Op.redelivers (fun _ => True) := by
    unfold retrySchedulerRound
    exact Coro.Uses.tryCatch (uses_processPendingAlerts M) fun _ => trivial
  have hround : Coro.wp (World.perform i) (fun _ _ _ => True) Eq (fun _ u => Raised u)
      (fun _ u => True ∧ Raised u) (fun _ u => Raised u) (retrySchedulerRound M) w := by
    refine Coro.wp_of_uses (I := Raised) hstay ?_ huses rfl
    intro o inp s r s' ho _ hperf hI
    have hsame : Raised s' := (World.perform_raised ho hperf).trans hI
    exact ⟨hsame, hsame⟩
  exact Coro.wp_run_keeps (I := Raised) (fun _ _ _ _ => trivial) rfl hround hrun

/-! ## §2. What a pass can make of an alert. -/

/-- What a pass alone can have made of `row` by the time `now`. -/
inductive Turned (M : Nat) (row : Alert) (now : Time) : Alert → Prop
  | same : Turned M row now row
  /-- Delivered, or given up. -/
  | settled {row' : Alert} (h : row'.deliveryStatus ≠ .pending) : Turned M row now row'
  /-- One round further. -/
  | tried {t : Time} (hp : row.deliveryStatus = .pending) (hM : row.deliveryAttempts + 1 < M)
      (ht : t ≤ now) : Turned M row now (row.afterRound .pending t)

theorem Turned.later {M : Nat} {row row' : Alert} {now now' : Time}
    (h : Turned M row now row') (hle : now ≤ now') : Turned M row now' row' := by
  cases h with
  | same => exact .same
  | settled h => exact .settled h
  | tried hp hM ht => exact .tried hp hM (ht.trans hle)

/-- The alert is as the pass found it, at a time from `t` on. -/
structure Untouched (row : Alert) (t : Time) (w : World ι) : Prop where
  stored : w.alerts.get row.id = some row
  clock : t ≤ w.clock

/-- The alert is what a pass that began at `t` can have made of it. -/
def InTurn (M : Nat) (row : Alert) (t : Time) (w : World ι) : Prop :=
  t ≤ w.clock ∧ ∃ row', w.alerts.get row.id = some row' ∧ Turned M row w.clock row'

omit [DecidableEq ι] in
theorem Untouched.inTurn {M : Nat} {row : Alert} {t t₀ : Time} {w : World ι}
    (h : Untouched row t w) (ht : t₀ ≤ t) : InTurn M row t₀ w :=
  ⟨ht.trans h.clock, row, h.stored, .same⟩

theorem perform_commitless {i : ι} {o : Op} {inp : Input} {w w' : World ι} {r : Resp o}
    (ho : o.commitless) (h : World.perform i o inp w = some (r, w')) : w'.alerts = w.alerts := by
  show w'.alerts = (w.tick inp.elapsed).alerts
  have heffect := World.perform_effect h
  generalize w.tick inp.elapsed = w₁ at heffect ⊢
  cases heffect with
  | nothing | abort | call | post | fault | undone | refused | insert | candle | cursor => rfl
  | delivery => exact ho.elim
  | commit => exact ho.elim

section Passing

variable {M : Nat} {i : ι} {row : Alert} {t t₀ : Time} {w : World ι}

/-- `p` runs alone, with every answer there is, and keeps the alert in turn. -/
abbrev passing {α : Type} (M : Nat) (i : ι) (row : Alert) (t₀ : Time) (Q : α → World ι → Prop)
    (E : PyErr → World ι → Prop) (p : Prog α) (w : World ι) : Prop :=
  Coro.wp (World.perform i) (fun _ _ _ => True) Eq (fun _ w' => InTurn M row t₀ w') Q E p w

theorem Untouched.perform {o : Op} {inp : Input} {w' : World ι} {r : Resp o}
    (h : Untouched row t w) (ho : o.commitless)
    (hperf : World.perform i o inp w = some (r, w')) : Untouched row t w' := by
  refine ⟨?_, h.clock.trans (World.perform_kept hperf).clock⟩
  rw [perform_commitless ho hperf]
  exact h.stored

/-- What commits nothing leaves the alert as it is. -/
theorem passing_commitless {α : Type} {ρ : α → Prop} {p : Prog α} (hp : p.Uses Op.commitless ρ)
    (ht : t₀ ≤ t) (h : Untouched row t w) :
    passing M i row t₀ (fun a u => ρ a ∧ Untouched row t u) (fun _ u => Untouched row t u) p w := by
  refine Coro.wp_of_uses (I := fun u => Untouched row t u) (fun s s' hs hI => hs ▸ hI) ?_ hp h
  intro o inp s r s' ho _ hperf hI
  have hs' : Untouched row t s' := hI.perform ho hperf
  exact ⟨hs'.inTurn ht, hs'⟩

/-- Reading the clock. -/
theorem passing_utcnow (ht : t₀ ≤ t) (h : Untouched row t w) :
    passing M i row t₀ (fun now u => t₀ ≤ now ∧ Untouched row now u) (fun _ _ => False)
      utcnow w := by
  intro s hs inp now s' _ hperf
  subst hs
  have hs' : Untouched row t s' := h.perform (o := .utcnow) trivial hperf
  obtain ⟨rfl, rfl⟩ := World.answer_inj hperf
  exact ⟨hs'.inTurn ht, ht.trans hs'.clock, hs'.stored, le_refl _⟩

/-- **A commit** goes through, or leaves the alert as it is. -/
theorem passing_commitDelivery {alert : AlertObj} {records : List AlertDeliveryAttempt}
    (hid : alert.row.id = row.id) (ht : t₀ ≤ t)
    (hturn : ∀ now, t ≤ now → Turned M row now (alert.flushInto row)) (h : Untouched row t w) :
    passing M i row t₀ (fun _ u => InTurn M row t₀ u) (fun _ u => InTurn M row t₀ u)
      (commitDelivery alert records) w := by
  intro s hs inp r s' _ hperf
  subst hs
  have hclock : t ≤ s'.clock := h.clock.trans (World.perform_kept hperf).clock
  have hs' : InTurn M row t₀ s' := by
    refine ⟨ht.trans hclock, ?_⟩
    obtain ⟨-, rfl, -⟩ | ⟨-, rfl, -⟩ | ⟨-, -, hbody⟩ := World.statement_cases hperf
    · exact ⟨row, h.stored, .same⟩
    · exact ⟨row, h.stored, .same⟩
    · have hget : (w.tick inp.elapsed).alerts.get alert.row.id = some row := by
        rw [hid]
        exact h.stored
      rw [World.storeDelivery, hget] at hbody
      obtain ⟨-, rfl⟩ := World.answer_inj hbody
      refine ⟨alert.flushInto row, ?_, hturn _ hclock⟩
      show (w.alerts.modify alert.row.id alert.flushInto alert.flushInto_id).get row.id = _
      rw [hid, Table.get_modify_self, h.stored]
      rfl
  refine ⟨hs', ?_⟩
  show Coro.wp _ _ _ _ _ _ (Coro.ofExcept r) s'
  cases r with
  | ok _ => exact hs'
  | error _ => exact hs'

/-- What becomes of a pending alert in a round. -/
theorem turned_round (hp : row.deliveryStatus = .pending) (success : Bool) (ht : t ≤ t₀) :
    Turned M row t₀ (row.afterRound (if success = true then .delivered
      else if M ≤ row.deliveryAttempts + 1 then .failed else .pending) t) := by
  cases success with
  | true => exact .settled (by simp [Alert.afterRound])
  | false =>
      by_cases hM : M ≤ row.deliveryAttempts + 1
      · rw [if_neg (by simp), if_pos hM]
        exact .settled (by simp [Alert.afterRound])
      · rw [if_neg (by simp), if_neg hM]
        exact .tried hp (by omega) ht

theorem commitless_retrySend {alert : Alert} {rule : Rule} :
    (retrySend alert rule).Uses Op.commitless (fun _ => True) :=
  (uses_retrySend (S := fun _ => False) rfl).mono (fun _ ho => ho.commitless) fun _ h => h

/-- The round of an alert whose rule was looked up. -/
theorem passing_retryDue (hp : row.deliveryStatus = .pending) (ht : t₀ ≤ t)
    (h : Untouched row t w) :
    passing M i row t₀ (fun _ u => InTurn M row t₀ u) (fun _ u => InTurn M row t₀ u)
      (retryDue M (AlertObj.ofRow row) t) w := by
  unfold retryDue
  refine Coro.wp_bind (Coro.wp_mono (fun found u hu => ?_) (fun _ u hu => hu.inTurn ht)
    (passing_commitless (ρ := fun _ => True) ⟨trivial, fun _ => .ofExcept _⟩ ht h))
  cases found with
  | none =>
      -- no rule: the alert is given up
      refine passing_commitDelivery rfl ht (fun now _ => .settled ?_) hu.2
      show (if DeliveryStatus.failed = row.deliveryStatus then row.deliveryStatus
        else DeliveryStatus.failed) ≠ .pending
      rw [hp]
      simp
  | some rule =>
      show passing M i row t₀ _ _ (retryRound M (AlertObj.ofRow row) rule t) u
      unfold retryRound
      refine Coro.wp_bind (Coro.wp_mono (fun startTime v hv => ?_) (fun _ _ hv => hv.inTurn ht)
        (passing_commitless (ρ := fun _ => True) ⟨trivial, fun _ => trivial⟩ ht hu.2))
      refine Coro.wp_bind (Coro.wp_mono (fun out x hx => ?_) (fun _ _ hx => hx.inTurn ht)
        (passing_commitless commitless_retrySend ht hv.2))
      obtain ⟨success, responseCode, error⟩ := out
      refine Coro.wp_bind (Coro.wp_mono (fun endTime y hy => ?_) (fun _ _ hy => hy.inTurn ht)
        (passing_commitless (ρ := fun _ => True) ⟨trivial, fun _ => trivial⟩ ht hx.2))
      dsimp only
      rw [retryOutcome_eq hp t success]
      refine passing_commitDelivery rfl ht (fun now hnow => ?_) hy.2
      rw [flushInto_afterRound]
      exact turned_round hp success hnow

/-- **The iteration on the alert.** -/
theorem passing_retryAlert (hp : row.deliveryStatus = .pending) (h : Untouched row t₀ w) :
    passing M i row t₀ (fun _ u => InTurn M row t₀ u) (fun _ u => InTurn M row t₀ u)
      (retryAlert M row) w := by
  unfold retryAlert
  refine Coro.wp_bind (Coro.wp_mono (fun now u hu => ?_) (fun _ _ he => he.elim)
    (passing_utcnow (le_refl t₀) h))
  obtain ⟨hnow, hu⟩ := hu
  split
  next last _ =>
    refine Coro.wp_bind (Coro.wp_mono (fun backoff v hv => ?_) (fun _ _ hv => hv.inTurn hnow)
      (passing_commitless (ρ := fun _ => True) ⟨trivial, fun _ => trivial⟩ hnow hu))
    split
    next => exact hv.2.inTurn hnow
    next => exact passing_retryDue hp hnow hv.2
  next => exact passing_retryDue hp hnow hu

/-- Iterations on other alerts. -/
theorem passing_other {r : Alert} (hne : r.id ≠ row.id) (h : InTurn M row t₀ w) :
    passing M i row t₀
      (fun _ u => InTurn M row t₀ u ∧ u.alerts.get row.id = w.alerts.get row.id)
      (fun _ u => InTurn M row t₀ u) (retryAlert M r) w := by
  refine Coro.wp_mono (fun _ u hu => hu.2) (fun _ u hu => hu.1)
    (Coro.wp_of_uses (I := fun u => InTurn M row t₀ u ∧
      u.alerts.get row.id = w.alerts.get row.id) (fun s s' hs hI => hs ▸ hI) ?_
      (aloof_retryAlert (M := M) hne) ⟨h, rfl⟩)
  intro o inp s r' s' ho _ hperf hI
  obtain ⟨⟨hclock, row', hrow', hturn⟩, hsame⟩ := hI
  have hle := (World.perform_kept hperf).clock
  have hget : s'.alerts.get row.id = s.alerts.get row.id :=
    congrArg Ledger.row (World.perform_ledger hperf ho)
  have hs' : InTurn M row t₀ s' :=
    ⟨hclock.trans hle, row', hget.trans hrow', hturn.later hle⟩
  exact ⟨hs', hs', hget.trans hsame⟩

/-- The loop over the rows that were loaded, each of them once. -/
theorem passing_loop {rows : List Alert} (hnodup : (rows.map Alert.id).Nodup)
    (hrows : ∀ r ∈ rows, r.id = row.id → r = row ∧ row.deliveryStatus = .pending)
    (h : Untouched row t₀ w) :
    passing M i row t₀ (fun _ u => InTurn M row t₀ u) (fun _ u => InTurn M row t₀ u)
      (Coro.forEach rows (retryAlert M)) w := by
  refine Coro.wp_mono (fun _ _ hq => hq.1) (fun _ _ he => he) (Coro.wp_forEach
    (I := fun xs u => InTurn M row t₀ u ∧ (xs.map Alert.id).Nodup ∧ ∀ r ∈ xs, r.id = row.id →
      r = row ∧ row.deliveryStatus = .pending ∧ u.alerts.get row.id = some row)
    (fun r xs u hu => ?_) rows w ⟨h.inTurn (le_refl t₀), hnodup, fun r hr hid =>
      ⟨(hrows r hr hid).1, (hrows r hr hid).2, h.stored⟩⟩)
  obtain ⟨hturn, hnodup, hhand⟩ := hu
  rw [List.map_cons, List.nodup_cons] at hnodup
  by_cases hid : r.id = row.id
  · obtain ⟨hr, hp, hstored⟩ := hhand r List.mem_cons_self hid
    subst hr
    refine Coro.wp_mono (fun _ v hv => ⟨hv, hnodup.2, fun r' hr' hid' => ?_⟩) (fun _ _ he => he)
      (passing_retryAlert hp ⟨hstored, hturn.1⟩)
    -- its turn does not come twice
    exact absurd (hid' ▸ List.mem_map_of_mem hr') hnodup.1
  · refine Coro.wp_mono (fun _ v hv => ⟨hv.1, hnodup.2, fun r' hr' hid' => ?_⟩)
      (fun _ _ he => he) (passing_other hid hturn)
    rw [hv.2]
    exact hhand r' (List.mem_cons_of_mem _ hr') hid'

/-- **A pass**, whatever is answered: an alert that is stored as `row` when it begins. -/
theorem passing_processPendingAlerts (hstored : w.alerts.get row.id = some row) :
    passing M i row w.clock (fun _ u => InTurn M row w.clock u) (fun _ u => InTurn M row w.clock u)
      (processPendingAlerts M) w := by
  unfold processPendingAlerts
  intro s hs inp r s₁ _ hopen
  subst hs
  have h₁ : Untouched row w.clock s₁ := by
    refine ⟨?_, (World.perform_kept hopen).clock⟩
    obtain ⟨-, rfl⟩ := World.answer_inj hopen
    exact hstored
  refine ⟨h₁.inTurn (le_refl _), ?_⟩
  intro s hs inp' answer s₂ _ hload
  subst hs
  have h₂ : Untouched row w.clock s₂ := by
    refine ⟨?_, h₁.clock.trans (World.perform_kept hload).clock⟩
    have hledger : s₂.ledger row.id = s₁.ledger row.id :=
      World.perform_ledger hload fun ho => ho
    exact (congrArg Ledger.row hledger).trans h₁.stored
  refine ⟨h₂.inTurn (le_refl _), ?_⟩
  obtain ⟨-, -, e, rfl⟩ | ⟨-, -, e, -, rfl⟩ | ⟨-, -, hbody⟩ := World.statement_cases hload
  · exact h₂.inTurn (le_refl _)
  · exact h₂.inTurn (le_refl _)
  · split at hbody
    next hpage =>
      obtain ⟨rfl, rfl⟩ := World.answer_inj hbody
      -- if the alert is on the page, then as it is stored
      refine passing_loop (hpage.nodup_map (World.pendingAlerts_nodup _ M)) (fun r hr hid => ?_) h₂
      obtain ⟨hget, hp, -⟩ := World.stored_of_page hpage hr
      rw [hid, h₂.stored] at hget
      obtain rfl := Option.some.inj hget
      exact ⟨rfl, hp⟩
    next => exact absurd hbody (by simp)

/-- **What the scheduler can make of an alert in one round**, also in one that a crash cuts
off. -/
theorem turned_of_run {ls : List Input} {p' : Prog Unit} {w' : World ι}
    (hstored : w.alerts.get row.id = some row)
    (hrun : Coro.run (World.perform i) ls (retrySchedulerRound M) w = some (p', w')) :
    InTurn M row w.clock w' := by
  have hround : passing M i row w.clock (fun _ u => InTurn M row w.clock u)
      (fun _ u => InTurn M row w.clock u) (retrySchedulerRound M) w := by
    unfold retrySchedulerRound
    exact Coro.wp_tryCatch (Coro.wp_mono (fun _ _ hq => hq) (fun _ _ he => he)
      (passing_processPendingAlerts hstored))
  have hbefore : Untouched row w.clock w := ⟨hstored, le_refl _⟩
  exact Coro.wp_run_keeps (fun _ _ _ _ => trivial) (hbefore.inTurn (le_refl _)) hround hrun

end Passing

/-! ## §3. Passes and pauses. -/

/-- While the scheduler sleeps for `P` microseconds or more, everything but the alert may
change. -/
structure Pause (a : AlertId) (P : Nat) (w w' : World ι) : Prop where
  alert : w'.alerts.get a = w.alerts.get a
  clock : w.clock + P ≤ w'.clock

/-- A pass over these tables surely loads the alert, if it is pending, and finds its rule. -/
structure Reachable (M : Nat) (a : AlertId) (w : World ι) : Prop where
  rule : ∀ row, w.alerts.get a = some row → (w.rules.get row.ruleId).isSome
  ahead : ∀ row, w.alerts.get a = some row →
    ahead Alert.createdAt row (w.pendingAlerts M) < 50

/-- The scheduler at work: a pause and a round, over and over.  `n` of the rounds are passes
that nothing disturbs. -/
inductive Scheduled (M : Nat) (i : ι) (a : AlertId) (P : Nat) (w : World ι) : Nat → World ι → Prop
  | start : Scheduled M i a P w 0 w
  /-- Statements fail, or the process dies in the middle. -/
  | disturbed {n : Nat} {w₁ w₂ w' : World ι} {ls : List Input} {p' : Prog Unit} :
      Scheduled M i a P w n w₁ → Pause a P w₁ w₂ →
      Coro.run (World.perform i) ls (retrySchedulerRound M) w₂ = some (p', w') →
      Scheduled M i a P w n w'
  | undisturbed {n : Nat} {w₁ w₂ w₃ w' : World ι} {draws : Draws} {rows : List Alert} :
      Scheduled M i a P w n w₁ → Pause a P w₁ w₂ → Reachable M a w₂ →
      Pass M i draws rows w₂ w₃ w' → Scheduled M i a P w (n + 1) w'

section Schedule

variable {M m P : Nat} {i : ι} {a : AlertId} {row : Alert} {w w' : World ι}

/-- A pass is a round of the scheduler. -/
theorem Pass.round {draws : Draws} {rows : List Alert} {w₁ : World ι}
    (h : Pass M i draws rows w w₁ w') :
    ∃ ls p', Coro.run (World.perform i) ls (retrySchedulerRound M) w = some (p', w') := by
  obtain ⟨ls, p', -, -, hrun⟩ := h.run
  exact ⟨ls, _, Coro.run_tryCatch (World.perform i) hrun⟩

/-- The backoff with its jitter is at most 48 seconds. -/
theorem backoff_le (attempts jitter : Nat) (h : jitter ≤ backoffBase attempts / 2) :
    backoffBase attempts + jitter ≤ 48000000 := by
  have hbase : backoffBase attempts ≤ 32000000 := by
    cases attempts with
    | zero => simp [backoffBase]
    | succ n =>
        show min (2 ^ n) 32 * 1000000 ≤ 32000000
        have hmin : min (2 ^ n) 32 ≤ 32 := Nat.min_le_right _ _
        omega
  omega

omit [DecidableEq ι] in
/-- An alert that waited for 48 seconds is due. -/
theorem due_of_waited {draws : Draws}
    (h : ∀ last, row.lastDeliveryAttempt = some last → last + 48000000 ≤ w.clock) :
    draws.due w.clock row = true := by
  unfold Draws.due
  split
  next => rfl
  next last hlast =>
    have hwaited := h last hlast
    have hle := backoff_le row.deliveryAttempts (draws.jitter row) (draws.le row)
    have hle : ((backoffBase row.deliveryAttempts + draws.jitter row : Nat) : Int) ≤ 48000000 := by
      exact_mod_cast hle
    rw [decide_eq_true_eq, not_lt]
    exact (Int.add_le_add_left hle last).trans hwaited

/-- The alert waits: it is pending, below the limit, and `s` pauses have passed since the last
round that was made for it. -/
structure Waits (M : Nat) (a : AlertId) (P : Nat) (row : Alert) (s : Nat) (w : World ι) :
    Prop where
  stored : w.alerts.get a = some row
  pending : row.deliveryStatus = .pending
  below : row.deliveryAttempts < M
  waited : ∀ last, row.lastDeliveryAttempt = some last → last + s * P ≤ w.clock

/-- The alert is delivered or given up. -/
def SettledRow (a : AlertId) (w : World ι) : Prop :=
  ∃ row, w.alerts.get a = some row ∧ row.deliveryStatus ≠ .pending

omit [DecidableEq ι] in
theorem Waits.pause {s : Nat} (h : Waits M a P row s w) (hpause : Pause a P w w') :
    Waits M a P row (s + 1) w' := by
  refine ⟨hpause.alert.trans h.stored, h.pending, h.below, fun last hlast => ?_⟩
  have hwaited := h.waited last hlast
  have hclock := hpause.clock
  rw [Nat.cast_succ, add_mul, one_mul, ← add_assoc]
  exact (Int.add_le_add_right hwaited P).trans hclock

/-- **A round of the scheduler** settles the alert, makes a round for it, or leaves it. -/
theorem Waits.turn {s : Nat} (h : Waits M a P row s w) {ls : List Input} {p' : Prog Unit}
    (hrun : Coro.run (World.perform i) ls (retrySchedulerRound M) w = some (p', w')) :
    SettledRow a w' ∨ Waits M a P row s w' ∨
      ∃ row', Waits M a P row' 0 w' ∧ row'.deliveryAttempts = row.deliveryAttempts + 1 := by
  obtain rfl : row.id = a := Table.get_key h.stored
  obtain ⟨hclock, row', hrow', hturn⟩ := turned_of_run h.stored hrun
  cases hturn with
  | same =>
      refine Or.inr (Or.inl ⟨hrow', h.pending, h.below, fun last hlast => ?_⟩)
      exact (h.waited last hlast).trans hclock
  | settled hsettled => exact Or.inl ⟨row', hrow', hsettled⟩
  | @tried t _ hM ht =>
      refine Or.inr (Or.inr ⟨_, ⟨hrow', rfl, hM, fun last hlast => ?_⟩, rfl⟩)
      have hlast : t = last := Option.some.inj hlast
      rw [Nat.cast_zero, zero_mul, add_zero, ← hlast]
      exact ht

/-- Settled is final. -/
theorem SettledRow.turn (h : SettledRow a w) {ls : List Input} {p' : Prog Unit}
    (hrun : Coro.run (World.perform i) ls (retrySchedulerRound M) w = some (p', w')) :
    SettledRow a w' := by
  obtain ⟨row, hrow, hsettled⟩ := h
  obtain rfl : row.id = a := Table.get_key hrow
  obtain ⟨-, row', hrow', hturn⟩ := turned_of_run hrow hrun
  cases hturn with
  | same => exact ⟨row, hrow', hsettled⟩
  | settled hsettled' => exact ⟨row', hrow', hsettled'⟩
  | tried hp _ _ => exact absurd hp hsettled

/-- **An undisturbed pass after 48 seconds** does not leave it. -/
theorem Waits.pass {s : Nat} (h : Waits M a P row s w) (hs : 48000000 ≤ s * P)
    (hreach : Reachable M a w) {draws : Draws} {rows : List Alert} {w₁ : World ι}
    (hpass : Pass M i draws rows w w₁ w') :
    SettledRow a w' ∨
      ∃ row', Waits M a P row' 0 w' ∧ row'.deliveryAttempts = row.deliveryAttempts + 1 := by
  obtain ⟨ls, p', hrun⟩ := hpass.round
  rcases h.turn hrun with hsettled | hsame | hnext
  · exact Or.inl hsettled
  · -- it was loaded and due, so a round was made
    obtain rfl : row.id = a := Table.get_key h.stored
    have hdue : draws.due w.clock row = true := by
      refine due_of_waited fun last hlast => ?_
      have hwaited := h.waited last hlast
      have hs : (48000000 : Int) ≤ s * P := by exact_mod_cast hs
      exact (Int.add_le_add_left hs last).trans hwaited
    obtain ⟨hpage, hrounds⟩ := hpass.rounds
    have hpending : row ∈ w.pendingAlerts M :=
      World.mem_pendingAlerts.mpr ⟨(Table.get_eq_some.mp h.stored).1, h.pending, h.below⟩
    have hloaded : row ∈ rows := hpage.mem_of_ahead_lt hpending (hreach.ahead row h.stored)
    obtain ⟨rule, hrule⟩ := Option.isSome_iff_exists.mp (hreach.rule row h.stored)
    obtain ⟨st, t, record, sent, -, -, hrow', -⟩ := hrounds row hloaded hdue rule hrule
    have hsame' : some row = some (row.afterRound st t) := hsame.stored.symm.trans hrow'
    have hcount : row.deliveryAttempts = row.deliveryAttempts + 1 :=
      congrArg Alert.deliveryAttempts (Option.some.inj hsame')
    omega
  · exact Or.inr hnext

omit [DecidableEq ι] in
theorem Waits.weaken {s s' : Nat} (h : Waits M a P row s' w) (hs : s ≤ s') :
    Waits M a P row s w := by
  refine ⟨h.stored, h.pending, h.below, fun last hlast => ?_⟩
  have hle : ((s * P : Nat) : Int) ≤ ((s' * P : Nat) : Int) :=
    Int.ofNat_le.mpr (Nat.mul_le_mul_right P hs)
  rw [Nat.cast_mul, Nat.cast_mul] at hle
  exact (Int.add_le_add_left hle last).trans (h.waited last hlast)

/-- What an attempt costs. -/
theorem attempt_cost {k : Nat} (hk : k < M) : (M - k) * m = (M - (k + 1)) * m + m := by
  have hsub : M - k = M - (k + 1) + 1 := by omega
  rw [hsub, add_mul, one_mul]

/-- After `n` undisturbed passes the alert is settled, or the passes are paid for: `m` by each
attempt that was used since there were `k`, the others by pauses. -/
def OnSchedule (M m P : Nat) (a : AlertId) (k n : Nat) (w : World ι) : Prop :=
  SettledRow a w ∨ ∃ row s, Waits M a P row s w ∧ s < m ∧
    n + (M - row.deliveryAttempts) * m ≤ (M - k) * m + s

omit [DecidableEq ι] in
/-- A round that was made pays for a whole attempt. -/
theorem onSchedule_round {k n s : Nat} {row' : Alert} (hbelow : row.deliveryAttempts < M)
    (hle : n + (M - row.deliveryAttempts) * m ≤ (M - k) * m + s) (hs : s < m)
    (hwaits : Waits M a P row' 0 w')
    (hnext : row'.deliveryAttempts = row.deliveryAttempts + 1) :
    OnSchedule M m P a k (n + 1) w' := by
  refine Or.inr ⟨row', 0, hwaits, by omega, ?_⟩
  rw [attempt_cost hbelow] at hle
  rw [hnext]
  omega

/-- **A disturbed round** costs nothing. -/
theorem OnSchedule.disturbed {k n : Nat} {w₁ : World ι} (h : OnSchedule M m P a k n w)
    (hpause : Pause a P w w₁) {ls : List Input} {p' : Prog Unit}
    (hrun : Coro.run (World.perform i) ls (retrySchedulerRound M) w₁ = some (p', w')) :
    OnSchedule M m P a k n w' := by
  rcases h with ⟨row, hrow, hsettled⟩ | ⟨row, s, hwaits, hs, hle⟩
  · exact Or.inl (SettledRow.turn ⟨row, hpause.alert.trans hrow, hsettled⟩ hrun)
  · rcases (hwaits.pause hpause).turn hrun with hsettled | hsame | ⟨row', hnext, hcount⟩
    · exact Or.inl hsettled
    · exact Or.inr ⟨row, s, hsame.weaken (Nat.le_succ s), hs, hle⟩
    · obtain hdone | ⟨row'', s', hw, hs', hle'⟩ :=
        onSchedule_round (k := k) hwaits.below hle hs hnext hcount
      · exact Or.inl hdone
      · exact Or.inr ⟨row'', s', hw, hs', by omega⟩

/-- **An undisturbed pass** is paid for by a pause, or by the attempt that it uses. -/
theorem OnSchedule.undisturbed {k n : Nat} {w₁ w₂ : World ι} (hm : 48000000 ≤ m * P)
    (h : OnSchedule M m P a k n w) (hpause : Pause a P w w₁) (hreach : Reachable M a w₁)
    {draws : Draws} {rows : List Alert} (hpass : Pass M i draws rows w₁ w₂ w') :
    OnSchedule M m P a k (n + 1) w' := by
  obtain ⟨ls, p', hrun⟩ := hpass.round
  rcases h with ⟨row, hrow, hsettled⟩ | ⟨row, s, hwaits, hs, hle⟩
  · exact Or.inl (SettledRow.turn ⟨row, hpause.alert.trans hrow, hsettled⟩ hrun)
  · have hpaused := hwaits.pause hpause
    by_cases hlast : s + 1 = m
    · -- the alert has waited long enough
      have hlong : 48000000 ≤ (s + 1) * P := by rw [hlast]; exact hm
      rcases hpaused.pass hlong hreach hpass with hsettled | ⟨row', hnext, hcount⟩
      · exact Or.inl hsettled
      · exact onSchedule_round hwaits.below hle hs hnext hcount
    · rcases hpaused.turn hrun with hsettled | hsame | ⟨row', hnext, hcount⟩
      · exact Or.inl hsettled
      · exact Or.inr ⟨row, s + 1, hsame, by omega, by omega⟩
      · exact onSchedule_round hwaits.below hle hs hnext hcount

theorem OnSchedule.run {k n : Nat} (hm : 48000000 ≤ m * P) (h : OnSchedule M m P a k 0 w)
    (hrun : Scheduled M i a P w n w') : OnSchedule M m P a k n w' := by
  induction hrun with
  | start => exact h
  | disturbed _ hpause hround ih => exact ih.disturbed hpause hround
  | undisturbed _ hpause hreach hpass ih => exact ih.undisturbed hm hpause hreach hpass

/-- **Every pending alert is settled.**  While the scheduler pauses for `P` microseconds
between its rounds, of which any number may fail or be cut off by a crash, an alert below the
attempt limit `M` is delivered or given up after `m` undisturbed passes for each attempt that
is left, where `m` pauses make 48 seconds. -/
theorem settled_within {n : Nat} (hm : 48000000 ≤ m * P) (hstored : w.alerts.get a = some row)
    (hbelow : row.deliveryAttempts < M)
    (hlast : ∀ last, row.lastDeliveryAttempt = some last → last ≤ w.clock)
    (hrun : Scheduled M i a P w n w') (hn : (M - row.deliveryAttempts) * m ≤ n) :
    SettledRow a w' := by
  have hpos : 0 < m := by
    by_contra hzero
    obtain rfl : m = 0 := by omega
    omega
  have hstart : OnSchedule M m P a row.deliveryAttempts 0 w := by
    by_cases hp : row.deliveryStatus = .pending
    · refine Or.inr ⟨row, 0, ⟨hstored, hp, hbelow, fun last hl => ?_⟩, hpos, by omega⟩
      rw [Nat.cast_zero, zero_mul, add_zero]
      exact hlast last hl
    · exact Or.inl ⟨row, hstored, hp⟩
  rcases hstart.run hm hrun with hsettled | ⟨row', s, hwaits, hs, hle⟩
  · exact hsettled
  · -- more passes than attempts and pauses can have paid for
    rw [attempt_cost hwaits.below] at hle
    omega

end Schedule

/-- One alert of the outage, right after its fourth attempt. -/
def lastChance : World Unit :=
  { World.initial sampleRules with
    alerts := Table.empty.insertNew (outageAlert 0)
    clock := seconds 20000 }

theorem settled_lastChance : ∃ w', Scheduled 5 () 0 48000000 lastChance 1 w' ∧
    SettledRow 0 w' := by
  have hpage : IsPage Alert.createdAt 50 ((lastChance.tick 48000000).pendingAlerts 5)
      [outageAlert 0] := by decide
  obtain ⟨w₁, w', hpass, -⟩ := exists_pass (i := ()) Draws.zero hpage
  have hreach : Reachable 5 0 (lastChance.tick 48000000) := by
    refine ⟨fun row hrow => ?_, fun row hrow => ?_⟩
    · obtain rfl := Option.some.inj hrow
      decide
    · obtain rfl := Option.some.inj hrow
      decide
  have hpause : Pause 0 48000000 lastChance (lastChance.tick 48000000) := ⟨rfl, le_refl _⟩
  have hrun : Scheduled 5 () 0 48000000 lastChance 1 w' :=
    .undisturbed .start hpause hreach hpass
  have hstored : lastChance.alerts.get 0 = some (outageAlert 0) := rfl
  have hm : 48000000 ≤ 1 * 48000000 := by decide
  refine ⟨w', hrun, settled_within hm hstored (by decide) (fun last hlast => ?_) hrun (le_refl _)⟩
  obtain rfl := Option.some.inj hlast
  exact le_refl _

end Pulse
