/-
  Pulse.Dispatch.Due
  ──────────────────
  **WHICH DUE ALERTS A PASS REACHES.**

  A pass loads the 50 oldest pending alerts, and only then asks which of them are
  still in backoff.  Alone and on a database that does not fail it makes a round
  for every due alert it loaded; a due alert behind 50 others is not loaded,
  whatever state those are in.

    • `Pass`         — a pass alone, with what it draws for each alert (`Draws`),
    • `undisturbed_turn`   — one iteration of the loop: it does not raise, leaves the
                       other alerts alone, and makes the round of a due alert,
    • `Iterations.rounds`, `Iterations.exists_end` — the loop over what was loaded,
    • `unblocked_iff` — no due alert is blocked exactly if fewer than 50 pending
                       alerts are ahead of each.
-/
import Pulse.Dispatch.Round
import Pulse.Store.Paging

namespace Pulse

open Pulse.Async Pulse.Store

variable {ι : Type} [DecidableEq ι]

/-! ## §1. Draws, due alerts, rounds. -/

/-- What `random.uniform` draws for each alert, should its turn come. -/
structure Draws where
  jitter : Alert → Nat
  le : ∀ row, jitter row ≤ backoffBase row.deliveryAttempts / 2

/-- `last_delivery_attempt` is null, or the backoff has elapsed. -/
def Draws.due (draws : Draws) (now : Time) (row : Alert) : Bool :=
  match row.lastDeliveryAttempt with
  | none => true
  | some last => ¬ now < last + (backoffBase row.deliveryAttempts + draws.jitter row : Nat)

/-- The pending alerts below the attempt limit that are due. -/
def World.dueAlerts (w : World ι) (M : Nat) (draws : Draws) : List Alert :=
  (w.pendingAlerts M).filter (draws.due w.clock)

/-- The channels that a rule has a URL for, in the order they are tried. -/
def Rule.channels (rule : Rule) : List Channel :=
  [Channel.discord, .generic].filter fun ch => isSet (rule.url ch)

/-- The requests of a retry, and the record of it: the configured channels are tried one
after the other until one takes the alert, or a payload cannot be built. -/
structure Tries (rule : Rule) (record : AlertDeliveryAttempt) (sent : List Request) : Prop where
  success : record.succeeded = sent.any fun q => q.reply.ok
  channels : sent.map Request.channel <+: rule.channels
  first : ∀ q ∈ sent.dropLast, q.reply.ok = false
  all : record.error = none →
    sent.map Request.channel = rule.channels ∨ record.succeeded = true

/-- One delivery round was made on an alert stored as `row`, under `rule`. -/
def Rounded (M : Nat) (rule : Rule) (row : Alert) (l l' : Ledger) : Prop :=
  ∃ s t record sent, IsRound M record.succeeded row s t [record] ∧ Tries rule record sent ∧
    l'.row = some (row.afterRound s t) ∧ l'.records = l.records ++ [record] ∧
    l'.requests = l.requests ++ sent ∧ l'.commits = l.commits ++ [row.afterRound s t]

/-- What is due stays due. -/
theorem Draws.due_mono {draws : Draws} {t t' : Time} {row : Alert} (ht : t ≤ t')
    (h : draws.due t row = true) : draws.due t' row = true := by
  unfold Draws.due at h ⊢
  split
  next => rfl
  next last hlast =>
    rw [hlast] at h
    simp only [decide_eq_true_eq, not_lt] at h ⊢
    exact h.trans ht

theorem Draws.due_base {draws : Draws} {now : Time} {row : Alert}
    (h : draws.due now row = true) : ∀ last, row.lastDeliveryAttempt = some last →
      last + backoffBase row.deliveryAttempts ≤ now := by
  intro last hlast
  unfold Draws.due at h
  rw [hlast] at h
  simp only [decide_eq_true_eq, not_lt] at h
  have hbase : (backoffBase row.deliveryAttempts : Int)
      ≤ (backoffBase row.deliveryAttempts + draws.jitter row : Nat) :=
    Int.ofNat_le.mpr (Nat.le_add_right _ _)
  exact (Int.add_le_add_left hbase last).trans h

/-! ## §2. A pass alone. -/

/-- The loop over `rows`, alone on a healthy database: every iteration runs with
the draw of its alert, and an exception ends the loop. -/
inductive Iterations (M : Nat) (i : ι) (draws : Draws) : List Alert → World ι → World ι → Prop
  | done (w : World ι) : Iterations M i draws [] w w
  | next {row : Alert} {rows : List Alert} {ls : List Input} {w w₁ w' : World ι}
      (hls : ∀ inp ∈ ls, inp.Healthy ∧ inp.jitter = draws.jitter row)
      (hrun : Coro.run (World.perform i) ls (retryAlert M row) w = some (.pure (), w₁))
      (hrest : Iterations M i draws rows w₁ w') : Iterations M i draws (row :: rows) w w'
  | stop {row : Alert} {rows : List Alert} {ls : List Input} {w w' : World ι} {e : PyErr}
      (hls : ∀ inp ∈ ls, inp.Healthy ∧ inp.jitter = draws.jitter row)
      (hrun : Coro.run (World.perform i) ls (retryAlert M row) w = some (.raise e, w')) :
      Iterations M i draws (row :: rows) w w'

/-- Opening the session and loading the pending alerts. -/
def loadPending (M : Nat) : Prog (List Alert) := do
  openSession
  selectPending M

/-- A whole pass, from `w` to `w'`: it loads `rows`, which leads to `w₁`, and works on
them. -/
structure Pass (M : Nat) (i : ι) (draws : Draws) (rows : List Alert) (w w₁ w' : World ι) :
    Prop where
  load : ∃ opening query : Input, opening.Healthy ∧ query.Healthy ∧
    Coro.run (World.perform i) [opening, query] (loadPending M) w = some (.pure rows, w₁)
  loop : Iterations M i draws rows w₁ w'

/-- No due alert is blocked: while at most 50 are due, a pass makes a round for each
of them whose rule exists. -/
def Unblocked (M : Nat) (i : ι) (draws : Draws) (w : World ι) : Prop :=
  (w.dueAlerts M draws).length ≤ 50 →
    ∀ rows w₁ w', Pass M i draws rows w w₁ w' →
      ∀ row ∈ w.dueAlerts M draws, ∀ rule, w.rules.get row.ruleId = some rule →
        Rounded M rule row (w.ledger row.id) (w'.ledger row.id)

theorem processPendingAlerts_eq (M : Nat) :
    processPendingAlerts M = loadPending M >>= fun rows => Coro.forEach rows (retryAlert M) := rfl

/-- The iterations are a run of the source's loop. -/
theorem Iterations.run {M : Nat} {i : ι} {draws : Draws} {rows : List Alert} {w w' : World ι}
    (h : Iterations M i draws rows w w') : ∃ ls p', (∀ inp ∈ ls, Input.Healthy inp) ∧
      p'.finished = true ∧
      Coro.run (World.perform i) ls (Coro.forEach rows (retryAlert M)) w = some (p', w') := by
  -- the inputs of the iterations, one after the other
  induction h with
  | done w => exact ⟨[], .pure (), by simp, rfl, rfl⟩
  | @next row rows ls w w₁ w' hls hrun _ ih =>
      obtain ⟨ls', p', hhealthy, hend, hrest⟩ := ih
      refine ⟨ls ++ ls', p', ?_, hend, ?_⟩
      · intro inp hinp
        rcases List.mem_append.mp hinp with hinp | hinp
        · exact (hls inp hinp).1
        · exact hhealthy inp hinp
      · rw [Coro.forEach_cons, Coro.run_bind (World.perform i) hrun]
        exact hrest
  | @stop row rows ls w w' e hls hrun =>
      refine ⟨ls, .raise e, fun inp hinp => (hls inp hinp).1, rfl, ?_⟩
      rw [Coro.forEach_cons]
      exact Coro.run_bind_raise (World.perform i) hrun

/-- **A pass is a run of `processPendingAlerts`.** -/
theorem Pass.run {M : Nat} {i : ι} {draws : Draws} {rows : List Alert} {w w₁ w' : World ι}
    (h : Pass M i draws rows w w₁ w') : ∃ ls p', (∀ inp ∈ ls, Input.Healthy inp) ∧
      p'.finished = true ∧
      Coro.run (World.perform i) ls (processPendingAlerts M) w = some (p', w') := by
  obtain ⟨opening, query, hopening, hquery, hload⟩ := h.load
  obtain ⟨ls, p', hhealthy, hend, hrun⟩ := h.loop.run
  refine ⟨[opening, query] ++ ls, p', ?_, hend, ?_⟩
  · intro inp hinp
    simp only [List.cons_append, List.nil_append, List.mem_cons] at hinp
    rcases hinp with rfl | rfl | hinp
    · exact hopening
    · exact hquery
    · exact hhealthy inp hinp
  · rw [processPendingAlerts_eq, Coro.run_bind (World.perform i) hload]
    exact hrun

/-! ## §3. What does not commit. -/

/-- Session `i` can go on, and nothing that a round is judged by has changed. -/
structure Uncommitted (i : ι) (w w' : World ι) : Prop where
  alerts : w'.alerts = w.alerts
  attempts : w'.attempts = w.attempts
  commits : w'.commits = w.commits
  rules : w'.rules = w.rules
  usable : w'.failed i = false
  clock : w.clock ≤ w'.clock

omit [DecidableEq ι] in
theorem Uncommitted.refl {i : ι} {w : World ι} (h : w.failed i = false) : Uncommitted i w w :=
  ⟨rfl, rfl, rfl, rfl, h, le_refl _⟩

omit [DecidableEq ι] in
theorem Uncommitted.trans {i : ι} {w w' w'' : World ι} (h : Uncommitted i w w')
    (h' : Uncommitted i w' w'') :
    Uncommitted i w w'' :=
  ⟨h'.alerts.trans h.alerts, h'.attempts.trans h.attempts, h'.commits.trans h.commits,
    h'.rules.trans h.rules, h'.usable, h.clock.trans h'.clock⟩

omit [DecidableEq ι] in
theorem uncommitted_tick {i : ι} {w : World ι} (h : w.failed i = false) (n : Nat) :
    Uncommitted i w (w.tick n) :=
  ⟨rfl, rfl, rfl, rfl, h, by simp [World.tick]⟩

/-- The operations of a delivery but its commit. -/
def Op.commitless : Op → Prop
  | .utcnow | .uniform _ | .payload _ _ _ | .post _ _ _ | .selectRule _ => True
  | _ => False

theorem Op.delivers.commitless {loaded : Alert} {o : Op} (h : o.delivers loaded fun _ => False) :
    o.commitless := by
  cases o <;> simp only [Op.delivers] at h <;> simp only [Op.commitless]
  case commitDelivery => exact h.2.2.1

theorem uncommitted_perform {i : ι} {o : Op} {inp : Input} {w w' : World ι} {r : Resp o}
    (ho : o.commitless) (hinp : inp.Healthy) (hw : w.failed i = false)
    (h : World.perform i o inp w = some (r, w')) : Uncommitted i w w' := by
  have htick := uncommitted_tick hw inp.elapsed
  cases o <;> simp only [Op.commitless] at ho
  case utcnow | payload =>
    obtain ⟨-, rfl⟩ := World.answer_inj h
    exact htick
  case uniform hi =>
    simp only [World.perform] at h
    split at h
    next =>
      obtain ⟨-, rfl⟩ := World.answer_inj h
      exact htick
    next => exact absurd h (by simp)
  case post =>
    obtain ⟨-, rfl⟩ := World.answer_inj h
    exact ⟨rfl, rfl, rfl, rfl, hw, htick.clock⟩
  case selectRule alert =>
    have hanswer : some (Except.ok ((w.tick inp.elapsed).rules.get alert.ruleId),
        w.tick inp.elapsed)
        = some (r, w') :=
      (World.statement_healthy (w := w.tick inp.elapsed) hw hinp).symm.trans h
    obtain ⟨-, rfl⟩ := World.answer_inj hanswer
    exact htick

/-! ## §4. One iteration. -/

/-- `p` ends in `Q`, or raises in `E`, when session `i` is alone, the database does not
fail and `random.uniform` draws `jitter`. -/
abbrev solo {α : Type} (i : ι) (jitter : Nat) (Q : α → World ι → Prop) (E : World ι → Prop)
    (p : Prog α) (w : World ι) : Prop :=
  Coro.wp (World.perform i) (fun _ inp _ => inp.Healthy ∧ inp.jitter = jitter) Eq
    (fun _ _ => True) Q (fun _ => E) p w

/-- `p` ends in `Q` and does not raise. -/
abbrev undisturbed {α : Type} (i : ι) (jitter : Nat) (Q : α → World ι → Prop) (p : Prog α)
    (w : World ι) : Prop := solo i jitter Q (fun _ => False) p w

/-- Session `i` has sent `sent` for the alert since `w₀`, and committed nothing. -/
structure HasSent (i : ι) (row : Alert) (w₀ : World ι) (sent : List Request) (w : World ι) :
    Prop where
  quiet : Uncommitted i w₀ w
  requests : (w.ledger row.id).requests = (w₀.ledger row.id).requests ++ sent

section Turn

variable {M : Nat} {i : ι} {jitter : Nat} {row : Alert} {w₀ w : World ι} {sent : List Request}

/-- An operation that neither sends nor commits. -/
theorem HasSent.perform {o : Op} {inp : Input} {w' : World ι} {r : Resp o}
    (h : HasSent i row w₀ sent w) (ho : o.commitless) (hother : ¬ o.touches row.id)
    (hinp : inp.Healthy) (hperf : World.perform i o inp w = some (r, w')) :
    HasSent i row w₀ sent w' where
  quiet := h.quiet.trans (uncommitted_perform ho hinp h.quiet.usable hperf)
  requests := by
    rw [World.perform_ledger hperf hother]
    exact h.requests

theorem undisturbed_utcnow (h : HasSent i row w₀ sent w) :
    undisturbed i jitter (fun now w' => w₀.clock ≤ now ∧ HasSent i row w₀ sent w') utcnow w := by
  rintro s₁ rfl inp r s₂ hok hperf
  have h₂ := h.perform (o := .utcnow) trivial (fun ho => ho) hok.1 hperf
  obtain ⟨rfl, rfl⟩ := World.answer_inj hperf
  exact ⟨trivial, h₂.quiet.clock, h₂⟩

/-- The backoff with the jitter that was drawn. -/
theorem undisturbed_calculateBackoff {attempts : Nat} (h : HasSent i row w₀ sent w) :
    undisturbed i jitter (fun backoff w' => backoff = backoffBase attempts + jitter ∧
        HasSent i row w₀ sent w') (calculateBackoff attempts) w := by
  rintro s₁ rfl inp r s₂ hok hperf
  have h₂ := h.perform (o := .uniform _) trivial (fun ho => ho) hok.1 hperf
  simp only [World.perform] at hperf
  split at hperf
  next =>
    obtain ⟨rfl, -⟩ := World.answer_inj hperf
    exact ⟨trivial, by rw [hok.2], h₂⟩
  next => exact absurd hperf (by simp)

theorem undisturbed_selectRule {alert : Alert} (h : HasSent i row w₀ sent w) :
    undisturbed i jitter (fun rule w' => rule = w₀.rules.get alert.ruleId ∧
      HasSent i row w₀ sent w') (selectRule alert) w := by
  rintro s₁ rfl inp r s₂ hok hperf
  have hquiet := h.quiet.trans
    (uncommitted_perform (o := .selectRule alert) trivial hok.1 h.quiet.usable hperf)
  have hanswer : some (Except.ok ((w.tick inp.elapsed).rules.get alert.ruleId),
      w.tick inp.elapsed) = some (r, s₂) :=
    (World.statement_healthy (w := w.tick inp.elapsed) h.quiet.usable hok.1).symm.trans hperf
  obtain ⟨rfl, rfl⟩ := World.answer_inj hanswer
  exact ⟨trivial, congrArg (·.get alert.ruleId) h.quiet.rules, hquiet, h.requests⟩

/-- A sender that has a URL sends one request, and answers what became of it. -/
theorem solo_sendWebhook {ch : Channel} {alert : Alert} {rule : Rule}
    (hset : isSet (rule.url ch) = true) (hid : alert.id = row.id)
    (h : HasSent i row w₀ sent w) :
    solo i jitter
      (fun b w' => ∃ q, q.channel = ch ∧ q.reply.ok = b ∧ HasSent i row w₀ (sent ++ [q]) w')
      (HasSent i row w₀ sent) (sendWebhook ch alert rule) w := by
  unfold sendWebhook
  rw [if_pos hset]
  refine Coro.wp_bind ?_
  -- the payload
  rintro s₁ rfl inp r s₂ hok hperf
  have h₂ := h.perform (o := .payload ch alert rule) trivial (fun ho => ho) hok.1 hperf
  refine ⟨trivial, ?_⟩
  cases r with
  | error e => exact h₂
  | ok _ =>
      refine Coro.wp_tryCatch (Coro.wp_bind ?_)
      -- the request
      rintro s₃ rfl inp' r' s₄ hok' hperf'
      have hquiet := h₂.quiet.trans
        (uncommitted_perform (o := .post ch alert rule) trivial hok'.1 h₂.quiet.usable hperf')
      obtain ⟨rfl, rfl⟩ := World.answer_inj hperf'
      have h₄ : HasSent i row w₀ (sent ++ [⟨alert.id, ch, inp'.reply⟩])
          { s₂.tick inp'.elapsed with
            requests := s₂.requests ++ [⟨alert.id, ch, inp'.reply⟩] } := by
        refine ⟨hquiet, ?_⟩
        rw [← List.append_assoc, ← h₂.requests]
        simp [World.ledger, World.tick, hid]
      refine ⟨trivial, ?_⟩
      cases hreply : inp'.reply with
      | response c =>
          rw [hreply] at h₄
          show solo i jitter _ _ (raiseForStatus c >>= fun _ => pure true) _
          unfold raiseForStatus
          split
          next hc => exact ⟨⟨alert.id, ch, .response c⟩, rfl, hc, h₄⟩
          next hc =>
            exact ⟨⟨alert.id, ch, .response c⟩, rfl, by simpa [Reply.ok] using hc, h₄⟩
      | error msg | late msg =>
          rw [hreply] at h₄
          exact ⟨_, rfl, rfl, h₄⟩

/-- What the sends of a retry come to. -/
def Sends (rule : Rule) (out : Bool × Option Nat × Option String) (sent : List Request) : Prop :=
  out.1 = (sent.any fun q => q.reply.ok) ∧ sent.map Request.channel <+: rule.channels ∧
    (∀ q ∈ sent.dropLast, q.reply.ok = false) ∧
    (out.2.2 = none → sent.map Request.channel = rule.channels ∨ out.1 = true)

/-- **The sends of a retry**: Discord, then the generic webhook if that failed. -/
theorem undisturbed_retrySend {alert : Alert} {rule : Rule} (hid : alert.id = row.id)
    (h : HasSent i row w₀ [] w) :
    undisturbed i jitter (fun out w' => ∃ sent, HasSent i row w₀ sent w' ∧ Sends rule out sent)
      (retrySend alert rule) w := by
  unfold retrySend
  refine Coro.wp_tryCatch (Coro.wp_bind (Coro.wp_mono (fun success s hs => ?_)
    (fun e s hs => ?_) (?_ : solo i jitter
      (fun success w' => ∃ sent, HasSent i row w₀ sent w' ∧
        success = (sent.any fun q => q.reply.ok) ∧ sent.map Request.channel
          = [Channel.discord].filter fun ch => isSet (rule.url ch))
      (HasSent i row w₀ []) _ w)))
  · obtain ⟨sent, hs, rfl, hdiscord⟩ := hs
    have hprefix : sent.map Request.channel <+: rule.channels := by
      rw [hdiscord]
      exact ⟨[Channel.generic].filter fun ch => isSet (rule.url ch), (List.filter_append ..).symm⟩
    have hshort : sent.dropLast = [] := by
      have hlength := congrArg List.length hdiscord
      rw [List.length_map] at hlength
      have hle := List.length_filter_le (fun ch => isSet (rule.url ch)) [Channel.discord]
      rw [List.length_singleton] at hle
      exact List.eq_nil_of_length_eq_zero (by rw [List.length_dropLast]; omega)
    have hfirst : ∀ q ∈ sent.dropLast, q.reply.ok = false := by simp [hshort]
    refine Coro.wp_bind (Coro.wp_mono (fun success s' hs' => hs') (fun e s' hs' => ?_)
      (?_ : solo i jitter
        (fun success w' => ∃ sent, HasSent i row w₀ sent w' ∧
          Sends rule (success, responseCodeOf success, none) sent)
        (fun w' => (sent.any fun q => q.reply.ok) = false ∧ HasSent i row w₀ sent w') _ s))
    · obtain ⟨hnone, hs'⟩ := hs'
      exact ⟨sent, hs', hnone.symm, hprefix, hfirst, fun he => absurd he (by simp)⟩
    · split
      next hgeneric =>
        rw [Bool.and_eq_true, Bool.not_eq_true'] at hgeneric
        obtain ⟨hnone, hset⟩ := hgeneric
        refine Coro.wp_mono (fun b s' hs' => ?_) (fun _ s' hs' => ⟨hnone, hs'⟩)
          (solo_sendWebhook hset hid hs)
        obtain ⟨q, hch, hq, hs'⟩ := hs'
        have hall : (sent ++ [q]).map Request.channel = rule.channels := by
          rw [List.map_append, hdiscord, List.map_singleton, hch]
          simp [Rule.channels, List.filter_cons, hset]
          split <;> rfl
        refine ⟨sent ++ [q], hs', ?_, hall ▸ List.prefix_refl _, ?_, fun _ => Or.inl hall⟩
        · rw [List.any_append, hnone]
          simp [hq]
        · rw [List.dropLast_concat]
          exact fun q' hq' => by simpa using List.any_eq_false.mp hnone q' hq'
      next hgeneric =>
        -- delivered already, or there is no generic webhook
        refine ⟨sent, hs, rfl, hprefix, hfirst, fun _ => ?_⟩
        by_cases hthrough : (sent.any fun q => q.reply.ok) = true
        · exact Or.inr hthrough
        · rw [Bool.not_eq_true] at hthrough
          have hunset : isSet (rule.url .generic) = false := by
            simpa [hthrough] using hgeneric
          refine Or.inl ?_
          rw [hdiscord]
          simp [Rule.channels, List.filter_cons, hunset]
  · exact ⟨[], hs, rfl, List.nil_prefix, by simp, fun he => absurd he (by simp)⟩
  · split
    next hset =>
      refine Coro.wp_mono (fun b s hs => ?_) (fun _ s hs => hs)
        (solo_sendWebhook hset hid h)
      obtain ⟨q, hch, hq, hs⟩ := hs
      exact ⟨[q], hs, by simp [hq], by simp [hset, hch]⟩
    next hset =>
      rw [Bool.not_eq_true] at hset
      exact ⟨[], h, rfl, by simp [hset]⟩

/-- A commit of attributes of a stored alert goes through. -/
theorem undisturbed_commitDelivery {alert : AlertObj} {records : List AlertDeliveryAttempt}
    (hstored : w₀.alerts.get row.id = some row) (hid : alert.row.id = row.id)
    (hrecords : ∀ r ∈ records, r.alertId = row.id) (h : HasSent i row w₀ sent w) :
    undisturbed i jitter (fun _ w' => w'.failed i = false ∧ w'.ledger row.id
        = ⟨some (alert.flushInto row), (w₀.ledger row.id).records ++ records,
            (w₀.ledger row.id).requests ++ sent,
            (w₀.ledger row.id).commits ++ [alert.flushInto row]⟩)
      (commitDelivery alert records) w := by
  rintro s₁ rfl inp r s₂ hok hperf
  have hget : (w.tick inp.elapsed).alerts.get row.id = some row := by
    show w.alerts.get row.id = some row
    rw [h.quiet.alerts, hstored]
  have hanswer : some ((w.tick inp.elapsed).storeDelivery i alert records) = some (r, s₂) :=
    (World.statement_healthy (w := w.tick inp.elapsed) h.quiet.usable hok.1).symm.trans hperf
  -- the row is there, so the flush matches it and the session stays usable
  obtain ⟨w', hstore, hledger⟩ := World.storeDelivery_self i alert hget hid hrecords
  have hfailed : w'.failed = w.failed := by
    have hfst := congrArg (fun out => out.2.failed) hstore
    rw [World.storeDelivery, hid, hget] at hfst
    exact hfst.symm
  rw [hstore] at hanswer
  obtain ⟨rfl, rfl⟩ := World.answer_inj hanswer
  refine ⟨trivial, ?_, ?_⟩
  · rw [hfailed]
    exact h.quiet.usable
  · rw [hledger, ← h.requests]
    simp only [Ledger.commit, World.ledger, World.tick, h.quiet.attempts, h.quiet.commits]

/-- **A round**, once the rule was found. -/
theorem undisturbed_retryRound {rule : Rule} {now : Time} (hp : row.deliveryStatus = .pending)
    (hM : row.deliveryAttempts < M)
    (hdue : ∀ last, row.lastDeliveryAttempt = some last →
      last + backoffBase row.deliveryAttempts ≤ now)
    (hstored : w₀.alerts.get row.id = some row) (h : HasSent i row w₀ [] w) :
    undisturbed i jitter (fun _ w' => w'.failed i = false ∧
      Rounded M rule row (w₀.ledger row.id) (w'.ledger row.id))
      (retryRound M (AlertObj.ofRow row) rule now) w := by
  -- a clock reading, the requests, another reading, and the commit of the round
  unfold retryRound
  refine Coro.wp_bind (Coro.wp_mono (fun startTime s hs => ?_) (fun _ _ he => he)
    (undisturbed_utcnow h))
  refine Coro.wp_bind (Coro.wp_mono (fun out s hs => ?_) (fun _ _ he => he)
    (undisturbed_retrySend (show _ = row.id from rfl) hs.2))
  obtain ⟨success, responseCode, error⟩ := out
  obtain ⟨sent, hs, hsuccess, hchannels, hfirst, hall⟩ := hs
  refine Coro.wp_bind (Coro.wp_mono (fun endTime s hs => ?_) (fun _ _ he => he)
    (undisturbed_utcnow hs))
  have hrecord : RoundRecords row.id (row.deliveryAttempts + 1) success.toNat
      [updateDeliveryAttempt (createDeliveryAttempt (((AlertObj.ofRow row).setDeliveryAttempts
        (row.deliveryAttempts + 1)).setLastDeliveryAttempt now).row
        (row.deliveryAttempts + 1) startTime) success responseCode
        (latency startTime endTime) error] := roundRecords_single rfl rfl
  dsimp only
  rw [retryOutcome_eq hp now success]
  refine Coro.wp_mono (fun _ s' hs' => ?_) (fun _ _ he => he)
    (undisturbed_commitDelivery hstored rfl (own_singleton rfl) hs.2)
  obtain ⟨husable, hledger⟩ := hs'
  rw [flushInto_afterRound] at hledger
  rw [hledger]
  refine ⟨husable, _, _, _, sent, ?_, ⟨?_, hchannels, hfirst, ?_⟩, rfl, rfl, rfl, rfl⟩
  · rw [succeeded_update]
    exact isRound_retry hp hM hdue hrecord
  · rw [succeeded_update]
    exact hsuccess
  · rw [succeeded_update]
    exact hall

/-- What one iteration leaves, its round apart. -/
theorem undisturbed_retryDue {now : Time} (hp : row.deliveryStatus = .pending)
    (hM : row.deliveryAttempts < M)
    (hdue : ∀ last, row.lastDeliveryAttempt = some last →
      last + backoffBase row.deliveryAttempts ≤ now)
    (hstored : w₀.alerts.get row.id = some row) (h : HasSent i row w₀ [] w) :
    undisturbed i jitter (fun _ w' => w'.failed i = false ∧
      ∀ rule, w₀.rules.get row.ruleId = some rule →
        Rounded M rule row (w₀.ledger row.id) (w'.ledger row.id))
      (retryDue M (AlertObj.ofRow row) now) w := by
  unfold retryDue
  refine Coro.wp_bind (Coro.wp_mono (fun found s hs => ?_) (fun _ _ he => he)
    (undisturbed_selectRule h))
  obtain ⟨hfound, hs⟩ := hs
  have hfound : w₀.rules.get row.ruleId = found := hfound.symm
  cases found with
  | none =>
      -- no round: the alert is marked as failed
      refine Coro.wp_mono (fun _ s' hs' => ⟨hs'.1, fun rule hrule => ?_⟩) (fun _ _ he => he)
        (undisturbed_commitDelivery hstored rfl (by simp) hs)
      rw [hfound] at hrule
      exact absurd hrule (by simp)
  | some rule =>
      refine Coro.wp_mono (fun _ s' hs' => ⟨hs'.1, fun rule' hrule => ?_⟩) (fun _ _ he => he)
        (undisturbed_retryRound hp hM hdue hstored hs)
      obtain rfl := Option.some.inj (hfound.symm.trans hrule)
      exact hs'.2

/-- One iteration ends without an exception, and with a round if the alert is due
and its rule exists. -/
theorem undisturbed_retryAlert {draws : Draws} (hp : row.deliveryStatus = .pending)
    (hM : row.deliveryAttempts < M) (hstored : w.alerts.get row.id = some row)
    (husable : w.failed i = false) :
    undisturbed i (draws.jitter row) (fun _ w' => w'.failed i = false ∧
      (draws.due w.clock row = true → ∀ rule, w.rules.get row.ruleId = some rule →
        Rounded M rule row (w.ledger row.id) (w'.ledger row.id))) (retryAlert M row) w := by
  have hnothing : HasSent i row w [] w := ⟨.refl husable, (List.append_nil _).symm⟩
  unfold retryAlert
  refine Coro.wp_bind (Coro.wp_mono (fun now s hs => ?_) (fun _ _ he => he)
    (undisturbed_utcnow hnothing))
  obtain ⟨hnow, hs⟩ := hs
  split
  next last hlast =>
    refine Coro.wp_bind (Coro.wp_mono (fun backoff s hs => ?_) (fun _ _ he => he)
      (undisturbed_calculateBackoff hs))
    obtain ⟨rfl, hs⟩ := hs
    have hlast : row.lastDeliveryAttempt = some last := hlast
    have hdue : draws.due now row = true ↔ ¬ now < last + (backoffBase row.deliveryAttempts
        + draws.jitter row : Nat) := by
      unfold Draws.due
      rw [hlast, decide_eq_true_eq]
    split
    next hearly =>
      -- `continue`: with this jitter the alert was not due when the pass began either
      refine ⟨hs.quiet.usable, fun hd => ?_⟩
      exact absurd hearly (hdue.mp (Draws.due_mono hnow hd))
    next hlate =>
      exact Coro.wp_mono (fun _ s' hs' => ⟨hs'.1, fun _ => hs'.2⟩) (fun _ _ he => he)
        (undisturbed_retryDue hp hM (Draws.due_base (hdue.mpr hlate)) hstored hs)
  next hlast =>
    -- never tried, so due at once
    exact Coro.wp_mono (fun _ s' hs' => ⟨hs'.1, fun _ => hs'.2⟩) (fun _ _ he => he)
      (undisturbed_retryDue hp hM (due_of_untried hlast now) hstored hs)

/-- What the iteration on `row` makes of the world. -/
structure AfterTurn (M : Nat) (draws : Draws) (i : ι) (row : Alert) (w w' : World ι) : Prop where
  usable : w'.failed i = false
  kept : World.Kept i w w'
  others : ∀ a, row.id ≠ a → w'.ledger a = w.ledger a
  round : draws.due w.clock row = true → ∀ rule, w.rules.get row.ruleId = some rule →
    Rounded M rule row (w.ledger row.id) (w'.ledger row.id)

/-- **One iteration**, run to its end. -/
theorem afterTurn {draws : Draws} {ls : List Input} {p' : Prog Unit} {w' : World ι}
    (hls : ∀ inp ∈ ls, inp.Healthy ∧ inp.jitter = draws.jitter row)
    (hrun : Coro.run (World.perform i) ls (retryAlert M row) w = some (p', w'))
    (hend : p'.finished = true) (hp : row.deliveryStatus = .pending)
    (hM : row.deliveryAttempts < M) (hstored : w.alerts.get row.id = some row)
    (husable : w.failed i = false) : p' = .pure () ∧ AfterTurn M draws i row w w' := by
  have hframe : Coro.wp (World.perform i)
      (fun _ inp _ => inp.Healthy ∧ inp.jitter = draws.jitter row) Eq (fun _ _ => True)
      (fun _ w' => True ∧ World.Kept i w w' ∧ ∀ a, row.id ≠ a → w'.ledger a = w.ledger a)
      (fun _ w' => World.Kept i w w' ∧ ∀ a, row.id ≠ a → w'.ledger a = w.ledger a)
      (retryAlert M row) w := by
    refine Coro.wp_of_uses (fun s s' hs hI => hs ▸ hI) ?_ uses_retryAlert
      ⟨.refl i w, fun _ _ => rfl⟩
    intro o inp s r s' ho _ hperf hI
    exact ⟨trivial, hI.1.trans (World.perform_kept hperf),
      fun a ha => (World.perform_ledger hperf (ho.aloof ha)).trans (hI.2 a ha)⟩
  -- the round from what the iteration does, the rest from what it cannot touch
  have hspec := Coro.wp_run (fun inp hinp _ _ => hls inp hinp)
    (Coro.wp_and (undisturbed_retryAlert hp hM hstored husable) hframe) hrun
  cases p' with
  | pure a =>
      obtain ⟨⟨husable', hround⟩, -, hkept, hothers⟩ := hspec
      exact ⟨rfl, husable', hkept, hothers, hround⟩
  | raise e => exact hspec.1.elim
  | await o k => exact absurd hend (by simp [Coro.finished])

end Turn

/-! ## §5. The loop. -/

section Loop

variable {M : Nat} {i : ι} {draws : Draws} {rows : List Alert} {w w' : World ι}

/-- What a pass has in hand: pending alerts as they are stored, and a session that
can go on. -/
structure Loaded (M : Nat) (i : ι) (rows : List Alert) (w : World ι) : Prop where
  nodup : (rows.map Alert.id).Nodup
  pending : ∀ row ∈ rows, row.deliveryStatus = .pending ∧ row.deliveryAttempts < M
  stored : ∀ row ∈ rows, w.alerts.get row.id = some row
  usable : w.failed i = false

omit [DecidableEq ι] in
/-- The rows behind the first are other alerts. -/
theorem Loaded.apart {row : Alert} (h : Loaded M i (row :: rows) w) :
    row.id ∉ rows.map Alert.id := by
  have hnodup := h.nodup
  rw [List.map_cons, List.nodup_cons] at hnodup
  exact hnodup.1

omit [DecidableEq ι] in
theorem Loaded.turn {row : Alert} (h : Loaded M i (row :: rows) w)
    (hturn : AfterTurn M draws i row w w') : Loaded M i rows w' where
  nodup := by
    have hnodup := h.nodup
    rw [List.map_cons, List.nodup_cons] at hnodup
    exact hnodup.2
  pending := fun r hr => h.pending r (List.mem_cons_of_mem _ hr)
  stored := by
    intro r hr
    have hne : row.id ≠ r.id := fun hid => h.apart (hid ▸ List.mem_map_of_mem hr)
    show (w'.ledger r.id).row = some r
    rw [hturn.others r.id hne]
    exact h.stored r (List.mem_cons_of_mem _ hr)
  usable := hturn.usable

/-- An iteration over the first of the rows that are loaded. -/
theorem Loaded.afterTurn {row : Alert} (h : Loaded M i (row :: rows) w) {ls : List Input}
    {p' : Prog Unit} (hls : ∀ inp ∈ ls, inp.Healthy ∧ inp.jitter = draws.jitter row)
    (hrun : Coro.run (World.perform i) ls (retryAlert M row) w = some (p', w'))
    (hend : p'.finished = true) : p' = .pure () ∧ AfterTurn M draws i row w w' :=
  Pulse.afterTurn hls hrun hend (h.pending row List.mem_cons_self).1
    (h.pending row List.mem_cons_self).2 (h.stored row List.mem_cons_self) h.usable

/-- The loop leaves alone what it did not load. -/
theorem Iterations.untouched (h : Iterations M i draws rows w w') (hl : Loaded M i rows w)
    {a : AlertId} (ha : a ∉ rows.map Alert.id) : w'.ledger a = w.ledger a := by
  induction h with
  | done w => rfl
  | next hls hrun _ ih =>
      rw [List.map_cons, List.mem_cons, not_or] at ha
      have hturn := (hl.afterTurn hls hrun rfl).2
      rw [ih (hl.turn hturn) ha.2, hturn.others a (Ne.symm ha.1)]
  | stop hls hrun => exact absurd (hl.afterTurn hls hrun rfl).1 (by simp)

/-- **The loop makes a round for every due alert it loaded** whose rule exists. -/
theorem Iterations.rounds (h : Iterations M i draws rows w w') (hl : Loaded M i rows w) :
    ∀ row ∈ rows, draws.due w.clock row = true → ∀ rule, w.rules.get row.ruleId = some rule →
      Rounded M rule row (w.ledger row.id) (w'.ledger row.id) := by
  induction h with
  | done w => exact fun row hrow => absurd hrow (by simp)
  | @next first rows ls w w₁ w' hls hrun hrest ih =>
      have hturn := (hl.afterTurn hls hrun rfl).2
      have hl' := hl.turn hturn
      intro row hrow hdue rule hrule
      rcases List.mem_cons.mp hrow with rfl | hrow
      · -- its own turn, and the later ones leave it alone
        rw [hrest.untouched hl' hl.apart]
        exact hturn.round hdue rule hrule
      · have hne : first.id ≠ row.id := fun hid => hl.apart (hid ▸ List.mem_map_of_mem hrow)
        rw [← hturn.others row.id hne]
        refine ih hl' row hrow (Draws.due_mono hturn.kept.clock hdue) rule ?_
        rw [hturn.kept.rules]
        exact hrule
  | stop hls hrun => exact absurd (hl.afterTurn hls hrun rfl).1 (by simp)

/-! ## §6. Every pass comes to its end. -/

/-- The operations of a retry that are answered in every state when
`random.uniform` draws `jitter`. -/
def Op.answered (jitter : Nat) : Op → Prop
  | .utcnow | .payload _ _ _ | .post _ _ _ | .selectRule _ | .commitDelivery _ _ => True
  | .uniform hi => jitter ≤ hi
  | _ => False

theorem perform_answered {jitter : Nat} {o : Op} (ho : o.answered jitter) (w : World ι) :
    (World.perform i o { jitter := jitter } w).isSome := by
  have hstatement : ∀ {α : Type} (w : World ι) (site : Site) (body : Except PyErr α × World ι),
      (w.statement i site { jitter := jitter } (some body)).isSome := by
    intro α w site body
    unfold World.statement
    split <;> rfl
  cases o <;> simp only [Op.answered] at ho
  case utcnow | payload | post => rfl
  case uniform hi => simp [World.perform, ho]
  case selectRule => exact hstatement _ .ruleQuery _
  case commitDelivery => exact hstatement _ .deliveryCommit _

theorem answered_sendWebhook {jitter : Nat} (ch : Channel) (alert : Alert) (rule : Rule) :
    (sendWebhook ch alert rule).Uses (Op.answered jitter) (fun _ => True) := by
  unfold sendWebhook
  split
  next =>
    refine Coro.Uses.bind (ρ := fun _ => True) ⟨trivial, fun _ => .ofExcept _⟩ fun _ _ => ?_
    refine Coro.Uses.tryCatch ?_ fun _ => trivial
    refine Coro.Uses.bind (ρ := fun _ => True) ⟨trivial, ?_⟩ fun c _ => ?_
    · intro r
      cases r <;> trivial
    · unfold raiseForStatus
      split <;> trivial
  next => trivial

theorem answered_retrySend {jitter : Nat} (alert : Alert) (rule : Rule) :
    (retrySend alert rule).Uses (Op.answered jitter) (fun _ => True) := by
  unfold retrySend
  refine Coro.Uses.tryCatch ?_ fun _ => trivial
  refine Coro.Uses.bind (ρ := fun _ => True) ?_ fun _ _ => ?_
  · split
    next => exact answered_sendWebhook _ alert rule
    next => trivial
  · refine Coro.Uses.bind (ρ := fun _ => True) ?_ fun _ _ => trivial
    split
    next => exact answered_sendWebhook _ alert rule
    next => trivial

theorem answered_retryDue {jitter : Nat} (alert : AlertObj) (now : Time) :
    (retryDue M alert now).Uses (Op.answered jitter) (fun _ => True) := by
  unfold retryDue
  refine Coro.Uses.bind (ρ := fun _ => True) ⟨trivial, fun _ => .ofExcept _⟩ fun rule _ => ?_
  split
  next => exact ⟨trivial, fun _ => .ofExcept _⟩
  next rule =>
    unfold retryRound
    refine Coro.Uses.bind (ρ := fun _ => True) ⟨trivial, fun _ => trivial⟩ fun _ _ => ?_
    refine Coro.Uses.bind (answered_retrySend _ rule) fun _ _ => ?_
    refine Coro.Uses.bind (ρ := fun _ => True) ⟨trivial, fun _ => trivial⟩ fun _ _ => ?_
    exact ⟨trivial, fun _ => .ofExcept _⟩

/-- An iteration draws at most half of the base. -/
theorem answered_retryAlert (draws : Draws) (row : Alert) :
    (retryAlert M row).Uses (Op.answered (draws.jitter row)) (fun _ => True) := by
  unfold retryAlert
  refine Coro.Uses.bind (ρ := fun _ => True) ⟨trivial, fun _ => trivial⟩ fun now _ => ?_
  split
  next last _ =>
    refine Coro.Uses.bind (ρ := fun _ => True) ⟨draws.le row, fun _ => trivial⟩ fun backoff _ => ?_
    split
    next => trivial
    next => exact answered_retryDue _ now
  next => exact answered_retryDue _ now

/-- **The loop comes to its end**, whatever it loaded. -/
theorem Iterations.exists_end (draws : Draws) (hl : Loaded M i rows w) :
    ∃ w', Iterations M i draws rows w w' := by
  induction rows generalizing w with
  | nil => exact ⟨w, .done w⟩
  | cons row rows ih =>
      obtain ⟨n, p', w₁, hend, hrun⟩ := Coro.run_completes_of_uses (World.perform i)
        (fun o s ho => perform_answered (i := i) ho s) (answered_retryAlert (M := M) draws row) w
      have hls : ∀ inp ∈ List.replicate n ({ jitter := draws.jitter row } : Input),
          inp.Healthy ∧ inp.jitter = draws.jitter row := by
        intro inp hinp
        obtain rfl := List.eq_of_mem_replicate hinp
        exact ⟨rfl, rfl⟩
      obtain ⟨rfl, hturn⟩ := hl.afterTurn hls hrun hend
      obtain ⟨w', hrest⟩ := ih (hl.turn hturn)
      exact ⟨w', .next hls hrun hrest⟩

end Loop

/-! ## §7. A pass. -/

section Pass

variable {M : Nat} {i : ι} {draws : Draws} {rows : List Alert} {w w₁ w' : World ι}

/-- The session of a pass, freshly opened. -/
theorem usable_abort (w : World ι) : (w.abort i).failed i = false := by simp [World.abort]

/-- What opening the session and loading the pending alerts come to. -/
theorem loadPending_run {opening query : Input} (hquery : query.Healthy) :
    Coro.run (World.perform i) [opening, query] (loadPending M) w = some (.pure rows, w₁) ↔
      (rows = query.rows ∧ IsPage Alert.createdAt 50 (w.pendingAlerts M) rows ∧
        w₁ = ((w.tick opening.elapsed).abort i).tick query.elapsed) := by
  have hanswer : World.perform i (.selectPending M) query ((w.tick opening.elapsed).abort i) =
      if IsPage Alert.createdAt 50 (w.pendingAlerts M) query.rows then
        some (.ok query.rows, ((w.tick opening.elapsed).abort i).tick query.elapsed)
      else none :=
    World.statement_healthy (w := ((w.tick opening.elapsed).abort i).tick query.elapsed)
      (usable_abort _) hquery
  have hopen : Coro.run (World.perform i) [opening, query] (loadPending M) w
      = Coro.run (World.perform i) [query] (selectPending M)
        ((w.tick opening.elapsed).abort i) := rfl
  have hselect : Coro.run (World.perform i) [query] (selectPending M)
        ((w.tick opening.elapsed).abort i)
      = (World.perform i (.selectPending M) query ((w.tick opening.elapsed).abort i)).bind
          fun out => some (.ofExcept out.1, out.2) := Coro.run_await (World.perform i)
  -- only a page of the pending alerts is an answer
  rw [hopen, hselect, hanswer]
  by_cases hpage : IsPage Alert.createdAt 50 (w.pendingAlerts M) query.rows
  · rw [if_pos hpage]
    show some (Coro.pure query.rows, _) = some (Coro.pure rows, w₁) ↔ _
    rw [Option.some.injEq, Prod.mk.injEq, Coro.pure.injEq]
    constructor
    · rintro ⟨rfl, rfl⟩
      exact ⟨rfl, hpage, rfl⟩
    · rintro ⟨rfl, -, rfl⟩
      exact ⟨rfl, rfl⟩
  · rw [if_neg hpage]
    constructor
    · intro h
      exact absurd h (by simp)
    · rintro ⟨rfl, hpage', -⟩
      exact absurd hpage' hpage

/-- A page that was loaded is in hand. -/
theorem loaded_of_isPage {n m : Nat} (h : IsPage Alert.createdAt 50 (w.pendingAlerts M) rows) :
    Loaded M i rows (((w.tick n).abort i).tick m) where
  nodup := h.nodup_map (World.pendingAlerts_nodup w M)
  pending := fun _ hrow => (World.stored_of_page h hrow).2
  stored := fun _ hrow => (World.stored_of_page h hrow).1
  usable := usable_abort _

/-- **A pass over a page that holds a due alert** makes its round. -/
theorem Pass.rounds (h : Pass M i draws rows w w₁ w') :
    IsPage Alert.createdAt 50 (w.pendingAlerts M) rows ∧
      ∀ row ∈ rows, draws.due w.clock row = true →
        ∀ rule, w.rules.get row.ruleId = some rule →
          Rounded M rule row (w.ledger row.id) (w'.ledger row.id) := by
  obtain ⟨opening, query, -, hquery, hrun⟩ := h.load
  obtain ⟨-, hpage, rfl⟩ := (loadPending_run hquery).mp hrun
  refine ⟨hpage, fun row hrow hdue rule hrule => ?_⟩
  have hclock : w.clock ≤ (((w.tick opening.elapsed).abort i).tick query.elapsed).clock :=
    (World.kept_tick i w opening.elapsed).clock.trans (World.kept_tick i _ query.elapsed).clock
  exact h.loop.rounds (loaded_of_isPage hpage) row hrow (Draws.due_mono hclock hdue) rule hrule

/-- **A pass over any page** comes to its end and leaves alone what is not on it. -/
theorem exists_pass (draws : Draws) (hpage : IsPage Alert.createdAt 50 (w.pendingAlerts M) rows) :
    ∃ w₁ w', Pass M i draws rows w w₁ w' ∧
      ∀ a, a ∉ rows.map Alert.id → w'.ledger a = w.ledger a := by
  have hloaded : Loaded M i rows (((w.tick 0).abort i).tick 0) := loaded_of_isPage hpage
  obtain ⟨w', hloop⟩ := Iterations.exists_end draws hloaded
  refine ⟨_, w', ⟨⟨{}, { rows := rows }, rfl, rfl, ?_⟩, hloop⟩, fun a ha => ?_⟩
  · have hquery : Input.Healthy { rows := rows } := rfl
    exact (loadPending_run hquery).mpr ⟨rfl, hpage, rfl⟩
  · rw [hloop.untouched hloaded ha]
    rfl

/-! ## §8. Blocked alerts. -/

omit [DecidableEq ι] in
theorem mem_dueAlerts {row : Alert} : row ∈ w.dueAlerts M draws ↔
    row ∈ w.pendingAlerts M ∧ draws.due w.clock row = true := by
  unfold World.dueAlerts
  rw [List.mem_filter]

/-- A round leaves a record. -/
theorem not_rounded_self (rule : Rule) (row : Alert) (l : Ledger) :
    ¬ Rounded M rule row l l := by
  rintro ⟨s, t, record, sent, -, -, -, hrecords, -⟩
  have hlength := congrArg List.length hrecords
  rw [List.length_append, List.length_singleton] at hlength
  omega

/-- **A due alert surely gets its round** exactly if fewer than 50 pending alerts are
ahead of it. -/
theorem always_rounded_iff {row : Alert} {rule : Rule} (hrow : row ∈ w.dueAlerts M draws)
    (hrule : w.rules.get row.ruleId = some rule) :
    (∀ rows w₁ w', Pass M i draws rows w w₁ w' →
        Rounded M rule row (w.ledger row.id) (w'.ledger row.id)) ↔
      ahead Alert.createdAt row (w.pendingAlerts M) < 50 := by
  obtain ⟨hpending, hdue⟩ := mem_dueAlerts.mp hrow
  have hids := World.pendingAlerts_nodup w M
  rw [← mem_every_page_iff hids.of_map hpending]
  constructor
  · intro hall page hpage
    by_contra hout
    obtain ⟨w₁, w', hpass, huntouched⟩ := exists_pass (i := i) draws hpage
    have hid : row.id ∉ page.map Alert.id := by
      intro hmem
      obtain ⟨other, hother, heq⟩ := List.mem_map.mp hmem
      exact hout (List.inj_on_of_nodup_map hids (hpage.mem hother) hpending heq ▸ hother)
    -- a pass over this page leaves the alert as it was
    have hround := hall page w₁ w' hpass
    rw [huntouched row.id hid] at hround
    exact not_rounded_self rule row _ hround
  · intro hall rows w₁ w' hpass
    obtain ⟨hpage, hrounds⟩ := hpass.rounds
    exact hrounds row (hall rows hpage) hdue rule hrule

end Pass

/-- **No due alert is blocked** exactly if, while at most 50 are due, each of them
whose rule exists has fewer than 50 pending alerts ahead of it, due or not. -/
theorem unblocked_iff (M : Nat) (i : ι) (draws : Draws) (w : World ι) :
    Unblocked M i draws w ↔ ((w.dueAlerts M draws).length ≤ 50 →
      ∀ row ∈ w.dueAlerts M draws, (w.rules.get row.ruleId).isSome →
        ahead Alert.createdAt row (w.pendingAlerts M) < 50) := by
  constructor
  · intro h hfew row hrow hsome
    obtain ⟨rule, hrule⟩ := Option.isSome_iff_exists.mp hsome
    exact (always_rounded_iff hrow hrule).mp
      fun rows w₁ w' hpass => h hfew rows w₁ w' hpass row hrow rule hrule
  · intro h hfew rows w₁ w' hpass row hrow rule hrule
    exact (always_rounded_iff hrow hrule).mpr
      (h hfew row hrow (Option.isSome_iff_exists.mpr ⟨rule, hrule⟩)) rows w₁ w' hpass

/-! ### After an outage. -/

/-- The alerts of an outage, one for each bar: number 50 was tried once, those before it
four times. -/
def outageAlert (k : Nat) : Alert where
  id := k
  ruleId := 1
  symbol := "BTC"
  ruleType := .priceThreshold
  triggeredAt := 0
  triggerValue := 1
  windowStart := seconds (300 * k)
  windowEnd := seconds (300 * (k + 1))
  deliveryStatus := .pending
  deliveryAttempts := if k = 50 then 1 else 4
  lastDeliveryAttempt := some (seconds 20000)
  createdAt := seconds (300 * (k + 1))

/-- Five seconds after their last attempts. -/
def outage : World Unit :=
  { World.initial sampleRules with
    alerts := ⟨(List.range 51).map outageAlert, by
      rw [List.map_map, show Alert.id ∘ outageAlert = id from rfl, List.map_id]
      exact List.nodup_range⟩
    clock := seconds 20005 }

/-- No jitter at all. -/
def Draws.zero : Draws := ⟨fun _ => 0, fun _ => Nat.zero_le _⟩

/-- Alert 50 alone is due, and the 50 older ones keep it from being loaded. -/
theorem blocked_after_outage : ¬ Unblocked 5 () .zero outage := by
  intro h
  have hdue : outage.dueAlerts 5 .zero = [outageAlert 50] := by decide +kernel
  have hahead : ahead Alert.createdAt (outageAlert 50) (outage.pendingAlerts 5) = 50 := by
    decide +kernel
  have hmem : outageAlert 50 ∈ outage.dueAlerts 5 .zero := by
    rw [hdue]
    exact List.mem_singleton_self _
  have hrule : outage.rules.get (outageAlert 50).ruleId = some sampleRule := rfl
  have hfew : (outage.dueAlerts 5 .zero).length ≤ 50 := by
    rw [hdue]
    decide
  have hlt := (always_rounded_iff (i := ()) hmem hrule).mp
    fun rows w₁ w' hpass => h hfew rows w₁ w' hpass _ hmem _ hrule
  omega

end Pulse
