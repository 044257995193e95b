/-
  Pulse.Dispatch.Paths
  ────────────────────
  **BOTH DELIVERY PATHS KEEP TO THE COURSE OF THEIR ALERT.**

  The two paths walked once more, now with the requests of the round in view:
  what a sender answers is what its request was answered, a round is committed
  with the status its path gives it, and the records say what was sent.

    • `steady_sendWebhook`, `steady_retrySend` — the requests of a round,
    • `steady_dispatch`, `steady_deliver`      — the first delivery,
    • `steady_retryAlert`, `steady_pass`       — the passes.
-/
import Pulse.Dispatch.Round
import Pulse.Dispatch.Watched

namespace Pulse

open Pulse.Async Pulse.Store

variable {ι : Type} [DecidableEq ι] {M : Nat} {T : Terms} {i : ι} {a : AlertId}
  {retrying : Bool} {row : Alert} {round : List Request} {s : Watched ι}

/-! ## §1. The operations. -/

theorem steady_utcnow {E : Watched ι → Prop} (h : Trying i a row round s) :
    steady M T i a retrying (fun _ => Trying i a row round) E utcnow s := by
  intro s₁ hk inp r s₂ _ hperf
  obtain ⟨-, hw⟩ := World.answer_inj (Watched.perform_cases hperf).1
  have h₁ := (h.stays hk).stays (stays_of_untouched hperf (fun ho => ho) (by rw [← hw]; rfl))
  exact ⟨step_of_untouched hperf (fun ho => ho), h₁⟩

theorem steady_payload {ch : Channel} {alert : Alert} {rule : Rule} (halert : alert.id = a)
    (h : Trying i a row round s) :
    steady M T i a retrying (fun _ => Trying i a row round)
      (fun s' => ¬ T.intact ∧ Trying i a row round s') (payload ch alert rule) s := by
  intro s₁ hk inp r s₂ hok hperf
  obtain ⟨hr, hw⟩ := World.answer_inj (Watched.perform_cases hperf).1
  have h₁ := (h.stays hk).stays (stays_of_untouched hperf (fun ho => ho) (by rw [← hw]; rfl))
  refine ⟨step_of_untouched hperf (fun ho => ho), ?_⟩
  rw [← hr]
  split
  next e he =>
    refine ⟨fun hint => ?_, h₁⟩
    have hnone : inp.broken = none := hok.2 hint halert
    exact absurd (he.symm.trans hnone) (by simp)
  next => exact h₁

/-- A request joins the round in progress. -/
theorem steady_post {ch : Channel} {alert : Alert} {rule : Rule} {p : Path}
    (halert : alert.id = a) (hp : row.deliveryStatus = .pending)
    (htakes : p.takes M row.deliveryAttempts) (hround : ∀ q ∈ round, q.reply.ok = false)
    (h : Trying i a row round s) :
    steady M T i a retrying
      (fun c s' => ∃ q, q.reply.ok = isSuccess c ∧ Trying i a row (round ++ [q]) s')
      (fun s' => ∃ q, q.reply.ok = false ∧ Trying i a row (round ++ [q]) s')
      (post ch alert rule) s := by
  subst halert
  intro s₁ hk inp r s₂ hok hperf
  obtain ⟨hperf, hs₂⟩ := Watched.perform_cases hperf
  obtain ⟨hr, hw⟩ := World.answer_inj hperf
  have h₁ := h.stays hk
  -- no request of the round was answered with success yet, so this one is allowed
  have hnone : (s₁.course i alert.id).sent = false := by
    simp only [Course.sent, Watched.course, h₁.round, List.any_eq_false]
    intro q hq
    simpa using hround q hq
  have hcourse : s₂.course i alert.id
      = (s₁.course i alert.id).post ⟨alert.id, ch, inp.reply⟩ := by
    simp only [Watched.course, hs₂, Record.after, Record.put_self, Course.post,
      Function.update_self]
    rw [← hw]
    simp only [World.ledger, Ledger.post, World.tick, List.filter_append,
      List.filter_singleton, decide_true, cond_true, Course.mk.injEq, true_and, and_true]
    exact if_congr Iff.rfl rfl rfl
  have h₂ : Trying i alert.id row (round ++ [⟨alert.id, ch, inp.reply⟩]) s₂ := by
    refine ⟨?_, ?_, ?_, ?_, ?_⟩
    · rw [← hw]
      exact h₁.stored
    · rw [← hw]
      exact h₁.rule
    · exact (congrArg Course.round hcourse).trans (by rw [← h₁.round]; rfl)
    · exact (congrArg Course.opened hcourse).trans h₁.opened
    · rw [← hw]
      exact h₁.usable
  refine ⟨?_, ?_⟩
  · show Course.Step M T (s₁.course i alert.id) (s₂.course i alert.id)
    rw [hcourse]
    exact .post _ h₁.stored hp htakes h₁.opened hnone (hok.2 rfl)
  · cases hrep : inp.reply with
    | response c =>
        rw [hrep] at hr h₂
        subst hr
        exact ⟨_, rfl, h₂⟩
    | error msg | late msg =>
        rw [hrep] at hr h₂
        subst hr
        exact ⟨_, rfl, h₂⟩

/-- **A round begins**: the rule of the alert is found, with a URL if a retry supposes
one. -/
theorem steady_selectRule {p : Path} (hp : row.deliveryStatus = .pending)
    (htakes : p.takes M row.deliveryAttempts) (h : Waiting i a row s) :
    steady M T i a retrying
      (fun found s' => ∃ rule, found = some rule ∧ Trying i a row [] s' ∧
        (T.linked → retrying = true → rule.hasUrl = true))
      (Rested i a) (selectRule row) s := by
  intro s₁ hk inp r s₂ hok hperf
  have h₁ := h.stays hk
  obtain rfl : row.id = a := Table.get_key h₁.stored
  obtain ⟨hperf, hs₂⟩ := Watched.perform_cases hperf
  obtain ⟨-, hw, e, rfl⟩ | ⟨-, -, e, he, -⟩ | ⟨hf, -, hb⟩ := World.statement_cases hperf
  · -- a session in a failed transaction learns it here
    have hsame : s₂.course i row.id = s₁.course i row.id := by
      simp only [Watched.course, hs₂, Record.after, hw]
      rfl
    refine ⟨?_, h₁.rested.of_course hsame⟩
    show Course.Step M T (s₁.course i row.id) (s₂.course i row.id)
    rw [hsame]
    exact .stay
  · exact absurd (hok.1.symm.trans he) (by simp)
  · obtain ⟨rfl, hw⟩ := World.answer_inj hb
    obtain ⟨rule, hrule⟩ := Option.isSome_iff_exists.mp h₁.rule
    have hfound : (s₁.world.tick inp.elapsed).rules.get row.ruleId = some rule := hrule
    rw [hfound] at hs₂ ⊢
    have hcourse : s₂.course i row.id = (s₁.course i row.id).start := by
      simp only [Watched.course, hs₂, Record.after, Record.put_self, Function.update_self,
        Course.start]
      rw [← hw]
      rfl
    refine ⟨?_, rule, rfl, ⟨?_, ?_, ?_, ?_, ?_⟩, fun hl hr => ?_⟩
    · show Course.Step M T (s₁.course i row.id) (s₂.course i row.id)
      rw [hcourse]
      exact .start h₁.stored hp htakes h₁.closed h₁.round
    · rw [← hw]
      exact h₁.stored
    · rw [← hw]
      exact h₁.rule
    · exact (congrArg Course.round hcourse).trans h₁.round
    · exact congrArg Course.opened hcourse
    · rw [← hw]
      exact hf
    · exact hok.2 hl hr row h₁.stored rfl rule hrule

/-- The row that a refresh loads is the stored one. -/
theorem steady_refreshAlert (h : Waiting i a row s) :
    steady M T i a retrying (fun r s' => r = row ∧ Waiting i a row s') (Rested i a)
      (refreshAlert a) s := by
  intro s₁ hk inp r s₂ hok hperf
  have h₁ := h.stays hk
  have hrest : Rested i a s₂ :=
    h₁.rested.of_course ((Watched.perform_course (a := a) hperf (fun ho => ho)).2 i)
  refine ⟨step_of_untouched hperf (fun ho => ho), ?_⟩
  obtain ⟨-, -, e, rfl⟩ | ⟨-, -, e, he, -⟩ | ⟨hf, -, hb⟩ :=
    World.statement_cases (Watched.perform_cases hperf).1
  · exact hrest
  · exact absurd (hok.1.symm.trans he) (by simp)
  · obtain ⟨rfl, hw⟩ := World.answer_inj hb
    have hget : (s₁.world.tick inp.elapsed).alerts.get a = some row := h₁.stored
    rw [hget]
    refine ⟨rfl, ?_, ?_, hrest.round, hrest.closed⟩
    · rw [← hw]
      exact h₁.stored
    · rw [← hw]
      exact h₁.rule

/-- Jitter is added to the backoff, never taken off. -/
theorem steady_calculateBackoff {attempts : Nat} (h : Waiting i a row s) :
    steady M T i a retrying (fun b s' => backoffBase attempts ≤ b ∧ Waiting i a row s')
      (fun _ => False) (calculateBackoff attempts) s := by
  intro s₁ hk inp r s₂ _ hperf
  have hstays : s₂.world.failed i = s₁.world.failed i → Stays i a s₁ s₂ :=
    stays_of_untouched hperf (fun ho => ho)
  refine ⟨step_of_untouched hperf (fun ho => ho), Nat.le_add_right _ _, ?_⟩
  obtain ⟨hperf, -⟩ := Watched.perform_cases hperf
  simp only [World.perform] at hperf
  split at hperf
  next =>
    obtain ⟨-, hw⟩ := World.answer_inj hperf
    exact (h.stays hk).stays (hstays (by rw [← hw]; rfl))
  next => exact absurd hperf (by simp)

/-- **The commit of a round.** -/
theorem steady_commitDelivery {p : Path} {t : Time} {st : DeliveryStatus} {sent : Bool}
    {records : List AlertDeliveryAttempt} {E : Watched ι → Prop}
    (htakes : p.takes M row.deliveryAttempts)
    (hsent : sent = round.any fun q => q.reply.ok)
    (hst : st = p.outcome M row.deliveryAttempts sent)
    (hround : IsRound (max M 1) sent row (p.outcome M row.deliveryAttempts sent) t records)
    (hrec : T.intact → p.writes round records)
    (hurl : T.intact → T.linked → p = .retry → round ≠ [])
    (hids : ∀ r ∈ records, r.alertId = a) (h : Trying i a row round s) :
    steady M T i a retrying (fun _ => Rested i a) E
      (commitDelivery ⟨row, row.afterRound st t⟩ records) s := by
  intro s₁ hk inp r s₂ hok hperf
  have h₁ := h.stays hk
  obtain ⟨hperf, hs₂⟩ := Watched.perform_cases hperf
  have hid : row.id = a := Table.get_key h₁.stored
  obtain ⟨w', hstore, hledger⟩ := World.storeDelivery_self (w := s₁.world.tick inp.elapsed) i
    ⟨row, row.afterRound st t⟩ h₁.stored hid hids
  rw [flushInto_afterRound] at hledger
  have hb : some ((s₁.world.tick inp.elapsed).storeDelivery i ⟨row, row.afterRound st t⟩
      records) = some (r, s₂.world) :=
    (World.statement_healthy (w := s₁.world.tick inp.elapsed) h₁.usable hok.1).symm.trans
      hperf
  rw [hstore] at hb
  obtain ⟨rfl, hw⟩ := World.answer_inj hb
  -- the round in progress ends, and its requests are judged with the commit
  have hcourse : s₂.course i a
      = (s₁.course i a).commit (row.afterRound st t) records := by
    subst hid
    simp only [Watched.course, hs₂, Record.after, Alert.afterRound, Record.put_self,
      Course.commit]
    rw [← hw, hledger]
    rfl
  refine ⟨?_, congrArg Course.round hcourse, congrArg Course.opened hcourse⟩
  have hcurrent : (s₁.course i a).round = round := h₁.round
  obtain rfl : (s₁.course i a).sent = sent := by rw [Course.sent, hcurrent, hsent]
  show Course.Step M T (s₁.course i a) (s₂.course i a)
  rw [hcourse, hst]
  exact .commit h₁.stored htakes h₁.opened hround (fun hi => hcurrent.symm ▸ hrec hi)
    (fun hi hl hpr => hcurrent.symm ▸ hurl hi hl hpr)

/-! ## §2. Senders. -/

/-- **A sender that has a URL sends one request, and answers what became of it.** -/
theorem steady_sendWebhook {ch : Channel} {alert : Alert} {rule : Rule} {p : Path}
    (hset : isSet (rule.url ch) = true) (halert : alert.id = a)
    (hp : row.deliveryStatus = .pending) (htakes : p.takes M row.deliveryAttempts)
    (hround : ∀ q ∈ round, q.reply.ok = false)
    (h : Trying i a row round s) :
    steady M T i a retrying
      (fun b s' => ∃ q, q.reply.ok = b ∧ Trying i a row (round ++ [q]) s')
      (fun s' => ¬ T.intact ∧ Trying i a row round s') (sendWebhook ch alert rule) s := by
  unfold sendWebhook
  rw [if_pos hset]
  apply Coro.wp_bind
  refine Coro.wp_mono ?_ (fun _ _ he => he) (steady_payload halert h)
  intro _ s₁ h₁
  apply Coro.wp_tryCatch
  apply Coro.wp_bind
  refine Coro.wp_mono ?_ ?_ (steady_post halert hp htakes hround h₁)
  · rintro c s₂ ⟨q, hq, h₂⟩
    unfold raiseForStatus
    split
    next hc =>
      rw [hc] at hq
      exact ⟨q, hq, h₂⟩
    next hc =>
      rw [Bool.not_eq_true] at hc
      rw [hc] at hq
      exact ⟨q, hq, h₂⟩
  · rintro _ s₂ ⟨q, hq, h₂⟩
    exact ⟨q, hq, h₂⟩

omit [DecidableEq ι] in
/-- Nothing of a round got through. -/
theorem any_ok_eq_false (h : ∀ q ∈ round, q.reply.ok = false) :
    (round.any fun q => q.reply.ok) = false := by
  simpa [List.any_eq_false] using h

/-- What the updated record of an attempt says. -/
theorem sums_update (attempt : AlertDeliveryAttempt) (b : Bool) (l : Int) :
    Sums (updateDeliveryAttempt attempt b (responseCodeOf b) l none) b :=
  ⟨succeeded_update attempt b _ l none, rfl, rfl⟩

/-! ## §3. The first delivery. -/

/-- What a first delivery knows between its channels: nothing got through, and the
records are those of the requests. -/
structure Recording (T : Terms) (i : ι) (a : AlertId) (row : Alert)
    (records : List AlertDeliveryAttempt) (s : Watched ι) : Prop where
  own : RoundRecords a (row.deliveryAttempts + 1) 0 records
  round : ∃ round, Trying i a row round s ∧ (∀ q ∈ round, q.reply.ok = false) ∧
    (T.intact → Path.dispatch.writes round records)

/-- One channel of the first delivery: the round is committed, or goes on. -/
theorem steady_dispatchChannel {ch : Channel} {rule : Rule} {t : Time}
    {records : List AlertDeliveryAttempt} (hid : row.id = a)
    (hp : row.deliveryStatus = .pending) (hn : row.deliveryAttempts = 0)
    (hlast : row.lastDeliveryAttempt = none) (h : Recording T i a row records s) :
    steady M T i a retrying
      (fun out s' => if out.1 = true then Rested i a s' else Recording T i a row out.2 s')
      (fun _ => False)
      (dispatchChannel ch (sendWebhook ch) ((AlertObj.ofRow row).setLastDeliveryAttempt t)
        rule (row.deliveryAttempts + 1) t records) s := by
  obtain ⟨hrecords, round, h, hround, hrec⟩ := h
  unfold dispatchChannel
  split
  next hset =>
    apply Coro.wp_tryCatch
    apply Coro.wp_bind
    refine Coro.wp_mono ?_ ?_ (steady_sendWebhook (p := .dispatch) hset hid hp hn hround h)
    · rintro b s₁ ⟨q, hq, h₁⟩
      apply Coro.wp_bind
      refine Coro.wp_mono ?_ (fun _ _ he => he.elim)
        (steady_utcnow (E := fun _ => False) h₁)
      intro t' s₂ h₂
      -- the record of this request joins those of the round
      have hone : Sums (updateDeliveryAttempt (createDeliveryAttempt
          ((AlertObj.ofRow row).setLastDeliveryAttempt t).row (row.deliveryAttempts + 1) t)
          b (responseCodeOf b) (latency t t') none) q.reply.ok := by
        rw [hq]
        exact sums_update _ b _
      have hrec' := fun hi => List.rel_append (hrec hi) (List.Forall₂.cons hone .nil)
      have hrecords' := hrecords.concat (b := b) (r := updateDeliveryAttempt
        (createDeliveryAttempt ((AlertObj.ofRow row).setLastDeliveryAttempt t).row
          (row.deliveryAttempts + 1) t) b (responseCodeOf b) (latency t t') none)
        hid rfl (succeeded_update ..)
      cases b with
      -- success is committed at once, with the records so far
      | true =>
          have hthrough : true = (round ++ [q]).any fun q => q.reply.ok := by simp [hq]
          apply Coro.wp_bind
          refine Coro.wp_mono (fun _ s'' hs'' => hs'') (fun _ _ he => he.elim)
            (steady_commitDelivery (p := .dispatch) (E := fun _ => False) hn hthrough rfl ?_
              hrec' (fun _ _ hpath => absurd hpath (by simp))
              (fun r hr => (hrecords'.1 r hr).1) h₂)
          exact Path.isRound hp hn (due_of_untried hlast t) (fun r hr => (hrecords'.1 r hr).2)
            hrecords'.2
      | false =>
          refine ⟨hrecords', round ++ [q], h₂, ?_, hrec'⟩
          intro q' hmem
          rcases List.mem_append.mp hmem with hmem | hmem
          · exact hround q' hmem
          · rw [List.mem_singleton.mp hmem]
            exact hq
    · rintro e s₁ ⟨hint, h₁⟩
      -- the payload could not be built: a record without a request
      apply Coro.wp_bind
      refine Coro.wp_mono ?_ (fun _ _ he => he) (steady_utcnow h₁)
      intro t' s₂ h₂
      exact ⟨hrecords.concat (b := false) hid rfl (succeeded_update ..), round, h₂, hround,
        fun hi => absurd hi hint⟩
  next => exact ⟨hrecords, round, h, hround, hrec⟩

/-- **The first delivery.** -/
theorem steady_dispatch (hid : row.id = a) (hp : row.deliveryStatus = .pending)
    (hn : row.deliveryAttempts = 0) (hlast : row.lastDeliveryAttempt = none)
    (h : Waiting i a row s) :
    steady M T i a retrying (fun _ => Rested i a) (Rested i a)
      (dispatch (AlertObj.ofRow row)) s := by
  unfold dispatch
  apply Coro.wp_bind
  refine Coro.wp_mono ?_ (fun _ _ he => he) (steady_selectRule (p := .dispatch) hp hn h)
  rintro _ s₁ ⟨rule, rfl, h₁, -⟩
  apply Coro.wp_bind
  refine Coro.wp_mono ?_ (fun _ _ he => he) (steady_utcnow h₁)
  intro t s₂ h₂
  apply Coro.wp_bind
  refine Coro.wp_mono ?_ (fun _ _ he => he.elim) (steady_dispatchChannel hid hp hn hlast
    ⟨.nil a _, [], h₂, fun q hq => absurd hq (by simp), fun _ => .nil⟩)
  rintro ⟨delivered, records⟩ s₃ h₃
  cases delivered with
  -- delivered by the first channel: the second is not tried
  | true => exact h₃
  | false =>
      apply Coro.wp_bind
      refine Coro.wp_mono ?_ (fun _ _ he => he.elim)
        (steady_dispatchChannel hid hp hn hlast h₃)
      rintro ⟨delivered, records⟩ s₄ h₄
      cases delivered with
      | true => exact h₄
      | false =>
          obtain ⟨hrecords, round, h₄, hround, hrec⟩ := h₄
          show steady M T i a retrying (fun _ => Rested i a) (Rested i a)
            (commitDelivery ⟨row, row.afterRound .pending t⟩ records) s₄
          exact steady_commitDelivery (p := .dispatch) hn (any_ok_eq_false hround).symm rfl
            (Path.isRound hp hn (due_of_untried hlast t) (fun r hr => (hrecords.1 r hr).2)
              hrecords.2)
            hrec (fun _ _ hpath => absurd hpath (by simp)) (fun r hr => (hrecords.1 r hr).1) h₄

/-- **Refresh and first delivery.** -/
theorem steady_deliver (hp : row.deliveryStatus = .pending)
    (hn : row.deliveryAttempts = 0) (hlast : row.lastDeliveryAttempt = none)
    (h : Waiting i a row s) :
    steady M T i a retrying (fun _ => Rested i a) (Rested i a) (deliver a) s := by
  have hid : row.id = a := Table.get_key h.stored
  unfold deliver
  apply Coro.wp_bind
  apply Coro.wp_tryCatch
  apply Coro.wp_bind
  refine Coro.wp_mono ?_ (fun _ _ he => he) (steady_refreshAlert h)
  rintro r s₁ ⟨rfl, h₁⟩
  have hrow : { r with id := a } = r := by rw [← hid]
  rw [hrow]
  exact steady_dispatch hid hp hn hlast h₁

/-! ## §4. The retries. -/

/-- What the sends of a retry leave: the round, and what the record will say. -/
structure Tried (T : Terms) (i : ι) (a : AlertId) (row : Alert) (hasUrl : Bool)
    (out : Bool × Option Nat × Option String) (s : Watched ι) : Prop where
  round : ∃ round, Trying i a row round s ∧ out.1 = (round.any fun q => q.reply.ok) ∧
    (T.intact → out.2.1 = responseCodeOf out.1 ∧ out.2.2 = none) ∧
    (T.intact → hasUrl = true → round ≠ [])

/-- A sender that is only asked if `b`: no more than one request. -/
theorem steady_sendIf {ch : Channel} {alert : Alert} {rule : Rule} {b success : Bool}
    (hb : b = true → isSet (rule.url ch) = true ∧ success = false)
    (halert : alert.id = a) (hp : row.deliveryStatus = .pending)
    (hM : row.deliveryAttempts < M) (hround : success = round.any fun q => q.reply.ok)
    (h : Trying i a row round s) :
    steady M T i a retrying
      (fun success' s' => ∃ sent, Trying i a row (round ++ sent) s' ∧
        success' = ((round ++ sent).any fun q => q.reply.ok) ∧ (b = true → sent ≠ []))
      (fun s' => ¬ T.intact ∧ (round.any fun q => q.reply.ok) = false ∧
        Trying i a row round s')
      (if b then sendWebhook ch alert rule else pure success) s := by
  split
  next hb' =>
    obtain ⟨hset, rfl⟩ := hb hb'
    have hnone : ∀ q ∈ round, q.reply.ok = false := by
      intro q hq
      have hany := List.any_eq_false.mp hround.symm q hq
      simpa using hany
    refine Coro.wp_mono ?_ ?_ (steady_sendWebhook (p := .retry) hset halert hp hM hnone h)
    · rintro success' s' ⟨q, hq, h'⟩
      refine ⟨[q], h', ?_, fun _ => by simp⟩
      rw [List.any_append, ← hround]
      simp [hq]
    · rintro _ s' ⟨hint, h'⟩
      exact ⟨hint, hround.symm, h'⟩
  next hb' =>
    refine ⟨[], by rw [List.append_nil]; exact h, ?_, fun hb => absurd hb hb'⟩
    rw [List.append_nil]
    exact hround

/-- **The sends of a retry**: discord, then the generic webhook if that failed. -/
theorem steady_retrySend {alert : Alert} {rule : Rule} (halert : alert.id = a)
    (hp : row.deliveryStatus = .pending) (hM : row.deliveryAttempts < M)
    (h : Trying i a row [] s) :
    steady M T i a retrying (Tried T i a row rule.hasUrl) (fun _ => False)
      (retrySend alert rule) s := by
  unfold retrySend
  -- an exception in a payload ends both sends, with nothing through so far
  have hraise : ∀ (e : PyErr) (s' : Watched ι), (∃ round, ¬ T.intact ∧
      (round.any fun q => q.reply.ok) = false ∧ Trying i a row round s') →
      Tried T i a row rule.hasUrl (false, none, some e.msg) s' := by
    rintro e s' ⟨round, hint, hany, h'⟩
    exact ⟨round, h', hany.symm, fun hi => absurd hi hint, fun hi => absurd hi hint⟩
  apply Coro.wp_tryCatch
  apply Coro.wp_bind
  refine Coro.wp_mono ?_ ?_ (steady_sendIf (fun hb => ⟨hb, rfl⟩) halert hp
    hM (by simp) h)
  · rintro b s₁ ⟨sent, h₁, hb, hsent⟩
    rw [List.nil_append] at h₁ hb
    apply Coro.wp_bind
    refine Coro.wp_mono ?_ ?_ (steady_sendIf (b := !b && isSet (rule.url .generic))
      (fun hc => ?_) halert hp hM hb h₁)
    · rintro b' s₂ ⟨sent', h₂, hb', hsent'⟩
      refine ⟨sent ++ sent', h₂, hb', fun _ => ⟨rfl, rfl⟩, fun _ hurl hnil => ?_⟩
      -- nothing sent: neither URL was there
      rw [List.append_eq_nil_iff] at hnil
      simp only [Rule.hasUrl, Bool.or_eq_true] at hurl
      rcases hurl with hd | hg
      · exact hsent hd hnil.1
      · have hbf : b = false := by rw [hb, hnil.1]; rfl
        exact hsent' (by rw [hbf, hg]; rfl) hnil.2
    · rintro e s₂ ⟨hint, hany, h₂⟩
      exact hraise e s₂ ⟨_, hint, hany, h₂⟩
    · rw [Bool.and_eq_true] at hc
      exact ⟨hc.2, by simpa using hc.1⟩
  · rintro e s₁ ⟨hint, hany, h₁⟩
    exact hraise e s₁ ⟨_, hint, hany, h₁⟩

/-- **The round of a retry.** -/
theorem steady_retryRound {rule : Rule} {now : Time} (hid : row.id = a)
    (hp : row.deliveryStatus = .pending) (hM : row.deliveryAttempts < M)
    (hdue : ∀ last, row.lastDeliveryAttempt = some last →
      last + backoffBase row.deliveryAttempts ≤ now)
    (hurl : T.linked → rule.hasUrl = true) (h : Trying i a row [] s) :
    steady M T i a retrying (fun _ => Rested i a) (Rested i a)
      (retryRound M (AlertObj.ofRow row) rule now) s := by
  unfold retryRound
  apply Coro.wp_bind
  refine Coro.wp_mono ?_ (fun _ _ he => he) (steady_utcnow h)
  intro t s₁ h₁
  apply Coro.wp_bind
  refine Coro.wp_mono ?_ (fun _ _ he => he.elim) (steady_retrySend hid hp hM h₁)
  rintro ⟨success, responseCode, error⟩ s₂ ⟨round, h₂, hany, hrec, hsome⟩
  apply Coro.wp_bind
  refine Coro.wp_mono ?_ (fun _ _ he => he) (steady_utcnow h₂)
  intro t' s₃ h₃
  have hrecord : RoundRecords a (row.deliveryAttempts + 1) success.toNat
      [updateDeliveryAttempt (createDeliveryAttempt (((AlertObj.ofRow row).setDeliveryAttempts
        (row.deliveryAttempts + 1)).setLastDeliveryAttempt now).row
        (row.deliveryAttempts + 1) t) success responseCode (latency t t') error] :=
    roundRecords_single hid rfl
  dsimp only
  rw [retryOutcome_eq hp now success]
  refine steady_commitDelivery (p := .retry) hM hany rfl
    (Path.isRound hp hM hdue (fun r hr => (hrecord.1 r hr).2) hrecord.2) ?_
    (fun hi hl _ => hsome hi (hurl hl)) (fun r hr => (hrecord.1 r hr).1) h₃
  intro hi
  obtain ⟨hcode, herror⟩ := hrec hi
  simp only at hcode herror
  subst hcode herror
  exact ⟨_, rfl, hany ▸ sums_update _ success _⟩

theorem steady_retryDue {now : Time} (hp : row.deliveryStatus = .pending)
    (hM : row.deliveryAttempts < M)
    (hdue : ∀ last, row.lastDeliveryAttempt = some last →
      last + backoffBase row.deliveryAttempts ≤ now)
    (h : Waiting i a row s) :
    steady M T i a true (fun _ => Rested i a) (Rested i a)
      (retryDue M (AlertObj.ofRow row) now) s := by
  have hid : row.id = a := Table.get_key h.stored
  unfold retryDue
  apply Coro.wp_bind
  refine Coro.wp_mono ?_ (fun _ _ he => he) (steady_selectRule (p := .retry) hp hM h)
  rintro _ s₁ ⟨rule, rfl, h₁, hurl⟩
  exact steady_retryRound hid hp hM hdue (fun hl => hurl hl rfl) h₁

/-- **One iteration of the retry loop on the alert in hand**: nothing before its backoff
is over, else a proper round. -/
theorem steady_retryAlert (hp : row.deliveryStatus = .pending)
    (hM : row.deliveryAttempts < M) (h : Waiting i a row s) :
    steady M T i a true (fun _ => Rested i a) (Rested i a) (retryAlert M row) s := by
  unfold retryAlert
  apply Coro.wp_bind
  refine Coro.wp_mono ?_ (fun _ _ he => he.rested) (steady_frame (p := utcnow)
    (fun _ _ hc hr hw => hw.of_course hc hr) ⟨fun ho => ho, fun _ => trivial⟩ h)
  intro now s₁ h₁
  split
  next last hlast =>
    apply Coro.wp_bind
    refine Coro.wp_mono ?_ (fun _ _ he => he.elim) (steady_calculateBackoff h₁)
    rintro backoff s₂ ⟨hb, h₂⟩
    split
    next => exact h₂.rested
    next hdue =>
      -- the backoff is over, and it is at least its base: the round is in time
      refine steady_retryDue hp hM ?_ h₂
      intro last' hlast'
      rw [show row.lastDeliveryAttempt = some last from hlast, Option.some.injEq] at hlast'
      subst hlast'
      exact le_trans (Int.add_le_add_left (Int.ofNat_le.mpr hb) last) (Int.not_lt.mp hdue)
  -- an alert that was never tried is due at once
  next hlast => exact steady_retryDue hp hM (due_of_untried hlast now) h₁

/-! ## §5. A pass. -/

/-- What a pass knows about `a` when `rows` are still to be worked on. -/
structure Serving (M : Nat) (i : ι) (a : AlertId) (rows : List Alert) (s : Watched ι) :
    Prop where
  nodup : (rows.map Alert.id).Nodup
  ready : ∀ row ∈ rows, row.id = a → row.deliveryStatus = .pending ∧
    row.deliveryAttempts < M ∧ Waiting i a row s
  rested : Rested i a s

omit [DecidableEq ι] in
theorem Serving.of_course {rows : List Alert} {s s' : Watched ι}
    (hc : s'.course i a = s.course i a)
    (hr : ∀ id, (s.world.rules.get id).isSome → (s'.world.rules.get id).isSome)
    (h : Serving M i a rows s) : Serving M i a rows s' where
  nodup := h.nodup
  ready := by
    intro row hrow hid
    obtain ⟨hp, hM, hready⟩ := h.ready row hrow hid
    exact ⟨hp, hM, hready.of_course hc hr⟩
  rested := h.rested.of_course hc

/-- **The loop of a pass.** -/
theorem steady_pass (rows : List Alert) (s : Watched ι) (h : Serving M i a rows s) :
    steady M T i a true (fun _ => Rested i a) (Rested i a)
      (Coro.forEach rows (retryAlert M)) s := by
  refine Coro.wp_mono (fun _ s hs => hs.rested) (fun _ _ he => he)
    (Coro.wp_forEach (I := Serving M i a) ?_ rows s h)
  intro x xs s hI
  have hnd := hI.nodup
  rw [List.map_cons, List.nodup_cons] at hnd
  by_cases hx : x.id = a
  · obtain ⟨hp, hM, hready⟩ := hI.ready x List.mem_cons_self hx
    refine Coro.wp_mono ?_ (fun _ _ he => he) (steady_retryAlert hp hM hready)
    intro _ s' hs'
    refine ⟨hnd.2, ?_, hs'⟩
    -- the alert is not among the rows that follow
    intro row hrow hid
    exact absurd (List.mem_map.mpr ⟨row, hrow, hid.trans hx.symm⟩) hnd.1
  · refine Coro.wp_mono ?_ (fun _ _ he => he.rested)
      (steady_frame (fun _ _ hc hr hw => hw.of_course hc hr) (aloof_retryAlert hx) hI)
    intro _ s' hs'
    exact ⟨hnd.2, fun row hrow hid => hs'.ready row (List.mem_cons_of_mem _ hrow) hid,
      hs'.rested⟩

end Pulse
