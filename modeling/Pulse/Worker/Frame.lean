/-
  Pulse.Worker.Frame
  ──────────────────
  **WHAT AN OPERATION LEAVES ALONE.**

  `Effect` says once what each operation can make of the world; every frame lemma
  is a case analysis of it.

    • `perform_effect` — an answer has an effect of its operation,
    • `perform_kept`   — no operation touches the rules, turns the clock back,
                         breaks another session's transaction, or drops an alert,
    • `perform_ledger` — an operation that does not touch alert `a` leaves its
                         ledger alone.
-/
import Pulse.Dispatch.Ledger

namespace Pulse

open Pulse.Async Pulse.Store

namespace World

/-! ## §1. What every operation keeps. -/

/-- What no operation of session `i` changes. -/
structure Kept {ι : Type} (i : ι) (w w' : World ι) : Prop where
  rules : w'.rules = w.rules
  clock : w.clock ≤ w'.clock
  failed : ∀ j, j ≠ i → w'.failed j = w.failed j
  alerts : ∀ a row, w.alerts.get a = some row →
    ∃ row', w'.alerts.get a = some row' ∧ row'.ruleId = row.ruleId

variable {ι : Type}

theorem Kept.refl (i : ι) (w : World ι) : Kept i w w :=
  ⟨rfl, le_refl _, fun _ _ => rfl, fun _ row h => ⟨row, h, rfl⟩⟩

theorem Kept.trans {i : ι} {w w' w'' : World ι} (h : Kept i w w') (h' : Kept i w' w'') :
    Kept i w w'' where
  rules := h'.rules.trans h.rules
  clock := le_trans h.clock h'.clock
  failed := fun j hj => (h'.failed j hj).trans (h.failed j hj)
  alerts := by
    intro a row hrow
    obtain ⟨row', hrow', hid⟩ := h.alerts a row hrow
    obtain ⟨row'', hrow'', hid'⟩ := h'.alerts a row' hrow'
    exact ⟨row'', hrow'', hid'.trans hid⟩

theorem kept_tick (i : ι) (w : World ι) (n : Nat) : Kept i w (w.tick n) :=
  ⟨rfl, by simp [tick], fun _ _ => rfl, fun _ row h => ⟨row, h, rfl⟩⟩

/-- What leaves the rules, the sessions and the alerts as they are. -/
theorem Kept.of_eq {i : ι} {w w' : World ι} (hrules : w'.rules = w.rules)
    (hclock : w'.clock = w.clock) (hfailed : w'.failed = w.failed)
    (halerts : w'.alerts = w.alerts) : Kept i w w' where
  rules := hrules
  clock := by rw [hclock]
  failed := fun j _ => by rw [hfailed]
  alerts := fun a row h => ⟨row, by rw [halerts]; exact h, rfl⟩

/-! ## §2. Statements. -/

theorem answer_inj {α : Type} {a b : α} {w w' : World ι}
    (h : some (a, w) = some (b, w')) : a = b ∧ w = w' := by
  simpa using h

variable [DecidableEq ι]

/-- What became of a statement: refused, made to fail, or carried out. -/
theorem statement_cases {α : Type} {w w' : World ι} {i : ι} {site : Site} {inp : Input}
    {body : Option (Except PyErr α × World ι)} {r : Except PyErr α}
    (h : w.statement i site inp body = some (r, w')) :
    (w.failed i = true ∧ w' = w ∧ ∃ e, r = .error e) ∨
    (w.failed i = false ∧ w' = { w.fail i with faults := w.faults ++ [(i, site)] } ∧
      ∃ e, inp.fault = some e ∧ r = .error e) ∨
    (w.failed i = false ∧ inp.fault = none ∧ body = some (r, w')) := by
  unfold statement at h
  split at h
  next hf =>
    simp only [Option.some.injEq, Prod.mk.injEq] at h
    exact Or.inl ⟨hf, h.2.symm, _, h.1.symm⟩
  next hf =>
    have hf : w.failed i = false := by simpa using hf
    split at h
    next e he =>
      simp only [Option.some.injEq, Prod.mk.injEq] at h
      exact Or.inr (Or.inl ⟨hf, h.2.symm, e, he, h.1.symm⟩)
    next he => exact Or.inr (Or.inr ⟨hf, he, h⟩)

omit [DecidableEq ι] in
theorem mem_pendingAlerts {w : World ι} {M : Nat} {row : Alert} :
    row ∈ w.pendingAlerts M ↔
      row ∈ w.alerts.rows ∧ row.deliveryStatus = .pending ∧ row.deliveryAttempts < M := by
  unfold pendingAlerts
  rw [List.mem_filter, decide_eq_true_eq]

omit [DecidableEq ι] in
theorem pendingAlerts_nodup (w : World ι) (M : Nat) :
    ((w.pendingAlerts M).map Alert.id).Nodup :=
  w.alerts.nodup.sublist (List.filter_sublist.map _)

omit [DecidableEq ι] in
/-- A row of a page of pending alerts is stored, pending and below the limit. -/
theorem stored_of_page {w : World ι} {M : Nat} {rows : List Alert} {row : Alert}
    (hpage : IsPage Alert.createdAt 50 (w.pendingAlerts M) rows) (hrow : row ∈ rows) :
    w.alerts.get row.id = some row ∧ row.deliveryStatus = .pending ∧
      row.deliveryAttempts < M := by
  obtain ⟨hmem, hprops⟩ := mem_pendingAlerts.mp (hpage.mem hrow)
  exact ⟨Table.get_of_mem hmem, hprops⟩

/-- A statement of a session in good standing whose input has no fault. -/
theorem statement_healthy {α : Type} {w : World ι} {i : ι} {site : Site} {inp : Input}
    {body : Option (Except PyErr α × World ι)} (hf : w.failed i = false)
    (hi : inp.fault = none) : w.statement i site inp body = body := by
  simp [statement, hf, hi]

/-- What a statement that answers was: carried out. -/
theorem statement_ok {α : Type} {w w' : World ι} {i : ι} {site : Site} {inp : Input}
    {body : Option (Except PyErr α × World ι)} {a : α}
    (h : w.statement i site inp body = some (.ok a, w')) :
    w.failed i = false ∧ body = some (.ok a, w') := by
  obtain ⟨-, -, e, he⟩ | ⟨-, -, e, -, he⟩ | ⟨hf, -, hb⟩ := statement_cases h
  · exact absurd he (by simp)
  · exact absurd he (by simp)
  · exact ⟨hf, hb⟩

end World

/-! ## §3. What an operation can do. -/

/-- Where the statement of an operation stands. -/
def Op.site : Op → Option Site
  | .selectRule _ => some .ruleQuery
  | .selectPending _ => some .pendingQuery
  | .commitDelivery _ _ => some .deliveryCommit
  | .selectLastAlert _ _ => some .cooldownQuery
  | .selectCandles _ => some .historyQuery
  | .savepoint => some .savepoint
  | .commitAlert => some .alertCommit
  | .refreshAlert _ => some .alertRefresh
  | .insertCandle _ => some .candleCommit
  | .selectCursor _ => some .cursorQuery
  | .commitCursor _ _ _ => some .cursorCommit
  | _ => none

namespace World

variable {ι : Type} [DecidableEq ι]

/-- What operation `o` of session `i` can make of the world `w`, once its time has passed. -/
inductive Effect (i : ι) (inp : Input) (w : World ι) : Op → World ι → Prop
  /-- Whatever reads, and whatever is refused before it reaches the tables. -/
  | nothing (o : Op) : Effect i inp w o w
  | abort {o : Op} (h : o = .openSession ∨ o = .rollback) : Effect i inp w o (w.abort i)
  | call (c : Call) : Effect i inp w (.call c) { w with calls := w.calls ++ [(i, c)] }
  | post (ch : Channel) (alert : Alert) (rule : Rule) : Effect i inp w (.post ch alert rule)
      { w with requests := w.requests ++ [⟨alert.id, ch, inp.reply⟩] }
  /-- The statement was made to fail. -/
  | fault {o : Op} {site : Site} (h : o.site = some site) :
      Effect i inp w o { w.fail i with faults := w.faults ++ [(i, site)] }
  /-- The insert was made to fail inside its savepoint. -/
  | undone (alert : Alert) : Effect i inp w (.insertAlert alert)
      { w with faults := w.faults ++ [(i, .alertInsert)] }
  /-- A constraint that fails outside a savepoint. -/
  | refused {o : Op} (h : (∃ c, o = .insertCandle c) ∨ ∃ present symbol timestamp,
      o = .commitCursor present symbol timestamp) : Effect i inp w o (w.fail i)
  | delivery (alert : AlertObj) (records : List AlertDeliveryAttempt) :
      Effect i inp w (.commitDelivery alert records) (w.storeDelivery i alert records).2
  | insert (alert : Alert) : Effect i inp w (.insertAlert alert) { w with
      inflight := w.inflight ++ [(i, { alert with id := inp.uuid, createdAt := w.clock })] }
  | commit : Effect i inp w .commitAlert (w.commitRows i)
  | candle {c : Candle} (h : w.candles.get c.key = none) :
      Effect i inp w (.insertCandle c) { w with candles := w.candles.insertNew c }
  | cursor (present : Bool) (symbol : String) (timestamp : Time) :
      Effect i inp w (.commitCursor present symbol timestamp)
        { w with cursors := Function.update w.cursors symbol (some timestamp) }

variable {i : ι} {inp : Input} {w w' : World ι}

theorem effect_statement {α : Type} {o : Op} {site : Site} {r : Except PyErr α}
    {body : Option (Except PyErr α × World ι)} (hsite : o.site = some site)
    (h : w.statement i site inp body = some (r, w'))
    (hbody : body = some (r, w') → Effect i inp w o w') : Effect i inp w o w' := by
  obtain ⟨-, rfl, -⟩ | ⟨-, rfl, -⟩ | ⟨-, -, hb⟩ := statement_cases h
  · exact .nothing o
  · exact .fault hsite
  · exact hbody hb

/-- The insert of a row waits, is refused, or adds the row. -/
theorem insertRow_inflight {row : Alert} {r : Except PyErr AlertId}
    (h : w.insertRow i row = some (r, w')) :
    w' = w ∨ w' = { w with inflight := w.inflight ++ [(i, row)] } := by
  unfold insertRow at h
  split at h
  next => exact Or.inl (answer_inj h).2.symm
  next =>
    split at h
    next => exact Or.inl (answer_inj h).2.symm
    next =>
      split at h
      next => exact absurd h (by simp)
      next => exact Or.inr (answer_inj h).2.symm

/-- What a delivery commit leaves alone. -/
structure Apart (w w' : World ι) : Prop where
  requests : w'.requests = w.requests
  calls : w'.calls = w.calls
  candles : w'.candles = w.candles
  cursors : w'.cursors = w.cursors
  inflight : w'.inflight = w.inflight
  faults : w'.faults = w.faults

theorem storeDelivery_apart (w : World ι) (i : ι) (alert : AlertObj)
    (records : List AlertDeliveryAttempt) :
    Apart w (w.storeDelivery i alert records).2 := by
  unfold storeDelivery
  split
  next => exact ⟨rfl, rfl, rfl, rfl, rfl, rfl⟩
  next => exact ⟨rfl, rfl, rfl, rfl, rfl, rfl⟩

/-- **Every answer has an effect of its operation.** -/
theorem perform_effect {o : Op} {r : Resp o} (h : perform i o inp w = some (r, w')) :
    Effect i inp (w.tick inp.elapsed) o w' := by
  cases o with
  | openSession =>
      obtain ⟨-, rfl⟩ := answer_inj h
      exact .abort (Or.inl rfl)
  | rollback =>
      obtain ⟨-, rfl⟩ := answer_inj h
      exact .abort (Or.inr rfl)
  | utcnow | payload _ _ _ =>
      obtain ⟨-, rfl⟩ := answer_inj h
      exact .nothing _
  | uniform hi =>
      simp only [perform] at h
      split at h
      next =>
        obtain ⟨-, rfl⟩ := answer_inj h
        exact .nothing _
      next => exact absurd h (by simp)
  | call c =>
      obtain ⟨-, rfl⟩ := answer_inj h
      exact .call c
  | post ch alert rule =>
      obtain ⟨-, rfl⟩ := answer_inj h
      exact .post ch alert rule
  | selectRule _ | selectCandles _ | savepoint | refreshAlert _ | selectCursor _ =>
      refine effect_statement rfl h fun hb => ?_
      obtain ⟨-, rfl⟩ := answer_inj hb
      exact .nothing _
  | selectPending _ | selectLastAlert _ _ =>
      -- a page is read, or the answer is not one of the database
      refine effect_statement rfl h fun hb => ?_
      split at hb
      next =>
        obtain ⟨-, rfl⟩ := answer_inj hb
        exact .nothing _
      next => exact absurd hb (by simp)
  | commitDelivery alert records =>
      refine effect_statement rfl h fun hb => ?_
      have hdelivery : Effect i inp (w.tick inp.elapsed) (.commitDelivery alert records)
          ((w.tick inp.elapsed).storeDelivery i alert records).2 := .delivery alert records
      rw [Option.some.inj hb] at hdelivery
      exact hdelivery
  | insertAlert alert =>
      -- a session that failed before, a fault, or the row itself
      simp only [perform] at h
      split at h
      next =>
        obtain ⟨-, rfl⟩ := answer_inj h
        exact .nothing _
      next =>
        split at h
        next =>
          obtain ⟨-, rfl⟩ := answer_inj h
          exact .undone alert
        next =>
          obtain rfl | rfl := insertRow_inflight h
          · exact .nothing _
          · exact .insert alert
  | commitAlert =>
      refine effect_statement rfl h fun hb => ?_
      obtain ⟨-, rfl⟩ := answer_inj hb
      exact .commit
  | insertCandle c =>
      refine effect_statement rfl h fun hb => ?_
      split at hb
      next =>
        obtain ⟨-, rfl⟩ := answer_inj hb
        exact .refused (Or.inl ⟨c, rfl⟩)
      next hnone =>
        obtain ⟨-, rfl⟩ := answer_inj hb
        exact .candle hnone
  | commitCursor present symbol timestamp =>
      refine effect_statement rfl h fun hb => ?_
      split at hb
      next =>
        obtain ⟨-, rfl⟩ := answer_inj hb
        exact .refused (Or.inr ⟨present, symbol, timestamp, rfl⟩)
      next =>
        obtain ⟨-, rfl⟩ := answer_inj hb
        exact .cursor present symbol timestamp

/-! ### What it keeps. -/

theorem kept_fail (i : ι) (w : World ι) : Kept i w (w.fail i) :=
  ⟨rfl, le_refl _, fun j hj => by simp [fail, hj], fun _ row h => ⟨row, h, rfl⟩⟩

theorem kept_abort (i : ι) (w : World ι) : Kept i w (w.abort i) :=
  ⟨rfl, le_refl _, fun j hj => by simp [abort, hj], fun _ row h => ⟨row, h, rfl⟩⟩

theorem kept_commitRows (i : ι) (w : World ι) : Kept i w (w.commitRows i) := by
  refine ⟨rfl, le_refl _, fun _ _ => rfl, ?_⟩
  intro a row hrow
  refine ⟨row, ?_, rfl⟩
  show (((w.inflight.filter (fun e => e.1 = i)).map Prod.snd).foldl
    Table.insertNew w.alerts).get a = some row
  generalize (w.inflight.filter (fun e => e.1 = i)).map Prod.snd = rows
  generalize w.alerts = t at hrow
  induction rows generalizing t with
  | nil => exact hrow
  | cons x rows ih => exact ih _ (Table.get_insertNew_of_some hrow x)

theorem kept_storeDelivery (i : ι) (w : World ι) (alert : AlertObj)
    (records : List AlertDeliveryAttempt) :
    Kept i w (w.storeDelivery i alert records).2 := by
  unfold storeDelivery
  split
  next => exact kept_fail i w
  next stored hstored =>
    refine ⟨rfl, le_refl _, fun _ _ => rfl, ?_⟩
    intro a row hrow
    by_cases ha : alert.row.id = a
    · subst ha
      rw [hrow, Option.some.injEq] at hstored
      subst hstored
      refine ⟨alert.flushInto row, ?_, rfl⟩
      show (w.alerts.modify _ alert.flushInto alert.flushInto_id).get _ = _
      rw [Table.get_modify_self, hrow]
      rfl
    · refine ⟨row, ?_, rfl⟩
      show (w.alerts.modify _ alert.flushInto alert.flushInto_id).get _ = _
      rw [Table.get_modify_other _ _ _ ha]
      exact hrow

/-- **Every operation keeps the rules, the clock's direction, the other
sessions' standing and the existence of every alert.** -/
theorem perform_kept {i : ι} {o : Op} {inp : Input} {w w' : World ι} {r : Resp o}
    (h : perform i o inp w = some (r, w')) : Kept i w w' := by
  refine (kept_tick i w inp.elapsed).trans ?_
  have heffect := perform_effect h
  generalize w.tick inp.elapsed = w₁ at heffect ⊢
  cases heffect with
  | nothing => exact .refl i _
  | abort => exact kept_abort i _
  | call | post | undone | insert | candle | cursor => exact .of_eq rfl rfl rfl rfl
  | fault => exact (kept_fail i _).trans (.of_eq rfl rfl rfl rfl)
  | refused => exact kept_fail i _
  | delivery alert records => exact kept_storeDelivery i _ alert records
  | commit => exact kept_commitRows i _

/-! ## §4. The ledger of an alert. -/

/-- The ledger of alert `a`. -/
def ledger (w : World ι) (a : AlertId) : Ledger where
  row := w.alerts.get a
  records := w.attempts.filter (fun r => r.alertId = a)
  requests := w.requests.filter (fun q => q.alertId = a)
  commits := w.commits.filter (fun c => c.id = a)

omit [DecidableEq ι] in
@[simp] theorem ledger_tick (w : World ι) (n : Nat) (a : AlertId) :
    (w.tick n).ledger a = w.ledger a := rfl

@[simp] theorem ledger_fail (w : World ι) (i : ι) (a : AlertId) :
    (w.fail i).ledger a = w.ledger a := rfl

@[simp] theorem ledger_abort (w : World ι) (i : ι) (a : AlertId) :
    (w.abort i).ledger a = w.ledger a := rfl

end World

/-- The operations of a delivery of alert `a`, and those that can change its ledger. -/
def Op.touches (a : AlertId) : Op → Prop
  | .selectRule alert | .post _ alert _ => alert.id = a
  | .commitDelivery alert records => alert.row.id = a ∨ ∃ r ∈ records, r.alertId = a
  | .insertAlert _ | .commitAlert => True
  | _ => False

namespace World

variable {ι : Type} [DecidableEq ι]

theorem ledger_storeDelivery_other (w : World ι) (i : ι) {a : AlertId} {alert : AlertObj}
    {records : List AlertDeliveryAttempt} (ha : alert.row.id ≠ a)
    (hr : ∀ r ∈ records, r.alertId ≠ a) :
    (w.storeDelivery i alert records).2.ledger a = w.ledger a := by
  unfold storeDelivery
  split
  next => rfl
  next stored hstored =>
    have hid : (alert.flushInto stored).id ≠ a := by
      rw [AlertObj.flushInto_id, Table.get_key hstored]
      exact ha
    have hrec : records.filter (fun r => r.alertId = a) = [] := by
      simpa [List.filter_eq_nil_iff] using hr
    simp only [ledger, Table.get_modify_other _ _ _ ha, List.filter_append, hrec,
      List.append_nil, List.filter_singleton, hid]
    simp

/-- A delivery commit on a stored alert succeeds and enters the ledger. -/
theorem storeDelivery_self {w : World ι} (i : ι) {a : AlertId} (alert : AlertObj)
    {stored : Alert} {records : List AlertDeliveryAttempt}
    (hget : w.alerts.get a = some stored) (ha : alert.row.id = a)
    (hr : ∀ r ∈ records, r.alertId = a) :
    ∃ w', w.storeDelivery i alert records = (.ok (), w') ∧
      w'.ledger a = (w.ledger a).commit (alert.flushInto stored) records := by
  subst ha
  have hid : (alert.flushInto stored).id = alert.row.id :=
    (alert.flushInto_id stored).trans (Table.get_key hget)
  have hrec : records.filter (fun r => r.alertId = alert.row.id) = records := by
    simpa [List.filter_eq_self] using hr
  refine ⟨_, by rw [storeDelivery, hget], ?_⟩
  simp only [ledger, Ledger.commit, Table.get_modify_self, hget, Option.map_some,
    List.filter_append, hrec, List.filter_singleton, hid, decide_true, cond_true]

/-- **An operation that does not touch an alert leaves its ledger alone.** -/
theorem perform_ledger {i : ι} {o : Op} {inp : Input} {w w' : World ι} {r : Resp o}
    {a : AlertId} (h : perform i o inp w = some (r, w')) (ho : ¬ o.touches a) :
    w'.ledger a = w.ledger a := by
  rw [← ledger_tick w inp.elapsed a]
  have heffect := perform_effect h
  generalize w.tick inp.elapsed = w₁ at heffect ⊢
  cases heffect with
  | nothing | abort | call | fault | undone | refused | candle | cursor => rfl
  | post ch alert rule =>
      have hid : alert.id ≠ a := ho
      simp [ledger, hid]
  | delivery alert records =>
      exact ledger_storeDelivery_other _ i (fun hid => ho (Or.inl hid))
        (fun r hr hra => ho (Or.inr ⟨r, hr, hra⟩))
  | insert | commit => exact absurd trivial ho

/-- Finding a rule changes no ledger. -/
theorem perform_selectRule {i : ι} {alert : Alert} {inp : Input} {w w' : World ι}
    {r : Resp (.selectRule alert)} (h : perform i (.selectRule alert) inp w = some (r, w'))
    (a : AlertId) : w'.ledger a = w.ledger a := by
  rw [← ledger_tick w inp.elapsed a]
  cases perform_effect h <;> rfl

/-! ## §5. The requests. -/

/-- **Only a request enters the record of requests**, with the reply it got. -/
theorem perform_requests {i : ι} {o : Op} {inp : Input} {w w' : World ι} {r : Resp o}
    (h : perform i o inp w = some (r, w')) :
    w'.requests = w.requests ∨
      ∃ id ch, w'.requests = w.requests ++ [⟨id, ch, inp.reply⟩] := by
  have heffect := perform_effect h
  have htick : (w.tick inp.elapsed).requests = w.requests := rfl
  rw [← htick]
  generalize w.tick inp.elapsed = w₁ at heffect ⊢
  cases heffect with
  | nothing | abort | call | fault | undone | refused | insert | commit | candle | cursor =>
      exact Or.inl rfl
  | post ch alert rule => exact Or.inr ⟨alert.id, ch, rfl⟩
  | delivery alert records => exact Or.inl (storeDelivery_apart w₁ i alert records).requests

end World

end Pulse
