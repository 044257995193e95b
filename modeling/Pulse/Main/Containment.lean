/-
  Pulse.Main.Containment
  ──────────────────────
  **WHAT ONE RULE CAN DO TO THE SESSION.**

  A round of the inner loop touches the alerts of its rule only, and leaves the
  session in a failed transaction exactly when a failure was swallowed inside
  `evaluate`:

    • `Contained`   — the rest of the database is as it was,
    • `Track`       — the session is in a failed transaction iff a failure was
                      swallowed,
    • `contained_processRule` — both hold when the round is over.
-/
import Pulse.Main.MainLoop
import Pulse.Evaluate.Alerts
import Pulse.Dispatch.Footprint

namespace Pulse

open Pulse.Async Pulse.Store

/-- The statements whose failure ends in `except Exception: return None` of
`evaluate`, outside the savepoint: nothing rolls them back. -/
def Site.swallowed : Site → Bool
  | .historyQuery | .savepoint | .alertCommit | .alertRefresh => true
  | _ => false

namespace World

/-! ## §1. The database around a rule. -/

/-- A failure was swallowed since `v`. -/
def Tainted (v w : World Unit) : Prop :=
  ∃ e ∈ w.faults.drop v.faults.length, e.2.swallowed = true

/-- The alerts of the other rules. -/
def othersThan (w : World Unit) (ruleId : RuleId) : List Alert :=
  w.alerts.rows.filter fun a => a.ruleId ≠ ruleId

/-- From `v` to `w` nothing has happened to anything but the rule's alerts. -/
structure Contained (ruleId : RuleId) (v w : World Unit) : Prop where
  rules : w.rules = v.rules
  others : w.othersThan ruleId = v.othersThan ruleId
  ids : ∀ a ∈ v.alerts.rows, ∃ b ∈ w.alerts.rows, b.id = a.id
  candles : w.candles = v.candles
  cursors : w.cursors = v.cursors
  clock : v.clock ≤ w.clock
  own : ∀ e ∈ w.inflight, e.2.ruleId = ruleId

/-- The failures since `v` are recorded, and those that were swallowed are what
keeps the session in a failed transaction. -/
structure Track (v w : World Unit) : Prop where
  faults : v.faults <+: w.faults
  failed : w.failed () = true ↔ Tainted v w

theorem not_tainted_self (v : World Unit) : ¬ Tainted v v := by
  simp [Tainted]

theorem tainted_concat {v w w' : World Unit} {site : Site} (h : v.faults <+: w.faults)
    (hw : w'.faults = w.faults ++ [((), site)]) :
    Tainted v w' ↔ Tainted v w ∨ site.swallowed = true := by
  have hdrop : w'.faults.drop v.faults.length
      = w.faults.drop v.faults.length ++ [((), site)] := by
    rw [hw, List.drop_append_of_le_length h.length_le]
  simp [Tainted, hdrop, or_and_right, exists_or]

end World

/-- The operations that concern rule `ruleId` only, in the world `w`. -/
def Op.concerns (ruleId : RuleId) (w : World Unit) : Op → Prop
  | .insertAlert alert => alert.ruleId = ruleId
  | .commitDelivery alert _ =>
      ∀ row, w.alerts.get alert.row.id = some row → row.ruleId = ruleId
  | .insertCandle _ | .commitCursor _ _ _ => False
  | _ => True

namespace World

variable {ruleId : RuleId} {v w w' : World Unit}

/-- What leaves the tables and the open insert alone is contained. -/
theorem Contained.of_eq (h : Contained ruleId v w) (hrules : w'.rules = w.rules)
    (halerts : w'.alerts = w.alerts) (hcandles : w'.candles = w.candles)
    (hcursors : w'.cursors = w.cursors) (hclock : w.clock ≤ w'.clock)
    (hin : ∀ e ∈ w'.inflight, e ∈ w.inflight) : Contained ruleId v w' where
  rules := hrules.trans h.rules
  others := by rw [othersThan, halerts]; exact h.others
  ids := by rw [halerts]; exact h.ids
  candles := hcandles.trans h.candles
  cursors := hcursors.trans h.cursors
  clock := le_trans h.clock hclock
  own := fun e he => h.own e (hin e he)

theorem Contained.tick (h : Contained ruleId v w) (n : Nat) :
    Contained ruleId v (w.tick n) :=
  h.of_eq rfl rfl rfl rfl (by simp [World.tick]) fun _ he => he

theorem Contained.abort (h : Contained ruleId v w) : Contained ruleId v (w.abort ()) :=
  h.of_eq rfl rfl rfl rfl (le_refl _) fun _ he => (List.mem_filter.mp he).1

theorem Contained.statement {α : Type} {site : Site} {inp : Input}
    {body : Option (Except PyErr α × World Unit)} {r : Except PyErr α}
    (h : Contained ruleId v w) (hperf : w.statement () site inp body = some (r, w'))
    (hbody : body = some (r, w') → Contained ruleId v w') : Contained ruleId v w' := by
  obtain ⟨-, rfl, -⟩ | ⟨-, rfl, -⟩ | ⟨-, -, hb⟩ := statement_cases hperf
  · exact h
  · exact h.of_eq rfl rfl rfl rfl (le_refl _) fun _ he => he
  · exact hbody hb

theorem Contained.commitRows (h : Contained ruleId v w) :
    Contained ruleId v (w.commitRows ()) where
  rules := h.rules
  others := by
    refine Eq.trans (Table.filter_foldl_insertNew fun x hx => ?_) h.others
    obtain ⟨e, he, rfl⟩ := List.mem_map.mp hx
    simpa using h.own e (List.mem_filter.mp he).1
  ids := by
    intro a ha
    obtain ⟨b, hb, hid⟩ := h.ids a ha
    exact ⟨b, Table.rows_subset_foldl_insertNew _ _ b hb, hid⟩
  candles := h.candles
  cursors := h.cursors
  clock := h.clock
  own := fun e he => h.own e (List.mem_filter.mp he).1

theorem Contained.storeDelivery {alert : AlertObj} {records : List AlertDeliveryAttempt}
    (h : Contained ruleId v w)
    (hrow : ∀ row, w.alerts.get alert.row.id = some row → row.ruleId = ruleId) :
    Contained ruleId v (w.storeDelivery () alert records).2 := by
  unfold World.storeDelivery
  split
  next => exact h.of_eq rfl rfl rfl rfl (le_refl _) fun _ he => he
  next stored hstored =>
    refine ⟨h.rules, ?_, ?_, h.candles, h.cursors, h.clock, h.own⟩
    · refine Eq.trans (Table.filter_modify_of_not alert.flushInto_id fun x hx => ?_) h.others
      have hx : x.ruleId = ruleId := hrow x hx
      exact ⟨by simp [hx], by simp [AlertObj.flushInto, hx]⟩
    · intro a ha
      obtain ⟨b, hb, hid⟩ := h.ids a ha
      refine ⟨_, List.mem_map_of_mem hb, ?_⟩
      split
      next => exact hid
      next => exact hid

/-- **An operation that concerns the rule only is contained.** -/
theorem contained_perform {o : Op} {inp : Input} {r : Resp o}
    (h : Contained ruleId v w) (hperf : perform () o inp w = some (r, w'))
    (ho : o.concerns ruleId w) : Contained ruleId v w' := by
  have ht := h.tick inp.elapsed
  cases perform_effect hperf with
  | nothing => exact ht
  | abort => exact ht.abort
  | call | post | fault | undone | refused =>
      exact ht.of_eq rfl rfl rfl rfl (le_refl _) fun _ he => he
  | delivery alert records => exact ht.storeDelivery ho
  | insert alert =>
      refine ⟨ht.rules, ht.others, ht.ids, ht.candles, ht.cursors, ht.clock, ?_⟩
      intro e he
      rcases List.mem_append.mp he with he | he
      · exact ht.own e he
      · rw [List.mem_singleton.mp he]
        exact ho
  | commit => exact ht.commitRows
  | candle => exact ho.elim
  | cursor => exact ho.elim

/-! ## §2. The session inside `evaluate`. -/

/-- Between two steps of `evaluate`. -/
structure Between (ruleId : RuleId) (v w : World Unit) : Prop where
  contained : Contained ruleId v w
  track : Track v w
  /-- No insert is open, unless the transaction has failed. -/
  atRest : w.inflight = [] ∨ w.failed () = true

/-- After the insert of alert `id`, before its commit. -/
structure Open (ruleId : RuleId) (v : World Unit) (id : AlertId) (w : World Unit) : Prop where
  contained : Contained ruleId v w
  track : Track v w
  row : ∃ row : Alert, row.id = id ∧ w.inflight = [((), row)] ∧ w.alerts.get id = none

/-- Alert `id` is stored, and is the rule's. -/
def Owned (ruleId : RuleId) (id : AlertId) (w : World Unit) : Prop :=
  ∃ row, w.alerts.get id = some row ∧ row.ruleId = ruleId

/-- On the way out of `evaluate` or `dispatch`: nothing was swallowed. -/
structure Escaping (ruleId : RuleId) (v w : World Unit) : Prop where
  contained : Contained ruleId v w
  faults : v.faults <+: w.faults
  clean : ¬ Tainted v w

theorem Track.of_eq (h : Track v w) (hfaults : w'.faults = w.faults)
    (hfailed : w'.failed () = w.failed ()) : Track v w' :=
  ⟨by rw [hfaults]; exact h.faults, by rw [hfailed, h.failed, Tainted, Tainted, hfaults]⟩

/-- A statement at a site whose failures are swallowed. -/
theorem Track.statement {α : Type} {site : Site} {inp : Input}
    {body : Option (Except PyErr α × World Unit)} {r : Except PyErr α}
    (hsite : site.swallowed = true) (h : Track v w)
    (hperf : w.statement () site inp body = some (r, w'))
    (hbody : body = some (r, w') → w'.faults = w.faults ∧ w'.failed () = w.failed ()) :
    Track v w' := by
  obtain ⟨-, rfl, -⟩ | ⟨-, rfl, -⟩ | ⟨-, -, hb⟩ := statement_cases hperf
  · exact h
  · have htaint : Tainted v { w.fail () with faults := w.faults ++ [((), site)] } ↔
        Tainted v w ∨ site.swallowed = true := tainted_concat h.faults rfl
    refine ⟨h.faults.trans (List.prefix_append _ _), ?_⟩
    rw [htaint]
    simp [fail, hsite]
  · exact h.of_eq (hbody hb).1 (hbody hb).2

theorem Between.tick (h : Between ruleId v w) (n : Nat) : Between ruleId v (w.tick n) :=
  ⟨h.contained.tick n, h.track.of_eq rfl rfl, h.atRest⟩

/-- A query of the rule classes, the savepoint or the refresh. -/
theorem Between.statement {α : Type} {site : Site} {inp : Input}
    {body : Option (Except PyErr α × World Unit)} {r : Except PyErr α}
    (hsite : site.swallowed = true) (h : Between ruleId v w)
    (hperf : w.statement () site inp body = some (r, w'))
    (hbody : body = some (r, w') → w' = w) : Between ruleId v w' := by
  have hread := statement_reads hperf hbody
  refine ⟨h.contained.statement hperf fun hb => (hbody hb) ▸ h.contained,
    h.track.statement hsite hperf fun hb => by rw [hbody hb]; exact ⟨rfl, rfl⟩, ?_⟩
  rcases h.atRest with hnone | hfailed
  · exact Or.inl (hread.inflight.trans hnone)
  · exact Or.inr (hread.failed hfailed)

/-- A rollback of what escaped leaves nothing behind. -/
theorem Escaping.abort (h : Escaping ruleId v w) : Between ruleId v (w.abort ()) := by
  have hfailed : (w.abort ()).failed () = false := by simp [World.abort]
  refine ⟨h.contained.abort, ⟨h.faults, ?_⟩, Or.inl ?_⟩
  · rw [hfailed]
    exact ⟨fun hf => absurd hf (by simp), fun ht => absurd ht h.clean⟩
  · rw [World.abort, List.filter_eq_nil_iff]
    simp

end World

section Round

variable {α : Type} {ruleId : RuleId} {v w : World Unit}

/-- Run alone, from `w`, `p` ends in `Q` if it returns and in `E` if it raises. -/
abbrev alone (Q : α → World Unit → Prop) (E : World Unit → Prop) (p : Prog α)
    (w : World Unit) : Prop :=
  Coro.wp (World.perform ()) (fun _ _ _ => True) Eq (fun _ _ => True) Q (fun _ => E) p w

/-- A rule class reads candles, and a failed read is swallowed. -/
theorem between_reads {ρ : α → Prop} {p : Prog α} (hp : p.Uses Op.readsCandles ρ)
    (h : World.Between ruleId v w) :
    alone (fun _ w' => World.Between ruleId v w') (World.Between ruleId v) p w := by
  refine Coro.wp_mono (fun _ _ hq => hq.2) (fun _ _ he => he)
    (Coro.wp_of_uses (I := World.Between ruleId v) (R := Eq) (fun _ _ hs hI => hs ▸ hI) ?_ hp h)
  intro o inp s r s' ho _ hperf hI
  refine ⟨trivial, ?_⟩
  cases o with
  | selectCandles query =>
      exact (hI.tick inp.elapsed).statement rfl hperf fun hb => (World.answer_inj hb).2.symm
  | _ => exact ho.elim

/-- The cooldown check, of a usable session: a failed query escapes. -/
theorem between_isInCooldown {rule : Rule} {symbol : String}
    (h : World.Between ruleId v w) (hw : w.failed () = false) :
    alone (fun _ w' => World.Between ruleId v w') (World.Escaping ruleId v)
      (isInCooldown rule symbol) w := by
  have hclean : ¬ World.Tainted v w := by
    rw [← h.track.failed, hw]
    simp
  unfold isInCooldown
  split
  next => exact h
  next =>
    intro s₁ hs inp r w₁ _ hperf
    subst hs
    have hcontained := World.contained_perform h.contained hperf trivial
    refine ⟨trivial, ?_⟩
    cases r with
    | error e =>
        obtain ⟨hf, -, -⟩ | ⟨-, rfl, -⟩ | ⟨-, -, hb⟩ := World.statement_cases hperf
        · exact absurd (hw.symm.trans hf) (by simp)
        · -- the query was made to fail: its site is not swallowed
          refine ⟨hcontained, h.track.faults.trans (List.prefix_append _ _), ?_⟩
          rw [World.tainted_concat (w := w) h.track.faults rfl]
          simpa [Site.swallowed] using hclean
        · split at hb
          next => exact absurd hb (by simp)
          next => exact absurd hb (by simp)
    | ok last =>
        -- the query was answered, and changes nothing
        have hw₁ : w₁ = w.tick inp.elapsed := by
          obtain ⟨-, hb⟩ := World.statement_ok hperf
          split at hb
          next => exact (World.answer_inj hb).2.symm
          next => exact absurd hb (by simp)
        have hbetween : World.Between ruleId v w₁ := hw₁ ▸ h.tick inp.elapsed
        cases last with
        | none => exact hbetween
        | some last =>
            cases hseconds : rule.cooldownSeconds with
            | none =>
              -- no `cooldown_seconds` to compare with: a `TypeError`, with the session as it was
              refine ⟨hbetween.contained, hbetween.track.faults, ?_⟩
              rw [← hbetween.track.failed, hw₁, show (w.tick inp.elapsed).failed () = false from hw]
              simp
            | some cooldown =>
              intro s₂ hs inp' now w₂ _ hperf'
              subst hs
              obtain ⟨-, rfl⟩ := World.answer_inj hperf'
              exact ⟨trivial, hbetween.tick inp'.elapsed⟩

/-! ### The insert, the commit and the refresh. -/

/-- What the insert in its savepoint leaves behind. -/
def AfterInsert (ruleId : RuleId) (v : World Unit) : Option AlertId → World Unit → Prop
  | none, w => World.Between ruleId v w
  | some id, w => World.Open ruleId v id w

theorem between_insertInSavepoint {alert : Alert} (hid : alert.ruleId = ruleId)
    (h : World.Between ruleId v w) :
    alone (AfterInsert ruleId v) (World.Between ruleId v) (insertInSavepoint alert) w := by
  -- an `IntegrityError` is swallowed here, any other error by `evaluate`
  have hcatch : ∀ {e : PyErr} {u : World Unit}, World.Between ruleId v u →
      alone (AfterInsert ruleId v) (World.Between ruleId v)
        (if e.cls = .integrityError then pure none else throw e) u := by
    intro e u hu
    split
    next => exact hu
    next => exact hu
  unfold insertInSavepoint
  refine Coro.wp_tryCatch (Coro.wp_bind ?_)
  intro s₁ hs inp r w₁ _ hperf
  subst hs
  have h₁ := (h.tick inp.elapsed).statement rfl hperf fun hb => (World.answer_inj hb).2.symm
  refine ⟨trivial, ?_⟩
  cases r with
  | error e => exact hcatch h₁
  | ok _ =>
      refine Coro.wp_bind ?_
      intro s₂ hs inp' r w₂ _ hperf'
      subst hs
      refine ⟨trivial, ?_⟩
      have hcontained := World.contained_perform h₁.contained hperf' hid
      obtain ⟨⟨e, rfl⟩, rfl | rfl⟩ | ⟨hgood, rfl, rfl, hnew⟩ := World.insertAlert_cases hperf'
      · exact hcatch (h₁.tick inp'.elapsed)
      · -- undone to the savepoint: the site is not swallowed, and need not be
        refine hcatch ⟨hcontained, ⟨h₁.track.faults.trans (List.prefix_append _ _), ?_⟩,
          h₁.atRest⟩
        show w₁.failed () = true ↔ _
        rw [World.tainted_concat (w := w₁) h₁.track.faults rfl]
        simpa [Site.swallowed] using h₁.track.failed
      · have hnone : w₁.inflight = [] := h₁.atRest.resolve_right (by simp [hgood])
        refine ⟨hcontained, h₁.track.of_eq rfl rfl, { alert with
          id := inp'.uuid, createdAt := (w₁.tick inp'.elapsed).clock }, rfl, ?_, ?_⟩
        · show w₁.inflight ++ _ = _
          rw [hnone]
          rfl
        · rw [Table.get_eq_none]
          exact fun a ha => hnew a (List.mem_append_left _ ha)

/-- What `evaluate` answers. -/
def Evaluated (ruleId : RuleId) (v : World Unit) (out : Option AlertObj) (w : World Unit) :
    Prop :=
  World.Between ruleId v w ∧ ∀ alert, out = some alert → w.failed () = false ∧
    ∃ loaded, alert = AlertObj.ofRow loaded ∧ World.Owned ruleId loaded.id w

theorem Evaluated.nothing (h : World.Between ruleId v w) : Evaluated ruleId v none w :=
  ⟨h, fun _ h => absurd h (by simp)⟩

theorem between_refreshAlert {id : AlertId} (h : World.Between ruleId v w)
    (hw : w.failed () = false) (howned : World.Owned ruleId id w) :
    alone (Evaluated ruleId v) (World.Between ruleId v)
      (refreshAlert id >>= fun row => pure (some (AlertObj.ofRow { row with id := id }))) w := by
  intro s₁ hs inp r w₁ _ hperf
  subst hs
  have h₁ := (h.tick inp.elapsed).statement rfl hperf fun hb => (World.answer_inj hb).2.symm
  refine ⟨trivial, ?_⟩
  cases r with
  | error e => exact h₁
  | ok row =>
      obtain ⟨-, hb⟩ := World.statement_ok hperf
      obtain ⟨-, rfl⟩ := World.answer_inj hb
      refine ⟨h₁, fun alert halert => ⟨hw, { row with id := id }, ?_, howned⟩⟩
      exact (Option.some.inj halert).symm

theorem between_commitNewAlert {inserted : Option AlertId} (h : AfterInsert ruleId v inserted w) :
    alone (Evaluated ruleId v) (World.Between ruleId v) (commitNewAlert inserted) w := by
  unfold commitNewAlert
  cases inserted with
  | none => exact .nothing h
  | some id =>
      obtain ⟨hcontained, htrack, row, hrow, hin, hget⟩ := h
      intro s₁ hs inp r w₁ _ hperf
      subst hs
      refine ⟨trivial, ?_⟩
      have hcontained₁ := World.contained_perform hcontained hperf trivial
      have htrack₁ : World.Track v w₁ := by
        have hticked : World.Track v (w.tick inp.elapsed) := htrack.of_eq rfl rfl
        refine hticked.statement rfl hperf fun hb => ?_
        obtain ⟨-, rfl⟩ := World.answer_inj hb
        exact ⟨rfl, rfl⟩
      cases r with
      | error e =>
          -- the insert stays open, in a transaction that has failed
          refine ⟨hcontained₁, htrack₁, Or.inr ?_⟩
          obtain ⟨hf, rfl, -⟩ | ⟨-, rfl, -⟩ | ⟨-, -, hb⟩ := World.statement_cases hperf
          · exact hf
          · simp [World.fail]
          · exact absurd (World.answer_inj hb).1 (by simp)
      | ok _ =>
          obtain ⟨hgood, hb⟩ := World.statement_ok hperf
          have hw₁ := (World.answer_inj hb).2
          have hbetween : World.Between ruleId v w₁ := by
            refine ⟨hcontained₁, htrack₁, Or.inl ?_⟩
            rw [← hw₁]
            show List.filter _ _ = []
            rw [List.filter_eq_nil_iff]
            simp
          have howned : World.Owned ruleId id w₁ := by
            refine ⟨row, ?_, hcontained.own ((), row) (by rw [hin]; simp)⟩
            rw [← hw₁]
            show (((w.inflight.filter fun e => e.1 = ()).map Prod.snd).foldl
              Table.insertNew w.alerts).get id = some row
            rw [hin, ← hrow]
            exact Table.get_insertNew_self (by rw [hrow]; exact hget)
          have hgood₁ : w₁.failed () = false := by rw [← hw₁]; exact hgood
          exact between_refreshAlert hbetween hgood₁ howned

/-- **`_create_alert`.** -/
theorem between_createAlert {rule : Rule} {candle : Candle} {windowStart windowEnd : Time}
    {triggerValue : Rat} (h : World.Between rule.id v w) :
    alone (Evaluated rule.id v) (World.Between rule.id v)
      (createAlert rule candle windowStart windowEnd triggerValue) w := by
  unfold createAlert
  refine Coro.wp_bind ?_
  intro s₁ hs inp r w₁ _ hperf
  subst hs
  have h₁ : World.Between rule.id v w₁ := by
    have hcontained := World.contained_perform h.contained hperf trivial
    obtain ⟨-, rfl⟩ := World.answer_inj hperf
    exact ⟨hcontained, h.track.of_eq rfl rfl, h.atRest⟩
  refine ⟨trivial, Coro.wp_bind ?_⟩
  exact Coro.wp_mono (fun _ _ hq => between_commitNewAlert hq) (fun _ _ he => he)
    (between_insertInSavepoint rfl h₁)

/-- **`evaluate`, on a usable session.**  It returns with the transaction failed
iff a failure was swallowed, and an exception that escapes leaves none. -/
theorem between_evaluate {ruleClasses : RuleClasses} {rule : Rule} {candle : Candle}
    (h : World.Between rule.id v w) (hw : w.failed () = false) :
    alone (Evaluated rule.id v) (World.Escaping rule.id v)
      (evaluate ruleClasses rule candle) w := by
  unfold evaluate
  refine Coro.wp_bind ?_
  intro s₁ hs inp r w₁ _ hperf
  subst hs
  have hcontained := World.contained_perform h.contained hperf trivial
  obtain ⟨-, rfl⟩ := World.answer_inj hperf
  refine ⟨trivial, Coro.wp_bind (Coro.wp_mono ?_ (fun _ _ he => he)
    (between_isInCooldown ⟨hcontained, h.track.of_eq rfl rfl, h.atRest⟩ hw))⟩
  intro inCooldown u hu
  split
  next => exact .nothing hu
  next =>
    split
    next => exact .nothing hu
    next cls _ =>
      refine Coro.wp_tryCatch (Coro.wp_mono (fun _ _ hq => hq) (fun _ _ he => .nothing he) ?_)
      unfold evaluateClass
      refine Coro.wp_bind (Coro.wp_mono ?_ (fun _ _ he => he)
        (between_reads (cls.reads rule.config candle) hu))
      intro value u hu
      split
      next => exact .nothing hu
      next => exact between_createAlert hu

/-! ## §3. The session inside `dispatch`. -/

/-- While an alert of the rule is delivered. -/
structure Delivering (ruleId : RuleId) (v : World Unit) (id : AlertId) (w : World Unit) :
    Prop extends World.Escaping ruleId v w where
  inflight : w.inflight = []
  owned : World.Owned ruleId id w

/-- A statement of `dispatch` that fails is not swallowed. -/
theorem delivers_faults {loaded : Alert} {S : DeliveryStatus → Prop} {o : Op} {inp : Input}
    {w' : World Unit} {r : Resp o} (ho : o.delivers loaded S)
    (hperf : World.perform () o inp w = some (r, w')) :
    w'.inflight = w.inflight ∧ (w'.faults = w.faults ∨
      ∃ site : Site, site.swallowed = false ∧ w'.faults = w.faults ++ [((), site)]) := by
  cases World.perform_effect hperf with
  | nothing | post => exact ⟨rfl, Or.inl rfl⟩
  | delivery alert records =>
      have hapart := World.storeDelivery_apart (w.tick inp.elapsed) () alert records
      exact ⟨hapart.inflight, Or.inl hapart.faults⟩
  | fault hsite =>
      cases o with
      | selectRule _ | commitDelivery _ _ =>
          obtain rfl := Option.some.inj hsite
          exact ⟨rfl, Or.inr ⟨_, rfl, rfl⟩⟩
      | utcnow | uniform _ | payload _ _ _ | post _ _ _ => exact absurd hsite (by simp [Op.site])
      | _ => exact ho.elim
  | abort hop =>
      rcases hop with rfl | rfl
      · exact ho.elim
      · exact ho.elim
  | refused hop =>
      obtain ⟨_, rfl⟩ | ⟨_, _, _, rfl⟩ := hop
      · exact ho.elim
      · exact ho.elim
  | call | undone | insert | commit | candle | cursor => exact ho.elim

theorem Delivering.perform {loaded : Alert} {S : DeliveryStatus → Prop} {o : Op} {inp : Input}
    {w' : World Unit} {r : Resp o} (h : Delivering ruleId v loaded.id w)
    (ho : o.delivers loaded S) (hperf : World.perform () o inp w = some (r, w')) :
    Delivering ruleId v loaded.id w' := by
  have hconcerns : o.concerns ruleId w := by
    obtain ⟨stored, hstored, hrule⟩ := h.owned
    cases o <;> simp only [Op.delivers] at ho <;> try trivial
    case commitDelivery alert records =>
      intro row hrow
      rw [ho.2.1, hstored] at hrow
      rw [← Option.some.inj hrow]
      exact hrule
  obtain ⟨hinflight, hfaults⟩ := delivers_faults ho hperf
  have howned : World.Owned ruleId loaded.id w' := by
    obtain ⟨stored, hstored, hrule⟩ := h.owned
    obtain ⟨stored', hstored', hrule'⟩ := (World.perform_kept hperf).alerts _ _ hstored
    exact ⟨stored', hstored', hrule'.trans hrule⟩
  refine ⟨⟨World.contained_perform h.contained hperf hconcerns, ?_, ?_⟩,
    hinflight.trans h.inflight, howned⟩
  · rcases hfaults with hsame | ⟨site, -, hmore⟩
    · rw [hsame]
      exact h.faults
    · rw [hmore]
      exact h.faults.trans (List.prefix_append _ _)
  · rcases hfaults with hsame | ⟨site, hsite, hmore⟩
    · rw [World.Tainted, hsame]
      exact h.clean
    · rw [World.tainted_concat h.faults hmore, hsite]
      simpa using h.clean

/-- A commit that answers was made on a usable session. -/
theorem standing_commitDelivery {alert : AlertObj} {records : List AlertDeliveryAttempt} :
    alone (fun _ w' => w'.failed () = false) (fun _ => True)
      (commitDelivery alert records) w := by
  intro s₁ hs inp r w₁ _ hperf
  refine ⟨trivial, ?_⟩
  cases r with
  | error e => trivial
  | ok _ =>
      obtain ⟨hgood, hb⟩ := World.statement_ok hperf
      simp only [World.storeDelivery] at hb
      split at hb
      next => exact absurd hb (by simp)
      next =>
        obtain ⟨-, rfl⟩ := World.answer_inj hb
        exact hgood

/-- A channel that delivered has committed. -/
theorem standing_dispatchChannel {ch : Channel} {send : Alert → Rule → Prog Bool}
    {alert : AlertObj} {rule : Rule} {n : Nat} {t : Time}
    {records : List AlertDeliveryAttempt} :
    alone (fun out w' => out.1 = true → w'.failed () = false) (fun _ => True)
      (dispatchChannel ch send alert rule n t records) w := by
  unfold dispatchChannel
  split
  next =>
    refine Coro.wp_tryCatch (Coro.wp_bind (Coro.wp_mono ?_ (fun _ _ _ => ?_)
      (Coro.wp_trivial _ w)))
    · intro success u _
      refine Coro.wp_bind (Coro.wp_mono ?_ (fun _ _ _ => ?_) (Coro.wp_trivial _ u))
      · intro endTime u' _
        split
        next =>
          refine Coro.wp_bind (Coro.wp_mono (fun _ _ hq _ => hq) (fun _ _ _ => ?_)
            standing_commitDelivery)
          exact Coro.wp_bind (Coro.wp_mono (fun _ _ _ h => absurd h (by simp))
            (fun _ _ _ => trivial) (Coro.wp_trivial _ _))
        next => exact fun h => absurd h (by simp)
      · exact Coro.wp_bind (Coro.wp_mono (fun _ _ _ h => absurd h (by simp))
          (fun _ _ _ => trivial) (Coro.wp_trivial _ _))
    · exact Coro.wp_bind (Coro.wp_mono (fun _ _ _ h => absurd h (by simp))
        (fun _ _ _ => trivial) (Coro.wp_trivial _ _))
  next => exact fun h => absurd h (by simp)

/-- **A `dispatch` that returns leaves the session usable**: it returns after a
statement that answered. -/
theorem standing_dispatch {alert : AlertObj} :
    alone (fun _ w' => w'.failed () = false) (fun _ => True) (dispatch alert) w := by
  unfold dispatch
  intro s₁ hs inp r w₁ _ hperf
  refine ⟨trivial, ?_⟩
  cases r with
  | error e => trivial
  | ok rule =>
      obtain ⟨hgood, hb⟩ := World.statement_ok hperf
      obtain ⟨-, rfl⟩ := World.answer_inj hb
      cases rule with
      | none => exact hgood
      | some rule =>
          show alone _ _ (utcnow >>= fun startTime => _) _
          refine Coro.wp_bind (Coro.wp_mono ?_ (fun _ _ _ => trivial) (Coro.wp_trivial _ _))
          intro startTime u _
          refine Coro.wp_bind (Coro.wp_mono ?_ (fun _ _ _ => trivial) standing_dispatchChannel)
          intro ⟨delivered, records⟩ u hu
          dsimp only
          split
          next hd => exact hu hd
          next =>
            refine Coro.wp_bind (Coro.wp_mono ?_ (fun _ _ _ => trivial)
              standing_dispatchChannel)
            intro ⟨delivered, records⟩ u hu
            dsimp only
            split
            next hd => exact hu hd
            next => exact standing_commitDelivery

/-- **A round of the inner loop**, begun on a usable session with no insert open:
it touches its rule's alerts only, and leaves the session usable iff no failure
was swallowed. -/
theorem contained_processRule {ruleClasses : RuleClasses} {rule : Rule} {candle : Candle}
    (h : World.Between rule.id v w) (hw : w.failed () = false) :
    alone (fun _ w' => World.Between rule.id v w') (fun _ => False)
      (processRule ruleClasses candle rule) w := by
  unfold processRule
  have hrollback : ∀ {u : World Unit}, World.Escaping rule.id v u →
      alone (fun _ w' => World.Between rule.id v w') (fun _ => False) rollback u := by
    intro u hu s₁ hs inp r w₁ _ hperf
    subst hs
    obtain ⟨-, rfl⟩ := World.answer_inj hperf
    have htick : World.Escaping rule.id v (u.tick inp.elapsed) :=
      ⟨hu.contained.tick _, hu.faults, hu.clean⟩
    exact ⟨trivial, htick.abort⟩
  refine Coro.wp_tryCatch (Coro.wp_bind (Coro.wp_mono ?_ (fun _ _ he => hrollback he)
    (between_evaluate h hw)))
  intro alert u hu
  split
  next => exact hu.1
  next alert =>
    obtain ⟨hgood, loaded, rfl, howned⟩ := hu.2 alert rfl
    have hnone : u.inflight = [] := hu.1.atRest.resolve_right (by rw [hgood]; simp)
    have hclean : ¬ World.Tainted v u := by
      rw [← hu.1.track.failed, hgood]
      simp
    -- an alert came back, so the session is usable and nothing is open
    have hstart : Delivering rule.id v loaded.id u :=
      ⟨⟨hu.1.contained, hu.1.track.faults, hclean⟩, hnone, howned⟩
    have hdeliver : alone (fun _ w' => True ∧ Delivering rule.id v loaded.id w')
        (Delivering rule.id v loaded.id) (dispatch (AlertObj.ofRow loaded)) u := by
      refine Coro.wp_of_uses (R := Eq) (fun _ _ hs hI => hs ▸ hI) ?_
        (uses_dispatch (S := fun _ => True) trivial trivial) hstart
      intro o inp s r s' ho _ hperf hI
      exact ⟨trivial, hI.perform ho hperf⟩
    refine Coro.wp_mono ?_ ?_ (Coro.wp_and hdeliver standing_dispatch)
    · rintro _ u' ⟨⟨-, hd⟩, hgood'⟩
      refine ⟨hd.contained, ⟨hd.faults, ?_⟩, Or.inl hd.inflight⟩
      rw [hgood']
      exact ⟨fun hf => absurd hf (by simp), fun ht => absurd ht hd.clean⟩
    · rintro _ u' ⟨hd, -⟩
      exact hrollback hd.toEscaping

end Round

end Pulse
