/-
  Pulse.Dispatch.DeliveredFinal
  ─────────────────────────────
  **DELIVERED IS FINAL, AND WHEN IT IS NOT.**

  Any number of workers share the database.  Two sessions can undo a delivery: a
  pass on an alert's last attempt, which stores `failed` over whatever is there,
  and a dispatch whose refresh came after somebody else's commit, which stores
  `pending`.

    • `delivered_final`       — no delivery is undone as long as last attempts
                                have the alert to themselves and a dispatch
                                finds it pending,
    • `delivered_final_fails` — a pass on the last attempt undoes a delivery.
-/
import Pulse.Dispatch.Delivery
import Pulse.Dispatch.Stale

namespace Pulse

open Pulse.Async Pulse.Store

namespace Delivery

variable {ι : Type} [DecidableEq ι] {M : Nat} {a : AlertId} {c₀ c c' : Delivery ι}

/-! ## §1. The condition. -/

/-- A round on this row, if it fails, is the last. -/
def LastAttempt (M : Nat) (row : Alert) : Prop := M ≤ row.deliveryAttempts + 1

/-- The alert whose stored row a session is about to refresh. -/
def refreshes (p : Prog Unit) : Option AlertId :=
  match p with
  | .await (.refreshAlert id) _ => some id
  | _ => none

/-- Care: a refresh before a dispatch finds the alert pending, and an alert on its
last attempt is not loaded while another session has it in hand, nor loaded by
anybody else while a session has it in hand. -/
def Careful (M : Nat) (c : Delivery ι) : Action ι → Prop
  | .answer i inp =>
      (∀ id ∈ refreshes (c.task i), ∀ row ∈ c.world.alerts.get id,
        row.deliveryStatus = .pending) ∧
      ∀ row ∈ loads (c.task i) inp, ∀ j, j ≠ i → (c.task j).finished = false →
        ∀ row' ∈ c.hand j, row'.id = row.id → ¬ LastAttempt M row ∧ ¬ LastAttempt M row'
  | _ => True

/-! ## §2. The sessions' roles. -/

/-- What session `i` is doing about alert `a`. -/
inductive Role (M : Nat) (a : AlertId) (c : Delivery ι) (i : ι) : Prop where
  | unconcerned (h : Unconcerned M a (c.task i))
  /-- Has created the alert and is about to refresh it. -/
  | fresh (born : (c.world.alerts.get a).isSome) (hand : ∃ row ∈ c.hand i, row.id = a)
      (h : c.task i = deliver a)
  /-- Can store nothing but `delivered` or what it loaded. -/
  | gentle (born : (c.world.alerts.get a).isSome) (hand : ∃ row ∈ c.hand i, row.id = a)
      (h : Pulse.gentle i a (fun _ => True) (c.task i) c.world)
  /-- On the last attempt, and alone. -/
  | firm (born : (c.world.alerts.get a).isSome)
      (hand : ∃ row ∈ c.hand i, row.id = a ∧ LastAttempt M row)
      (h : Pulse.firm i a (fun _ => True) (c.task i) c.world)
      (others : ∀ j, j ≠ i → Unconcerned M a (c.task j))

/-- Rules are there for the alert, and every session has its role. -/
structure Guarded (M : Nat) (a : AlertId) (c : Delivery ι) : Prop where
  linked : ∀ row, c.world.alerts.get a = some row →
    (c.world.rules.get row.ruleId).isSome
  role : ∀ i, Role M a c i

/-- A session keeps its role while another session, or nobody, moves. -/
theorem Role.keep {j : ι} (h : Role M a c j) (htask : c'.task j = c.task j)
    (hhand : c'.hand j = c.hand j) (hr : RulesStay c.world c'.world)
    (hborn : (c.world.alerts.get a).isSome → (c'.world.alerts.get a).isSome)
    (hfirm : (c.world.alerts.get a).isSome →
      (∃ row ∈ c.hand j, row.id = a ∧ LastAttempt M row) →
      (∀ i, i ≠ j → Unconcerned M a (c.task i)) →
      RowStays a c.world c'.world ∧ ∀ i, i ≠ j → Unconcerned M a (c'.task i)) :
    Role M a c' j := by
  cases h with
  | unconcerned h => exact .unconcerned (htask ▸ h)
  | fresh born hand h => exact .fresh (hborn born) (hhand ▸ hand) (htask.trans h)
  | gentle born hand h =>
      refine .gentle (hborn born) (hhand ▸ hand) ?_
      rw [htask]
      exact Coro.wp_rely (fun _ _ _ h h' id hid => h' id (h id hid)) (fun _ _ _ _ h => h)
        (fun _ _ _ _ h => h) hr h
  | firm born hand h others =>
      obtain ⟨hrow, hothers⟩ := hfirm born hand others
      refine .firm (hborn born) (hhand ▸ hand) ?_ hothers
      rw [htask]
      exact Coro.wp_rely (fun _ _ _ h h' => h'.trans h) (fun _ _ _ _ h => h)
        (fun _ _ _ _ h => h) hrow h

/-- A finished session has nothing to do with the alert. -/
theorem Role.of_finished {j : ι} (h : (c.task j).finished = true) : Role M a c j :=
  .unconcerned (unconcerned_of_finished h)

/-- A session that has nothing of the alert in hand is unconcerned. -/
theorem Role.unconcerned_of_hand {j : ι} (h : Role M a c j)
    (hhand : (c.task j).finished = false → ∀ row ∈ c.hand j, row.id ≠ a) :
    Unconcerned M a (c.task j) := by
  cases hf : (c.task j).finished with
  | true => exact unconcerned_of_finished hf
  | false =>
      cases h with
      | unconcerned h => exact h
      | fresh _ hand _ =>
          obtain ⟨row, hrow, hid⟩ := hand
          exact absurd hid (hhand hf row hrow)
      | gentle _ hand _ =>
          obtain ⟨row, hrow, hid⟩ := hand
          exact absurd hid (hhand hf row hrow)
      | firm _ hand _ _ =>
          obtain ⟨row, hrow, hid, -⟩ := hand
          exact absurd hid (hhand hf row hrow)

/-! ## §3. The steps. -/

/-- Session `i` answers an operation that leaves the alert alone, and is
unconcerned afterwards. -/
theorem Guarded.answer_untouched {i : ι} {inp : Input} {o : Op} {r : Resp o}
    (h : Guarded M a c) (hperf : World.perform i o inp c.world = some (r, c'.world))
    (ho : ¬ o.touches a)
    (hrest : ∀ j, j ≠ i → c'.task j = c.task j ∧ c'.hand j = c.hand j)
    (hnext : Unconcerned M a (c'.task i)) : Guarded M a c' := by
  have hr := rulesStay_of_perform hperf
  have hrow : RowStays a c.world c'.world :=
    congrArg Ledger.row (World.perform_ledger hperf ho)
  refine ⟨fun row hget => hr _ (h.linked row (hrow.symm.trans hget)), fun j => ?_⟩
  by_cases hji : j = i
  · subst hji
    exact .unconcerned hnext
  · refine (h.role j).keep (hrest j hji).1 (hrest j hji).2 hr
      (fun hborn => by rw [hrow]; exact hborn) (fun _ _ hothers => ⟨hrow, fun k hk => ?_⟩)
    by_cases hki : k = i
    · rw [hki]; exact hnext
    · rw [(hrest k hki).1]; exact hothers k hk

/-- Session `i`, which is concerned with the alert, answers an operation. -/
theorem Guarded.answer_concerned {i : ι} {inp : Input} {o : Op} {r : Resp o}
    (h : Guarded M a c) (hperf : World.perform i o inp c.world = some (r, c'.world))
    (hrest : ∀ j, j ≠ i → c'.task j = c.task j ∧ c'.hand j = c.hand j)
    (hconcerned : ¬ Unconcerned M a (c.task i))
    (hborn : (c.world.alerts.get a).isSome) (hnext : Role M a c' i) : Guarded M a c' := by
  have hr := rulesStay_of_perform hperf
  obtain ⟨row, hrow⟩ := Option.isSome_iff_exists.mp hborn
  obtain ⟨row', hrow', hid⟩ := (World.perform_kept hperf).alerts a row hrow
  refine ⟨fun row'' hget => ?_, fun j => ?_⟩
  · rw [hrow', Option.some.injEq] at hget
    subst hget
    rw [hid]
    exact hr _ (h.linked row hrow)
  · by_cases hji : j = i
    · subst hji
      exact hnext
    · refine (h.role j).keep (hrest j hji).1 (hrest j hji).2 hr
        (fun _ => Option.isSome_iff_exists.mpr ⟨row', hrow'⟩) (fun _ _ hothers => ?_)
      exact absurd (hothers i (fun hij => hji hij.symm)) hconcerned

/-- A pass loads its rows. -/
theorem Guarded.answer_load {i : ι} {inp : Input} {r : Resp (.selectPending M)}
    (h : Guarded M a c)
    (hperf : World.perform i (.selectPending M) inp c.world = some (r, c'.world))
    (htask : c'.task i
      = (Coro.ofExcept r >>= fun alerts => Coro.forEach alerts (retryAlert M)))
    (hrest : ∀ j, j ≠ i → c'.task j = c.task j ∧ c'.hand j = c.hand j)
    (hhand : c'.hand i = c.hand i ++ inp.rows)
    (hcare : ∀ row ∈ inp.rows, ∀ j, j ≠ i → (c.task j).finished = false →
      ∀ row' ∈ c.hand j, row'.id = row.id → ¬ LastAttempt M row ∧ ¬ LastAttempt M row') :
    Guarded M a c' := by
  obtain haloof | ⟨⟨row, hmem, hid⟩, rfl, hpage⟩ := load_cases (a := a) hperf
  · exact h.answer_untouched hperf (fun ho => ho) hrest
      (Or.inl (by rw [htask]; exact haloof))
  · have htask : c'.task i = Coro.forEach inp.rows (retryAlert M) := htask
    have hr := rulesStay_of_perform hperf
    have hrow : RowStays a c.world c'.world :=
      congrArg Ledger.row (World.perform_ledger hperf (fun ho => ho))
    have hmatch : ∀ row ∈ inp.rows, row.id = a →
        c'.world.alerts.get a = some row ∧ row.deliveryStatus = .pending := by
      intro row hmem hid
      obtain ⟨hstored, hpend, -⟩ := World.stored_of_page hpage hmem
      rw [hid] at hstored
      exact ⟨hstored, hpend⟩
    obtain ⟨hget, hp⟩ := hmatch row hmem hid
    have hborn : (c'.world.alerts.get a).isSome := Option.isSome_iff_exists.mpr ⟨row, hget⟩
    have hhanded : row ∈ c'.hand i := by
      rw [hhand]
      exact List.mem_append_right _ hmem
    have hlinked : ∀ row', c'.world.alerts.get a = some row' →
        (c'.world.rules.get row'.ruleId).isSome :=
      fun row' hget' => hr _ (h.linked row' (hrow.symm.trans hget'))
    refine ⟨hlinked, fun j => ?_⟩
    by_cases hlast : LastAttempt M row
    · -- nobody else has the alert in hand
      have hothers : ∀ j, j ≠ i → Unconcerned M a (c'.task j) := by
        intro j hji
        rw [(hrest j hji).1]
        refine (h.role j).unconcerned_of_hand fun hf row' hrow' hid' => ?_
        exact (hcare row hmem j hji hf row' hrow' (hid'.trans hid.symm)).1 hlast
      by_cases hji : j = i
      · subst hji
        refine .firm hborn ⟨row, hhanded, hid, hlast⟩ ?_ hothers
        rw [htask]
        refine firm_pass inp.rows (hpage.nodup_map (World.pendingAlerts_nodup _ M)) ?_
        intro row' hget'
        rw [hget, Option.some.injEq] at hget'
        subst hget'
        rw [hp]
        simp
      · exact .unconcerned (hothers j hji)
    · by_cases hji : j = i
      · subst hji
        refine .gentle hborn ⟨row, hhanded, hid⟩ ?_
        rw [htask]
        refine gentle_pass inp.rows ?_ ?_
        · intro row' hmem' hid'
          obtain rfl := Option.some.inj (hget.symm.trans (hmatch row' hmem' hid').1)
          exact Nat.not_le.mp hlast
        · exact fun row' hmem' hid' => hlinked row' (hmatch row' hmem' hid').1
      · cases hf : (c.task j).finished with
        | true => exact .of_finished (by rw [(hrest j hji).1]; exact hf)
        | false =>
            -- a session on its last attempt would have kept the alert to itself
            refine (h.role j).keep (hrest j hji).1 (hrest j hji).2 hr
              (fun _ => hborn) (fun _ hfirm _ => ?_)
            obtain ⟨row', hrow', hid', hlast'⟩ := hfirm
            exact absurd hlast'
              (hcare row hmem j hji hf row' hrow' (hid'.trans hid.symm)).2

/-- The refresh before a first delivery finds the alert pending. -/
theorem Guarded.answer_refresh {i : ι} {inp : Input} {r : Resp (.refreshAlert a)}
    (h : Guarded M a c)
    (hperf : World.perform i (.refreshAlert a) inp c.world = some (r, c'.world))
    (hrest : ∀ j, j ≠ i → c'.task j = c.task j ∧ c'.hand j = c.hand j)
    (hborn : (c.world.alerts.get a).isSome) (hand : ∃ row ∈ c'.hand i, row.id = a)
    (hpend : ∀ row, c.world.alerts.get a = some row → row.deliveryStatus = .pending)
    (hconcerned : ¬ Unconcerned M a (c.task i))
    (herr : ∀ e, r = .error e → (c'.task i).finished = true)
    (hok : ∀ row, r = .ok row →
      c'.task i = dispatch (AlertObj.ofRow { row with id := a })) : Guarded M a c' := by
  have hrow : RowStays a c.world c'.world :=
    congrArg Ledger.row (World.perform_ledger hperf (fun ho => ho))
  refine h.answer_concerned hperf hrest hconcerned hborn ?_
  obtain ⟨-, -, e, he⟩ | ⟨-, -, e, -, he⟩ | ⟨-, -, hb⟩ := World.statement_cases hperf
  · exact .of_finished (herr e he)
  · exact .of_finished (herr e he)
  · obtain ⟨row, hget⟩ := Option.isSome_iff_exists.mp hborn
    have hget₁ : (c.world.tick inp.elapsed).alerts.get a = some row := hget
    obtain ⟨hr, -⟩ := World.answer_inj hb
    rw [hget₁] at hr
    refine .gentle (by rw [hrow]; exact hborn) hand ?_
    rw [hok row hr.symm]
    exact gentle_dispatch { row with id := a } (hpend row hget)

/-- **An answer** keeps every role and undoes no delivery. -/
theorem Guarded.answer {i : ι} {inp : Input} (h : Guarded M a c)
    (hcare : Careful M c (.answer i inp)) (hstep : step M c (.answer i inp) = some c') :
    Guarded M a c' ∧ StaysDelivered a c.world c'.world := by
  obtain ⟨hok, o, k, r, ht, hperf, htask, hrest, hhand⟩ := step_answer hstep
  have huntouched : ¬ o.touches a → StaysDelivered a c.world c'.world := fun ho =>
    RowStays.final (congrArg Ledger.row (World.perform_ledger hperf ho))
  have hstored : (c.world.alerts.get a).isSome → (c'.world.alerts.get a).isSome := by
    intro born
    obtain ⟨stored, hget⟩ := Option.isSome_iff_exists.mp born
    obtain ⟨stored', hget', -⟩ := (World.perform_kept hperf).alerts a stored hget
    exact Option.isSome_iff_exists.mpr ⟨stored', hget'⟩
  have hheld : ∀ row ∈ c.hand i, row ∈ c'.hand i := by
    intro row hrow
    rw [hhand]
    exact List.mem_append_left _ hrow
  by_cases hu : Unconcerned M a (c.task i)
  · -- at work on another alert, about to open a session for a pass, or about to load
    rcases hu with haloof | hstart | hstart
    · rw [ht] at haloof
      exact ⟨h.answer_untouched hperf haloof.1 hrest
        (Or.inl (by rw [htask]; exact haloof.2 r)), huntouched haloof.1⟩
    · rw [ht] at hstart
      cases hstart
      exact ⟨h.answer_untouched hperf (fun ho => ho) hrest
        (Or.inr (Or.inr (by rw [htask]; rfl))), huntouched (fun ho => ho)⟩
    · have hloads : loads (c.task i) inp = inp.rows := by rw [hstart]; rfl
      have hcare := hcare.2
      rw [hloads] at hhand hcare
      rw [ht] at hstart
      cases hstart
      exact ⟨h.answer_load hperf htask hrest hhand hcare, huntouched (fun ho => ho)⟩
  · cases h.role i with
    | unconcerned hun => exact absurd hun hu
    | fresh born hand hfresh =>
        have hrefresh : refreshes (c.task i) = some a := by rw [hfresh]; rfl
        rw [ht] at hfresh
        cases hfresh
        obtain ⟨row, hrow, hid⟩ := hand
        refine ⟨h.answer_refresh hperf hrest born ⟨row, hheld row hrow, hid⟩
          (hcare.1 a hrefresh) hu ?_ ?_, huntouched (fun ho => ho)⟩
        · rintro e rfl
          rw [htask]
          rfl
        · rintro row' rfl
          exact htask
    | gentle born hand hwp =>
        -- below the last attempt: it stores no failure over a delivery
        rw [ht] at hwp
        obtain ⟨hfinal, hk⟩ := hwp c.world (fun _ hid => hid) inp r c'.world hok hperf
        obtain ⟨row, hrow, hid⟩ := hand
        refine ⟨h.answer_concerned hperf hrest hu born
          (.gentle (hstored born) ⟨row, hheld row hrow, hid⟩ ?_), hfinal⟩
        rw [htask]
        exact hk
    | firm born hand hwp hothers =>
        -- on the last attempt, with the alert to itself
        rw [ht] at hwp
        obtain ⟨hfinal, hk⟩ := hwp c.world rfl inp r c'.world hok hperf
        obtain ⟨row, hrow, hid, hlast⟩ := hand
        refine ⟨h.answer_concerned hperf hrest hu born
          (.firm (hstored born) ⟨row, hheld row hrow, hid, hlast⟩ ?_ ?_), hfinal⟩
        · rw [htask]
          exact hk
        · intro j hji
          rw [(hrest j hji).1]
          exact hothers j hji

/-- A session whose task is over starts another one. -/
theorem Guarded.start {w : World ι} {i : ι} {t : Prog Unit} {rows : List Alert}
    (h : Guarded M a c) (hr : RulesStay c.world w)
    (hlinked : ∀ row, w.alerts.get a = some row → (w.rules.get row.ruleId).isSome)
    (hborn : (c.world.alerts.get a).isSome → RowStays a c.world w)
    (hown : (c.world.alerts.get a).isSome → Unconcerned M a t)
    (hnext : Role M a (c.start w i t rows) i) : Guarded M a (c.start w i t rows) := by
  refine ⟨hlinked, fun j => ?_⟩
  by_cases hji : j = i
  · subst hji
    exact hnext
  · refine (h.role j).keep (start_task_other _ _ _ _ hji) (start_hand_other _ _ _ _ hji) hr
      (fun hb => ?_) (fun hb _ hothers => ⟨hborn hb, fun k hk => ?_⟩)
    · rw [start_world, hborn hb]
      exact hb
    · by_cases hki : k = i
      · subst hki
        rw [start_task_self]
        exact hown hb
      · rw [start_task_other _ _ _ _ hki]
        exact hothers k hk

/-- The world changes outside the sessions and the alerts that exist. -/
theorem Guarded.env {w : World ι} (h : Guarded M a c) (hr : RulesStay c.world w)
    (hlinked : ∀ row, w.alerts.get a = some row → (w.rules.get row.ruleId).isSome)
    (hborn : (c.world.alerts.get a).isSome → RowStays a c.world w) :
    Guarded M a { c with pool := { c.pool with world := w } } :=
  ⟨hlinked, fun j => (h.role j).keep rfl rfl hr
    (fun hb => by rw [show RowStays a c.world w from hborn hb]; exact hb)
    (fun hb _ hothers => ⟨hborn hb, hothers⟩)⟩

omit [DecidableEq ι] in
/-- Storing a new alert changes no row that exists. -/
theorem rowStays_store {w : World ι} {row : Alert} (hcan : canStore w row = true)
    (hborn : (w.alerts.get a).isSome) : RowStays a w (store w row) := by
  refine Table.get_insertNew_other fun hid => ?_
  rw [← hid, (canStore_iff.mp hcan).2.2.2.1] at hborn
  exact absurd hborn (by simp)

omit [DecidableEq ι] in
theorem linked_store {w : World ι} {row : Alert} (hcan : canStore w row = true)
    (h : ∀ row, w.alerts.get a = some row → (w.rules.get row.ruleId).isSome) :
    ∀ row', (store w row).alerts.get a = some row' →
      ((store w row).rules.get row'.ruleId).isSome := by
  intro row' hget
  obtain ⟨hmem, hid⟩ := Table.get_eq_some.mp hget
  rcases Table.mem_insertNew hmem with hmem | rfl
  · exact h row' (Table.get_eq_some.mpr ⟨hmem, hid⟩)
  · exact (canStore_iff.mp hcan).2.2.2.2

/-- **One step** keeps every role and undoes no delivery. -/
theorem Guarded.step {act : Action ι} (h : Guarded M a c) (hcare : Careful M c act)
    (hstep : Delivery.step M c act = some c') :
    Guarded M a c' ∧ StaysDelivered a c.world c'.world := by
  cases act with
  | create i row =>
      obtain ⟨-, hcan, rfl⟩ := step_create hstep
      refine ⟨h.start (fun _ hid => hid) (linked_store hcan h.linked) (rowStays_store hcan)
        (fun hb => ?_) ?_, fun row' hrow' hd => ⟨row', ?_, hd⟩⟩
      · refine Or.inl (aloof_deliver fun hid => ?_)
        rw [← hid, (canStore_iff.mp hcan).2.2.2.1] at hb
        exact absurd hb (by simp)
      · -- the new alert is the one in question, or another
        by_cases hid : row.id = a
        · subst hid
          refine .fresh ?_ ⟨row, by simp, rfl⟩ (by simp)
          rw [start_world, store, Table.get_insertNew_self (canStore_iff.mp hcan).2.2.2.1]
          rfl
        · exact .unconcerned (Or.inl (by rw [start_task_self]; exact aloof_deliver hid))
      · exact Table.get_insertNew_of_some hrow' row
  | orphan row =>
      obtain ⟨hcan, rfl⟩ := step_orphan hstep
      exact ⟨h.env (fun _ hid => hid) (linked_store hcan h.linked) (rowStays_store hcan),
        fun row' hrow' hd => ⟨row', Table.get_insertNew_of_some hrow' row, hd⟩⟩
  | retry i =>
      obtain ⟨-, rfl⟩ := step_retry hstep
      -- a pass that begins has loaded nothing yet
      have hpass : Unconcerned M a (processPendingAlerts M) := Or.inr (Or.inl rfl)
      exact ⟨h.start (fun _ hid => hid) h.linked (fun _ => rfl) (fun _ => hpass)
        (.unconcerned (by rw [start_task_self]; exact hpass)),
        fun row hrow hd => ⟨row, hrow, hd⟩⟩
  | answer i inp => exact h.answer hcare hstep
  | edit rule =>
      obtain rfl := Option.some.inj hstep
      exact ⟨h.env (rules_editRule _ rule)
        (fun row hrow => rules_editRule _ rule _ (h.linked row hrow)) (fun _ => rfl),
        fun row hrow hd => ⟨row, hrow, hd⟩⟩

/-! ## §4. Delivered is final. -/

/-- Nobody is at work, and every alert has its rule. -/
structure Quiescent (c : Delivery ι) : Prop where
  idle : ∀ j, (c.task j).finished = true
  linked : ∀ a row, c.world.alerts.get a = some row →
    (c.world.rules.get row.ruleId).isSome

theorem Quiescent.guarded (h : Quiescent c) : Guarded M a c :=
  ⟨h.linked a, fun j => .of_finished (h.idle j)⟩

/-- **Delivered is final** in every run whose steps are careful. -/
theorem delivered_final (h₀ : Quiescent c₀) (hrun : Reaches (step M) (Careful M) c₀ c)
    (hrun' : Reaches (step M) (Careful M) c c') {row : Alert}
    (hrow : c.world.alerts.get a = some row) (hd : row.deliveryStatus = .delivered) :
    ∃ row', c'.world.alerts.get a = some row' ∧ row'.deliveryStatus = .delivered := by
  have hguard : Guarded M a c :=
    hrun.invariant (fun _ _ _ hI hp hs => (hI.step hp hs).1) h₀.guarded
  have hinv : Guarded M a c' ∧ ∃ row', c'.world.alerts.get a = some row' ∧
      row'.deliveryStatus = .delivered := by
    refine hrun'.invariant (I := fun d => Guarded M a d ∧ ∃ row',
      d.world.alerts.get a = some row' ∧ row'.deliveryStatus = .delivered) ?_
      ⟨hguard, row, hrow, hd⟩
    rintro d act d' ⟨hG, row', hrow', hd'⟩ hp hs
    obtain ⟨hG', hfinal⟩ := hG.step hp hs
    exact ⟨hG', hfinal row' hrow' hd'⟩
  exact hinv.2

instance (M : Nat) (row : Alert) : Decidable (LastAttempt M row) :=
  inferInstanceAs (Decidable (_ ≤ _))

instance (M : Nat) (c : Delivery WorkerTask) :
    (act : Action WorkerTask) → Decidable (Careful M c act)
  | .answer i inp => inferInstanceAs (Decidable
      ((∀ id ∈ refreshes (c.task i), ∀ row ∈ c.world.alerts.get id,
        row.deliveryStatus = .pending) ∧
      ∀ row ∈ loads (c.task i) inp, ∀ j, j ≠ i → (c.task j).finished = false →
        ∀ row' ∈ c.hand j, row'.id = row.id →
          ¬ LastAttempt M row ∧ ¬ LastAttempt M row'))
  | .create _ _ | .orphan _ | .retry _ | .edit _ => inferInstanceAs (Decidable True)

/-- A pass loads the alert while the main loop is at it; the main loop delivers. -/
def staleSchedule : List (Action WorkerTask) :=
  [.create .mainLoop sampleAlert,
   .retry .retryScheduler,
   .answer .retryScheduler {},
   .answer .retryScheduler { rows := [sampleAlert] },
   .answer .mainLoop {}, .answer .mainLoop {}, .answer .mainLoop {},
   .answer .mainLoop {}, .answer .mainLoop {}, .answer .mainLoop {},
   .answer .mainLoop {}]

/-- The pass makes its round with the stale row, and the receiver refuses. -/
def staleRound : List (Action WorkerTask) :=
  [.answer .retryScheduler {}, .answer .retryScheduler {},
   .answer .retryScheduler {}, .answer .retryScheduler {},
   .answer .retryScheduler { reply := .response 500 },
   .answer .retryScheduler {}, .answer .retryScheduler {}]

/-- The status of the sample alert. -/
def sampleStatus (c : Delivery WorkerTask) : Option DeliveryStatus :=
  (c.world.alerts.get 7).map Alert.deliveryStatus

omit [DecidableEq ι] in
theorem quiescent_initial (rules : Table Rule.id) :
    Quiescent (initial rules : Delivery ι) :=
  ⟨fun _ => rfl, fun _ _ h => absurd h (by simp [initial, World.initial])⟩

/-- With attempts to spare the stale round changes nothing. -/
theorem delivered_final_spare : ∃ c c' : Delivery WorkerTask,
    sampleStatus c = some .delivered ∧ c'.world.requests.length = 2 ∧
    ∃ row', c'.world.alerts.get 7 = some row' ∧ row'.deliveryStatus = .delivered := by
  have hrun : (runs (fun c act => if Careful 5 c act then step 5 c act else none)
      staleSchedule (initial sampleRules)).bind (fun c =>
        (runs (fun c act => if Careful 5 c act then step 5 c act else none) staleRound
          c).map fun c' => (sampleStatus c, c'.world.requests.length))
      = some (some .delivered, 2) := by decide
  obtain ⟨c, hc, hrun⟩ := Option.bind_eq_some_iff.mp hrun
  obtain ⟨c', hc', hstatus⟩ := Option.map_eq_some_iff.mp hrun
  rw [Prod.mk.injEq] at hstatus
  obtain ⟨row, hrow, hd⟩ := Option.map_eq_some_iff.mp hstatus.1
  exact ⟨c, c', hstatus.1, hstatus.2, delivered_final (quiescent_initial sampleRules)
    (Reaches.of_runs hc) (Reaches.of_runs hc') hrow hd⟩

/-- **On the last attempt the stale round turns `delivered` into `failed`.** -/
theorem delivered_final_fails : ¬ ∀ c c' : Delivery WorkerTask,
    Reaches (step 1) (fun _ _ => True) (initial sampleRules) c →
    Reaches (step 1) (fun _ _ => True) c c' → ∀ a row,
      c.world.alerts.get a = some row → row.deliveryStatus = .delivered →
      ∃ row', c'.world.alerts.get a = some row' ∧ row'.deliveryStatus = .delivered := by
  intro h
  have hrun : (runs (fun c act => if True then step 1 c act else none) staleSchedule
      (initial sampleRules)).bind (fun c =>
        (runs (fun c act => if True then step 1 c act else none) staleRound c).map
          fun c' => (sampleStatus c, sampleStatus c'))
      = some (some .delivered, some .failed) := by decide
  obtain ⟨c, hc, hrun⟩ := Option.bind_eq_some_iff.mp hrun
  obtain ⟨c', hc', hstatus⟩ := Option.map_eq_some_iff.mp hrun
  rw [Prod.mk.injEq] at hstatus
  obtain ⟨row, hrow, hd⟩ := Option.map_eq_some_iff.mp hstatus.1
  obtain ⟨row', hrow', hd'⟩ := h c c' (Reaches.of_runs hc) (Reaches.of_runs hc') 7 row hrow hd
  have hfailed := hstatus.2
  rw [sampleStatus, hrow', Option.map_some, hd'] at hfailed
  exact absurd hfailed (by decide)

end Delivery

end Pulse
