/-
  Pulse.Evaluate.Idempotency
  ──────────────────────────
  **ONE ALERT PER WINDOW, AND NONE LOST.**

  The unique constraint on (rule, window) serialises competing inserts: an
  insert waits for another session's uncommitted row of the same window, fails
  if that row commits and proceeds if it is rolled back.

    • `Consistent`        — the alerts are tidy and every session is in one
                            stage of a call,
    • `alert_idempotency` — so it is in every reachable state of any number of
                            workers.
-/
import Pulse.Evaluate.Workers

namespace Pulse

open Pulse.Async Pulse.Store

namespace Workers

variable {ι : Type} [DecidableEq ι] {ruleClasses : RuleClasses} {c c' : Workers ι}

/-! ## §1. Every session is in one stage of a call. -/

/-- The stage of session `i`. -/
inductive Stage (c : Workers ι) (i : ι) : Prop where
  | idle (hf : (c.task i).finished = true) (hc : c.creating i = none)
  | reading (ruleId : RuleId) (hrule : (c.world.rules.get ruleId).isSome)
      (h : Coro.Leads Op.harmless (Parked ruleId) (c.task i)) (hc : c.creating i = none)
  | entered (row : Alert) (hrule : (c.world.rules.get row.ruleId).isSome)
      (hmin : row.windowEnd = row.windowStart + minute) (ht : c.task i = Entered row)
      (hc : c.creating i = some row.window)
  | inserting (row : Alert) (hrule : (c.world.rules.get row.ruleId).isSome)
      (hmin : row.windowEnd = row.windowStart + minute) (ht : c.task i = Inserting row)
      (hc : c.creating i = some row.window)
  | committing (row : Alert) (hin : (i, row) ∈ c.world.inflight)
      (ht : c.task i = Committing row.id) (hc : c.creating i = some row.window)
  | refreshing (row : Alert) (hin : row ∈ c.world.alerts.rows)
      (ht : c.task i = Refreshing row.id) (hc : c.creating i = some row.window)

/-- The invariant. -/
structure Consistent (c : Workers ι) : Prop where
  tidy : c.world.Tidy
  stage : ∀ i, Stage c i
  /-- Only a session that is about to commit has an uncommitted alert. -/
  inflight : ∀ e ∈ c.world.inflight, c.task e.1 = Committing e.2.id
  /-- No two sessions refresh the same alert. -/
  alone : ∀ i j id, c.task i = Refreshing id → c.task j = Refreshing id → i = j
  /-- An alert that is still to be returned was not returned. -/
  unreturned : ∀ i id, c.task i = Refreshing id → id ∉ c.returned
  returned : c.returned.Nodup
  born : ∀ id ∈ c.returned, ∃ row ∈ c.world.alerts.rows, row.id = id
  kept : ∀ window ∈ c.survived, ∃ row ∈ c.world.alerts.rows, row.window = window

theorem Refreshing_inj {id id' : AlertId} (h : Refreshing id = Refreshing id') :
    id = id' := by
  cases h
  rfl

/-- A call that only reads is not refreshing an alert. -/
theorem not_refreshing_of_leads {ruleId : RuleId} {p : Prog (Option AlertObj)}
    (h : Coro.Leads Op.harmless (Parked ruleId) p) (id : AlertId) : p ≠ Refreshing id := by
  rintro rfl
  rcases h with h | h
  · cases h
  · exact h.1

omit [DecidableEq ι] in
/-- The stage of a session when another one moves. -/
theorem Stage.keep {j : ι} (h : Stage c j) (htask : c'.task j = c.task j)
    (hc : c'.creating j = c.creating j) (hrules : c'.world.rules = c.world.rules)
    (hrows : ∀ row ∈ c.world.alerts.rows, row ∈ c'.world.alerts.rows)
    (hin : ∀ row, (j, row) ∈ c.world.inflight → (j, row) ∈ c'.world.inflight) :
    Stage c' j := by
  cases h with
  | idle hf hnone => exact .idle (by rw [htask]; exact hf) (hc.trans hnone)
  | reading ruleId hrule h hnone =>
      exact .reading ruleId (by rw [hrules]; exact hrule) (by rw [htask]; exact h)
        (hc.trans hnone)
  | entered row hrule hmin ht hsome =>
      exact .entered row (by rw [hrules]; exact hrule) hmin (htask.trans ht) (hc.trans hsome)
  | inserting row hrule hmin ht hsome =>
      exact .inserting row (by rw [hrules]; exact hrule) hmin (htask.trans ht)
        (hc.trans hsome)
  | committing row hmem ht hsome =>
      exact .committing row (hin row hmem) (htask.trans ht) (hc.trans hsome)
  | refreshing row hmem ht hsome =>
      exact .refreshing row (hrows row hmem) (htask.trans ht) (hc.trans hsome)

omit [DecidableEq ι] in
/-- A session whose call is over reads nothing and creates nothing. -/
theorem Stage.finished {i : ι} (h : Stage c i) (hf : (c.task i).finished = true) :
    c.creating i = none := by
  cases h with
  | idle _ hc => exact hc
  | reading _ _ _ hc => exact hc
  | entered row _ _ ht _ => rw [ht] at hf; exact absurd hf (by simp)
  | inserting row _ _ ht _ => rw [ht] at hf; exact absurd hf (by simp)
  | committing row _ ht _ => rw [ht] at hf; exact absurd hf (by simp)
  | refreshing row _ ht _ => rw [ht] at hf; exact absurd hf (by simp)

/-! ### What an answer does to the system. -/

theorem step_answer {i : ι} {inp : Input}
    (h : step ruleClasses c (.answer i inp) = some c') :
    ∃ o k r, c.task i = .await o k ∧
      World.perform i o inp c.world = some (r, c'.world) ∧ c'.task i = k r ∧
      (∀ j, j ≠ i → c'.task j = c.task j ∧ c'.creating j = c.creating j) ∧
      (if (k r).finished then
        c'.creating i = none ∧ c'.survived = c.survived ++ (c.entered i).toList ∧
          c'.returned = c.returned ++ (result (k r)).toList
      else c'.creating i = c.entered i ∧ c'.survived = c.survived ∧
        c'.returned = c.returned) := by
  simp only [step, Option.map_eq_some_iff] at h
  obtain ⟨pool, hpool, rfl⟩ := h
  obtain ⟨o, k, r, ht, hperf, htask, hother⟩ := Pool.answer_cases hpool
  refine ⟨o, k, r, ht, ?_⟩
  unfold proceed
  rw [← htask]
  split
  next => exact ⟨hperf, rfl, fun j hj => ⟨hother j hj, by simp [hj]⟩, by simp⟩
  next => exact ⟨hperf, rfl, fun j hj => ⟨hother j hj, by simp [hj]⟩, by simp⟩

omit [DecidableEq ι] in
/-- The stages of all sessions when one moves. -/
theorem stage_all {i : ι} (h : ∀ j, Stage c j)
    (hrest : ∀ j, j ≠ i → c'.task j = c.task j ∧ c'.creating j = c.creating j)
    (hrules : c'.world.rules = c.world.rules)
    (hrows : ∀ row ∈ c.world.alerts.rows, row ∈ c'.world.alerts.rows)
    (hin : ∀ j, j ≠ i → ∀ row, (j, row) ∈ c.world.inflight → (j, row) ∈ c'.world.inflight)
    (hi : Stage c' i) : ∀ j, Stage c' j := by
  intro j
  by_cases hj : j = i
  · subst hj
    exact hi
  · exact (h j).keep (hrest j hj).1 (hrest j hj).2 hrules hrows (hin j hj)

/-- A call that only reads has nothing to commit. -/
theorem not_committing_of_leads {ruleId : RuleId} {p : Prog (Option AlertObj)}
    (h : Coro.Leads Op.harmless (Parked ruleId) p) (id : AlertId) : p ≠ Committing id := by
  rintro rfl
  rcases h with h | h
  · cases h
  · exact h.1

/-! ## §2. One step. -/

omit [DecidableEq ι] in
/-- An alert that is being refreshed is stored. -/
theorem Consistent.stored {i : ι} {id : AlertId} (h : Consistent c)
    (hi : c.task i = Refreshing id) : ∃ row ∈ c.world.alerts.rows, row.id = id := by
  cases h.stage i with
  | idle hf _ => rw [hi] at hf; exact absurd hf (by simp)
  | reading _ _ hleads _ => exact absurd hi (not_refreshing_of_leads hleads id)
  | entered _ _ _ ht _ => rw [ht] at hi; cases hi
  | inserting _ _ _ ht _ => rw [ht] at hi; cases hi
  | committing _ _ ht _ => rw [ht] at hi; cases hi
  | refreshing row hrow ht _ =>
      rw [ht] at hi
      exact ⟨row, hrow, Refreshing_inj hi⟩

omit [DecidableEq ι] in
/-- A session with nothing to commit has no uncommitted alert. -/
theorem Consistent.not_inflight {i : ι} (h : Consistent c)
    (hcommit : ∀ id, c.task i ≠ Committing id) {e : ι × Alert}
    (he : e ∈ c.world.inflight) : e.1 ≠ i := by
  intro hei
  exact hcommit e.2.id (hei ▸ h.inflight e he)

omit [DecidableEq ι] in
/-- **One session moves.**  The others keep their stages, so what is left to
check is the database and the session itself: an alert that it starts to
refresh is nobody else's, and one that it returns is the one it refreshed. -/
theorem Consistent.moves {i : ι} (h : Consistent c)
    (hrest : ∀ j, j ≠ i → c'.task j = c.task j ∧ c'.creating j = c.creating j)
    (hrules : c'.world.rules = c.world.rules)
    (hrows : ∀ row ∈ c.world.alerts.rows, row ∈ c'.world.alerts.rows)
    (hkeep : ∀ j, j ≠ i → ∀ row, (j, row) ∈ c.world.inflight → (j, row) ∈ c'.world.inflight)
    (htidy : c'.world.Tidy) (hstage : Stage c' i)
    (hinflight : ∀ e ∈ c'.world.inflight,
      (e ∈ c.world.inflight ∧ e.1 ≠ i) ∨ c'.task e.1 = Committing e.2.id)
    (hrefresh : ∀ id, c'.task i = Refreshing id →
      id ∉ c'.returned ∧ ∀ j, c.task j ≠ Refreshing id)
    (hreturned : c'.returned = c.returned ∨
      ∃ id, c.task i = Refreshing id ∧ c'.returned = c.returned ++ [id])
    (hkept : ∀ window ∈ c'.survived, window ∈ c.survived ∨
      ∃ row ∈ c'.world.alerts.rows, row.window = window) : Consistent c' where
  tidy := htidy
  stage := stage_all h.stage hrest hrules hrows hkeep hstage
  inflight := by
    intro e he
    rcases hinflight e he with ⟨hold, hei⟩ | hnew
    · exact (hrest e.1 hei).1.trans (h.inflight e hold)
    · exact hnew
  alone := by
    intro j k id hj hk
    by_cases hji : j = i <;> by_cases hki : k = i
    -- two sessions refresh the same alert: at most one of them is `i`
    · exact hji.trans hki.symm
    · rw [hji] at hj
      rw [(hrest k hki).1] at hk
      exact absurd hk ((hrefresh id hj).2 k)
    · rw [hki] at hk
      rw [(hrest j hji).1] at hj
      exact absurd hj ((hrefresh id hk).2 j)
    · rw [(hrest j hji).1] at hj
      rw [(hrest k hki).1] at hk
      exact h.alone j k id hj hk
  unreturned := by
    intro j id hj
    by_cases hji : j = i
    · rw [hji] at hj
      exact (hrefresh id hj).1
    · rw [(hrest j hji).1] at hj
      rcases hreturned with hsame | ⟨id', hi, hmore⟩
      · rw [hsame]
        exact h.unreturned j id hj
      · -- session `i` was refreshing what it returns, so `j` refreshes another
        rw [hmore, List.mem_append, List.mem_singleton]
        rintro (hret | rfl)
        · exact h.unreturned j id hj hret
        · exact hji (h.alone j i id hj hi)
  returned := by
    rcases hreturned with hsame | ⟨id, hi, hmore⟩
    · rw [hsame]
      exact h.returned
    · rw [hmore, ← List.concat_eq_append]
      exact h.returned.concat (h.unreturned i id hi)
  born := by
    intro id hid
    have hstored : ∃ row ∈ c.world.alerts.rows, row.id = id := by
      -- what is returned was refreshed, and so is stored
      rcases hreturned with hsame | ⟨id', hi, hmore⟩
      · rw [hsame] at hid
        exact h.born id hid
      · rw [hmore, List.mem_append, List.mem_singleton] at hid
        rcases hid with hid | rfl
        · exact h.born id hid
        · exact h.stored hi
    obtain ⟨row, hrow, hrowid⟩ := hstored
    exact ⟨row, hrows row hrow, hrowid⟩
  kept := by
    intro window hwindow
    rcases hkept window hwindow with hold | hnew
    · obtain ⟨row, hrow, hwin⟩ := h.kept window hold
      exact ⟨row, hrows row hrow, hwin⟩
    · exact hnew

omit [DecidableEq ι] in
/-- **A step that stores nothing.**  The session it leaves behind has nothing to
commit or to refresh, and a call that ends leaves a committed alert for its
window. -/
theorem Consistent.quiet {i : ι} (h : Consistent c)
    (hrest : ∀ j, j ≠ i → c'.task j = c.task j ∧ c'.creating j = c.creating j)
    (hrules : c'.world.rules = c.world.rules) (halerts : c'.world.alerts = c.world.alerts)
    (hinflight : c'.world.inflight = c.world.inflight)
    (hcommit : ∀ id, c.task i ≠ Committing id) (hrefresh : ∀ id, c'.task i ≠ Refreshing id)
    (hstage : Stage c' i)
    (hreturned : c'.returned = c.returned ∨
      ∃ id, c.task i = Refreshing id ∧ c'.returned = c.returned ++ [id])
    (hkept : ∀ window ∈ c'.survived, window ∈ c.survived ∨
      ∃ row ∈ c.world.alerts.rows, row.window = window) : Consistent c' := by
  refine h.moves hrest hrules (fun row hrow => by rw [halerts]; exact hrow)
    (fun j _ row hrow => by rw [hinflight]; exact hrow) (h.tidy.of_eq halerts hinflight)
    hstage (fun e he => ?_) (fun id hid => absurd hid (hrefresh id)) hreturned
    (by rw [halerts]; exact hkept)
  rw [hinflight] at he
  exact Or.inl ⟨he, h.not_inflight hcommit he⟩

/-- **Reading.**  The call goes on reading, ends, or enters `_create_alert`. -/
theorem Consistent.read {i : ι} {inp : Input} (h : Consistent c)
    (hstep : step ruleClasses c (.answer i inp) = some c') {ruleId : RuleId}
    (hrule : (c.world.rules.get ruleId).isSome)
    (hleads : Coro.Leads Op.harmless (Parked ruleId) (c.task i))
    (hnone : c.creating i = none) : Consistent c' := by
  obtain ⟨o, k, r, ht, hperf, htask, hrest, hend⟩ := step_answer hstep
  have hrules := (World.perform_kept hperf).rules
  have hcommit := not_committing_of_leads hleads
  rw [ht] at hleads
  rcases hleads with hpark | ⟨ho, hk⟩
  · -- the call that enters: the session is left before the savepoint
    cases hpark with
    | enters row hid hmin =>
        obtain ⟨-, hw⟩ := World.answer_inj hperf
        have hentered : c.entered i = some row.window := by
          rw [entered, ht, Alert.window, hid]
          rfl
        simp only [finished_entered, hentered] at hend
        refine h.quiet hrest hrules (by rw [← hw]; rfl) (by rw [← hw]; rfl) hcommit
          (fun id hcontra => ?_) (.entered row (by rw [hrules, hid]; exact hrule) hmin htask
            hend.1) (Or.inl hend.2.2) (fun window hwindow => Or.inl (by rw [← hend.2.1]; exact hwindow))
        rw [htask] at hcontra
        cases hcontra
  · -- a harmless operation: what is left reads on, or has ended without an alert
    obtain ⟨halerts, hinflight, -⟩ := World.perform_harmless hperf ho
    have hentered : c.entered i = none := by
      have henters : enters (c.task i) = none := by
        rw [ht]
        cases o <;> simp only [Op.harmless] at ho <;> try rfl
        case call f => cases f <;> first | rfl | exact ho.elim
      rw [entered, henters]
      exact hnone
    have hresult : (k r).finished = true → result (k r) = none := by
      intro hf
      have hkr := hk r
      cases htree : k r with
      | pure a => rw [htree] at hkr; cases hkr; rfl
      | raise e => rfl
      | await o' k' => rw [htree] at hf; exact absurd hf (by simp [Coro.finished])
    have hkeep : c'.creating i = none ∧ c'.survived = c.survived ∧
        c'.returned = c.returned := by
      split at hend
      next hf =>
        rw [hentered, hresult hf] at hend
        simpa using hend
      next =>
        rw [hentered] at hend
        exact hend
    exact h.quiet hrest hrules halerts hinflight hcommit
      (by rw [htask]; exact not_refreshing_of_leads (hk r))
      (.reading ruleId (by rw [hrules]; exact hrule) (by rw [htask]; exact hk r) hkeep.1)
      (Or.inl hkeep.2.2) (fun window hwindow => Or.inl (by rw [← hkeep.2.1]; exact hwindow))

omit [DecidableEq ι] in
/-- Nothing enters `_create_alert` when another operation is awaited. -/
theorem entered_of_none {i : ι} (h : enters (c.task i) = none) :
    c.entered i = c.creating i := by
  rw [entered, h]

/-- **The savepoint is opened.** -/
theorem Consistent.savepoint {i : ι} {inp : Input} (h : Consistent c)
    (hok : c.Obliging (.answer i inp))
    (hstep : step ruleClasses c (.answer i inp) = some c') {row : Alert}
    (hrule : (c.world.rules.get row.ruleId).isSome)
    (hmin : row.windowEnd = row.windowStart + minute) (ht : c.task i = Entered row)
    (hc : c.creating i = some row.window) : Consistent c' := by
  obtain ⟨o, k, r, ht', hperf, htask, hrest, hend⟩ := step_answer hstep
  have hrules := (World.perform_kept hperf).rules
  have hentered := (entered_of_none (by rw [ht]; rfl)).trans hc
  rw [Obliging, ht] at hok
  rw [ht] at ht'
  cases ht'
  have hstmt := (World.statement_healthy (w := c.world.tick inp.elapsed) hok.2 hok.1).symm.trans
    hperf
  obtain ⟨rfl, hw⟩ := World.answer_inj hstmt
  -- no row is touched: what changes is the stage alone
  change c'.task i = Inserting row at htask
  have hend : c'.creating i = c.entered i ∧ c'.survived = c.survived ∧
      c'.returned = c.returned := hend
  refine h.quiet hrest hrules (by rw [← hw]; rfl) (by rw [← hw]; rfl)
    (fun id hcontra => ?_) (fun id hcontra => ?_)
    (.inserting row (by rw [hrules]; exact hrule) hmin htask (hend.1.trans hentered))
    (Or.inl hend.2.2) (fun window hwindow => Or.inl (by rw [← hend.2.1]; exact hwindow))
  · rw [ht] at hcontra
    cases hcontra
  · rw [htask] at hcontra
    cases hcontra

/-- **The insert.**  A conflict is with a committed alert, since the session has
no uncommitted one; otherwise the alert is new. -/
theorem Consistent.insert {i : ι} {inp : Input} (h : Consistent c)
    (hok : c.Obliging (.answer i inp))
    (hstep : step ruleClasses c (.answer i inp) = some c') {row : Alert}
    (hrule : (c.world.rules.get row.ruleId).isSome)
    (hmin : row.windowEnd = row.windowStart + minute) (ht : c.task i = Inserting row)
    (hc : c.creating i = some row.window) : Consistent c' := by
  obtain ⟨o, k, r, ht', hperf, htask, hrest, hend⟩ := step_answer hstep
  have hrules := (World.perform_kept hperf).rules
  have hentered := (entered_of_none (by rw [ht]; rfl)).trans hc
  have hcommit : ∀ id, c.task i ≠ Committing id := by
    intro id hcontra
    rw [ht] at hcontra
    cases hcontra
  rw [Obliging, ht] at hok
  rw [ht] at ht'
  cases ht'
  have hins : (c.world.tick inp.elapsed).insertRow i
      { row with id := inp.uuid, createdAt := c.world.clock + inp.elapsed }
        = some (r, c'.world) := by
    have hp := hperf
    simp only [World.perform] at hp
    rw [if_neg (by rw [show (c.world.tick inp.elapsed).failed i = false from hok.2]; simp),
      hok.1] at hp
    exact hp
  obtain ⟨hw, msg, rfl, hwhy⟩ | ⟨rfl, hw, hkey, hid⟩ := World.insertRow_cases hins
  · -- `except IntegrityError: return None`
    change c'.task i = .pure none at htask
    have hend : c'.creating i = none ∧ c'.survived = c.survived ++ (c.entered i).toList ∧
        c'.returned = c.returned ++ [] := hend
    rw [hentered, List.append_nil] at hend
    have hrow : ∃ a ∈ c.world.alerts.rows, a.window = row.window := by
      rcases hwhy with hnorule | ⟨a, ha, hak⟩ | ⟨a, ha⟩
      · have hnorule : (c.world.rules.get row.ruleId).isNone = true := hnorule
        rw [Option.isSome_iff_ne_none] at hrule
        exact absurd (Option.isNone_iff_eq_none.mp hnorule) hrule
      · refine ⟨a, ha, ?_⟩
        have h₁ : a.ruleId = row.ruleId := congrArg Prod.fst hak
        have h₂ : a.windowStart = row.windowStart := congrArg (fun x => x.2.1) hak
        rw [Alert.window, Alert.window, h₁, h₂]
      · -- an own uncommitted row would be about to be committed
        exact absurd (h.inflight (i, a) ha) (hcommit a.id)
    refine h.quiet hrest hrules (by rw [hw]; rfl) (by rw [hw]; rfl) hcommit
      (fun id hcontra => ?_)
      (.idle (by rw [htask]; rfl) hend.1) (Or.inl hend.2.2) (fun window hwindow => ?_)
    · rw [htask] at hcontra
      cases hcontra
    · rw [hend.2.1, List.mem_append] at hwindow
      rcases hwindow with hwindow | hwindow
      · exact Or.inl hwindow
      · rw [Option.mem_toList] at hwindow
        cases hwindow
        exact Or.inr hrow
  · change c'.task i = Committing inp.uuid at htask
    have hend : c'.creating i = c.entered i ∧ c'.survived = c.survived ∧
        c'.returned = c.returned := hend
    have hinflight : c'.world.inflight = c.world.inflight ++ [(i,
        { row with id := inp.uuid, createdAt := c.world.clock + inp.elapsed })] := by
      rw [hw]
      rfl
    have htidy : (c.world.tick inp.elapsed).Tidy := h.tidy.of_eq rfl rfl
    refine h.moves hrest hrules (fun a ha => by rw [hw]; exact ha)
      (fun j _ a ha => by rw [hinflight]; exact List.mem_append_left _ ha)
      (by rw [hw]; exact htidy.insert i hkey hid hmin)
      (.committing { row with id := inp.uuid, createdAt := c.world.clock + inp.elapsed }
        (by rw [hinflight]; simp) htask (hend.1.trans hentered))
      (fun e he => ?_) (fun id hcontra => ?_) (Or.inl hend.2.2)
      (fun window hwindow => Or.inl (by rw [← hend.2.1]; exact hwindow))
    · rw [hinflight, List.mem_append] at he
      rcases he with he | he
      · -- a row from before belongs to another session
        exact Or.inl ⟨he, h.not_inflight hcommit he⟩
      · rw [List.mem_singleton.mp he]
        exact Or.inr htask
    · rw [htask] at hcontra
      cases hcontra

/-- **The commit.**  The session's one uncommitted alert becomes permanent. -/
theorem Consistent.commit {i : ι} {inp : Input} (h : Consistent c)
    (hok : c.Obliging (.answer i inp))
    (hstep : step ruleClasses c (.answer i inp) = some c') {row : Alert}
    (hin : (i, row) ∈ c.world.inflight) (ht : c.task i = Committing row.id)
    (hc : c.creating i = some row.window) : Consistent c' := by
  obtain ⟨o, k, r, ht', hperf, htask, hrest, hend⟩ := step_answer hstep
  have hrules := (World.perform_kept hperf).rules
  have hentered := (entered_of_none (by rw [ht]; rfl)).trans hc
  rw [Obliging, ht] at hok
  rw [ht] at ht'
  cases ht'
  have hstmt := (World.statement_healthy (w := c.world.tick inp.elapsed) hok.2 hok.1).symm.trans
    hperf
  obtain ⟨rfl, hw⟩ := World.answer_inj hstmt
  change c'.task i = Refreshing row.id at htask
  have hend : c'.creating i = c.entered i ∧ c'.survived = c.survived ∧
      c'.returned = c.returned := hend
  have htidy : (c.world.tick inp.elapsed).Tidy := h.tidy.of_eq rfl rfl
  have hnew := (World.allAlerts_commitRows htidy i).1
  rw [hw] at hnew
  have hrows : ∀ a ∈ c.world.alerts.rows, a ∈ c'.world.alerts.rows := by
    intro a ha
    rw [hnew]
    exact List.mem_append_left _ ha
  have hmem : row ∈ c'.world.alerts.rows := by
    rw [hnew]
    refine List.mem_append_right _ (List.mem_map.mpr ⟨(i, row), ?_, rfl⟩)
    exact List.mem_filter.mpr ⟨hin, by simp⟩
  have hinflight : c'.world.inflight = c.world.inflight.filter (fun e => e.1 ≠ i) := by
    rw [← hw]
    rfl
  -- the alert was uncommitted: it was not returned, and nobody refreshes it
  have hunborn := h.tidy.unborn hin
  refine h.moves hrest hrules hrows (fun j hj a ha => ?_) (by rw [← hw]; exact htidy.commitRows i)
    (.refreshing row hmem htask (hend.1.trans hentered)) (fun e he => ?_)
    (fun id hid => ?_) (Or.inl hend.2.2)
    (fun window hwindow => Or.inl (by rw [← hend.2.1]; exact hwindow))
  · rw [hinflight]
    exact List.mem_filter.mpr ⟨ha, by simpa using hj⟩
  · rw [hinflight, List.mem_filter] at he
    exact Or.inl ⟨he.1, by simpa using he.2⟩
  · rw [htask] at hid
    cases Refreshing_inj hid
    rw [hend.2.2]
    constructor
    · intro hret
      obtain ⟨a, ha, haid⟩ := h.born row.id hret
      exact hunborn a ha haid
    · intro j hj
      obtain ⟨a, ha, haid⟩ := h.stored hj
      exact hunborn a ha haid

/-- **The refresh.**  The call returns its alert, or nothing if the statement
fails; the alert is stored in both cases. -/
theorem Consistent.refresh {i : ι} {inp : Input} (h : Consistent c)
    (hstep : step ruleClasses c (.answer i inp) = some c') {row : Alert}
    (hin : row ∈ c.world.alerts.rows) (ht : c.task i = Refreshing row.id)
    (hc : c.creating i = some row.window) : Consistent c' := by
  obtain ⟨o, k, r, ht', hperf, htask, hrest, hend⟩ := step_answer hstep
  have hrules := (World.perform_kept hperf).rules
  have hentered := (entered_of_none (by rw [ht]; rfl)).trans hc
  have hcommit : ∀ id, c.task i ≠ Committing id := by
    intro id hcontra
    rw [ht] at hcontra
    cases hcontra
  have htop := ht
  rw [ht] at ht'
  cases ht'
  obtain ⟨halerts, hinflight, -⟩ := World.statement_reads (w := c.world.tick inp.elapsed)
    hperf fun hb => (World.answer_inj hb).2.symm
  have halerts : c'.world.alerts = c.world.alerts := halerts
  have hinflight : c'.world.inflight = c.world.inflight := hinflight
  -- the call is over, with its alert or with nothing
  have hover : ∃ a, c'.task i = .pure a ∧ c'.creating i = none ∧
      c'.survived = c.survived ++ [row.window] ∧
      (c'.returned = c.returned ∨ c'.returned = c.returned ++ [row.id]) := by
    cases r with
    | error e =>
        have hend : c'.creating i = none ∧ c'.survived = c.survived ++ (c.entered i).toList ∧
            c'.returned = c.returned ++ [] := hend
        rw [hentered, List.append_nil] at hend
        exact ⟨none, htask, hend.1, hend.2.1, Or.inl hend.2.2⟩
    | ok stored =>
        have hend : c'.creating i = none ∧ c'.survived = c.survived ++ (c.entered i).toList ∧
            c'.returned = c.returned ++ [row.id] := hend
        rw [hentered] at hend
        exact ⟨_, htask, hend.1, hend.2.1, Or.inr hend.2.2⟩
  obtain ⟨a, hpure, hnone, hsurvived, hreturned⟩ := hover
  refine h.quiet hrest hrules halerts hinflight hcommit (fun id hcontra => ?_)
    (.idle (by rw [hpure]; rfl) hnone)
    (hreturned.imp_right fun hmore => ⟨row.id, htop, hmore⟩) (fun window hwindow => ?_)
  · rw [hpure] at hcontra
    cases hcontra
  · rw [hsurvived, List.mem_append, List.mem_singleton] at hwindow
    rcases hwindow with hwindow | rfl
    · exact Or.inl hwindow
    · exact Or.inr ⟨row, hin, rfl⟩

/-- **The worker dies.**  Its uncommitted alert is gone, the committed ones are
not. -/
theorem Consistent.crash {i : ι} (h : Consistent c)
    (hstep : step ruleClasses c (.crash i) = some c') : Consistent c' := by
  simp only [step, Option.some.injEq] at hstep
  have htask : c'.task i = .pure none := by
    subst hstep
    exact Function.update_self ..
  have hinflight : c'.world.inflight = c.world.inflight.filter (fun e => e.1 ≠ i) := by
    subst hstep
    rfl
  refine h.moves (i := i) (fun j hj => ?_) (by subst hstep; rfl)
    (fun row hrow => by subst hstep; exact hrow) (fun j hj row hrow => ?_)
    (by subst hstep; exact h.tidy.abort i)
    (.idle (by rw [htask]; rfl) (by subst hstep; exact Function.update_self ..))
    (fun e he => ?_) (fun id hcontra => ?_) (Or.inl (by subst hstep; rfl))
    (fun window hwindow => Or.inl (by subst hstep; exact hwindow))
  · subst hstep
    exact ⟨Function.update_of_ne hj .., Function.update_of_ne hj ..⟩
  · rw [hinflight]
    exact List.mem_filter.mpr ⟨hrow, by simpa using hj⟩
  · rw [hinflight, List.mem_filter] at he
    exact Or.inl ⟨he.1, by simpa using he.2⟩
  · rw [htask] at hcontra
    cases hcontra

/-- **A call begins.** -/
theorem Consistent.evaluate {i : ι} {rule : Rule} {candle : Candle} (h : Consistent c)
    (hstep : step ruleClasses c (.evaluate i rule candle) = some c') : Consistent c' := by
  simp only [step] at hstep
  split at hstep
  next hguard =>
    rw [Bool.and_eq_true] at hguard
    simp only [Option.some.injEq] at hstep
    have hnone := (h.stage i).finished hguard.1
    have hleads := evaluate_leads ruleClasses rule candle
    have htask : c'.task i = Pulse.evaluate ruleClasses rule candle := by
      subst hstep
      exact Pool.assign_self _ _ _
    have hrest : ∀ j, j ≠ i → c'.task j = c.task j ∧ c'.creating j = c.creating j := by
      subst hstep
      exact fun j hj => ⟨Pool.assign_other _ _ hj, rfl⟩
    refine h.quiet (i := i) hrest (by subst hstep; rfl) (by subst hstep; rfl)
      (by subst hstep; rfl) (fun id hcontra => ?_)
      (by rw [htask]; exact not_refreshing_of_leads hleads)
      (.reading rule.id (by subst hstep; exact hguard.2) (by rw [htask]; exact hleads)
        (by subst hstep; exact hnone))
      (Or.inl (by subst hstep; rfl)) (fun window hwindow => Or.inl (by subst hstep; exact hwindow))
    rw [hcontra] at hguard
    exact absurd hguard.1 (by simp)
  next => exact absurd hstep (by simp)

/-- **Every action of an obliging database keeps the invariant.** -/
theorem Consistent.step {a : Action ι} (h : Consistent c) (hok : c.Obliging a)
    (hstep : Workers.step ruleClasses c a = some c') : Consistent c' := by
  cases a with
  | evaluate i rule candle => exact h.evaluate hstep
  | crash i => exact h.crash hstep
  | answer i inp =>
      cases h.stage i with
      | idle hf _ =>
          obtain ⟨o, k, r, ht, -⟩ := step_answer hstep
          rw [ht] at hf
          exact absurd hf (by simp [Coro.finished])
      | reading ruleId hrule hleads hc => exact h.read hstep hrule hleads hc
      | entered row hrule hmin ht hc => exact h.savepoint hok hstep hrule hmin ht hc
      | inserting row hrule hmin ht hc => exact h.insert hok hstep hrule hmin ht hc
      | committing row hin ht hc => exact h.commit hok hstep hin ht hc
      | refreshing row hin ht hc => exact h.refresh hstep hin ht hc

/-! ## §3. Whole runs. -/

/-- Nobody evaluates anything yet; the database may hold alerts already. -/
structure Start (c : Workers ι) : Prop where
  tidy : c.world.Tidy
  idle : ∀ i, (c.task i).finished = true ∧ c.creating i = none
  inflight : c.world.inflight = []
  survived : c.survived = []
  returned : c.returned = []

omit [DecidableEq ι] in
theorem Consistent.init (h : Start c) : Consistent c where
  tidy := h.tidy
  stage := fun i => .idle (h.idle i).1 (h.idle i).2
  inflight := by rw [h.inflight]; simp
  alone := fun i _ id hi => absurd (h.idle i).1 (by rw [hi]; simp)
  unreturned := by rw [h.returned]; simp
  returned := by rw [h.returned]; exact List.nodup_nil
  born := by rw [h.returned]; simp
  kept := by rw [h.survived]; simp

/-- Some call entered `_create_alert` for the window and did not crash. -/
def Attempted (c : Workers ι) (window : Window) : Prop :=
  window ∈ c.survived ∨ ∃ i, c.creating i = some window

/-- About to open the savepoint or to insert. -/
def isInserting (p : Prog (Option AlertObj)) : Bool :=
  match p with
  | .await .savepoint _ | .await (.insertAlert _) _ => true
  | _ => false

/-- No insert and no uncommitted alert of the window is in flight. -/
def Landed (c : Workers ι) (window : Window) : Prop :=
  (∀ i, c.creating i = some window → isInserting (c.task i) = false) ∧
    ∀ e ∈ c.world.inflight, e.2.window ≠ window

omit [DecidableEq ι] in
/-- The committed alert of an attempted window. -/
theorem Consistent.landed {window : Window} (h : Consistent c)
    (hatt : c.Attempted window) (hland : c.Landed window) :
    ∃ row ∈ c.world.alerts.rows, row.window = window := by
  rcases hatt with hsurvived | ⟨i, hi⟩
  · exact h.kept window hsurvived
  · have hclear := hland.1 i hi
    cases h.stage i with
    | idle _ hc => exact absurd (hi.symm.trans hc) (by simp)
    | reading _ _ _ hc => exact absurd (hi.symm.trans hc) (by simp)
    | entered row _ _ ht _ =>
        rw [ht] at hclear
        exact absurd (show true = false from hclear) (by simp)
    | inserting row _ _ ht _ =>
        rw [ht] at hclear
        exact absurd (show true = false from hclear) (by simp)
    | committing row hin _ hc =>
        exact absurd (Option.some.inj (hc.symm.trans hi)) (hland.2 (i, row) hin)
    | refreshing row hin _ hc => exact ⟨row, hin, Option.some.inj (hc.symm.trans hi)⟩

/-- **Alert idempotency without loss.**  However many workers evaluate whatever
rules and candles, and whenever they die: a window has one committed alert at
most, no alert is returned twice, and an attempted window has its alert once
nothing is in flight for it. -/
theorem alert_idempotency {c₀ : Workers ι} (h₀ : Start c₀)
    (hrun : Reaches (Workers.step ruleClasses) Obliging c₀ c) :
    (c.world.alerts.rows.map Alert.window).Nodup ∧ c.returned.Nodup ∧
      ∀ window, c.Attempted window → c.Landed window →
        ∃! row, row ∈ c.world.alerts.rows ∧ row.window = window := by
  have h : Consistent c :=
    hrun.invariant (fun _ _ _ hI hok hs => hI.step hok hs) (.init h₀)
  have hone : ∀ a ∈ c.world.alerts.rows, ∀ b ∈ c.world.alerts.rows,
      a.window = b.window → a = b :=
    fun a ha b hb => h.tidy.eq_of_window (List.mem_append_left _ ha) (List.mem_append_left _ hb)
  have hrows : c.world.alerts.rows.Nodup := List.Nodup.of_map _ c.world.alerts.nodup
  refine ⟨(List.nodup_map_iff_inj_on hrows).mpr hone, h.returned, ?_⟩
  intro window hatt hland
  obtain ⟨row, hrow, hwin⟩ := h.landed hatt hland
  exact ⟨row, ⟨hrow, hwin⟩, fun a ha => hone a ha.1 row hrow (ha.2.trans hwin.symm)⟩

omit [DecidableEq ι] in
theorem start_initial (rules : Table Rule.id) : Start (initial rules : Workers ι) where
  tidy := ⟨List.nodup_nil, List.nodup_nil, by
    simp [initial, World.initial, World.allAlerts, Table.empty]⟩
  idle := fun _ => ⟨rfl, rfl⟩
  inflight := rfl
  survived := rfl
  returned := rfl

/-- Two workers get the same candle.  The first inserts; the second waits until
the first has committed and then runs into its alert. -/
def contestedSchedule : List (Action Bool) :=
  [.evaluate false sampleRule sampleCandle, .evaluate true sampleRule sampleCandle,
   .answer false {}, .answer true {}, .answer false {}, .answer true {},
   .answer false {}, .answer true {},
   .answer false { uuid := 1 }, .answer false {}, .answer true { uuid := 2 },
   .answer false {}]

theorem alert_idempotency_contested : ∃ c : Workers Bool,
    c.returned = [1] ∧ c.survived = [(1, 0), (1, 0)] ∧
      ∃! row, row ∈ c.world.alerts.rows ∧ row.window = (1, 0) := by
  have hend : (runs (fun c a => if Obliging c a then step alwaysMatches c a else none)
      contestedSchedule (initial sampleRules)).map (fun c => decide
        (c.returned = [1] ∧ c.survived = [(1, 0), (1, 0)] ∧ c.creating false = none ∧
          c.creating true = none ∧ c.world.inflight.length = 0)) = some true := by decide
  obtain ⟨c, hc, hend⟩ := Option.map_eq_some_iff.mp hend
  obtain ⟨hret, hsurv, hfalse, htrue, hin⟩ := of_decide_eq_true hend
  refine ⟨c, hret, hsurv, (alert_idempotency (start_initial sampleRules)
    (Reaches.of_runs hc)).2.2 (1, 0) (Or.inl ?_) ⟨fun i hi => ?_, ?_⟩⟩
  · rw [hsurv]
    exact List.mem_cons_self
  · cases i
    · exact absurd (hfalse.symm.trans hi) (by simp)
    · exact absurd (htrue.symm.trans hi) (by simp)
  · rw [List.eq_nil_of_length_eq_zero hin]
    simp

end Workers

end Pulse
