/-
  Pulse.Evaluate.Alerts
  ─────────────────────
  **COMMITTED AND UNCOMMITTED ALERTS.**

  What the statements of `evaluate` do to the alerts of the database, both the
  committed rows and those a session has inserted and not committed:

    • `perform_harmless` — queries do nothing to them,
    • `insertRow_cases`  — an insert that does not wait runs into an alert of its
                           window or adds one,
    • `perform_inflight` — only an insert leaves an alert uncommitted,
    • `Tidy`             — together they have distinct windows and identifiers.
-/
import Pulse.Evaluate.Engine
import Pulse.Worker.Frame

namespace Pulse

open Pulse.Async Pulse.Store

/-- A rule's one-minute window. -/
abbrev Window := RuleId × Time

/-- The window of an alert. -/
def Alert.window (a : Alert) : Window := (a.ruleId, a.windowStart)

/-- The operations of a call before it enters `_create_alert`. -/
def Op.harmless : Op → Prop
  | .utcnow | .selectLastAlert _ _ | .selectCandles _ => True
  | .call (.evaluate _ _) => True
  | _ => False

namespace World

variable {ι : Type}

/-! ## §1. What a statement does to the alerts. -/

/-- The alerts of the database, committed or not. -/
def allAlerts (w : World ι) : List Alert := w.alerts.rows ++ w.inflight.map Prod.snd

/-- What reading changes of the alerts: nothing, and a failed transaction stays
failed. -/
structure Reads (i : ι) (w w' : World ι) : Prop where
  alerts : w'.alerts = w.alerts
  inflight : w'.inflight = w.inflight
  failed : w.failed i = true → w'.failed i = true

/-- The time that passes is part of no field of `Reads`. -/
theorem Reads.of_tick {i : ι} {w w' : World ι} {n : Nat} (h : Reads i (w.tick n) w') :
    Reads i w w' :=
  ⟨h.alerts, h.inflight, h.failed⟩

variable [DecidableEq ι]

/-- A statement whose body only reads, also when it is refused or fails. -/
theorem statement_reads {α : Type} {w w' : World ι} {i : ι} {site : Site} {inp : Input}
    {body : Option (Except PyErr α × World ι)} {r : Except PyErr α}
    (h : w.statement i site inp body = some (r, w'))
    (hbody : body = some (r, w') → w' = w) : Reads i w w' := by
  obtain ⟨-, rfl, -⟩ | ⟨-, rfl, -⟩ | ⟨-, -, hb⟩ := statement_cases h
  · exact ⟨rfl, rfl, id⟩
  · exact ⟨rfl, rfl, fun _ => by simp [fail]⟩
  · rw [hbody hb]
    exact ⟨rfl, rfl, id⟩

/-- Reading leaves the alerts alone. -/
theorem perform_harmless {i : ι} {o : Op} {inp : Input} {w w' : World ι} {r : Resp o}
    (h : perform i o inp w = some (r, w')) (ho : o.harmless) : Reads i w w' := by
  cases o <;> simp only [Op.harmless] at ho
  case utcnow =>
    obtain ⟨-, rfl⟩ := answer_inj h
    exact ⟨rfl, rfl, id⟩
  case call =>
    obtain ⟨-, rfl⟩ := answer_inj h
    exact ⟨rfl, rfl, id⟩
  case selectLastAlert =>
    refine .of_tick (statement_reads h fun hb => ?_)
    split at hb
    next => exact (answer_inj hb).2.symm
    next => exact absurd hb (by simp)
  case selectCandles =>
    exact .of_tick (statement_reads h fun hb => (answer_inj hb).2.symm)

/-- What an insert that does not wait can do. -/
theorem insertRow_cases {w w' : World ι} {i : ι} {row : Alert} {r : Except PyErr AlertId}
    (h : w.insertRow i row = some (r, w')) :
    (w' = w ∧ ∃ msg, r = .error ⟨.integrityError, msg⟩ ∧
      ((w.rules.get row.ruleId).isNone ∨
        (∃ a ∈ w.alerts.rows, a.windowKey = row.windowKey) ∨
        ∃ a, (i, a) ∈ w.inflight)) ∨
    (r = .ok row.id ∧ w' = { w with inflight := w.inflight ++ [(i, row)] } ∧
      (∀ a ∈ w.allAlerts, a.windowKey ≠ row.windowKey) ∧
      ∀ a ∈ w.allAlerts, a.id ≠ row.id) := by
  unfold insertRow at h
  split at h
  next hrule =>
    obtain ⟨rfl, rfl⟩ := answer_inj h
    exact Or.inl ⟨rfl, _, rfl, Or.inl hrule⟩
  next =>
    split at h
    next hconflict =>
      -- with a committed row, or with an own uncommitted one
      obtain ⟨rfl, rfl⟩ := answer_inj h
      refine Or.inl ⟨rfl, _, rfl, Or.inr ?_⟩
      rw [Bool.or_eq_true, List.any_eq_true, List.any_eq_true] at hconflict
      rcases hconflict with ⟨a, ha, hkey⟩ | ⟨⟨j, a⟩, ha, hkey⟩
      · exact Or.inl ⟨a, ha, by simpa using hkey⟩
      · have hj : j = i ∧ a.windowKey = row.windowKey := by simpa using hkey
        exact Or.inr ⟨a, hj.1 ▸ ha⟩
    next hconflict =>
      split at h
      next => exact absurd h (by simp)
      next hfree =>
        -- no row of any session has the window or the identifier
        obtain ⟨rfl, rfl⟩ := answer_inj h
        simp only [Bool.or_eq_true, List.any_eq_true, decide_eq_true_eq, not_or, not_exists,
          not_and] at hconflict hfree
        refine Or.inr ⟨rfl, rfl, ?_, ?_⟩
        · intro a ha
          rcases List.mem_append.mp ha with ha | ha
          · exact hconflict.1 a ha
          · obtain ⟨e, he, rfl⟩ := List.mem_map.mp ha
            exact hfree.1.1 e he
        · intro a ha
          rcases List.mem_append.mp ha with ha | ha
          · exact hfree.1.2 a ha
          · obtain ⟨e, he, rfl⟩ := List.mem_map.mp ha
            exact hfree.2 e he

/-- **The insert of an alert**: it is refused, with the tables as they were, or it adds
the alert to a session in good standing. -/
theorem insertAlert_cases {w w' : World ι} {i : ι} {inp : Input} {alert : Alert}
    {r : Resp (.insertAlert alert)} (h : perform i (.insertAlert alert) inp w = some (r, w')) :
    ((∃ e, r = .error e) ∧ (w' = w.tick inp.elapsed ∨
      w' = { w.tick inp.elapsed with faults := w.faults ++ [(i, .alertInsert)] })) ∨
    (w.failed i = false ∧ r = .ok inp.uuid ∧
      w' = { w.tick inp.elapsed with inflight := w.inflight ++
        [(i, { alert with id := inp.uuid, createdAt := (w.tick inp.elapsed).clock })] } ∧
      ∀ a ∈ w.allAlerts, a.id ≠ inp.uuid) := by
  simp only [perform] at h
  split at h
  next =>
    obtain ⟨rfl, rfl⟩ := answer_inj h
    exact Or.inl ⟨⟨_, rfl⟩, Or.inl rfl⟩
  next hgood =>
    split at h
    next =>
      obtain ⟨rfl, rfl⟩ := answer_inj h
      exact Or.inl ⟨⟨_, rfl⟩, Or.inr rfl⟩
    next =>
      obtain ⟨rfl, _, rfl, -⟩ | ⟨rfl, rfl, -, hnew⟩ := insertRow_cases h
      · exact Or.inl ⟨⟨_, rfl⟩, Or.inl rfl⟩
      · exact Or.inr ⟨Bool.eq_false_iff.mpr hgood, rfl, rfl, hnew⟩

/-- **Where uncommitted alerts come from.**  The identifier and `created_at` are set by
the insert. -/
theorem perform_inflight {i : ι} {o : Op} {inp : Input} {w w' : World ι} {r : Resp o}
    (h : perform i o inp w = some (r, w')) {e : ι × Alert} (he : e ∈ w'.inflight) :
    e ∈ w.inflight ∨ ∃ alert, o = .insertAlert alert ∧
      e = (i, { alert with id := inp.uuid, createdAt := (w.tick inp.elapsed).clock }) := by
  cases perform_effect h with
  | nothing | call | post | fault | undone | refused | candle | cursor => exact Or.inl he
  | abort | commit => exact Or.inl (List.mem_filter.mp he).1
  | delivery alert records =>
      rw [(storeDelivery_apart _ i alert records).inflight] at he
      exact Or.inl he
  | insert alert =>
      rcases List.mem_append.mp he with he | he
      · exact Or.inl he
      · exact Or.inr ⟨alert, rfl, List.mem_singleton.mp he⟩

/-- A worker alone commits its own alerts in the order in which it inserted them. -/
theorem commitRows_sublist (w : World Unit) :
    (w.commitRows ()).allAlerts.Sublist w.allAlerts := by
  have hall : w.inflight.filter (fun e => e.1 = ()) = w.inflight := by simp
  have hnone : w.inflight.filter (fun e => e.1 ≠ ()) = [] := by simp
  have hrows := Table.foldl_insertNew_sublist w.alerts (w.inflight.map Prod.snd)
  show ((((w.inflight.filter fun e => e.1 = ()).map Prod.snd).foldl
    Table.insertNew w.alerts).rows ++ (w.inflight.filter fun e => e.1 ≠ ()).map Prod.snd).Sublist
      w.allAlerts
  rw [hall, hnone, List.map_nil, List.append_nil]
  exact hrows

/-! ## §2. Tidy databases. -/

/-- The alerts respect the unique constraint and the primary key, and their
windows are minutes. -/
structure Tidy (w : World ι) : Prop where
  windows : (w.allAlerts.map Alert.windowKey).Nodup
  ids : (w.allAlerts.map Alert.id).Nodup
  minutes : ∀ row ∈ w.allAlerts, row.windowEnd = row.windowStart + minute

omit [DecidableEq ι] in
theorem Tidy.of_eq {w w' : World ι} (h : Tidy w) (ha : w'.alerts = w.alerts)
    (hi : w'.inflight = w.inflight) : Tidy w' := by
  have hall : w'.allAlerts = w.allAlerts := by rw [allAlerts, ha, hi, allAlerts]
  exact ⟨by rw [hall]; exact h.windows, by rw [hall]; exact h.ids,
    by rw [hall]; exact h.minutes⟩

omit [DecidableEq ι] in
/-- Two alerts of a tidy database in the same window are one. -/
theorem Tidy.eq_of_window {w : World ι} (h : Tidy w) {a b : Alert}
    (ha : a ∈ w.allAlerts) (hb : b ∈ w.allAlerts) (hab : a.window = b.window) : a = b := by
  refine List.inj_on_of_nodup_map h.windows ha hb ?_
  have h₁ := congrArg Prod.fst hab
  have h₂ := congrArg Prod.snd hab
  simp only [Alert.window] at h₁ h₂
  simp only [Alert.windowKey, h.minutes a ha, h.minutes b hb, h₁, h₂]

omit [DecidableEq ι] in
/-- No committed alert has the identifier of an uncommitted one. -/
theorem Tidy.unborn {w : World ι} (h : Tidy w) {i : ι} {row : Alert}
    (hrow : (i, row) ∈ w.inflight) : ∀ a ∈ w.alerts.rows, a.id ≠ row.id := by
  intro a ha
  have hids := h.ids
  rw [allAlerts, List.map_append, List.nodup_append] at hids
  refine hids.2.2 a.id (List.mem_map_of_mem ha) row.id (List.mem_map_of_mem ?_)
  exact List.mem_map.mpr ⟨(i, row), hrow, rfl⟩

/-- A rolled-back transaction leaves the rest tidy. -/
theorem Tidy.abort {w : World ι} (h : Tidy w) (i : ι) : Tidy (w.abort i) := by
  have hsub : (w.abort i).allAlerts.Sublist w.allAlerts :=
    List.Sublist.append_left (List.Sublist.map _ List.filter_sublist) _
  exact ⟨h.windows.sublist (hsub.map _), h.ids.sublist (hsub.map _),
    fun row hrow => h.minutes row (hsub.mem hrow)⟩

/-- A commit keeps the alerts and moves those of its session. -/
theorem allAlerts_commitRows {w : World ι} (h : Tidy w) (i : ι) :
    (w.commitRows i).alerts.rows
        = w.alerts.rows ++ (w.inflight.filter (fun e => e.1 = i)).map Prod.snd ∧
      (w.commitRows i).allAlerts.Perm w.allAlerts := by
  have hsplit : ((w.inflight.filter (fun e => e.1 = i)).map Prod.snd
      ++ (w.inflight.filter (fun e => e.1 ≠ i)).map Prod.snd).Perm
      (w.inflight.map Prod.snd) := by
    rw [← List.map_append]
    refine List.Perm.map _ ?_
    simpa using List.filter_append_perm (fun e : ι × Alert => decide (e.1 = i)) w.inflight
  have hids : ((w.alerts.rows ++ (w.inflight.filter (fun e => e.1 = i)).map Prod.snd).map
      Alert.id).Nodup := by
    refine h.ids.sublist (List.Sublist.map _ ?_)
    exact List.Sublist.append_left (List.Sublist.map _ List.filter_sublist) _
  have hrows := Table.foldl_insertNew_rows hids
  refine ⟨hrows, ?_⟩
  show ((w.commitRows i).alerts.rows ++ _).Perm _
  rw [show (w.commitRows i).alerts.rows = _ from hrows, List.append_assoc]
  exact List.Perm.append_left _ hsplit

theorem Tidy.commitRows {w : World ι} (h : Tidy w) (i : ι) : Tidy (w.commitRows i) := by
  have hperm := (allAlerts_commitRows h i).2
  exact ⟨(hperm.map _).nodup_iff.mpr h.windows, (hperm.map _).nodup_iff.mpr h.ids,
    fun row hrow => h.minutes row (hperm.mem_iff.mp hrow)⟩

omit [DecidableEq ι] in
theorem Tidy.insert {w : World ι} (h : Tidy w) (i : ι) {row : Alert}
    (hkey : ∀ a ∈ w.allAlerts, a.windowKey ≠ row.windowKey)
    (hid : ∀ a ∈ w.allAlerts, a.id ≠ row.id)
    (hmin : row.windowEnd = row.windowStart + minute) :
    Tidy { w with inflight := w.inflight ++ [(i, row)] } := by
  have hall : World.allAlerts { w with inflight := w.inflight ++ [(i, row)] }
      = w.allAlerts ++ [row] := by
    simp [allAlerts]
  have hnodup : ∀ {β : Type} (f : Alert → β), (w.allAlerts.map f).Nodup →
      (∀ a ∈ w.allAlerts, f a ≠ f row) → ((w.allAlerts ++ [row]).map f).Nodup := by
    intro β f hn hne
    rw [List.map_append, List.nodup_append]
    refine ⟨hn, List.nodup_singleton _, ?_⟩
    intro x hx y hy hxy
    obtain ⟨a, ha, rfl⟩ := List.mem_map.mp hx
    simp only [List.map_cons, List.map_nil, List.mem_singleton] at hy
    exact hne a ha (hxy.trans hy)
  refine ⟨by rw [hall]; exact hnodup _ h.windows hkey,
    by rw [hall]; exact hnodup _ h.ids hid, ?_⟩
  rw [hall]
  intro a ha
  rcases List.mem_append.mp ha with ha | ha
  · exact h.minutes a ha
  · rw [List.mem_singleton.mp ha]
    exact hmin

end World

end Pulse
