/-
  Pulse.Worker.Immutable
  ──────────────────────
  **WHAT IS WRITTEN ONCE.**

  A candle row is never rewritten, records are only added, and of an alert row
  only the three delivery columns change: what raised it stays as it was inserted.

    • `Alert.asRaised`     — an alert without its delivery columns,
    • `perform_written`    — what one operation of any session does to rows that
                             are there, and which rows it can add.
-/
import Pulse.Worker.Frame

namespace Pulse

open Pulse.Async Pulse.Store

/-- The alert as it was inserted: the delivery columns have their defaults. -/
def Alert.asRaised (a : Alert) : Alert :=
  { a with deliveryStatus := .pending, deliveryAttempts := 0, lastDeliveryAttempt := none }

@[simp] theorem Alert.asRaised_id (a : Alert) : a.asRaised.id = a.id := rfl

@[simp] theorem Alert.asRaised_triggerValue (a : Alert) :
    a.asRaised.triggerValue = a.triggerValue := rfl

@[simp] theorem Alert.asRaised_createdAt (a : Alert) : a.asRaised.createdAt = a.createdAt := rfl

/-- A flush writes delivery columns only. -/
@[simp] theorem AlertObj.asRaised_flushInto (o : AlertObj) (stored : Alert) :
    (o.flushInto stored).asRaised = stored.asRaised := rfl

theorem map_id_of_raised {rows rows' : List Alert}
    (h : rows'.map Alert.asRaised = rows.map Alert.asRaised) :
    rows'.map Alert.id = rows.map Alert.id := by
  have hid : ∀ rows : List Alert, rows.map Alert.id = (rows.map Alert.asRaised).map Alert.id := by
    intro rows
    rw [List.map_map]
    rfl
  rw [hid, h, ← hid]

/-- Whether an alert is stored, by the identifiers. -/
theorem get_isSome_iff {t : Table Alert.id} {a : AlertId} :
    (t.get a).isSome ↔ a ∈ t.rows.map Alert.id := by
  rw [Option.isSome_iff_exists, List.mem_map]
  exact exists_congr fun x => Table.get_eq_some

namespace World

variable {ι : Type} [DecidableEq ι]

/-- What `i` can have done to the tables on the way from `w` to `w'`. -/
structure Written (i : ι) (w w' : World ι) : Prop where
  candles : ∀ k row, w.candles.get k = some row → w'.candles.get k = some row
  attempts : w.attempts <+: w'.attempts
  requests : w.requests <+: w'.requests
  commits : w.commits <+: w'.commits
  /-- An alert row stays. -/
  kept : ∀ a row, w.alerts.get a = some row →
    ∃ row', w'.alerts.get a = some row' ∧ row'.asRaised = row.asRaised
  /-- An alert row was there, or is one that the session inserted before. -/
  origin : ∀ row' ∈ w'.alerts.rows, (∃ row ∈ w.alerts.rows, row'.asRaised = row.asRaised) ∨
    (i, row') ∈ w.inflight

omit [DecidableEq ι] in
theorem Written.of_eq {i : ι} {w w' : World ι}
    (hcandles : ∀ k row, w.candles.get k = some row → w'.candles.get k = some row)
    (hattempts : w'.attempts = w.attempts) (hrequests : w.requests <+: w'.requests)
    (hcommits : w'.commits = w.commits) (halerts : w'.alerts = w.alerts) : Written i w w' where
  candles := hcandles
  attempts := hattempts ▸ List.prefix_refl _
  requests := hrequests
  commits := hcommits ▸ List.prefix_refl _
  kept := fun a row hrow => ⟨row, by rw [halerts]; exact hrow, rfl⟩
  origin := fun row hrow => Or.inl ⟨row, by rw [halerts] at hrow; exact hrow, rfl⟩

/-- A delivery commit rewrites delivery columns of its alert, or nothing. -/
theorem written_storeDelivery (i : ι) (w : World ι) (alert : AlertObj)
    (records : List AlertDeliveryAttempt) :
    Written i w (w.storeDelivery i alert records).2 := by
  unfold storeDelivery
  split
  next => exact .of_eq (fun _ _ h => h) rfl (List.prefix_refl _) rfl rfl
  next stored hstored =>
    refine ⟨fun _ _ h => h, List.prefix_append _ _, List.prefix_refl _, List.prefix_append _ _,
      ?_, ?_⟩
    · intro a row hrow
      show ∃ row', (w.alerts.modify _ alert.flushInto alert.flushInto_id).get a = some row' ∧ _
      by_cases ha : alert.row.id = a
      · subst ha
        refine ⟨alert.flushInto row, ?_, rfl⟩
        rw [Table.get_modify_self, hrow]
        rfl
      · refine ⟨row, ?_, rfl⟩
        rw [Table.get_modify_other _ _ _ ha]
        exact hrow
    · intro row' hrow'
      have hmod : row' ∈ (w.alerts.modify alert.row.id alert.flushInto alert.flushInto_id).rows :=
        hrow'
      obtain ⟨row, hrow, rfl⟩ := Table.mem_modify hmod
      refine Or.inl ⟨row, hrow, ?_⟩
      split
      next => rfl
      next => rfl

/-- A commit adds the rows that the session inserted. -/
theorem written_commitRows (i : ι) (w : World ι) : Written i w (w.commitRows i) := by
  refine ⟨fun _ _ h => h, List.prefix_refl _, List.prefix_refl _, List.prefix_refl _,
    fun a row hrow => ?_, fun row' hrow' => ?_⟩
  · -- the keys of the rows that are there are taken
    refine ⟨row, ?_, rfl⟩
    obtain ⟨hmem, hid⟩ := Table.get_eq_some.mp hrow
    exact Table.get_eq_some.mpr ⟨Table.rows_subset_foldl_insertNew _ _ row hmem, hid⟩
  · have hmem := (Table.foldl_insertNew_sublist _ _).subset hrow'
    rcases List.mem_append.mp hmem with hold | hnew
    · exact Or.inl ⟨row', hold, rfl⟩
    · obtain ⟨e, he, rfl⟩ := List.mem_map.mp hnew
      obtain ⟨hin, hown⟩ := List.mem_filter.mp he
      have hown : e.1 = i := of_decide_eq_true hown
      rw [← hown]
      exact Or.inr hin

/-- **One operation** of any session. -/
theorem perform_written {i : ι} {o : Op} {inp : Input} {w w' : World ι} {r : Resp o}
    (h : perform i o inp w = some (r, w')) : Written i w w' := by
  -- the time that passes is seen by none of them
  suffices hw : Written i (w.tick inp.elapsed) w' from
    ⟨hw.candles, hw.attempts, hw.requests, hw.commits, hw.kept, hw.origin⟩
  have heffect := perform_effect h
  generalize w.tick inp.elapsed = w₁ at heffect ⊢
  cases heffect with
  | nothing | abort | call | fault | undone | refused | insert | cursor =>
      exact .of_eq (fun _ _ h => h) rfl (List.prefix_refl _) rfl rfl
  | post => exact .of_eq (fun _ _ h => h) rfl (List.prefix_append _ _) rfl rfl
  | candle hnone =>
      exact .of_eq (fun _ _ h => Table.get_insertNew_of_some h _) rfl (List.prefix_refl _) rfl rfl
  | delivery alert records => exact written_storeDelivery i w₁ alert records
  | commit => exact written_commitRows i w₁

/-- A delivery commit writes delivery columns. -/
theorem raised_storeDelivery (w : World ι) (i : ι) (alert : AlertObj)
    (records : List AlertDeliveryAttempt) :
    (w.storeDelivery i alert records).2.alerts.rows.map Alert.asRaised
      = w.alerts.rows.map Alert.asRaised := by
  unfold World.storeDelivery
  split
  next => rfl
  next =>
    show (w.alerts.rows.map _).map Alert.asRaised = _
    rw [List.map_map]
    refine List.map_congr_left fun a _ => ?_
    show (if a.id = alert.row.id then alert.flushInto a else a).asRaised = a.asRaised
    split
    next => exact alert.asRaised_flushInto a
    next => rfl

end World

end Pulse
