/-
  Pulse.Main.Isolation
  ────────────────────
  **FAILURES OF ONE RULE, AND THE OTHER RULES.**

  Once a rule has been processed and the session is usable, the rest of the
  loop cannot tell that the rule was there: operation by operation it gets the
  same answers as in a run without the rule.

    • `Agree`           — two databases that differ in one rule's alerts,
    • `sim_processRule` — another rule goes the same way in both,
    • `failure_isolation`       — the rule is isolated iff no failure of it was
                                  swallowed,
    • `failure_isolation_fails` — a failed commit in `_create_alert` is.
-/
import Pulse.Main.Containment
import Pulse.Async.Sim

namespace Pulse

open Pulse.Async Pulse.Store

namespace World

/-! ## §1. Two databases that differ in one rule's alerts. -/

/-- `w` holds what `v` holds, and more alerts of the rule. -/
structure Agree (ruleId : RuleId) (w v : World Unit) : Prop where
  rules : w.rules = v.rules
  others : w.othersThan ruleId = v.othersThan ruleId
  ids : ∀ a ∈ v.alerts.rows, ∃ b ∈ w.alerts.rows, b.id = a.id
  candles : w.candles = v.candles
  cursors : w.cursors = v.cursors
  inflight : w.inflight = v.inflight
  failed : w.failed () = v.failed ()
  clock : w.clock = v.clock
  /-- An uncommitted alert has a new identifier. -/
  fresh : ((w.alerts.rows ++ w.inflight.map Prod.snd).map Alert.id).Nodup

variable {ruleId : RuleId} {w v w' : World Unit}

/-- What a filter sees that no alert of the rule passes. -/
theorem Agree.filter (h : Agree ruleId w v) {p : Alert → Bool}
    (hp : ∀ a, p a = true → a.ruleId ≠ ruleId) :
    w.alerts.rows.filter p = v.alerts.rows.filter p := by
  have hsub : ∀ rows : List Alert,
      rows.filter p = (rows.filter fun a => a.ruleId ≠ ruleId).filter p := by
    intro rows
    rw [List.filter_filter]
    refine List.filter_congr fun a _ => ?_
    cases ha : p a with
    | false => rfl
    | true => simp [hp a ha]
  rw [hsub w.alerts.rows, hsub v.alerts.rows]
  exact congrArg (List.filter p) h.others

theorem Agree.any (h : Agree ruleId w v) {p : Alert → Bool}
    (hp : ∀ a, p a = true → a.ruleId ≠ ruleId) :
    w.alerts.rows.any p = v.alerts.rows.any p := by
  have hany : ∀ rows : List Alert, rows.any p = !(rows.filter p).isEmpty := by
    intro rows
    induction rows with
    | nil => rfl
    | cons a rows ih => cases ha : p a <;> simp [ha, ih]
  rw [hany, hany, h.filter hp]

/-- An alert of another rule is the same in both. -/
theorem Agree.get (h : Agree ruleId w v) {id : AlertId} {row : Alert}
    (hrow : w.alerts.get id = some row) (hother : row.ruleId ≠ ruleId) :
    v.alerts.get id = some row := by
  obtain ⟨hmem, hid⟩ := Table.get_eq_some.mp hrow
  have hin : row ∈ w.othersThan ruleId := List.mem_filter.mpr ⟨hmem, by simpa using hother⟩
  rw [h.others] at hin
  exact Table.get_eq_some.mpr ⟨(List.mem_filter.mp hin).1, hid⟩

/-- Databases that agree after a change that both make alike. -/
theorem Agree.of_eq {v' : World Unit} (h : Agree ruleId w v) (hrules : w'.rules = v'.rules)
    (hw : w'.alerts = w.alerts) (hv : v'.alerts = v.alerts)
    (hcandles : w'.candles = v'.candles) (hcursors : w'.cursors = v'.cursors)
    (hinflight : w'.inflight = v'.inflight) (hsub : w'.inflight.Sublist w.inflight)
    (hfailed : w'.failed () = v'.failed ()) (hclock : w'.clock = v'.clock) :
    Agree ruleId w' v' where
  rules := hrules
  others := by rw [othersThan, othersThan, hw, hv]; exact h.others
  ids := by rw [hw, hv]; exact h.ids
  candles := hcandles
  cursors := hcursors
  inflight := hinflight
  failed := hfailed
  clock := hclock
  fresh := by
    rw [hw]
    exact h.fresh.sublist (((hsub.map _).append_left _).map _)

theorem Agree.tick (h : Agree ruleId w v) (n : Nat) : Agree ruleId (w.tick n) (v.tick n) :=
  h.of_eq h.rules rfl rfl h.candles h.cursors h.inflight (List.Sublist.refl _) h.failed
    (by simp [World.tick, h.clock])

theorem Agree.abort (h : Agree ruleId w v) : Agree ruleId (w.abort ()) (v.abort ()) :=
  h.of_eq h.rules rfl rfl h.candles h.cursors (by simp [World.abort, h.inflight])
    List.filter_sublist (by simp [World.abort]) h.clock

theorem Agree.fail (h : Agree ruleId w v) : Agree ruleId (w.fail ()) (v.fail ()) :=
  h.of_eq h.rules rfl rfl h.candles h.cursors h.inflight (List.Sublist.refl _)
    (by simp [World.fail]) h.clock

/-- A statement does the same in both, if its body does. -/
theorem Agree.statement {α : Type} {site : Site} {inp : Input}
    {body body' : Option (Except PyErr α × World Unit)} {r : Except PyErr α}
    (h : Agree ruleId w v) (hperf : w.statement () site inp body = some (r, w'))
    (hbody : body = some (r, w') → ∃ v', body' = some (r, v') ∧ Agree ruleId w' v') :
    ∃ v', v.statement () site inp body' = some (r, v') ∧ Agree ruleId w' v' := by
  unfold World.statement at hperf ⊢
  rw [h.failed] at hperf
  split at hperf
  next hf =>
    obtain ⟨rfl, rfl⟩ := answer_inj hperf
    exact ⟨v, by rw [if_pos hf], h⟩
  next hf =>
    rw [if_neg hf]
    split at hperf
    next e he =>
      obtain ⟨rfl, rfl⟩ := answer_inj hperf
      exact ⟨_, rfl, h.fail.of_eq h.rules rfl rfl h.candles h.cursors h.inflight
        (List.Sublist.refl _) h.fail.failed h.clock⟩
    next he =>
      obtain ⟨v', hv', hagree⟩ := hbody hperf
      exact ⟨v', hv', hagree⟩

/-- Both commit the same uncommitted alerts. -/
theorem Agree.commitRows (h : Agree ruleId w v) :
    Agree ruleId (w.commitRows ()) (v.commitRows ()) := by
  have hmine : ∀ u : World Unit, u.inflight.filter (fun e => e.1 = ()) = u.inflight := by
    intro u
    simp
  -- an identifier that is new in `w` is new in `v`, which has fewer alerts
  have hvfresh : ((v.alerts.rows ++ w.inflight.map Prod.snd).map Alert.id).Nodup := by
    have hw := h.fresh
    rw [List.map_append, List.nodup_append] at hw ⊢
    refine ⟨v.alerts.nodup, hw.2.1, ?_⟩
    rintro x hx y hy rfl
    obtain ⟨a, ha, rfl⟩ := List.mem_map.mp hx
    obtain ⟨b, hb, hid⟩ := h.ids a ha
    exact hw.2.2 b.id (List.mem_map_of_mem hb) a.id hy hid
  have hwrows : (w.commitRows ()).alerts.rows = w.alerts.rows ++ w.inflight.map Prod.snd := by
    show (((w.inflight.filter fun e => e.1 = ()).map Prod.snd).foldl
      Table.insertNew w.alerts).rows = _
    rw [hmine]
    exact Table.foldl_insertNew_rows h.fresh
  have hvrows : (v.commitRows ()).alerts.rows = v.alerts.rows ++ w.inflight.map Prod.snd := by
    show (((v.inflight.filter fun e => e.1 = ()).map Prod.snd).foldl
      Table.insertNew v.alerts).rows = _
    rw [hmine, ← h.inflight]
    exact Table.foldl_insertNew_rows hvfresh
  have hnone : ∀ u : World Unit, (u.commitRows ()).inflight = [] := by
    intro u
    show List.filter _ _ = []
    rw [List.filter_eq_nil_iff]
    simp
  refine ⟨h.rules, ?_, ?_, h.candles, h.cursors, by rw [hnone, hnone], h.failed, h.clock, ?_⟩
  · rw [othersThan, othersThan, hwrows, hvrows, List.filter_append, List.filter_append]
    exact congrArg (· ++ _) h.others
  · rw [hwrows, hvrows]
    intro a ha
    rcases List.mem_append.mp ha with ha | ha
    · obtain ⟨b, hb, hid⟩ := h.ids a ha
      exact ⟨b, List.mem_append_left _ hb, hid⟩
    · exact ⟨a, List.mem_append_right _ ha, rfl⟩
  · rw [hnone]
    simpa using (w.commitRows ()).alerts.nodup

/-- Both store the delivery of another rule's alert. -/
theorem Agree.storeDelivery {alert : AlertObj} {stored : Alert} (h : Agree ruleId w v)
    (hrow : w.alerts.get alert.row.id = some stored) (hother : stored.ruleId ≠ ruleId)
    (records : List AlertDeliveryAttempt) :
    ∃ w' v', w.storeDelivery () alert records = (.ok (), w') ∧
      v.storeDelivery () alert records = (.ok (), v') ∧ Agree ruleId w' v' := by
  have hstore : ∀ u : World Unit, u.alerts.get alert.row.id = some stored →
      u.storeDelivery () alert records = (.ok (), { u with
        alerts := u.alerts.modify alert.row.id alert.flushInto alert.flushInto_id
        attempts := u.attempts ++ records
        commits := u.commits ++ [alert.flushInto stored] }) := by
    intro u hu
    rw [World.storeDelivery, hu]
  refine ⟨_, _, hstore w hrow, hstore v (h.get hrow hother), h.rules, ?_, ?_, h.candles,
    h.cursors, h.inflight, h.failed, h.clock, ?_⟩
  · -- the update keeps `rule_id`, so it commutes with the filter
    have hkeep : ∀ u : World Unit,
        ((u.alerts.modify alert.row.id alert.flushInto alert.flushInto_id).rows.filter
          fun a => a.ruleId ≠ ruleId) = (u.othersThan ruleId).map
            fun x => if x.id = alert.row.id then alert.flushInto x else x :=
      fun u => Table.filter_modify_of_keep alert.flushInto_id fun x => rfl
    show List.filter _ _ = List.filter _ _
    rw [hkeep w, hkeep v, h.others]
  · -- every row of the smaller database still has its counterpart
    intro a ha
    obtain ⟨a₀, ha₀, rfl⟩ := List.mem_map.mp ha
    obtain ⟨b, hb, hid⟩ := h.ids a₀ ha₀
    refine ⟨if b.id = alert.row.id then alert.flushInto b else b, List.mem_map_of_mem hb, ?_⟩
    have hsame : ∀ x : Alert, (if x.id = alert.row.id then alert.flushInto x else x).id
        = x.id := by
      intro x
      split <;> rfl
    rw [hsame, hsame, hid]
  · -- ids are as they were, and as unique
    have hids : (w.alerts.modify alert.row.id alert.flushInto alert.flushInto_id).rows.map
        Alert.id = w.alerts.rows.map Alert.id := by
      show (w.alerts.rows.map _).map Alert.id = _
      rw [List.map_map]
      refine List.map_congr_left fun x _ => ?_
      show (if x.id = alert.row.id then alert.flushInto x else x).id = x.id
      split <;> rfl
    have hfresh := h.fresh
    rw [List.map_append] at hfresh ⊢
    rw [hids]
    exact hfresh

/-- Both insert another rule's alert, or run into the same conflict.  The insert
waits less in the smaller database. -/
theorem Agree.insertRow {row : Alert} {r : Except PyErr AlertId} (h : Agree ruleId w v)
    (hother : row.ruleId ≠ ruleId) (hperf : w.insertRow () row = some (r, w')) :
    ∃ v', v.insertRow () row = some (r, v') ∧ Agree ruleId w' v' := by
  have hwindow : ∀ a : Alert, decide (a.windowKey = row.windowKey) = true →
      a.ruleId ≠ ruleId := by
    intro a ha hid
    have hkey : a.ruleId = row.ruleId := congrArg Prod.fst (of_decide_eq_true ha)
    exact hother (hkey.symm.trans hid)
  -- rows of the window are another rule's, and both databases have the same of those
  have hany := h.any hwindow
  unfold World.insertRow at hperf ⊢
  rw [← h.rules, ← hany, ← h.inflight]
  split at hperf
  next hrule =>
    obtain ⟨rfl, rfl⟩ := answer_inj hperf
    exact ⟨v, by rw [if_pos hrule], h⟩
  next hrule =>
    rw [if_neg hrule]
    split at hperf
    next hconflict =>
      obtain ⟨rfl, rfl⟩ := answer_inj hperf
      exact ⟨v, by rw [if_pos hconflict], h⟩
    next hconflict =>
      rw [if_neg hconflict]
      split at hperf
      next => exact absurd hperf (by simp)
      next hfree =>
        obtain ⟨rfl, rfl⟩ := answer_inj hperf
        simp only [Bool.or_eq_true, List.any_eq_true, decide_eq_true_eq, not_or, not_exists,
          not_and] at hfree
        -- nothing to wait for in `w`, so nothing in `v`
        have hvfree : v.alerts.rows.any (fun a => a.id = row.id) = false := by
          rw [List.any_eq_false]
          intro a ha
          obtain ⟨b, hb, hid⟩ := h.ids a ha
          simpa [← hid] using hfree.1.2 b hb
        refine ⟨{ v with inflight := w.inflight ++ [((), row)] }, ?_, h.rules, h.others, h.ids,
          h.candles, h.cursors, rfl, h.failed, h.clock, ?_⟩
        · rw [if_neg (by
            simp only [hvfree, Bool.or_false, Bool.or_eq_true, List.any_eq_true,
              decide_eq_true_eq, not_or, not_exists, not_and]
            exact ⟨hfree.1.1, hfree.2⟩), h.rules]
        · show ((w.alerts.rows ++ (w.inflight ++ [((), row)]).map Prod.snd).map Alert.id).Nodup
          rw [show (w.inflight ++ [((), row)]).map Prod.snd = w.inflight.map Prod.snd ++ [row] by
            simp, ← List.append_assoc, List.map_append, List.nodup_append]
          refine ⟨h.fresh, List.nodup_singleton _, ?_⟩
          rintro x hx y hy rfl
          obtain rfl := List.mem_singleton.mp hy
          obtain ⟨a, ha, hid⟩ := List.mem_map.mp hx
          rcases List.mem_append.mp ha with ha | ha
          · exact hfree.1.2 a ha hid
          · obtain ⟨e, he, rfl⟩ := List.mem_map.mp ha
            exact hfree.2 e he hid

/-- A commit stores the session's uncommitted alert. -/
theorem Agree.get_commitRows (h : Agree ruleId w v) {row : Alert}
    (hin : ((), row) ∈ w.inflight) : (w.commitRows ()).alerts.get row.id = some row := by
  refine Table.get_of_mem ?_
  have hmine : w.inflight.filter (fun e => e.1 = ()) = w.inflight := by simp
  show row ∈ (((w.inflight.filter fun e => e.1 = ()).map Prod.snd).foldl
    Table.insertNew w.alerts).rows
  rw [hmine, Table.foldl_insertNew_rows h.fresh]
  exact List.mem_append_right _ (List.mem_map_of_mem hin)

/-! ## §2. One operation. -/

/-- Alert `id` is stored, and is another rule's. -/
def OthersAlert (ruleId : RuleId) (id : AlertId) (w : World Unit) : Prop :=
  ∃ row, w.alerts.get id = some row ∧ row.ruleId ≠ ruleId

end World

/-- The operations that have nothing to do with rule `ruleId`. -/
def Op.apartFrom (ruleId : RuleId) (w : World Unit) : Op → Prop
  | .insertAlert alert => alert.ruleId ≠ ruleId
  | .refreshAlert id => World.OthersAlert ruleId id w
  | .commitDelivery alert _ => World.OthersAlert ruleId alert.row.id w
  | .selectLastAlert ruleId' _ => ruleId' ≠ ruleId
  | .selectPending _ => False
  | _ => True

namespace World

variable {ruleId : RuleId} {w v w' : World Unit}

theorem OthersAlert.keep {id : AlertId} {o : Op} {inp : Input} {r : Resp o}
    (h : OthersAlert ruleId id w) (hperf : perform () o inp w = some (r, w')) :
    OthersAlert ruleId id w' := by
  obtain ⟨row, hrow, hother⟩ := h
  obtain ⟨row', hrow', hid⟩ := (perform_kept hperf).alerts _ _ hrow
  exact ⟨row', hrow', hid ▸ hother⟩

/-- **An operation that has nothing to do with the rule** gets the same answer
with the rule's alerts as without them. -/
theorem agree_perform {o : Op} {inp : Input} {r : Resp o} (h : Agree ruleId w v)
    (hperf : perform () o inp w = some (r, w')) (ho : o.apartFrom ruleId w) :
    ∃ v', perform () o inp v = some (r, v') ∧ Agree ruleId w' v' := by
  have ht := h.tick inp.elapsed
  cases o with
  | openSession | rollback =>
      obtain ⟨rfl, rfl⟩ := answer_inj hperf
      exact ⟨_, rfl, ht.abort⟩
  | utcnow =>
      -- both runs sleep equally long, and so read the same time
      obtain ⟨rfl, rfl⟩ := answer_inj hperf
      refine ⟨v.tick inp.elapsed, ?_, ht⟩
      simp only [perform, ht.clock]
  | payload _ _ _ =>
      obtain ⟨rfl, rfl⟩ := answer_inj hperf
      exact ⟨_, rfl, ht⟩
  | uniform hi =>
      simp only [perform] at hperf ⊢
      split at hperf
      next hle =>
        obtain ⟨rfl, rfl⟩ := answer_inj hperf
        exact ⟨_, by rw [if_pos hle], ht⟩
      next => exact absurd hperf (by simp)
  | call _ | post _ _ _ =>
      obtain ⟨rfl, rfl⟩ := answer_inj hperf
      -- what is sent is no part of the database
      exact ⟨_, rfl, ht.of_eq ht.rules rfl rfl ht.candles ht.cursors ht.inflight
        (List.Sublist.refl _) ht.failed ht.clock⟩
  | selectRule id =>
      refine ht.statement hperf fun hb => ?_
      obtain ⟨rfl, rfl⟩ := answer_inj hb
      exact ⟨_, by rw [ht.rules], ht⟩
  | selectCandles query =>
      refine ht.statement hperf fun hb => ?_
      obtain ⟨rfl, rfl⟩ := answer_inj hb
      exact ⟨_, by rw [ht.candles], ht⟩
  | savepoint =>
      refine ht.statement hperf fun hb => ?_
      obtain ⟨rfl, rfl⟩ := answer_inj hb
      exact ⟨_, rfl, ht⟩
  | refreshAlert id =>
      obtain ⟨row, hrow, hother⟩ := ho
      refine ht.statement hperf fun hb => ?_
      obtain ⟨rfl, rfl⟩ := answer_inj hb
      have hw : (w.tick inp.elapsed).alerts.get id = some row := hrow
      -- the row is another rule's, so the smaller database has it too
      have hv : (v.tick inp.elapsed).alerts.get id = some row := h.get hrow hother
      exact ⟨_, by rw [hw, hv], ht⟩
  | selectCursor symbol =>
      refine ht.statement hperf fun hb => ?_
      obtain ⟨rfl, rfl⟩ := answer_inj hb
      exact ⟨_, by rw [ht.cursors], ht⟩
  | selectPending _ => exact ho.elim
  | selectLastAlert ruleId' symbol =>
      refine ht.statement hperf fun hb => ?_
      -- another rule is asked for, whose alerts are the same
      have hsame : (w.tick inp.elapsed).alertsOf ruleId' symbol
          = (v.tick inp.elapsed).alertsOf ruleId' symbol := by
        refine ht.filter fun a ha => ?_
        have ha : a.ruleId = ruleId' ∧ a.symbol = symbol := by simpa using ha
        rw [ha.1]
        exact ho
      rw [hsame] at hb
      split at hb
      next hpage =>
        obtain ⟨rfl, rfl⟩ := answer_inj hb
        exact ⟨_, by rw [if_pos hpage], ht⟩
      next => exact absurd hb (by simp)
  | commitDelivery alert records =>
      obtain ⟨row, hrow, hother⟩ := ho
      refine ht.statement hperf fun hb => ?_
      -- the delivery of another rule's alert, in both databases
      obtain ⟨w₁, v₁, hw₁, hv₁, hagree⟩ := ht.storeDelivery hrow hother records
      rw [hw₁] at hb
      obtain ⟨rfl, rfl⟩ := answer_inj hb
      exact ⟨v₁, by rw [hv₁], hagree⟩
  | insertAlert alert =>
      simp only [perform] at hperf ⊢
      rw [ht.failed] at hperf
      split at hperf
      next hf =>
        obtain ⟨rfl, rfl⟩ := answer_inj hperf
        exact ⟨_, by rw [if_pos hf], ht⟩
      next hf =>
        -- the insert itself: a fault, a conflict or a new row
        rw [if_neg hf]
        split at hperf
        next e he =>
          obtain ⟨rfl, rfl⟩ := answer_inj hperf
          exact ⟨_, rfl, ht.of_eq ht.rules rfl rfl ht.candles ht.cursors ht.inflight
            (List.Sublist.refl _) ht.failed ht.clock⟩
        next he =>
          rw [ht.clock] at hperf
          exact ht.insertRow (by exact ho) hperf
  | commitAlert =>
      refine ht.statement hperf fun hb => ?_
      obtain ⟨rfl, rfl⟩ := answer_inj hb
      exact ⟨_, rfl, ht.commitRows⟩
  | insertCandle c =>
      refine ht.statement hperf fun hb => ?_
      -- `candles` has its own unique key, which is seen alike
      rw [ht.candles] at hb
      split at hb
      next row hrow =>
        obtain ⟨rfl, rfl⟩ := answer_inj hb
        exact ⟨_, rfl, ht.fail⟩
      next hnone =>
        obtain ⟨rfl, rfl⟩ := answer_inj hb
        refine ⟨_, rfl, ?_⟩
        exact ht.of_eq ht.rules rfl rfl rfl ht.cursors ht.inflight
          (List.Sublist.refl _) ht.failed ht.clock
  | commitCursor present symbol timestamp =>
      refine ht.statement hperf fun hb => ?_
      rw [ht.cursors] at hb
      split at hb
      next hclash =>
        obtain ⟨rfl, rfl⟩ := answer_inj hb
        exact ⟨_, by rw [if_pos hclash], ht.fail⟩
      next hclash =>
        obtain ⟨rfl, rfl⟩ := answer_inj hb
        refine ⟨_, by rw [if_neg hclash], ?_⟩
        exact ht.of_eq ht.rules rfl rfl ht.candles rfl ht.inflight
          (List.Sublist.refl _) ht.failed ht.clock

end World

/-! ## §3. Another rule. -/

section Others

variable {α : Type} {ruleId : RuleId} {w v : World Unit}

/-- `p` goes the same way with the rule's alerts as without them. -/
abbrev alike (ruleId : RuleId) (Q : α → World Unit → Prop) (p : Prog α) (w v : World Unit) :
    Prop :=
  Coro.sim (World.perform ()) (World.Agree ruleId)
    (fun a w' v' => World.Agree ruleId w' v' ∧ Q a w') (fun _ => World.Agree ruleId) p w v

/-- Programs that have nothing to do with the rule. -/
theorem alike_of_uses {ρ : α → Prop} {p : Prog α}
    (hp : p.Uses (fun o => ∀ u, o.apartFrom ruleId u) ρ) (h : World.Agree ruleId w v) :
    alike ruleId (fun a _ => ρ a) p w v := by
  have hsim := Coro.sim_of_uses (H := World.perform ()) (I := World.Agree ruleId)
    (J := World.Agree ruleId) (fun _ _ hJ => hJ) ?_ hp h
  · exact Coro.sim_mono (fun _ _ _ hq => ⟨hq.2, hq.1⟩) (fun _ _ _ he => he) hsim
  · intro o inp s t r s' ho hJ hperf
    exact World.agree_perform hJ hperf (ho s)

theorem Op.records.apartFrom {o : Op} {candle : Candle} (ho : o.records candle)
    (u : World Unit) : o.apartFrom ruleId u := by
  cases o with
  | insertCandle _ | rollback | selectCursor _ | commitCursor _ _ _ => trivial
  | _ => exact ho.elim

/-- What another rule's insert leaves: nothing, or its uncommitted alert. -/
def OthersInsert (ruleId : RuleId) (inserted : Option AlertId) (w : World Unit) : Prop :=
  ∀ id, inserted = some id →
    ∃ row : Alert, ((), row) ∈ w.inflight ∧ row.id = id ∧ row.ruleId ≠ ruleId

theorem alike_insertInSavepoint {alert : Alert} (hid : alert.ruleId ≠ ruleId)
    (h : World.Agree ruleId w v) :
    alike ruleId (OthersInsert ruleId) (insertInSavepoint alert) w v := by
  have hcatch : ∀ {e : PyErr} {s t : World Unit}, World.Agree ruleId s t →
      alike ruleId (OthersInsert ruleId)
        (if e.cls = .integrityError then pure none else throw e) s t := by
    intro e s t hst
    split
    next => exact ⟨hst, fun _ h => absurd h (by simp)⟩
    next => exact hst
  unfold insertInSavepoint
  refine Coro.sim_tryCatch (Coro.sim_bind ?_)
  intro inp r w₁ hperf
  -- the savepoint, in both runs
  obtain ⟨v₁, hperf', h₁⟩ := World.agree_perform h hperf trivial
  refine ⟨v₁, hperf', h₁, ?_⟩
  cases r with
  | error e => exact hcatch h₁
  | ok _ =>
      refine Coro.sim_bind ?_
      intro inp₂ r w₂ hperf₂
      -- the insert: the same id, or the same error
      obtain ⟨v₂, hperf₂', h₂⟩ := World.agree_perform h₁ hperf₂ hid
      refine ⟨v₂, hperf₂', h₂, ?_⟩
      cases r with
      | error e => exact hcatch h₂
      | ok id =>
          refine ⟨h₂, fun id' hid' => ?_⟩
          obtain rfl := Option.some.inj hid'
          obtain ⟨⟨e, he⟩, -⟩ | ⟨-, hr, rfl, -⟩ := World.insertAlert_cases hperf₂
          · exact absurd he (by simp)
          · obtain rfl := Except.ok.inj hr
            exact ⟨_, List.mem_append_right _ (List.mem_singleton_self _), rfl, hid⟩

/-- What `evaluate` answers for another rule. -/
def OthersResult (ruleId : RuleId) (out : Option AlertObj) (w : World Unit) : Prop :=
  ∀ alert, out = some alert →
    ∃ loaded, alert = AlertObj.ofRow loaded ∧ World.OthersAlert ruleId loaded.id w

theorem OthersResult.none : OthersResult ruleId none w := fun _ h => absurd h (by simp)

theorem alike_commitNewAlert {inserted : Option AlertId} (h : World.Agree ruleId w v)
    (hin : OthersInsert ruleId inserted w) :
    alike ruleId (OthersResult ruleId) (commitNewAlert inserted) w v := by
  unfold commitNewAlert
  cases inserted with
  | none => exact ⟨h, .none⟩
  | some id =>
      obtain ⟨row, hrow, rfl, hother⟩ := hin id rfl
      intro inp r w₁ hperf
      obtain ⟨v₁, hperf', h₁⟩ := World.agree_perform h hperf trivial
      refine ⟨v₁, hperf', h₁, ?_⟩
      cases r with
      | error e => exact h₁
      | ok _ =>
          -- what was committed is still an alert of another rule
          have hstored : World.OthersAlert ruleId row.id w₁ := by
            obtain ⟨-, hb⟩ := World.statement_ok hperf
            obtain ⟨-, rfl⟩ := World.answer_inj hb
            exact ⟨row, (h.tick inp.elapsed).get_commitRows hrow, hother⟩
          intro inp₂ r w₂ hperf₂
          obtain ⟨v₂, hperf₂', h₂⟩ := World.agree_perform h₁ hperf₂ hstored
          refine ⟨v₂, hperf₂', h₂, ?_⟩
          cases r with
          | error e => exact h₂
          | ok stored =>
              refine ⟨h₂, fun alert halert => ⟨{ stored with id := row.id }, ?_, ?_⟩⟩
              · exact (Option.some.inj halert).symm
              · exact hstored.keep hperf₂

theorem alike_evaluate {ruleClasses : RuleClasses} {rule : Rule} {candle : Candle}
    (hid : rule.id ≠ ruleId) (h : World.Agree ruleId w v) :
    alike ruleId (OthersResult ruleId) (evaluate ruleClasses rule candle) w v := by
  unfold evaluate
  refine Coro.sim_bind (Coro.sim_mono ?_ (fun _ _ _ he => he)
    (alike_of_uses (ρ := fun _ => True) ⟨fun _ => trivial, fun _ => trivial⟩ h))
  rintro _ w₁ v₁ ⟨h₁, -⟩
  -- the cooldown is that of another rule
  refine Coro.sim_bind (Coro.sim_mono ?_ (fun _ _ _ he => he)
    (alike_of_uses (uses_isInCooldown (fun _ _ => hid) fun _ => trivial) h₁))
  rintro inCooldown w₂ v₂ ⟨h₂, -⟩
  split
  next => exact ⟨h₂, .none⟩
  next =>
    split
    next => exact ⟨h₂, .none⟩
    next cls _ =>
      refine Coro.sim_tryCatch (Coro.sim_mono (fun _ _ _ hq => hq)
        (fun _ _ _ he => ⟨he, .none⟩) ?_)
      unfold evaluateClass
      refine Coro.sim_bind (Coro.sim_mono ?_ (fun _ _ _ he => he)
        (alike_of_uses ((cls.reads rule.config candle).mono ?_ (fun _ h => h)) h₂))
      · rintro value w₃ v₃ ⟨h₃, -⟩
        split
        next => exact ⟨h₃, .none⟩
        next triggerValue =>
          unfold createAlert
          refine Coro.sim_bind (Coro.sim_mono ?_ (fun _ _ _ he => he)
            (alike_of_uses (ρ := fun _ => True) ⟨fun _ => trivial, fun _ => trivial⟩ h₃))
          rintro _ w₄ v₄ ⟨h₄, -⟩
          exact Coro.sim_bind (Coro.sim_mono
            (fun _ _ _ hq => alike_commitNewAlert hq.1 hq.2) (fun _ _ _ he => he)
            (alike_insertInSavepoint hid h₄))
      · intro o ho u
        cases o <;> first | exact ho.elim | trivial

/-- A delivery of another rule's alert. -/
theorem alike_dispatch {loaded : Alert} (h : World.Agree ruleId w v)
    (hstored : World.OthersAlert ruleId loaded.id w) :
    alike ruleId (fun _ _ => True) (dispatch (AlertObj.ofRow loaded)) w v := by
  have huses : (dispatch (AlertObj.ofRow loaded)).Uses
      (Op.delivers loaded fun _ => True) (fun _ => True) := uses_dispatch trivial trivial
  have hsim := Coro.sim_of_uses (H := World.perform ()) (I := World.Agree ruleId)
    (J := fun s t => World.Agree ruleId s t ∧ World.OthersAlert ruleId loaded.id s)
    (fun _ _ hJ => hJ.1) ?_ huses ⟨h, hstored⟩
  · exact Coro.sim_mono (fun _ _ _ hq => ⟨hq.2.1, trivial⟩) (fun _ _ _ he => he.1) hsim
  · intro o inp s t r s' ho hJ hperf
    have hapart : o.apartFrom ruleId s := by
      cases o <;> simp only [Op.delivers] at ho <;> try trivial
      case commitDelivery alert records =>
        show World.OthersAlert ruleId alert.row.id s
        rw [ho.2.1]
        exact hJ.2
    obtain ⟨t', hperf', hagree⟩ := World.agree_perform hJ.1 hperf hapart
    exact ⟨t', hperf', hagree, hJ.2.keep hperf⟩

/-- **Another rule goes the same way.** -/
theorem sim_processRule {ruleClasses : RuleClasses} {rule : Rule} {candle : Candle}
    (hid : rule.id ≠ ruleId) (h : World.Agree ruleId w v) :
    alike ruleId (fun _ _ => True) (processRule ruleClasses candle rule) w v := by
  have hrollback : ∀ {s t : World Unit}, World.Agree ruleId s t →
      alike ruleId (fun _ _ => True) rollback s t := fun hst =>
    alike_of_uses ⟨fun _ => trivial, fun _ => trivial⟩ hst
  unfold processRule
  refine Coro.sim_tryCatch (Coro.sim_bind (Coro.sim_mono ?_ (fun _ _ _ he => hrollback he)
    (alike_evaluate hid h)))
  rintro alert w₁ v₁ ⟨h₁, hresult⟩
  split
  next => exact ⟨h₁, trivial⟩
  next alert =>
    obtain ⟨loaded, rfl, hstored⟩ := hresult alert rfl
    exact Coro.sim_mono (fun _ _ _ hq => hq) (fun _ _ _ he => hrollback he)
      (alike_dispatch h₁ hstored)

end Others

/-! ## §4. The rest of the loop. -/

/-- What the main loop does once a rule has been processed: the remaining rules of
the candle, and then the next candle is recorded. -/
def restOfLoop (ruleClasses : RuleClasses) (candle next : Candle) (rules : List Rule) :
    Prog Unit := do
  Coro.forEach rules (processRule ruleClasses candle)
  recordCandle next

/-- The session is usable and holds no insert. -/
structure Usable (w : World Unit) : Prop where
  failed : w.failed () = false
  inflight : w.inflight = []

/-- From `v` to `w` a rule was processed and nobody else notices: the session is
usable, and every run of the rest of the loop is one that it has without the
rule, with the same answers at every await. -/
structure Isolated (ruleClasses : RuleClasses) (candle : Candle) (ruleId : RuleId)
    (v w : World Unit) : Prop where
  usable : Usable w
  same : ∀ (next : Candle) (rules : List Rule), (∀ r ∈ rules, r.id ≠ ruleId) →
    ∀ ins p w', Coro.run (World.perform ()) ins
        (restOfLoop ruleClasses candle next rules) w = some (p, w') →
      ∃ (n : Nat) (v' : World Unit), w.clock = v.clock + n ∧
        Coro.run (World.perform ()) ins (restOfLoop ruleClasses candle next rules)
          (v.tick n) = some (p, v') ∧
        w'.othersThan ruleId = v'.othersThan ruleId

/-- What is contained and usable agrees with what was there before. -/
theorem agree_of_contained {ruleId : RuleId} {v w : World Unit}
    (h : World.Contained ruleId v w) (hv : Usable v) (hw : Usable w) :
    ∃ n : Nat, w.clock = v.clock + n ∧ World.Agree ruleId w (v.tick n) := by
  obtain ⟨n, hn⟩ := Int.le.dest h.clock
  refine ⟨n, hn.symm, h.rules, h.others, h.ids, h.candles, h.cursors, ?_, ?_, hn.symm, ?_⟩
  · exact hw.inflight.trans hv.inflight.symm
  · exact hw.failed.trans hv.failed.symm
  · rw [hw.inflight]
    simpa using w.alerts.nodup

theorem isolated_of_contained {ruleClasses : RuleClasses} {candle : Candle} {ruleId : RuleId}
    {v w : World Unit} (h : World.Contained ruleId v w) (hv : Usable v) (hw : Usable w) :
    Isolated ruleClasses candle ruleId v w := by
  refine ⟨hw, fun next rules hrules ins p w' hrun => ?_⟩
  obtain ⟨n, hn, hagree⟩ := agree_of_contained h hv hw
  have hsim : alike ruleId (fun _ _ => True)
      (restOfLoop ruleClasses candle next rules) w (v.tick n) := by
    unfold restOfLoop
    refine Coro.sim_bind (Coro.sim_mono (fun _ s t hst => ?_) (fun _ _ _ he => he)
      (Coro.sim_forEach (fun r hr s t hst => ?_) hagree))
    · exact Coro.sim_mono (fun _ _ _ hq => hq) (fun _ _ _ he => he)
        (alike_of_uses (uses_recordCandle.mono (fun _ ho => ho.apartFrom) fun _ h => h) hst)
    · exact Coro.sim_mono (fun _ _ _ hq => hq.1) (fun _ _ _ he => he)
        (sim_processRule (hrules r hr) hst)
  obtain ⟨v', hrun', hagree'⟩ := Coro.run_sim hsim hagree hrun
  exact ⟨n, v', hn, hrun', hagree'.others⟩

/-- **A rule is isolated iff no failure of it was swallowed.** -/
theorem failure_isolation {ruleClasses : RuleClasses} {candle : Candle} {rule : Rule}
    {v w : World Unit} {ins : List Input} (hv : Usable v)
    (hrun : Coro.run (World.perform ()) ins (processRule ruleClasses candle rule) v
      = some (.pure (), w)) :
    Isolated ruleClasses candle rule.id v w ↔ ¬ World.Tainted v w := by
  have hstart : World.Between rule.id v v := by
    refine ⟨⟨rfl, rfl, fun a ha => ⟨a, ha, rfl⟩, rfl, rfl, le_refl _, ?_⟩,
      ⟨List.prefix_refl _, ?_⟩, Or.inl hv.inflight⟩
    · rw [hv.inflight]
      simp
    · rw [hv.failed]
      exact ⟨fun hf => absurd hf (by simp), fun ht => absurd ht (World.not_tainted_self v)⟩
  have hend : World.Between rule.id v w :=
    Coro.wp_run (fun _ _ _ _ => trivial) (contained_processRule hstart hv.failed) hrun
  constructor
  · intro hisolated htaint
    have hfailed := hend.track.failed.mpr htaint
    rw [hisolated.usable.failed] at hfailed
    exact absurd hfailed (by simp)
  · intro hclean
    have hgood : w.failed () = false := by
      rw [← Bool.not_eq_true, hend.track.failed]
      exact hclean
    exact isolated_of_contained hend.contained hv
      ⟨hgood, hend.atRest.resolve_right (by rw [hgood]; simp)⟩

theorem usable_initial (rules : Table Rule.id) : Usable (World.initial rules) := ⟨rfl, rfl⟩

/-- A failed insert is undone to its savepoint. -/
theorem failure_isolation_insert : ∃ w : World Unit, w.faults = [((), .alertInsert)] ∧
    Isolated alwaysMatches sampleCandle 1 (World.initial sampleRules) w := by
  have hend : (Coro.run (World.perform ())
      [{}, {}, {}, { fault := some ⟨.operationalError, "deadlock detected"⟩ }]
      (processRule alwaysMatches sampleCandle sampleRule) (World.initial sampleRules)).map
        (fun out => (out.1.returned, decide (out.2.faults = [((), Site.alertInsert)])))
        = some (true, true) := by decide
  obtain ⟨⟨p, w⟩, hrun, hout⟩ := Option.map_eq_some_iff.mp hend
  simp only [Prod.mk.injEq] at hout
  have hfaults : w.faults = [((), Site.alertInsert)] := of_decide_eq_true hout.2
  obtain ⟨_, rfl⟩ := Coro.returned_iff.mp hout.1
  refine ⟨w, hfaults, (failure_isolation (usable_initial sampleRules) hrun).mpr ?_⟩
  rintro ⟨e, he, hswallowed⟩
  rw [hfaults] at he
  obtain rfl := List.mem_singleton.mp he
  exact absurd hswallowed (by decide)

/-- **A failed commit in `_create_alert` is swallowed** and leaves the session in a
failed transaction. -/
theorem failure_isolation_fails : ¬ ∀ (ins : List Input) (w : World Unit),
    Coro.run (World.perform ()) ins (processRule alwaysMatches sampleCandle sampleRule)
        (World.initial sampleRules) = some (.pure (), w) →
      Isolated alwaysMatches sampleCandle 1 (World.initial sampleRules) w := by
  intro h
  have hend : (Coro.run (World.perform ())
      [{}, {}, {}, { uuid := 7 }, { fault := some ⟨.operationalError, "connection lost"⟩ }]
      (processRule alwaysMatches sampleCandle sampleRule) (World.initial sampleRules)).map
        (fun out => (out.1.returned, out.2.failed ())) = some (true, true) := by decide
  obtain ⟨⟨p, w⟩, hrun, hout⟩ := Option.map_eq_some_iff.mp hend
  simp only [Prod.mk.injEq] at hout
  obtain ⟨_, rfl⟩ := Coro.returned_iff.mp hout.1
  have hgood := (h _ w hrun).usable.failed
  rw [hout.2] at hgood
  exact absurd hgood (by simp)

/-- After a swallowed failure the next `save_candle` raises, and the main loop with
it: its handler takes integrity errors only. -/
theorem recordCandle_of_failed {w : World Unit} (hw : w.failed () = true) (candle : Candle) :
    alone (fun _ _ => False) (fun _ => True) (recordCandle candle) w := by
  intro s₁ hs inp r w₁ _ hperf
  subst hs
  refine ⟨trivial, ?_⟩
  simp only [World.perform, World.statement] at hperf
  rw [if_pos (show (w.tick inp.elapsed).failed () = true from hw)] at hperf
  obtain ⟨rfl, rfl⟩ := World.answer_inj hperf
  exact trivial

end Pulse
