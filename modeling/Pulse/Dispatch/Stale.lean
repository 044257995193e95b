/-
  Pulse.Dispatch.Stale
  ────────────────────
  **WHAT A SESSION WITH A STALE ROW CAN UNDO.**

  A commit writes the columns that differ from what the session loaded.  A
  session that can only store `delivered` or the status it loaded is GENTLE: it
  undoes nobody's delivery, however stale its row is.  A pass on an alert's last
  attempt stores `failed`; it undoes nothing only if the row is left alone
  meanwhile (FIRM).

    • `gentle_dispatch`, `gentle_pass` — under the rely that rules stay,
    • `firm_pass`                      — under the rely that the row stays.
-/
import Pulse.Dispatch.Footprint
import Pulse.Dispatch.Round

namespace Pulse

open Pulse.Async Pulse.Store

variable {ι : Type} [DecidableEq ι]

/-! ## §1. Steps that undo no delivery. -/

/-- The GUARANTEE: a delivered alert stays delivered. -/
def StaysDelivered (a : AlertId) (w w' : World ι) : Prop :=
  ∀ row, w.alerts.get a = some row → row.deliveryStatus = .delivered →
    ∃ row', w'.alerts.get a = some row' ∧ row'.deliveryStatus = .delivered

/-- The RELY of a gentle session: rules are not deleted. -/
def RulesStay (w w' : World ι) : Prop :=
  ∀ id, (w.rules.get id).isSome → (w'.rules.get id).isSome

/-- The RELY of a session on the last attempt: the row is left alone. -/
def RowStays (a : AlertId) (w w' : World ι) : Prop :=
  w'.alerts.get a = w.alerts.get a

omit [DecidableEq ι] in
theorem RowStays.final {a : AlertId} {w w' : World ι} (h : RowStays a w w') :
    StaysDelivered a w w' := fun row hrow hd => ⟨row, h.trans hrow, hd⟩

theorem rulesStay_of_perform {i : ι} {o : Op} {inp : Input} {w w' : World ι} {r : Resp o}
    (h : World.perform i o inp w = some (r, w')) : RulesStay w w' :=
  fun id hid => by rw [(World.perform_kept h).rules]; exact hid

/-- Nothing but a commit changes the row of an alert that is being delivered. -/
theorem rowStays_of_delivers {i : ι} {a : AlertId} {o : Op} {inp : Input} {w w' : World ι}
    {r : Resp o} (loaded : Alert) (h : World.perform i o inp w = some (r, w'))
    (ho : o.delivers loaded (fun _ => False)) : RowStays a w w' := by
  by_cases ht : o.touches a
  · cases o <;> simp only [Op.touches] at ht
    case selectRule => exact congrArg Ledger.row (World.perform_selectRule h a)
    case post =>
      obtain ⟨-, rfl⟩ := World.answer_inj h
      rfl
    case commitDelivery => exact absurd ho.2.2.1 id
    case insertAlert => exact absurd ho id
    case commitAlert => exact absurd ho id
  · exact congrArg Ledger.row (World.perform_ledger h ht)

/-- A delivery commit undoes no delivery if its status is `delivered` or the one
the session loaded, or if the stored row is not delivered. -/
theorem final_of_commit {i : ι} {a : AlertId} {inp : Input} {w w' : World ι}
    {alert : AlertObj} {records : List AlertDeliveryAttempt} {r : Except PyErr Unit}
    (h : World.perform i (.commitDelivery alert records) inp w = some (r, w'))
    (hs : alert.row.deliveryStatus = .delivered ∨
      alert.row.deliveryStatus = alert.loaded.deliveryStatus ∨
      ∀ row, w.alerts.get a = some row → row.deliveryStatus ≠ .delivered) :
    StaysDelivered a w w' := by
  intro row hrow hd
  have hrow₁ : (w.tick inp.elapsed).alerts.get a = some row := hrow
  obtain ⟨-, rfl, -⟩ | ⟨-, rfl, -⟩ | ⟨-, -, hb⟩ := World.statement_cases h
  · exact ⟨row, hrow, hd⟩
  · exact ⟨row, hrow, hd⟩
  · simp only [World.storeDelivery] at hb
    split at hb
    next =>
      obtain ⟨-, rfl⟩ := World.answer_inj hb
      exact ⟨row, hrow, hd⟩
    next stored hstored =>
      obtain ⟨-, rfl⟩ := World.answer_inj hb
      -- `flush` writes a column only if it has changed since it was loaded
      by_cases hid : alert.row.id = a
      · subst hid
        rw [hrow₁, Option.some.injEq] at hstored
        subst hstored
        refine ⟨alert.flushInto row, ?_, ?_⟩
        · rw [Table.get_modify_self, hrow₁, Option.map_some]
        · show (if _ then _ else _) = _
          split
          next => exact hd
          next hne =>
            rcases hs with hs | hs | hs
            · exact hs
            · exact absurd hs hne
            · exact absurd hd (hs row hrow)
      · exact ⟨row, by rw [Table.get_modify_other _ _ _ hid]; exact hrow₁, hd⟩

/-- A delivery that stores `delivered` or the loaded status is gentle. -/
theorem final_of_delivers {i : ι} {a : AlertId} {o : Op} {inp : Input} {w w' : World ι}
    {r : Resp o} {loaded : Alert} {S : DeliveryStatus → Prop}
    (hS : ∀ s, S s → s = .delivered ∨ s = loaded.deliveryStatus)
    (h : World.perform i o inp w = some (r, w')) (ho : o.delivers loaded S) :
    StaysDelivered a w w' := by
  cases o
  case commitDelivery alert records =>
    obtain ⟨hl, -, hs, -⟩ := ho
    refine final_of_commit h ?_
    rcases hS _ hs with hs | hs
    · exact Or.inl hs
    · exact Or.inr (Or.inl (by rw [hl]; exact hs))
  all_goals exact (rowStays_of_delivers loaded h ho).final

/-! ## §2. Gentle sessions. -/

section Gentle

variable {M : Nat} {i : ι} {a : AlertId} {w : World ι}

/-- `p` undoes no delivery of `a`, whatever the others do to its row, and keeps
`I`. -/
abbrev gentle {α : Type} (i : ι) (a : AlertId) (I : World ι → Prop) (p : Prog α)
    (w : World ι) : Prop :=
  Coro.wp (World.perform i) Healthy RulesStay (StaysDelivered a) (fun _ => I) (fun _ => I) p w

/-- `I` depends on the presence of rules only. -/
def OfRules (I : World ι → Prop) : Prop := ∀ w w', RulesStay w w' → I w → I w'

theorem gentle_of_uses {α : Type} {I : World ι → Prop} {φ : Op → Prop} {ρ : α → Prop}
    (hI : OfRules I) (hφ : ∀ o inp w w' (r : Resp o), φ o →
      World.perform i o inp w = some (r, w') → StaysDelivered a w w')
    {p : Prog α} (hp : p.Uses φ ρ) (h : I w) : gentle i a I p w := by
  refine Coro.wp_mono (fun _ _ hQ => hQ.2) (fun _ _ hE => hE)
    (Coro.wp_of_uses (fun s s' hk => hI s s' hk) ?_ hp h)
  intro o inp s r s' ho _ hperf hIs
  exact ⟨hφ o inp s s' r ho hperf, hI s s' (rulesStay_of_perform hperf) hIs⟩

theorem gentle_of_aloof {α : Type} {I : World ι → Prop} (hI : OfRules I) {p : Prog α}
    (hp : Aloof a p) (h : I w) : gentle i a I p w :=
  gentle_of_uses hI (fun _ _ _ _ _ ho hperf =>
    RowStays.final (congrArg Ledger.row (World.perform_ledger hperf ho))) hp h

theorem gentle_of_delivers {α : Type} {I : World ι → Prop} {loaded : Alert}
    {S : DeliveryStatus → Prop} {ρ : α → Prop} (hI : OfRules I)
    (hS : ∀ s, S s → s = .delivered ∨ s = loaded.deliveryStatus) {p : Prog α}
    (hp : p.Uses (Op.delivers loaded S) ρ) (h : I w) : gentle i a I p w :=
  gentle_of_uses hI (fun _ _ _ _ _ ho hperf => final_of_delivers hS hperf ho) hp h

/-- The first delivery of an alert that was loaded pending. -/
theorem gentle_dispatch (row : Alert) (hp : row.deliveryStatus = .pending) :
    gentle i a (fun _ => True) (dispatch (AlertObj.ofRow row)) w := by
  refine gentle_of_delivers (S := fun s => s = .delivered ∨ s = .pending)
    (fun _ _ _ _ => trivial) ?_ (uses_dispatch (Or.inl rfl) (Or.inr rfl)) trivial
  intro s hs
  rw [hp]
  exact hs

/-- The rule is found while rules are not deleted. -/
theorem gentle_selectRule {I : World ι → Prop} {alert : Alert} (hI : OfRules I)
    (hrule : ∀ w, I w → (w.rules.get alert.ruleId).isSome) (h : I w) :
    Coro.wp (World.perform i) Healthy RulesStay (StaysDelivered a)
      (fun r w' => r.isSome ∧ I w') (fun _ => I) (selectRule alert) w := by
  intro s₁ hk inp r s₂ hok hperf
  have h₂ : I s₂ := hI _ _ (rulesStay_of_perform hperf) (hI _ _ hk h)
  refine ⟨RowStays.final (rowStays_of_delivers alert hperf rfl), ?_⟩
  obtain ⟨-, -, e, rfl⟩ | ⟨-, -, e, he, -⟩ | ⟨-, -, hb⟩ := World.statement_cases hperf
  · exact h₂
  · exact absurd (hok.symm.trans he) (by simp)
  · obtain ⟨rfl, -⟩ := World.answer_inj hb
    exact ⟨hrule s₁ (hI _ _ hk h), h₂⟩

/-- A retry before the last attempt. -/
theorem gentle_retryAlert {I : World ι → Prop} {row : Alert} (hI : OfRules I)
    (hrule : ∀ w, I w → (w.rules.get row.ruleId).isSome)
    (hM : row.deliveryAttempts + 1 < M) (h : I w) :
    gentle i a I (retryAlert M row) w := by
  have hS : ∀ s : DeliveryStatus, (s = .delivered ∨ s = row.deliveryStatus) →
      s = .delivered ∨ s = row.deliveryStatus := fun _ hs => hs
  have hdue : ∀ now s, I s →
      gentle i a I (retryDue M (AlertObj.ofRow row) now) s := by
    intro now s hs
    unfold retryDue
    refine Coro.wp_bind (Coro.wp_mono (fun r s' hs' => ?_) (fun _ _ he => he)
      (gentle_selectRule hI hrule hs))
    obtain ⟨hsome, hs'⟩ := hs'
    obtain ⟨rule, rfl⟩ := Option.isSome_iff_exists.mp hsome
    exact gentle_of_delivers hI hS (uses_retryRound (Or.inl rfl)
      (fun hlast => absurd hM (Nat.not_lt.mpr hlast)) (fun _ => Or.inr rfl)) hs'
  unfold retryAlert
  refine Coro.wp_bind (Coro.wp_mono (fun now s hs => ?_) (fun _ _ he => he)
    (gentle_of_delivers hI hS uses_utcnow h))
  split
  next last hlast =>
    refine Coro.wp_bind (Coro.wp_mono (fun backoff s' hs' => ?_) (fun _ _ he => he)
      (gentle_of_delivers hI hS (p := calculateBackoff row.deliveryAttempts)
        (ρ := fun _ => True) ⟨trivial, fun _ => trivial⟩ hs))
    split
    next => exact hs'
    next => exact hdue now s' hs'
  next => exact hdue now s hs

/-- The loop of a pass that has `a` before its last attempt. -/
theorem gentle_pass (rows : List Alert)
    (hM : ∀ row ∈ rows, row.id = a → row.deliveryAttempts + 1 < M)
    (hrule : ∀ row ∈ rows, row.id = a → (w.rules.get row.ruleId).isSome) :
    gentle i a (fun _ => True) (Coro.forEach rows (retryAlert M)) w := by
  refine Coro.wp_mono (fun _ _ _ => trivial) (fun _ _ _ => trivial)
    (Coro.wp_forEach (E := fun _ _ => True) (I := fun xs s => ∀ row ∈ xs, row.id = a →
      row.deliveryAttempts + 1 < M ∧ (s.rules.get row.ruleId).isSome) ?_ rows w
      (fun row hrow hid => ⟨hM row hrow hid, hrule row hrow hid⟩))
  intro x xs s hI
  have hrules : OfRules (fun s : World ι => ∀ row ∈ x :: xs, row.id = a →
      row.deliveryAttempts + 1 < M ∧ (s.rules.get row.ruleId).isSome) :=
    fun w w' hk h row hrow hid => ⟨(h row hrow hid).1, hk _ (h row hrow hid).2⟩
  have hone : gentle i a (fun s : World ι => ∀ row ∈ x :: xs, row.id = a →
      row.deliveryAttempts + 1 < M ∧ (s.rules.get row.ruleId).isSome)
      (retryAlert M x) s := by
    by_cases hx : x.id = a
    · exact gentle_retryAlert hrules (fun s hs => (hs x List.mem_cons_self hx).2)
        (hI x List.mem_cons_self hx).1 hI
    · exact gentle_of_aloof hrules (aloof_retryAlert hx) hI
  exact Coro.wp_mono (fun _ s' hs' row hrow => hs' row (List.mem_cons_of_mem _ hrow))
    (fun _ _ _ => trivial) hone

end Gentle

/-! ## §3. Last attempts. -/

section Firm

variable {M : Nat} {i : ι} {a : AlertId} {w : World ι}

/-- `p` undoes no delivery of `a` while the others leave its row alone. -/
abbrev firm {α : Type} (i : ι) (a : AlertId) (I : World ι → Prop) (p : Prog α)
    (w : World ι) : Prop :=
  Coro.wp (World.perform i) Healthy (RowStays a) (StaysDelivered a) (fun _ => I) (fun _ => I)
    p w

/-- The alert is not delivered. -/
def Undelivered (a : AlertId) (w : World ι) : Prop :=
  ∀ row, w.alerts.get a = some row → row.deliveryStatus ≠ .delivered

omit [DecidableEq ι] in
theorem Undelivered.stays {w w' : World ι} (h : Undelivered a w) (hk : RowStays a w w') :
    Undelivered a w' := fun row hrow => h row (hk.symm.trans hrow)

/-- What commits nothing leaves an undelivered alert as it is. -/
theorem firm_of_quiet {α : Type} (loaded : Alert) {ρ : α → Prop} {p : Prog α}
    (hp : p.Uses (Op.delivers loaded (fun _ => False)) ρ) (h : Undelivered a w) :
    firm i a (Undelivered a) p w := by
  refine Coro.wp_mono (fun _ _ hQ => hQ.2) (fun _ _ hE => hE)
    (Coro.wp_of_uses (fun s s' hk hs => hs.stays hk) ?_ hp h)
  intro o inp s r s' ho _ hperf hs
  have hk : RowStays a s s' := rowStays_of_delivers loaded hperf ho
  exact ⟨hk.final, hs.stays hk⟩

/-- What cannot touch the alert leaves it as it is. -/
theorem firm_of_aloof {α : Type} {I : World ι → Prop}
    (hI : ∀ w w', RowStays a w w' → I w → I w') {p : Prog α} (hp : Aloof a p) (h : I w) :
    firm i a I p w := by
  refine Coro.wp_mono (fun _ _ hQ => hQ.2) (fun _ _ hE => hE)
    (Coro.wp_of_uses (fun s s' hk => hI s s' hk) ?_ hp h)
  intro o inp s r s' ho _ hperf hs
  have hk : RowStays a s s' := congrArg Ledger.row (World.perform_ledger hperf ho)
  exact ⟨hk.final, hI s s' hk hs⟩

/-- A commit on an undelivered alert. -/
theorem firm_commitDelivery {alert : AlertObj} {records : List AlertDeliveryAttempt}
    (h : Undelivered a w) :
    firm i a (fun _ => True) (commitDelivery alert records) w := by
  intro s₁ hk inp r s₂ _ hperf
  refine ⟨final_of_commit hperf (Or.inr (Or.inr (h.stays hk))), ?_⟩
  cases r <;> trivial

/-- The last attempt. -/
theorem firm_retryAlert {row : Alert} (h : Undelivered a w) :
    firm i a (fun _ => True) (retryAlert M row) w := by
  -- from the innermost function outwards: only the commit writes
  have hround : ∀ rule now s, Undelivered a s →
      firm i a (fun _ => True) (retryRound M (AlertObj.ofRow row) rule now) s := by
    intro rule now s hs
    unfold retryRound
    refine Coro.wp_bind (Coro.wp_mono (fun t s hs => ?_) (fun _ _ _ => trivial)
      (firm_of_quiet row uses_utcnow hs))
    refine Coro.wp_bind (Coro.wp_mono (fun out s hs => ?_) (fun _ _ _ => trivial)
      (firm_of_quiet row (uses_retrySend rfl) hs))
    refine Coro.wp_bind (Coro.wp_mono (fun t' s hs => ?_) (fun _ _ _ => trivial)
      (firm_of_quiet row uses_utcnow hs))
    exact firm_commitDelivery hs
  have hdue : ∀ now s, Undelivered a s →
      firm i a (fun _ => True) (retryDue M (AlertObj.ofRow row) now) s := by
    intro now s hs
    unfold retryDue
    refine Coro.wp_bind (Coro.wp_mono (fun r s hs => ?_) (fun _ _ _ => trivial)
      (firm_of_quiet row (uses_selectRule rfl) hs))
    split
    next => exact firm_commitDelivery hs
    next rule => exact hround rule now s hs
  unfold retryAlert
  refine Coro.wp_bind (Coro.wp_mono (fun now s hs => ?_) (fun _ _ _ => trivial)
    (firm_of_quiet row uses_utcnow h))
  split
  next last hlast =>
    refine Coro.wp_bind (Coro.wp_mono (fun backoff s hs => ?_) (fun _ _ _ => trivial)
      (firm_of_quiet row (p := calculateBackoff row.deliveryAttempts)
        (ρ := fun _ => True) ⟨trivial, fun _ => trivial⟩ hs))
    split
    next => trivial
    next => exact hdue now s hs
  next => exact hdue now s hs

/-- The loop of a pass that has `a` to itself. -/
theorem firm_pass (rows : List Alert) (hnd : (rows.map Alert.id).Nodup)
    (h : Undelivered a w) :
    firm i a (fun _ => True) (Coro.forEach rows (retryAlert M)) w := by
  refine Coro.wp_mono (fun _ _ _ => trivial) (fun _ _ _ => trivial)
    (Coro.wp_forEach (E := fun _ _ => True) (I := fun xs s => (xs.map Alert.id).Nodup ∧
      ((∃ row ∈ xs, row.id = a) → Undelivered a s)) ?_ rows w ⟨hnd, fun _ => h⟩)
  rintro x xs s ⟨hnd, hu⟩
  rw [List.map_cons, List.nodup_cons] at hnd
  by_cases hx : x.id = a
  · refine Coro.wp_mono (fun _ s' _ => ⟨hnd.2, ?_⟩) (fun _ _ _ => trivial)
      (firm_retryAlert (hu ⟨x, List.mem_cons_self, hx⟩))
    -- the alert does not come up again in this pass
    rintro ⟨row, hrow, hid⟩
    exact absurd (List.mem_map.mpr ⟨row, hrow, hid.trans hx.symm⟩) hnd.1
  · have hone : firm i a (fun s => (∃ row ∈ xs, row.id = a) → Undelivered a s)
        (retryAlert M x) s := by
      refine firm_of_aloof (fun w w' hk hw hin => (hw hin).stays hk) (aloof_retryAlert hx) ?_
      rintro ⟨row, hrow, hid⟩
      exact hu ⟨row, List.mem_cons_of_mem _ hrow, hid⟩
    exact Coro.wp_mono (fun _ s' hs' => ⟨hnd.2, hs'⟩) (fun _ _ _ => trivial) hone

end Firm

end Pulse
