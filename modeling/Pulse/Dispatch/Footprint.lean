/-
  Pulse.Dispatch.Footprint
  ────────────────────────
  **DELIVERIES TOUCH THEIR OWN ALERT ONLY.**

  Which operations `dispatch` and the body of the retry loop can issue at all:
  requests and commits for the alert they were given, with the statuses that
  each of them can store.

    • `uses_dispatch`, `uses_retryRound` — the operations of the two paths,
    • `aloof_deliver`, `aloof_retryAlert` — a delivery of one alert cannot touch
                                            another.
-/
import Pulse.Worker.Frame

namespace Pulse

open Pulse.Async Pulse.Store

/-- `p` can issue no operation that touches alert `a`. -/
abbrev Aloof {α : Type} (a : AlertId) (p : Prog α) : Prop :=
  Coro.Uses (fun o => ¬ o.touches a) (fun _ => True) p

/-- The operations of a delivery of the alert loaded as `loaded`, with the
statuses `S` that its commits may store. -/
def Op.delivers (loaded : Alert) (S : DeliveryStatus → Prop) : Op → Prop
  | .utcnow | .uniform _ | .payload _ _ _ => True
  | .selectRule alert | .post _ alert _ => alert.id = loaded.id
  | .commitDelivery alert records => alert.loaded = loaded ∧ alert.row.id = loaded.id ∧
      S alert.row.deliveryStatus ∧ ∀ r ∈ records, r.alertId = loaded.id
  | _ => False

variable {a : AlertId} {loaded : Alert} {S : DeliveryStatus → Prop}

/-- Who has finished touches nothing. -/
theorem aloof_of_finished {p : Prog Unit} (h : p.finished = true) : Aloof a p := by
  cases p with
  | pure _ => trivial
  | raise _ => trivial
  | await _ _ => exact absurd h (by simp [Coro.finished])

theorem Op.delivers.aloof {o : Op} (h : o.delivers loaded S) (ha : loaded.id ≠ a) :
    ¬ o.touches a := by
  cases o <;> simp only [Op.delivers] at h <;> simp only [Op.touches, not_false_eq_true]
  case selectRule | post => rw [h]; exact ha
  case commitDelivery =>
    obtain ⟨-, hid, -, hrec⟩ := h
    rintro (hida | ⟨r, hr, hra⟩)
    · exact ha (hid.symm.trans hida)
    · exact ha ((hrec r hr).symm.trans hra)

/-- A coroutine that delivers another alert is aloof. -/
theorem aloof_of_delivers {α : Type} {ρ : α → Prop} {p : Prog α}
    (h : p.Uses (Op.delivers loaded S) ρ) (ha : loaded.id ≠ a) : Aloof a p :=
  h.mono (fun _ ho => ho.aloof ha) (fun _ _ => trivial)

theorem uses_utcnow : utcnow.Uses (Op.delivers loaded S) (fun _ => True) :=
  ⟨trivial, fun _ => trivial⟩

theorem uses_selectRule {alert : Alert} (hid : alert.id = loaded.id) :
    (selectRule alert).Uses (Op.delivers loaded S) (fun _ => True) :=
  ⟨hid, fun _ => .ofExcept _⟩

theorem uses_commitDelivery {alert : AlertObj} {records : List AlertDeliveryAttempt}
    (hl : alert.loaded = loaded) (hid : alert.row.id = loaded.id)
    (hs : S alert.row.deliveryStatus) (hr : ∀ r ∈ records, r.alertId = loaded.id) :
    (commitDelivery alert records).Uses (Op.delivers loaded S) (fun _ => True) :=
  ⟨⟨hl, hid, hs, hr⟩, fun _ => .ofExcept _⟩

theorem uses_sendWebhook {ch : Channel} {alert : Alert} {rule : Rule}
    (hid : alert.id = loaded.id) :
    (sendWebhook ch alert rule).Uses (Op.delivers loaded S) (fun _ => True) := by
  unfold sendWebhook
  split
  next =>
    refine Coro.Uses.bind (ρ := fun _ => True) ⟨trivial, fun _ => .ofExcept _⟩ fun _ _ => ?_
    refine Coro.Uses.tryCatch ?_ fun _ => trivial
    refine Coro.Uses.bind (ρ := fun _ => True) ⟨hid, ?_⟩ fun c _ => ?_
    · intro r
      cases r <;> trivial
    · unfold raiseForStatus
      split <;> trivial
  next => trivial

theorem own_singleton {r : AlertDeliveryAttempt} (hr : r.alertId = a) :
    ∀ r' ∈ [r], r'.alertId = a := by
  intro r' hmem
  rw [List.mem_singleton.mp hmem]
  exact hr

/-- The records of `a`, and one more. -/
theorem own_concat {records : List AlertDeliveryAttempt} {r : AlertDeliveryAttempt}
    (h : ∀ r ∈ records, r.alertId = a) (hr : r.alertId = a) :
    ∀ r' ∈ records ++ [r], r'.alertId = a := by
  intro r' hmem
  rcases List.mem_append.mp hmem with hmem | hmem
  · exact h r' hmem
  · exact own_singleton hr r' hmem

theorem uses_dispatchChannel {ch : Channel} {send : Alert → Rule → Prog Bool}
    {alert : AlertObj} {rule : Rule} {n : Nat} {t : Time}
    {records : List AlertDeliveryAttempt}
    (hsend : (send alert.row rule).Uses (Op.delivers loaded S) (fun _ => True))
    (hl : alert.loaded = loaded) (hid : alert.row.id = loaded.id) (hS : S .delivered)
    (hr : ∀ r ∈ records, r.alertId = loaded.id) :
    (dispatchChannel ch send alert rule n t records).Uses (Op.delivers loaded S)
      (fun out => ∀ r ∈ out.2, r.alertId = loaded.id) := by
  unfold dispatchChannel
  split
  next =>
    refine Coro.Uses.tryCatch ?_ fun _ =>
      Coro.Uses.bind uses_utcnow fun _ _ => own_concat hr hid
    refine Coro.Uses.bind hsend fun success _ => ?_
    refine Coro.Uses.bind uses_utcnow fun _ _ => ?_
    split
    next =>
      exact Coro.Uses.bind (uses_commitDelivery hl hid hS (own_concat hr hid))
        fun _ _ r hmem => absurd hmem (by simp)
    next => exact own_concat hr hid
  next => exact hr

theorem uses_dispatch (hd : S .delivered) (hp : S .pending) :
    (dispatch (AlertObj.ofRow loaded)).Uses (Op.delivers loaded S) (fun _ => True) := by
  unfold dispatch
  refine Coro.Uses.bind (uses_selectRule rfl) fun rule _ => ?_
  split
  next => trivial
  next rule =>
    refine Coro.Uses.bind uses_utcnow fun t _ => ?_
    refine Coro.Uses.bind (uses_dispatchChannel (uses_sendWebhook rfl) rfl rfl hd
      (fun r hmem => absurd hmem (by simp))) fun ⟨delivered, records⟩ hrecords => ?_
    dsimp only
    split
    next => trivial
    next =>
      refine Coro.Uses.bind (uses_dispatchChannel (uses_sendWebhook rfl) rfl rfl hd
        hrecords) fun ⟨delivered, records⟩ hrecords => ?_
      dsimp only
      split
      next => trivial
      next => exact uses_commitDelivery rfl rfl hp hrecords

theorem uses_retrySend {alert : Alert} {rule : Rule} (hid : alert.id = loaded.id) :
    (retrySend alert rule).Uses (Op.delivers loaded S) (fun _ => True) := by
  unfold retrySend
  refine Coro.Uses.tryCatch ?_ fun _ => trivial
  refine Coro.Uses.bind (ρ := fun _ => True) ?_ fun s₁ _ => ?_
  · split
    next => exact uses_sendWebhook hid
    next => trivial
  · refine Coro.Uses.bind (ρ := fun _ => True) ?_ fun _ _ => trivial
    split
    next => exact uses_sendWebhook hid
    next => trivial

/-- A round of a retry stores `delivered`, or `failed` on the last attempt, or
the status it loaded. -/
theorem uses_retryRound {M : Nat} {rule : Rule} {now : Time} (hd : S .delivered)
    (hf : M ≤ loaded.deliveryAttempts + 1 → S .failed)
    (hs : loaded.deliveryAttempts + 1 < M → S loaded.deliveryStatus) :
    (retryRound M (AlertObj.ofRow loaded) rule now).Uses (Op.delivers loaded S)
      (fun _ => True) := by
  unfold retryRound
  refine Coro.Uses.bind uses_utcnow fun t _ => ?_
  refine Coro.Uses.bind (uses_retrySend rfl) fun ⟨success, responseCode, error⟩ _ => ?_
  refine Coro.Uses.bind uses_utcnow fun t' _ => ?_
  refine uses_commitDelivery ?_ (retryOutcome_id _ _ _) ?_ (own_singleton rfl)
  · unfold retryOutcome
    split
    next => rfl
    next => split <;> rfl
  · unfold retryOutcome
    split
    next => exact hd
    next =>
      split
      next hM => exact hf hM
      next hM => exact hs (Nat.not_le.mp hM)

/-- An iteration of the retry loop touches its own alert only. -/
theorem uses_retryAlert {M : Nat} {row : Alert} :
    (retryAlert M row).Uses (Op.delivers row (fun _ => True)) (fun _ => True) := by
  have hdue : ∀ now, (retryDue M (AlertObj.ofRow row) now).Uses
      (Op.delivers row (fun _ => True)) (fun _ => True) := by
    intro now
    unfold retryDue
    refine Coro.Uses.bind (uses_selectRule rfl) fun rule _ => ?_
    split
    next => exact uses_commitDelivery rfl rfl trivial (fun r hmem => absurd hmem (by simp))
    next => exact uses_retryRound trivial (fun _ => trivial) (fun _ => trivial)
  unfold retryAlert
  refine Coro.Uses.bind uses_utcnow fun now _ => ?_
  split
  next last _ =>
    refine Coro.Uses.bind (ρ := fun _ => True) ?_ fun backoff _ => ?_
    · exact Coro.Uses.bind (ρ := fun _ => True) ⟨trivial, fun _ => trivial⟩
        fun _ _ => trivial
    · split
      next => trivial
      next => exact hdue now
  next => exact hdue now

theorem aloof_retryAlert {M : Nat} {row : Alert} (ha : row.id ≠ a) :
    Aloof a (retryAlert M row) := aloof_of_delivers uses_retryAlert ha

/-- **A pass loads its rows.**  What the session goes on with cannot touch `a`,
unless the page that was answered holds `a`. -/
theorem load_cases {ι : Type} [DecidableEq ι] {M : Nat} {w w' : World ι} {i : ι}
    {inp : Input} {r : Resp (.selectPending M)}
    (h : World.perform i (.selectPending M) inp w = some (r, w')) :
    Aloof a (Coro.ofExcept r >>= fun alerts => Coro.forEach alerts (retryAlert M)) ∨
      ((∃ row ∈ inp.rows, row.id = a) ∧ r = .ok inp.rows ∧
        IsPage Alert.createdAt 50 (w'.pendingAlerts M) inp.rows) := by
  obtain ⟨-, -, e, rfl⟩ | ⟨-, -, e, -, rfl⟩ | ⟨-, -, hbody⟩ := World.statement_cases h
  · exact Or.inl trivial
  · exact Or.inl trivial
  · split at hbody
    next hpage =>
      obtain ⟨rfl, rfl⟩ := World.answer_inj hbody
      by_cases hin : ∃ row ∈ inp.rows, row.id = a
      · exact Or.inr ⟨hin, rfl, hpage⟩
      · refine Or.inl (Coro.Uses.forEach fun row hrow => ?_)
        exact aloof_retryAlert fun hid => hin ⟨row, hrow, hid⟩
    next => exact absurd hbody (by simp)

/-- The first delivery of another alert. -/
theorem aloof_deliver {id : AlertId} (ha : id ≠ a) : Aloof a (deliver id) := by
  unfold deliver
  refine Coro.Uses.bind (ρ := fun o => ∀ obj, o = some obj →
    ∃ row : Alert, row.id = id ∧ obj = AlertObj.ofRow row) ?_ fun alert halert => ?_
  · refine Coro.Uses.tryCatch ?_ fun _ _ h => absurd h (by simp)
    refine Coro.Uses.bind (ρ := fun _ => True) ⟨fun h => h, fun _ => .ofExcept _⟩
      fun row _ obj hobj => ?_
    exact ⟨{ row with id := id }, rfl, (Option.some.inj hobj).symm⟩
  · split
    next => trivial
    next obj =>
      obtain ⟨row, hid, rfl⟩ := halert obj rfl
      exact aloof_of_delivers (uses_dispatch (S := fun _ => True) trivial trivial)
        (by rw [hid]; exact ha)

end Pulse
