/-
  Pulse.Dispatch.Drains
  ─────────────────────
  **THE QUEUE DRAINS.**

  `process_pending_alerts` loads 50 alerts at a time, and an alert in backoff keeps its place on
  the page.  A due alert may be kept waiting by it, but the queue moves: if `m` pauses make
  48 seconds, the last of any `m` undisturbed passes finds each alert of its page tried or given
  up since the first, or due.

    • `Moved`        — what an undisturbed pass makes of a due alert on its page,
    • `QueueOnward`       — what any round, and anyone else, can make of the queue,
    • `backlog`      — the attempts that are left,
    • `queue_drains` — the number of undisturbed passes that empties the queue.
-/
import Mathlib.Algebra.BigOperators.Group.Finset.Piecewise
import Mathlib.Algebra.Order.BigOperators.Group.Finset
import Pulse.Dispatch.Settles

namespace Pulse

open Pulse.Async Pulse.Store

variable {ι : Type} [DecidableEq ι]

/-! ## §1. A due alert on the page. -/

/-- The alert is delivered or given up, or it is an attempt further. -/
def Moved (row : Alert) (w : World ι) : Prop :=
  ∃ row', w.alerts.get row.id = some row' ∧
    (row'.deliveryStatus ≠ .pending ∨ row.deliveryAttempts < row'.deliveryAttempts)

section Turn

variable {M : Nat} {i : ι} {jitter : Nat} {row : Alert} {w₀ w w' : World ι}

omit [DecidableEq ι] in
theorem Rounded.moved {rule : Rule} {l : Ledger}
    (h : Rounded M rule row l (w.ledger row.id)) : Moved row w := by
  obtain ⟨s, t, record, sent, -, -, hrow, -⟩ := h
  exact ⟨_, hrow, Or.inr (Nat.lt_succ_self _)⟩

/-- A round is made, or without a rule the alert is given up. -/
theorem moved_retryDue {now : Time} (hp : row.deliveryStatus = .pending)
    (hM : row.deliveryAttempts < M)
    (hdue : ∀ last, row.lastDeliveryAttempt = some last →
      last + backoffBase row.deliveryAttempts ≤ now)
    (hstored : w₀.alerts.get row.id = some row) (h : HasSent i row w₀ [] w) :
    undisturbed i jitter (fun _ u => Moved row u) (retryDue M (AlertObj.ofRow row) now) w := by
  unfold retryDue
  refine Coro.wp_bind (Coro.wp_mono (fun found u hu => ?_) (fun _ _ he => he)
    (undisturbed_selectRule h))
  obtain ⟨-, hu⟩ := hu
  cases found with
  | none =>
      refine Coro.wp_mono (fun _ v hv => ?_) (fun _ _ he => he)
        (undisturbed_commitDelivery hstored rfl (by simp) hu)
      refine ⟨_, congrArg Ledger.row hv.2, Or.inl ?_⟩
      show (if DeliveryStatus.failed = row.deliveryStatus then row.deliveryStatus
        else DeliveryStatus.failed) ≠ .pending
      rw [hp]
      simp
  | some rule =>
      exact Coro.wp_mono (fun _ v hv => hv.2.moved) (fun _ _ he => he)
        (undisturbed_retryRound hp hM hdue hstored hu)

theorem moved_retryAlert {draws : Draws} (hp : row.deliveryStatus = .pending)
    (hM : row.deliveryAttempts < M) (hstored : w.alerts.get row.id = some row)
    (husable : w.failed i = false) (hdue : draws.due w.clock row = true) :
    undisturbed i (draws.jitter row) (fun _ u => Moved row u) (retryAlert M row) w := by
  have hnothing : HasSent i row w [] w := ⟨.refl husable, (List.append_nil _).symm⟩
  unfold retryAlert
  refine Coro.wp_bind (Coro.wp_mono (fun now u hu => ?_) (fun _ _ he => he)
    (undisturbed_utcnow hnothing))
  obtain ⟨hnow, hu⟩ := hu
  have hstill : draws.due now row = true := Draws.due_mono hnow hdue
  split
  next last hlast =>
    refine Coro.wp_bind (Coro.wp_mono (fun backoff v hv => ?_) (fun _ _ he => he)
      (undisturbed_calculateBackoff hu))
    obtain ⟨rfl, hv⟩ := hv
    have hlast : row.lastDeliveryAttempt = some last := hlast
    have hlate : ¬ now < last + (backoffBase row.deliveryAttempts + draws.jitter row : Nat) := by
      have hdue := hstill
      unfold Draws.due at hdue
      rw [hlast, decide_eq_true_eq] at hdue
      exact hdue
    split
    next hearly => exact absurd hearly hlate
    next => exact moved_retryDue hp hM (Draws.due_base hstill) hstored hv
  next hlast => exact moved_retryDue hp hM (Draws.due_base hstill) hstored hu

end Turn

section Pass

variable {M : Nat} {i : ι} {draws : Draws} {rows : List Alert} {w w₁ w' : World ι}

/-- **The loop moves every due alert** that it loaded. -/
theorem Iterations.moved (h : Iterations M i draws rows w w') (hl : Loaded M i rows w) :
    ∀ row ∈ rows, draws.due w.clock row = true → Moved row w' := by
  induction h with
  | done w =>
      intro row hrow
      exact absurd hrow (by simp)
  | @next first rows ls w w₁ w' hls hrun hrest ih =>
      have hturn := (hl.afterTurn hls hrun rfl).2
      have hl' := hl.turn hturn
      intro row hrow hdue
      rcases List.mem_cons.mp hrow with rfl | hrow
      · -- its own turn, and the later ones leave it alone
        have hfirst : Moved row w₁ := Coro.wp_run (fun inp hinp _ _ => hls inp hinp)
          (moved_retryAlert (hl.pending row List.mem_cons_self).1
            (hl.pending row List.mem_cons_self).2 (hl.stored row List.mem_cons_self) hl.usable hdue)
          hrun
        have hsame : w'.alerts.get row.id = w₁.alerts.get row.id :=
          congrArg Ledger.row (hrest.untouched hl' hl.apart)
        unfold Moved
        rw [hsame]
        exact hfirst
      · exact ih hl' row hrow (Draws.due_mono hturn.kept.clock hdue)
  | stop hls hrun => exact absurd (hl.afterTurn hls hrun rfl).1 (by simp)

theorem Pass.moved (h : Pass M i draws rows w w₁ w') :
    IsPage Alert.createdAt 50 (w.pendingAlerts M) rows ∧
      ∀ row ∈ rows, draws.due w.clock row = true → Moved row w' := by
  obtain ⟨opening, query, -, hquery, hrun⟩ := h.load
  obtain ⟨-, hpage, rfl⟩ := (loadPending_run hquery).mp hrun
  refine ⟨hpage, ?_⟩
  intro row hrow hdue
  have hclock : w.clock ≤ (((w.tick opening.elapsed).abort i).tick query.elapsed).clock :=
    (World.kept_tick i w opening.elapsed).clock.trans (World.kept_tick i _ query.elapsed).clock
  exact h.loop.moved (loaded_of_isPage hpage) row hrow (Draws.due_mono hclock hdue)

end Pass

/-! ## §2. The queue. -/

/-- What anyone but a dispatch of new alerts can make of the queue: an alert in it was in it
before, and is as it was or further. -/
structure QueueOnward (M : Nat) (w w' : World ι) : Prop where
  clock : w.clock ≤ w'.clock
  queue : ∀ row' ∈ w'.pendingAlerts M, ∃ row ∈ w.pendingAlerts M, row.id = row'.id ∧
    (row' = row ∨ row.deliveryAttempts < row'.deliveryAttempts ∧
      ∀ last, row'.lastDeliveryAttempt = some last → last ≤ w'.clock)

/-- No attempt was made in the future. -/
def Punctual (M : Nat) (w : World ι) : Prop :=
  ∀ row ∈ w.pendingAlerts M, ∀ last, row.lastDeliveryAttempt = some last → last ≤ w.clock

/-- The attempts that are left to the alerts in the queue. -/
def backlog (M : Nat) (w : World ι) : ℕ :=
  ((w.pendingAlerts M).map fun row => M - row.deliveryAttempts).sum

section Queue

variable {M : Nat} {i : ι} {v w w' : World ι} {row row' : Alert}

omit [DecidableEq ι] in
theorem QueueOnward.refl (M : Nat) (w : World ι) : QueueOnward M w w :=
  ⟨le_refl _, fun row hrow => ⟨row, hrow, rfl, Or.inl rfl⟩⟩

omit [DecidableEq ι] in
theorem QueueOnward.trans (h : QueueOnward M v w) (h' : QueueOnward M w w') : QueueOnward M v w' := by
  refine ⟨h.clock.trans h'.clock, ?_⟩
  intro row₂ hrow₂
  obtain ⟨row₁, hrow₁, hid₁, hstep₁⟩ := h'.queue row₂ hrow₂
  obtain ⟨row₀, hrow₀, hid₀, hstep₀⟩ := h.queue row₁ hrow₁
  refine ⟨row₀, hrow₀, hid₀.trans hid₁, ?_⟩
  rcases hstep₁ with rfl | ⟨hmore₁, hlast₁⟩
  · rcases hstep₀ with rfl | ⟨hmore₀, hlast₀⟩
    · exact Or.inl rfl
    · exact Or.inr ⟨hmore₀, fun last hl => (hlast₀ last hl).trans h'.clock⟩
  · refine Or.inr ⟨?_, hlast₁⟩
    rcases hstep₀ with rfl | ⟨hmore₀, -⟩
    · exact hmore₁
    · omega

omit [DecidableEq ι] in
theorem Punctual.onward (hv : Punctual M v) (h : QueueOnward M v w) : Punctual M w := by
  intro row hrow last hlast
  obtain ⟨row₀, hrow₀, -, rfl | ⟨-, hpast⟩⟩ := h.queue row hrow
  · exact (hv row hrow₀ last hlast).trans h.clock
  · exact hpast last hlast

omit [DecidableEq ι] in
theorem get_of_pending (h : row ∈ w.pendingAlerts M) : w.alerts.get row.id = some row :=
  Table.get_of_mem (World.mem_pendingAlerts.mp h).1

/-- The clock of a run does not go back. -/
theorem clock_of_run {α : Type} {ls : List Input} {p p' : Prog α}
    (hrun : Coro.run (World.perform i) ls p w = some (p', w')) : w.clock ≤ w'.clock := by
  have hstay : ∀ s s' : World ι, s = s' → w.clock ≤ s.clock → w.clock ≤ s'.clock :=
    fun _ _ hs hle => hs ▸ hle
  have hkeeps : Coro.wp (World.perform i) (fun _ _ _ => True) Eq (fun _ u => w.clock ≤ u.clock)
      (fun _ u => True ∧ w.clock ≤ u.clock) (fun _ u => w.clock ≤ u.clock) p w := by
    refine Coro.wp_of_uses hstay ?_ (Coro.uses_trivial p) (le_refl _)
    intro o inp s r s' _ _ hperf hle
    have hnext : w.clock ≤ s'.clock := hle.trans (World.perform_kept hperf).clock
    exact ⟨hnext, hnext⟩
  exact Coro.wp_run_keeps (I := fun u => w.clock ≤ u.clock) (fun _ _ _ _ => trivial) (le_refl _)
    hkeeps hrun

/-- **A round of the scheduler** moves the queue onward, also one that is cut off. -/
theorem onward_of_run {ls : List Input} {p' : Prog Unit}
    (hrun : Coro.run (World.perform i) ls (retrySchedulerRound M) w = some (p', w')) :
    QueueOnward M w w' := by
  have hids := map_id_of_raised (raised_of_run hrun)
  refine ⟨clock_of_run hrun, ?_⟩
  intro row' hrow'
  have hthere : row'.id ∈ w.alerts.rows.map Alert.id := by
    rw [← hids]
    exact List.mem_map_of_mem (World.mem_pendingAlerts.mp hrow').1
  obtain ⟨row, hrow, hid⟩ := List.mem_map.mp hthere
  obtain ⟨-, row'', hget, hturn⟩ := turned_of_run (Table.get_of_mem hrow) hrun
  rw [hid, get_of_pending hrow'] at hget
  obtain rfl := Option.some.inj hget
  obtain ⟨-, hp, hM⟩ := World.mem_pendingAlerts.mp hrow'
  cases hturn with
  | same => exact ⟨row', World.mem_pendingAlerts.mpr ⟨hrow, hp, hM⟩, rfl, Or.inl rfl⟩
  | settled hsettled => exact absurd hp hsettled
  | @tried t hpending hbelow ht =>
      refine ⟨row, World.mem_pendingAlerts.mpr ⟨hrow, hpending, by omega⟩, rfl, Or.inr ⟨?_, ?_⟩⟩
      · exact Nat.lt_succ_self _
      · intro last hlast
        obtain rfl := Option.some.inj hlast
        exact ht

/-! ### What is left. -/

/-- The attempts that are left to alert `a`, if it is in the queue. -/
def attemptsLeft (M : Nat) (w : World ι) (a : AlertId) : ℕ :=
  match w.alerts.get a with
  | some row => if row.deliveryStatus = .pending then M - row.deliveryAttempts else 0
  | none => 0

omit [DecidableEq ι] in
theorem attemptsLeft_of_pending (h : row ∈ w.pendingAlerts M) :
    attemptsLeft M w row.id = M - row.deliveryAttempts := by
  unfold attemptsLeft
  rw [get_of_pending h]
  exact if_pos (World.mem_pendingAlerts.mp h).2.1

omit [DecidableEq ι] in
theorem attemptsLeft_eq_zero {a : AlertId} (h : ∀ row ∈ w.pendingAlerts M, row.id ≠ a) :
    attemptsLeft M w a = 0 := by
  unfold attemptsLeft
  split
  next row hget =>
    obtain ⟨hmem, hid⟩ := Table.get_eq_some.mp hget
    split
    next hp =>
      by_contra hleft
      have hbelow : row.deliveryAttempts < M := by omega
      exact h row (World.mem_pendingAlerts.mpr ⟨hmem, hp, hbelow⟩) hid
    next => rfl
  next => rfl

omit [DecidableEq ι] in
/-- The backlog, counted over any alerts that include the queue. -/
theorem backlog_eq {S : Finset AlertId} (h : ∀ row ∈ w.pendingAlerts M, row.id ∈ S) :
    backlog M w = ∑ a ∈ S, attemptsLeft M w a := by
  have hsub : ((w.pendingAlerts M).map Alert.id).toFinset ⊆ S := by
    intro a ha
    obtain ⟨row, hrow, rfl⟩ := List.mem_map.mp (List.mem_toFinset.mp ha)
    exact h row hrow
  have hrest : ∀ a ∈ S, a ∉ ((w.pendingAlerts M).map Alert.id).toFinset →
      attemptsLeft M w a = 0 := by
    intro a _ hout
    refine attemptsLeft_eq_zero ?_
    intro row hrow hid
    exact hout (List.mem_toFinset.mpr (List.mem_map.mpr ⟨row, hrow, hid⟩))
  rw [← Finset.sum_subset hsub hrest, List.sum_toFinset _ (World.pendingAlerts_nodup w M),
    List.map_map]
  show ((w.pendingAlerts M).map _).sum = _
  congr 1
  exact List.map_congr_left fun row hrow => (attemptsLeft_of_pending hrow).symm

omit [DecidableEq ι] in
/-- Nobody gives an alert more attempts. -/
theorem QueueOnward.attemptsLeft_le (h : QueueOnward M v w) (a : AlertId) :
    attemptsLeft M w a ≤ attemptsLeft M v a := by
  by_cases hin : ∃ row ∈ w.pendingAlerts M, row.id = a
  · obtain ⟨row, hrow, rfl⟩ := hin
    obtain ⟨row₀, hrow₀, hid, hstep⟩ := h.queue row hrow
    rw [attemptsLeft_of_pending hrow, ← hid, attemptsLeft_of_pending hrow₀]
    rcases hstep with rfl | ⟨hmore, -⟩
    · exact le_refl _
    · omega
  · rw [attemptsLeft_eq_zero fun row hrow hid => hin ⟨row, hrow, hid⟩]
    exact Nat.zero_le _

omit [DecidableEq ι] in
/-- An alert that moved has fewer. -/
theorem Moved.attemptsLeft_lt (h : Moved row w') (hrow : row ∈ w.pendingAlerts M) :
    attemptsLeft M w' row.id < attemptsLeft M w row.id := by
  have hbelow := (World.mem_pendingAlerts.mp hrow).2.2
  rw [attemptsLeft_of_pending hrow]
  obtain ⟨row', hget, hmoved⟩ := h
  unfold attemptsLeft
  rw [hget]
  show (if row'.deliveryStatus = .pending then M - row'.deliveryAttempts else 0) < _
  split
  next hp =>
    have hmore := hmoved.resolve_left fun hne => hne hp
    omega
  next => omega

omit [DecidableEq ι] in
/-- **Each alert that has fewer attempts left** counts. -/
theorem QueueOnward.backlog_add_le (h : QueueOnward M v w') (hvw : QueueOnward M v w) {rows : List Alert}
    (hrows : ∀ row ∈ rows, row ∈ w.pendingAlerts M) (hnodup : (rows.map Alert.id).Nodup)
    (hfewer : ∀ row ∈ rows, attemptsLeft M w' row.id < attemptsLeft M v row.id) :
    backlog M w' + rows.length ≤ backlog M v := by
  obtain ⟨S, hS⟩ : ∃ S, ((v.pendingAlerts M).map Alert.id).toFinset = S := ⟨_, rfl⟩
  have hmem : ∀ row ∈ v.pendingAlerts M, row.id ∈ S := by
    intro row hrow
    rw [← hS]
    exact List.mem_toFinset.mpr (List.mem_map_of_mem hrow)
  have hlater : ∀ u, QueueOnward M v u → ∀ row ∈ u.pendingAlerts M, row.id ∈ S := by
    intro u hu row hrow
    obtain ⟨row₀, hrow₀, hid, -⟩ := hu.queue row hrow
    rw [← hid]
    exact hmem row₀ hrow₀
  have hsub : (rows.map Alert.id).toFinset ⊆ S := by
    intro a ha
    obtain ⟨row, hrow, rfl⟩ := List.mem_map.mp (List.mem_toFinset.mp ha)
    exact hlater w hvw row (hrows row hrow)
  have hcount : rows.length = ∑ a ∈ S, if a ∈ (rows.map Alert.id).toFinset then 1 else 0 := by
    rw [← Finset.card_filter, Finset.filter_mem_eq_inter, Finset.inter_eq_right.mpr hsub,
      List.toFinset_card_of_nodup hnodup, List.length_map]
  rw [backlog_eq (hlater w' h), backlog_eq hmem, hcount, ← Finset.sum_add_distrib]
  refine Finset.sum_le_sum ?_
  intro a _
  split
  next ha =>
    obtain ⟨row, hrow, rfl⟩ := List.mem_map.mp (List.mem_toFinset.mp ha)
    exact hfewer row hrow
  next => exact h.attemptsLeft_le a

omit [DecidableEq ι] in
theorem QueueOnward.backlog_le (h : QueueOnward M v w) : backlog M w ≤ backlog M v := by
  have hnone : ∀ row ∈ ([] : List Alert), row ∈ w.pendingAlerts M := by simp
  exact h.backlog_add_le h hnone List.nodup_nil (by simp)

end Queue

/-! ## §3. Rounds and pauses. -/

/-- The scheduler sleeps for `P` microseconds or more.  Nothing is added to the queue meanwhile;
all else may change. -/
structure Respite (M P : Nat) (w w' : World ι) : Prop where
  onward : QueueOnward M w w'
  clock : w.clock + P ≤ w'.clock

/-- The scheduler at work on its queue: a pause and a round, over and over.  `n` of the rounds
are passes that nothing disturbs, of any page. -/
inductive Draining (M : Nat) (i : ι) (P : Nat) (w : World ι) : Nat → World ι → Prop
  | start : Draining M i P w 0 w
  /-- Statements fail, or the process dies in the middle. -/
  | disturbed {n : Nat} {w₁ w₂ w' : World ι} {ls : List Input} {p' : Prog Unit} :
      Draining M i P w n w₁ → Respite M P w₁ w₂ →
      Coro.run (World.perform i) ls (retrySchedulerRound M) w₂ = some (p', w') →
      Draining M i P w n w'
  | undisturbed {n : Nat} {w₁ w₂ w₃ w' : World ι} {draws : Draws} {rows : List Alert} :
      Draining M i P w n w₁ → Respite M P w₁ w₂ → Pass M i draws rows w₂ w₃ w' →
      Draining M i P w (n + 1) w'

section Schedule

variable {M m P : Nat} {i : ι} {v w₀ w w₁ w₂ w' : World ι} {draws : Draws} {rows : List Alert}

theorem Pass.onward (h : Pass M i draws rows w w₁ w') : QueueOnward M w w' := by
  obtain ⟨ls, p', hrun⟩ := h.round
  exact onward_of_run hrun

/-- **The last pass of a window** finds each alert of its page tried since the window began, or
due. -/
theorem attemptsLeft_page (hm : 48000000 ≤ m * P) (hv : Punctual M v) (hvw : QueueOnward M v w)
    (hclock : v.clock + m * P ≤ w.clock) (hpass : Pass M i draws rows w w₁ w') :
    ∀ row ∈ rows, attemptsLeft M w' row.id < attemptsLeft M v row.id := by
  obtain ⟨hpage, hmoved⟩ := hpass.moved
  intro row hrow
  have hpending : row ∈ w.pendingAlerts M := hpage.mem hrow
  obtain ⟨row₀, hrow₀, hid, hstep⟩ := hvw.queue row hpending
  rcases hstep with rfl | ⟨hmore, -⟩
  · have hdue : draws.due w.clock row = true := by
      refine due_of_waited ?_
      intro last hlast
      have hlong : (48000000 : Int) ≤ m * P := by exact_mod_cast hm
      have hpast := hv row hrow₀ last hlast
      exact ((Int.add_le_add_left hlong last).trans (Int.add_le_add_right hpast _)).trans hclock
    exact ((hmoved row hrow hdue).attemptsLeft_lt hpending).trans_le (hvw.attemptsLeft_le row.id)
  · have hbelow := (World.mem_pendingAlerts.mp hpending).2.2
    refine (hpass.onward.attemptsLeft_le row.id).trans_lt ?_
    rw [attemptsLeft_of_pending hpending, ← hid, attemptsLeft_of_pending hrow₀]
    omega

/-- After `q` windows: 50 attempts were used in each of `k` of them, and one of each alert in the
others. -/
def Paid (M : Nat) (w₀ : World ι) (q : Nat) (v : World ι) : Prop :=
  ∃ k ≤ q, backlog M v + 50 * k ≤ backlog M w₀ ∧
    ∀ row ∈ v.pendingAlerts M, q - k ≤ row.deliveryAttempts

/-- **A window** uses 50 attempts, or one of each alert. -/
theorem Paid.window {q : Nat} (hm : 48000000 ≤ m * P) (h : Paid M w₀ q v) (hv : Punctual M v)
    (hvw : QueueOnward M v w) (hclock : v.clock + m * P ≤ w.clock)
    (hpass : Pass M i draws rows w w₁ w') : Paid M w₀ (q + 1) w' := by
  have hpage := hpass.moved.1
  have hvw' : QueueOnward M v w' := hvw.trans hpass.onward
  have hfewer := attemptsLeft_page hm hv hvw hclock hpass
  obtain ⟨k, hk, hleft, hleast⟩ := h
  by_cases hfull : 50 ≤ (w.pendingAlerts M).length
  · have hlength : rows.length = 50 := hpage.2.1.trans (Nat.min_eq_left hfull)
    have hdone := hvw'.backlog_add_le hvw (fun row hrow => hpage.mem hrow)
      (hpage.nodup_map (World.pendingAlerts_nodup w M)) hfewer
    refine ⟨k + 1, by omega, by omega, ?_⟩
    intro row' hrow'
    obtain ⟨row₀, hrow₀, -, hstep⟩ := hvw'.queue row' hrow'
    have hbefore := hleast row₀ hrow₀
    rcases hstep with rfl | ⟨hmore, -⟩
    · omega
    · omega
  · -- every alert of the queue is on the page
    have hdone := hvw'.backlog_le
    refine ⟨k, by omega, by omega, ?_⟩
    intro row' hrow'
    obtain ⟨row, hrow, hid, -⟩ := hpass.onward.queue row' hrow'
    obtain ⟨row₀, hrow₀, hid₀, -⟩ := hvw'.queue row' hrow'
    have hahead : ahead Alert.createdAt row (w.pendingAlerts M) < 50 :=
      lt_of_le_of_lt List.countP_le_length (not_le.mp hfull)
    have hused := hfewer row (hpage.mem_of_ahead_lt hrow hahead)
    rw [hid, attemptsLeft_of_pending hrow', ← hid₀, attemptsLeft_of_pending hrow₀] at hused
    have hbefore := hleast row₀ hrow₀
    omega

/-- After `n` undisturbed passes: full windows of `m` passes, and `s` of the next. -/
def InWindow (M m P : Nat) (w₀ : World ι) (n : Nat) (w : World ι) : Prop :=
  ∃ q s v, n = q * m + s ∧ s < m ∧ Paid M w₀ q v ∧ Punctual M v ∧ QueueOnward M v w ∧
    v.clock + s * P ≤ w.clock

theorem InWindow.undisturbed {n : Nat} (hm : 48000000 ≤ m * P) (h : InWindow M m P w₀ n w)
    (hpause : Respite M P w w₁) (hpass : Pass M i draws rows w₁ w₂ w') :
    InWindow M m P w₀ (n + 1) w' := by
  obtain ⟨q, s, v, rfl, hs, hpaid, hv, hvw, hclock⟩ := h
  have hvw₁ : QueueOnward M v w₁ := hvw.trans hpause.onward
  have hnext : v.clock + (s + 1 : ℕ) * P ≤ w₁.clock := by
    rw [Nat.cast_succ, add_mul, one_mul, ← add_assoc]
    exact (Int.add_le_add_right hclock P).trans hpause.clock
  have hvw' : QueueOnward M v w' := hvw₁.trans hpass.onward
  by_cases hlast : s + 1 = m
  · rw [hlast] at hnext
    refine ⟨q + 1, 0, w', ?_, by omega, hpaid.window hm hv hvw₁ hnext hpass, hv.onward hvw',
      .refl M w', ?_⟩
    · rw [Nat.succ_mul]
      omega
    · rw [Nat.cast_zero, zero_mul, add_zero]
  · exact ⟨q, s + 1, v, by omega, by omega, hpaid, hv, hvw', hnext.trans hpass.onward.clock⟩

theorem InWindow.run {n : Nat} (hm : 48000000 ≤ m * P) (h₀ : Punctual M w)
    (hrun : Draining M i P w n w') : InWindow M m P w n w' := by
  induction hrun with
  | start =>
      have hpos : 0 < m := by
        by_contra hzero
        obtain rfl : m = 0 := by omega
        omega
      refine ⟨0, 0, w, by omega, hpos, ⟨0, le_refl 0, by omega, ?_⟩, h₀, .refl M w, ?_⟩
      · intro row _
        omega
      · rw [Nat.cast_zero, zero_mul, add_zero]
  | @disturbed n w₁ w₂ w' ls p' _ hpause hround ih =>
      obtain ⟨q, s, v, hn, hs, hpaid, hv, hvw, hclock⟩ := ih
      have hstep : QueueOnward M w₁ w' := hpause.onward.trans (onward_of_run hround)
      exact ⟨q, s, v, hn, hs, hpaid, hv, hvw.trans hstep, hclock.trans hstep.clock⟩
  | undisturbed _ hpause hpass ih => exact ih.undisturbed hm hpause hpass

/-- **The queue drains.**  Let nothing be added to the queue, and let `m` pauses of the scheduler
make 48 seconds.  After `m` undisturbed passes for every 50 attempts of the backlog, and `m` for
each of the `M` attempts of an alert, the queue is empty: whatever the receivers answer,
however rows that tie are ordered, and however many other rounds fail or are cut off. -/
theorem queue_drains {n : Nat} (hm : 48000000 ≤ m * P) (h₀ : Punctual M w)
    (hrun : Draining M i P w n w') (hn : (backlog M w / 50 + M) * m ≤ n) :
    w'.pendingAlerts M = [] := by
  obtain ⟨q, s, v, rfl, hs, ⟨k, hk, hleft, hleast⟩, -, hvw, -⟩ := InWindow.run hm h₀ hrun
  refine List.eq_nil_iff_forall_not_mem.mpr ?_
  intro row hrow
  obtain ⟨row₀, hrow₀, -, -⟩ := hvw.queue row hrow
  have hbefore := hleast row₀ hrow₀
  have hbelow := (World.mem_pendingAlerts.mp hrow₀).2.2
  have hwindows : backlog M w / 50 + M ≤ q := by
    by_contra hfew
    have hq : (q + 1) * m ≤ (backlog M w / 50 + M) * m := Nat.mul_le_mul_right m (by omega)
    rw [Nat.succ_mul] at hq
    omega
  omega

/-- There is such a run from every state. -/
theorem exists_draining (M : Nat) (i : ι) (P n : Nat) (w : World ι) :
    ∃ w', Draining M i P w n w' := by
  induction n with
  | zero => exact ⟨w, .start⟩
  | succ n ih =>
      obtain ⟨w₁, hrun⟩ := ih
      obtain ⟨rows, hpage⟩ := exists_isPage Alert.createdAt 50
        (World.pendingAlerts_nodup (w₁.tick P) M).of_map
      obtain ⟨w₂, w', hpass, -⟩ := exists_pass (i := i) Draws.zero hpage
      have hpause : Respite M P w₁ (w₁.tick P) :=
        ⟨⟨by simp [World.tick], fun row hrow => ⟨row, hrow, rfl, Or.inl rfl⟩⟩, le_refl _⟩
      exact ⟨w', .undisturbed hrun hpause hpass⟩

end Schedule

/-- 51 alerts, 50 of which have one attempt left and one has four, drain in six passes a
minute apart. -/
theorem queue_drains_outage : ∃ w', Draining 5 () 60000000 outage 6 w' ∧
    w'.pendingAlerts 5 = [] := by
  obtain ⟨w', hrun⟩ := exists_draining 5 () 60000000 6 outage
  have hpunctual : Punctual 5 outage := by
    intro row hrow last hlast
    obtain ⟨k, -, rfl⟩ := List.mem_map.mp (World.mem_pendingAlerts.mp hrow).1
    obtain rfl := Option.some.inj hlast
    decide
  have hbacklog : backlog 5 outage = 54 := by decide +kernel
  have hperiod : 48000000 ≤ 1 * 60000000 := by decide
  refine ⟨w', hrun, queue_drains hperiod hpunctual hrun ?_⟩
  rw [hbacklog]

end Pulse
