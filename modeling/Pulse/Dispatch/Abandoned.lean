/-
  Pulse.Dispatch.Abandoned
  ────────────────────────
  **NO ALERT IS ABANDONED, UNLESS ONE ATTEMPT IS ALL THERE IS.**

  Only a pass moves an alert to `failed`, and a pass loads only alerts below the
  limit.  The first delivery counts an attempt too, and leaves the alert pending
  whatever the limit is.

    • `no_alert_abandoned`       — every pending alert can still be loaded exactly
                                   if the limit is at least two,
    • `no_alert_abandoned_fails` — with one attempt, the first delivery strands
                                   the alert.
-/
import Pulse.Dispatch.Life

namespace Pulse

open Pulse.Async Pulse.Store

/-- A pending alert has made fewer than `M` attempts. -/
def Course.Retriable (M : Nat) (c : Course) : Prop :=
  ∀ row, c.ledger.row = some row → row.deliveryStatus = .pending → row.deliveryAttempts < M

/-- A round that leaves its alert pending leaves it below the limit. -/
theorem Path.pending_below {M : Nat} (hM : 2 ≤ M) {p : Path} {attempts : Nat} {success : Bool}
    (htakes : p.takes M attempts) (h : p.outcome M attempts success = .pending) :
    attempts + 1 < M := by
  unfold Path.outcome at h
  split at h
  next => exact absurd h (by simp)
  next =>
    cases p with
    | dispatch =>
        -- the first attempt: here the limit has to be at least two
        have hzero : attempts = 0 := htakes
        omega
    | retry =>
        simp only at h
        split at h
        next => exact absurd h (by simp)
        next hlast => omega

/-- **With two attempts or more, alerts stay retriable.** -/
theorem Course.retriable_invariant {M : Nat} (hM : 2 ≤ M) :
    Course.Invariant M .any (fun _ => True) (Course.Retriable M) where
  unborn := by
    intro row hrow
    exact absurd hrow (by simp [Course.unborn, Ledger.empty])
  fresh := by
    intro row hp hn row' hrow' _
    obtain rfl := Option.some.inj hrow'
    omega
  step := by
    intro c c' hI hstep
    cases hstep with
    | stay => exact hI
    | start _ _ _ _ _ => exact hI
    | post q _ _ _ _ _ _ => exact hI
    | commit _ htakes _ _ _ _ =>
        intro row' hrow' hpend
        obtain rfl := Option.some.inj hrow'
        exact Path.pending_below hM htakes hpend
  crash := fun _ hI _ => hI

namespace Life

open Delivery (WorkerTask)

/-- In every run in which the operations on alert `a` do not overlap, wherever the
processes die, a pending alert can be loaded by the next pass. -/
theorem pending_retriable {ι : Type} [DecidableEq ι] {M : Nat} {a : AlertId}
    {c₀ c : Life ι} (hM : 2 ≤ M) (h₀ : Start a c₀)
    (hrun : Reaches (step M) (Exclusive a) c₀ c) {row : Alert}
    (hrow : c.world.alerts.get a = some row) (hp : row.deliveryStatus = .pending) :
    row ∈ c.world.pendingAlerts M := by
  have hinv := Course.retriable_invariant hM
  have htended : Tended M .any (Course.Retriable M) a c :=
    Tended.run hinv (fun c e hex => ⟨hex, within_any a c e, spares_any a c e⟩) hrun
      (.init hinv h₀)
  obtain ⟨round, opened, hI, -⟩ := htended.holds
  have hbelow := hI row hrow hp
  exact World.mem_pendingAlerts.mpr ⟨(Table.get_eq_some.mp hrow).1, hp, hbelow⟩

/-- The first delivery of an alert is answered with a 500. -/
def strandedSchedule : List (Event WorkerTask) :=
  (Delivery.firstDelivery (.response 500)).map .act

/-- With a limit of one, that alert stays pending and no pass loads it. -/
theorem stranded_run : ∃ c : Life WorkerTask,
    Reaches (step 1) (Exclusive 7) (initial sampleRules) c ∧ Idle 7 c ∧
      ∃ row, c.world.alerts.get 7 = some row ∧ row.deliveryStatus = .pending ∧
        row ∉ c.world.pendingAlerts 1 := by
  have hrun : (runs (fun c e => if Exclusive 7 c e then step 1 c e else none)
      strandedSchedule (initial sampleRules)).any (fun c => decide (Idle 7 c) &&
        (c.world.alerts.get 7).any fun row => decide (row.deliveryStatus = .pending ∧
          row ∉ c.world.pendingAlerts 1)) = true := by decide
  obtain ⟨c, hc, htest⟩ := Reaches.exists_of_runs hrun
  rw [Bool.and_eq_true, Option.any_eq_true, decide_eq_true_eq] at htest
  obtain ⟨hidle, row, hrow, hp⟩ := htest
  rw [decide_eq_true_eq] at hp
  exact ⟨c, hc, hidle, row, hrow, hp⟩

/-- **No alert is abandoned in `pending` exactly if two attempts are allowed.** -/
theorem no_alert_abandoned {M : Nat} (hM : 1 ≤ M) :
    (∀ (a : AlertId) (c₀ c : Life WorkerTask), Start a c₀ →
      Reaches (step M) (Exclusive a) c₀ c → Idle a c →
        ∀ row, c.world.alerts.get a = some row → row.deliveryStatus = .pending →
          row ∈ c.world.pendingAlerts M) ↔ 2 ≤ M := by
  constructor
  · intro h
    by_contra hlt
    have hone : M = 1 := by omega
    subst hone
    obtain ⟨c, hrun, hidle, row, hrow, hp, hout⟩ := stranded_run
    exact hout (h 7 _ c (start_initial sampleRules 7) hrun hidle row hrow hp)
  · intro h2 a c₀ c h₀ hrun _ row hrow hp
    exact pending_retriable h2 h₀ hrun hrow hp

/-- The limit the worker is configured with by default. -/
theorem no_alert_abandoned_default : 1 ≤ 5 ∧
    ((∀ (a : AlertId) (c₀ c : Life WorkerTask), Start a c₀ →
      Reaches (step 5) (Exclusive a) c₀ c → Idle a c →
        ∀ row, c.world.alerts.get a = some row → row.deliveryStatus = .pending →
          row ∈ c.world.pendingAlerts 5) ↔ 2 ≤ 5) :=
  ⟨by decide, no_alert_abandoned (by decide)⟩

/-- **An alert is abandoned when one attempt is allowed.** -/
theorem no_alert_abandoned_fails : ¬ ∀ M, 1 ≤ M →
    ∀ (a : AlertId) (c₀ c : Life WorkerTask), Start a c₀ →
      Reaches (step M) (Exclusive a) c₀ c → Idle a c →
        ∀ row, c.world.alerts.get a = some row → row.deliveryStatus = .pending →
          row ∈ c.world.pendingAlerts M := by
  intro h
  obtain ⟨c, hrun, hidle, row, hrow, hp, hout⟩ := stranded_run
  exact hout (h 1 (by decide) 7 _ c (start_initial sampleRules 7) hrun hidle row hrow hp)

end Life

end Pulse
