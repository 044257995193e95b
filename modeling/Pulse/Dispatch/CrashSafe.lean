/-
  Pulse.Dispatch.CrashSafe
  ────────────────────────
  **ATTEMPTS ARE COUNTED, UNLESS A CRASH COMES BEFORE THE COMMIT.**

  Both paths send first and commit the counter with the outcome, so a crash in
  between loses the attempt and the next pass starts from the old counter.

    • `crash_safe`       — the committed counter covers every round that sent
                           something, as long as no crash falls between a request
                           and its commit,
    • `crash_safe_fails` — a crash there forgets the round.
-/
import Pulse.Dispatch.Life

namespace Pulse

open Pulse.Async Pulse.Store

/-! ## §1. The counter and the rounds. -/

/-- The round in progress counts once it has sent something. -/
def Course.pendingRound (c : Course) : Nat := if c.round = [] then 0 else 1

/-- The counter of the row covers the rounds, less the one in progress. -/
structure Course.Tracked (M : Nat) (c : Course) : Prop where
  absent : c.ledger.row = none → c.rounds = 0
  counted : ∀ row, c.ledger.row = some row →
    c.rounds ≤ row.deliveryAttempts + c.pendingRound
  bound : ∀ row, c.ledger.row = some row → row.deliveryAttempts + c.pendingRound ≤ max M 1

/-- A request goes out: its round counts from now on. -/
theorem Course.Tracked.post {M : Nat} {c : Course} {row : Alert} {p : Path}
    (h : c.Tracked M) (q : Request) (hrow : c.ledger.row = some row)
    (htakes : p.takes M row.deliveryAttempts) : (c.post q).Tracked M := by
  have hround : (c.post q).pendingRound = 1 := by simp [pendingRound, Course.post]
  have hcounted := h.counted row hrow
  have hlt := Path.takes_lt htakes
  refine ⟨fun hnone => ?_, fun row' hrow' => ?_, fun row' hrow' => ?_⟩
  · exact absurd (hrow.symm.trans hnone) (by simp)
  · obtain rfl := Option.some.inj (hrow.symm.trans hrow')
    rw [hround]
    show (if c.round = [] then c.rounds + 1 else c.rounds) ≤ _
    unfold pendingRound at hcounted
    split
    next hnil => rw [if_pos hnil] at hcounted; omega
    next hne => rw [if_neg hne] at hcounted; omega
  · obtain rfl := Option.some.inj (hrow.symm.trans hrow')
    rw [hround]
    omega

/-- A round is committed: the counter catches up. -/
theorem Course.Tracked.commit {M : Nat} {c : Course} {row : Alert} {p : Path}
    {s : DeliveryStatus} {t : Time} {records : List AlertDeliveryAttempt}
    (h : c.Tracked M) (hrow : c.ledger.row = some row)
    (htakes : p.takes M row.deliveryAttempts) :
    (c.commit (row.afterRound s t) records).Tracked M := by
  have hcounted := h.counted row hrow
  have hlt := Path.takes_lt htakes
  have hle : c.pendingRound ≤ 1 := by
    unfold pendingRound
    split <;> omega
  refine ⟨fun hnone => absurd hnone (by simp [Course.commit, Ledger.commit]), ?_, ?_⟩
  · intro row' hrow'
    obtain rfl := Option.some.inj hrow'
    show c.rounds ≤ row.deliveryAttempts + 1 + 0
    omega
  · intro row' hrow'
    obtain rfl := Option.some.inj hrow'
    show row.deliveryAttempts + 1 + 0 ≤ max M 1
    omega

/-- **The counter follows the rounds when crashes lose nothing that was sent.** -/
theorem Course.tracked_invariant (M : Nat) :
    Course.Invariant M .any (fun lost => lost.round = []) (Course.Tracked M) where
  unborn := ⟨fun _ => rfl, fun _ h => absurd h (by simp [Course.unborn, Ledger.empty]),
    fun _ h => absurd h (by simp [Course.unborn, Ledger.empty])⟩
  fresh := by
    intro row _ hn
    refine ⟨fun _ => rfl, fun _ _ => Nat.zero_le _, fun row' hrow' => ?_⟩
    obtain rfl := Option.some.inj hrow'
    show row.deliveryAttempts + 0 ≤ max M 1
    omega
  step := by
    intro c c' hI hstep
    cases hstep with
    | stay => exact hI
    | start _ _ _ _ _ => exact ⟨hI.absent, hI.counted, hI.bound⟩
    | post q hrow _ htakes _ _ _ => exact hI.post q hrow htakes
    | commit hrow htakes _ _ _ _ => exact hI.commit hrow htakes
  crash := by
    intro c hI hlost
    have hpending : c.crash.pendingRound = c.pendingRound := by
      simp only [Course.crash, Course.pendingRound, hlost]
    exact ⟨hI.absent, fun row hrow => hpending ▸ hI.counted row hrow,
      fun row hrow => hpending ▸ hI.bound row hrow⟩

/-! ## §2. Runs. -/

namespace Life

open Delivery (WorkerTask firstDelivery secondDelivery)

/-- No overlap on alert `a`, and no crash between a request for it and its commit. -/
def Committed {ι : Type} (a : AlertId) (c : Life ι) (e : Event ι) : Prop :=
  Exclusive a c e ∧ Spares (fun lost => lost.round = []) a c e

/-- **Crash-safe attempt tracking.**  Where nobody works on the alert, as after a
restart, its counter is at least the number of rounds that sent something; and at
no time have more than `M` rounds done so. -/
theorem crash_safe {ι : Type} [DecidableEq ι] {M : Nat} {a : AlertId} {c₀ c : Life ι}
    (hM : 1 ≤ M) (h₀ : Start a c₀) (hrun : Reaches (step M) (Committed a) c₀ c) :
    (Idle a c → ∀ row, c.world.alerts.get a = some row →
      c.watched.rounds a ≤ row.deliveryAttempts) ∧ c.watched.rounds a ≤ M := by
  have hinv := Course.tracked_invariant M
  have htended : Tended M .any (Course.Tracked M) a c :=
    Tended.run hinv (fun c e he => ⟨he.1, within_any a c e, he.2⟩) hrun (.init hinv h₀)
  constructor
  · intro hidle row hrow
    exact (htended.at_rest hidle).counted row hrow
  · obtain ⟨round, opened, hI, -⟩ := htended.holds
    cases hrow : c.world.alerts.get a with
    | none =>
        have hzero : c.watched.rounds a = 0 := hI.absent hrow
        omega
    | some row =>
        have hcounted := hI.counted row hrow
        have hbound := hI.bound row hrow
        have hmax : max M 1 = M := by omega
        rw [hmax] at hbound
        exact le_trans hcounted hbound

instance (a : AlertId) (c : Life WorkerTask) :
    (e : Event WorkerTask) → Decidable (Committed a c e)
  | .crash i => inferInstanceAs (Decidable (True ∧ c.watched.current i a = []))
  | .act act => inferInstanceAs (Decidable (Exclusive a c (.act act) ∧ True))

/-- The first delivery is answered with a 500 and committed; the process dies and a
pass of the next one sends again. -/
def restartSchedule : List (Event WorkerTask) :=
  (firstDelivery (.response 500)).map .act ++ [.crash .mainLoop, .crash .retryScheduler] ++
    (secondDelivery (.response 500)).map .act

theorem crash_safe_restart : ∃ (c : Life WorkerTask) (row : Alert),
    c.world.alerts.get 7 = some row ∧ c.watched.rounds 7 = 2 ∧
      c.watched.rounds 7 ≤ row.deliveryAttempts ∧ c.watched.rounds 7 ≤ 5 := by
  have hrun : (runs (fun c e => if Committed 7 c e then step 5 c e else none)
      restartSchedule (initial sampleRules)).any (fun c => decide (Idle 7 c) &&
        decide (c.watched.rounds 7 = 2) && (c.world.alerts.get 7).isSome) = true := by decide
  obtain ⟨c, hc, htest⟩ := Reaches.exists_of_runs hrun
  rw [Bool.and_eq_true, Bool.and_eq_true, decide_eq_true_eq, decide_eq_true_eq] at htest
  obtain ⟨⟨hidle, htwo⟩, hsome⟩ := htest
  obtain ⟨row, hrow⟩ := Option.isSome_iff_exists.mp hsome
  obtain ⟨hcounted, hbound⟩ := crash_safe (by decide) (start_initial sampleRules 7) hc
  exact ⟨c, row, hrow, htwo, hcounted hidle row hrow, hbound⟩

/-- The request gets through and the process dies before the commit. -/
def lostSchedule : List (Event WorkerTask) :=
  ((firstDelivery (.response 200)).take 6).map .act ++ [.crash .mainLoop, .crash .retryScheduler]

/-- **A crash between the request and the commit forgets the round**: after the
restart the counter stands at zero. -/
theorem crash_safe_fails : ¬ ∀ c : Life WorkerTask,
    Reaches (step 5) (Exclusive 7) (initial sampleRules) c → Idle 7 c →
      ∀ row, c.world.alerts.get 7 = some row →
        c.watched.rounds 7 ≤ row.deliveryAttempts := by
  intro h
  have hrun : (runs (fun c e => if Exclusive 7 c e then step 5 c e else none)
      lostSchedule (initial sampleRules)).any (fun c => decide (Idle 7 c) &&
        (c.world.alerts.get 7).any fun row =>
          decide (row.deliveryAttempts < c.watched.rounds 7)) = true := by decide
  obtain ⟨c, hc, htest⟩ := Reaches.exists_of_runs hrun
  rw [Bool.and_eq_true, decide_eq_true_eq, Option.any_eq_true] at htest
  obtain ⟨hidle, row, hrow, hlt⟩ := htest
  have hle := h c hc hidle row hrow
  rw [decide_eq_true_eq] at hlt
  omega

end Life

end Pulse
