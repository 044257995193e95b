/-
  Pulse.Dispatch.Accounting
  ─────────────────────────
  **DELIVERY ACCOUNTING.**

  Whatever the receivers answer, however the URLs are edited and however much
  jitter is drawn: as long as the operations on an alert do not overlap and its
  rounds reach their commits, its row counts its rounds, its records agree with its
  status, its rounds are spaced by the backoff, and nothing is sent once it is
  delivered or failed.

    • `Course.BooksKept`    — the books of a course,
    • `delivery_accounting` — every such run keeps them.
-/
import Pulse.Dispatch.Life

namespace Pulse

open Pulse.Async Pulse.Store

/-! ## §1. The books of a course. -/

/-- The row's books, the rounds that began, and the rounds that sent something. -/
structure Course.BooksKept (M : Nat) (c : Course) : Prop where
  absent : c.ledger.row = none → c.begun = 0
  books : ∀ row, c.ledger.row = some row → Accounted (max M 1) row c.ledger
  counted : ∀ row, c.ledger.row = some row →
    c.begun = row.deliveryAttempts + if c.opened then 1 else 0
  sent : c.rounds + (if c.opened ∧ c.round = [] then 1 else 0) ≤ c.begun
  closed : c.opened = false → c.round = []

/-- A round begins. -/
theorem Course.BooksKept.start {M : Nat} {c : Course} {row : Alert} (h : c.BooksKept M)
    (hrow : c.ledger.row = some row) (hclosed : c.opened = false) (hround : c.round = []) :
    c.start.BooksKept M where
  absent := fun hnone => absurd (hrow.symm.trans hnone) (by simp)
  books := h.books
  counted := by
    intro row' hrow'
    have hcounted := h.counted row' hrow'
    rw [hclosed] at hcounted
    show c.begun + 1 = _
    rw [hcounted]
    rfl
  sent := by
    have hsent := h.sent
    rw [hclosed] at hsent
    show c.rounds + (if true ∧ c.round = [] then 1 else 0) ≤ c.begun + 1
    simp only [Bool.false_eq_true, false_and, if_false] at hsent
    rw [hround]
    simpa using hsent
  closed := fun hopened => absurd hopened (by simp [Course.start])

/-- A request goes out, in the round that is in progress. -/
theorem Course.BooksKept.post {M : Nat} {c : Course} (h : c.BooksKept M) (q : Request)
    (hopened : c.opened = true) : (c.post q).BooksKept M where
  absent := h.absent
  books := fun row hrow => (h.books row hrow).post q
  counted := h.counted
  sent := by
    have hsent := h.sent
    show (if c.round = [] then c.rounds + 1 else c.rounds) +
      (if c.opened ∧ c.round ++ [q] = [] then 1 else 0) ≤ c.begun
    by_cases hnil : c.round = []
    · simp only [hopened, hnil, and_self, if_true] at hsent
      simpa [hnil] using hsent
    · simp only [hnil, and_false, if_false] at hsent
      simpa [hnil] using hsent
  closed := fun hclosed => absurd (hopened.symm.trans hclosed) (by simp)

/-- A round is committed. -/
theorem Course.BooksKept.commit {M : Nat} {c : Course} {row : Alert} {sent : Bool}
    {s : DeliveryStatus} {t : Time} {records : List AlertDeliveryAttempt} (h : c.BooksKept M)
    (hrow : c.ledger.row = some row) (hopened : c.opened = true)
    (hround : IsRound (max M 1) sent row s t records) :
    (c.commit (row.afterRound s t) records).BooksKept M where
  absent := fun hnone => absurd hnone (by simp [Course.commit, Ledger.commit])
  books := by
    intro row' hrow'
    obtain rfl := Option.some.inj hrow'
    exact (h.books row hrow).round hround
  counted := by
    intro row' hrow'
    obtain rfl := Option.some.inj hrow'
    have hcounted := h.counted row hrow
    rw [hopened, if_pos rfl] at hcounted
    exact hcounted
  sent := by
    have hsent := h.sent
    show c.rounds + 0 ≤ c.begun
    omega
  closed := fun _ => rfl

/-- **The books are kept** while no crash breaks a round off. -/
theorem Course.kept_invariant (M : Nat) :
    Course.Invariant M .any (fun lost => lost.opened = false) (Course.BooksKept M) where
  unborn :=
    { absent := fun _ => rfl
      books := fun _ h => absurd h (by simp [Course.unborn, Ledger.empty])
      counted := fun _ h => absurd h (by simp [Course.unborn, Ledger.empty])
      sent := Nat.le_refl 0
      closed := fun _ => rfl }
  fresh := by
    intro row hp hn
    refine ⟨fun _ => rfl, fun row' hrow' => ?_, fun row' hrow' => ?_, Nat.le_refl 0,
      fun _ => rfl⟩
    · obtain rfl := Option.some.inj hrow'
      exact .fresh hp hn
    · obtain rfl := Option.some.inj hrow'
      exact hn.symm
  step := by
    intro c c' hI hstep
    cases hstep with
    | stay => exact hI
    | start hrow _ _ hclosed hround => exact hI.start hrow hclosed hround
    | post q _ _ _ hopened _ _ => exact hI.post q hopened
    | commit hrow _ hopened hround _ _ => exact hI.commit hrow hopened hround
  crash := by
    intro c hI hlost
    have hsame : c.crash = c := by
      cases c
      simp only [Course.crash, Course.mk.injEq, true_and]
      exact ⟨(hI.closed hlost).symm, hlost.symm⟩
    rw [hsame]
    exact hI

/-! ## §2. Runs. -/

namespace Life

variable {ι : Type} [DecidableEq ι] {M : Nat} {a : AlertId} {c₀ c c' : Life ι}

omit [DecidableEq ι] in
/-- No overlap on alert `a`, and nobody dies in a round for it. -/
def Unbroken (a : AlertId) (c : Life ι) (e : Event ι) : Prop :=
  Exclusive a c e ∧ Spares (fun lost => lost.opened = false) a c e

/-- A run from a settled alert leaves its whole ledger alone. -/
theorem settled_final (h : Tended M .any (Course.BooksKept M) a c)
    (hrun : Reaches (step M) (Unbroken a) c c') {row : Alert}
    (hrow : c.world.alerts.get a = some row) (hs : row.deliveryStatus ≠ .pending) :
    c'.world.ledger a = c.world.ledger a := by
  have hinv : Tended M .any (Course.BooksKept M) a c' ∧
      c'.world.ledger a = c.world.ledger a := by
    refine hrun.invariant (I := fun d => Tended M .any (Course.BooksKept M) a d ∧
      d.world.ledger a = c.world.ledger a) ?_ ⟨h, rfl⟩
    rintro d e d' ⟨hd, hl⟩ hok hstep
    have hrow' : d.world.alerts.get a = some row := (congrArg Ledger.row hl).trans hrow
    exact ⟨hd.step (Course.kept_invariant M) hok.1 (within_any a d e) hok.2 hstep,
      (hd.final (within_any a d e) hstep hrow' hs).trans hl⟩
  exact hinv.2

/-- **Delivery accounting.**  In a run in which the operations on alert `a` do not overlap
and no round is broken off, the counter of every reachable state is the number of rounds
made, those in progress apart, at most so many rounds sent something, the books are in
order, and once the alert is delivered or failed nothing is sent or stored for it any
more. -/
theorem delivery_accounting (hM : 1 ≤ M) (h₀ : Start a c₀)
    (hrun : Reaches (step M) (Unbroken a) c₀ c) (hrun' : Reaches (step M) (Unbroken a) c c') :
    ∀ row, c.world.alerts.get a = some row →
      ((¬ ∃ j, c.InRound j a) → c.watched.begun a = row.deliveryAttempts) ∧
      ((∃ j, c.InRound j a) → c.watched.begun a = row.deliveryAttempts + 1) ∧
      c.watched.rounds a ≤ c.watched.begun a ∧
      Accounted M row (c.world.ledger a) ∧
      (row.deliveryStatus ≠ .pending → c'.world.ledger a = c.world.ledger a) := by
  intro row hrow
  have hinv := Course.kept_invariant M
  have htended : Tended M .any (Course.BooksKept M) a c :=
    Tended.run hinv (fun c e hok => ⟨hok.1, within_any a c e, hok.2⟩) hrun (.init hinv h₀)
  obtain ⟨round, opened, hkept, hopened⟩ := htended.holds
  have hcounted := hkept.counted row hrow
  have hbooks := hkept.books row hrow
  rw [show max M 1 = M by omega] at hbooks
  refine ⟨fun hnone => ?_, fun hsome => ?_, ?_, hbooks, settled_final htended hrun' hrow⟩
  · rw [← hopened] at hnone
    simpa [hnone] using hcounted
  · rw [← hopened] at hsome
    simpa [hsome] using hcounted
  · have hsent := hkept.sent
    exact (Nat.le_add_right _ _).trans hsent

end Life

/-! ## A run of one worker. -/

namespace Life

open Delivery (WorkerTask recoverySchedule)

instance (a : AlertId) (c : Life WorkerTask) :
    (e : Event WorkerTask) → Decidable (Unbroken a c e)
  | .crash i => inferInstanceAs (Decidable (True ∧ c.watched.opened i a = false))
  | .act act => inferInstanceAs (Decidable (Exclusive a c (.act act) ∧ True))

instance (c : Life WorkerTask) (j : WorkerTask) (a : AlertId) : Decidable (c.InRound j a) :=
  decidable_of_iff ((c.task j).finished = false ∧ c.watched.opened j a = true)
    ⟨fun h => ⟨h.1, h.2⟩, fun h => ⟨h.1, h.2⟩⟩

theorem delivery_accounting_recovery : ∃ (c : Life WorkerTask) (row : Alert),
    c.world.alerts.get 7 = some row ∧ row.deliveryStatus = .delivered ∧
      c.watched.begun 7 = 2 ∧ c.watched.begun 7 = row.deliveryAttempts ∧
      Accounted 5 row (c.world.ledger 7) := by
  have hrun : (runs (fun c e => if Unbroken 7 c e then step 5 c e else none)
      (recoverySchedule.map .act) (initial sampleRules)).any (fun c =>
        decide (∀ j, ¬ c.InRound j 7) && decide (c.watched.begun 7 = 2) &&
          (c.world.alerts.get 7).any fun row => decide (row.deliveryStatus = .delivered))
      = true := by decide
  obtain ⟨c, hc, htest⟩ := Reaches.exists_of_runs hrun
  rw [Bool.and_eq_true, Bool.and_eq_true, decide_eq_true_eq, decide_eq_true_eq,
    Option.any_eq_true] at htest
  obtain ⟨⟨hnone, htwo⟩, row, hrow, hs⟩ := htest
  obtain ⟨hcount, -, -, hbooks, -⟩ := delivery_accounting (by decide)
    (start_initial sampleRules 7) hc .refl row hrow
  exact ⟨c, row, hrow, of_decide_eq_true hs, htwo, hcount (fun ⟨j, hj⟩ => hnone j hj), hbooks⟩

end Life

end Pulse
