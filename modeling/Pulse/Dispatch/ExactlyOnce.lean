/-
  Pulse.Dispatch.ExactlyOnce
  ──────────────────────────
  **EXACTLY-ONCE DELIVERY, AND WHEN IT FAILS.**

  The main loop dispatches a fresh alert whose row is already pending and never
  tried, so a pass that loads its rows meanwhile picks the alert up and sends it
  a second time.

    • `exactly_once`       — no alert gets through twice as long as no pass
                             loads an alert that is being dispatched and no
                             receiver answers after the client gave up,
    • `exactly_once_fails` — a pass in the middle of a dispatch sends twice.
-/
import Pulse.Dispatch.Life

namespace Pulse

open Pulse.Async Pulse.Store

/-- The receiver answered with success, but too late. -/
def Reply.isLate : Reply → Bool
  | .late _ => true
  | _ => false

/-- What the client does not take for a success was none, if nothing was late. -/
theorem Reply.answered_eq_ok {r : Reply} (h : r.isLate = false) : r.answered = r.ok := by
  cases r with
  | response c => rfl
  | error msg => rfl
  | late msg => exact absurd h (by simp [isLate])

/-! ## §1. The successes of a course. -/

/-- At most one request got through, and for a pending alert only one of the round in
progress. -/
structure Course.Once (c : Course) : Prop where
  once : c.ledger.successes ≤ 1
  pending : ∀ row, c.ledger.row = some row → row.deliveryStatus = .pending →
    c.ledger.successes = c.round.countP fun q => q.reply.ok

theorem Course.countP_of_not_sent {c : Course} (h : c.sent = false) :
    (c.round.countP fun q => q.reply.ok) = 0 := by
  rw [List.countP_eq_zero]
  intro q hq
  exact List.any_eq_false.mp h q hq

/-- **At most one request gets through** while no success is lost. -/
theorem Course.once_invariant (M : Nat) :
    Course.Invariant M .any (fun lost => lost.sent = false) Course.Once where
  unborn := ⟨Nat.zero_le 1, fun _ _ _ => rfl⟩
  fresh := fun _ _ _ => ⟨Nat.zero_le 1, fun _ _ _ => rfl⟩
  step := by
    intro c c' hI hstep
    cases hstep with
    | stay => exact hI
    | start _ _ _ _ _ => exact ⟨hI.once, hI.pending⟩
    | @post row p q hrow hp _ _ hsent _ =>
        have hcount := hI.pending row hrow hp
        rw [Course.countP_of_not_sent hsent] at hcount
        refine ⟨?_, fun _ _ _ => ?_⟩
        · show (c.ledger.post q).successes ≤ 1
          rw [Ledger.successes_post, hcount]
          split <;> omega
        · show (c.ledger.post q).successes = (c.round ++ [q]).countP _
          rw [Ledger.successes_post, hcount, List.countP_append, List.countP_singleton,
            Course.countP_of_not_sent hsent]
    | @commit row p t records hrow _ _ hround _ _ =>
        refine ⟨hI.once, fun row' hrow' hp => ?_⟩
        obtain rfl := Option.some.inj hrow'
        -- an alert that is still pending was sent nowhere in this round
        have hsent : c.sent = false := by
          by_contra htrue
          rw [Bool.not_eq_false] at htrue
          have hd := hround.delivered_iff.mpr htrue
          rw [show p.outcome M row.deliveryAttempts c.sent = .pending from hp] at hd
          exact absurd hd (by simp)
        show (c.ledger.commit _ records).successes = 0
        rw [Ledger.successes_commit, hI.pending row hrow hround.pending,
          Course.countP_of_not_sent hsent]
  crash := fun c hI hlost => ⟨hI.once, fun row hrow hp => by
    show c.ledger.successes = 0
    rw [hI.pending row hrow hp, Course.countP_of_not_sent hlost]⟩

/-! ## §2. Runs. -/

namespace Delivery

variable {ι : Type} [DecidableEq ι] {M : Nat} {a : AlertId} {c₀ c c' : Delivery ι}

/-- How many requests for alert `a` the receiver answered with success. -/
def answered (a : AlertId) (w : World ι) : Nat :=
  w.requests.countP fun q => q.alertId = a ∧ q.reply.answered

/-- One sender: no answer puts an alert into a session's hands while another has
it, and none comes after the client gave up. -/
def OneSender (c : Delivery ι) : Action ι → Prop
  | .answer i inp => inp.reply.isLate = false ∧ ∀ row ∈ loads (c.task i) inp,
      ∀ j, j ≠ i → ¬ c.InHand j row.id
  | _ => True

omit [DecidableEq ι] in
theorem OneSender.exclusive {act : Action ι} (h : OneSender c act) : Exclusive a c act := by
  cases act with
  | answer i inp =>
      rintro row hrow rfl
      exact h.2 row hrow
  | create i row => trivial
  | orphan row => trivial
  | retry i => trivial
  | edit rule => trivial

/-- The requests so far were in time. -/
def InTime (w : World ι) (a : AlertId) : Prop :=
  ∀ q ∈ w.requests, q.alertId = a → q.reply.isLate = false

theorem InTime.step {act : Action ι} (h : InTime c.world a) (hone : OneSender c act)
    (hstep : step M c act = some c') : InTime c'.world a := by
  have hsame : c'.world.requests = c.world.requests → InTime c'.world a := by
    intro heq q hq
    exact h q (heq ▸ hq)
  cases act with
  | answer i inp =>
      obtain ⟨-, o, k, r, -, hperf, -⟩ := step_answer hstep
      rcases World.perform_requests hperf with heq | ⟨id, ch, heq⟩
      · exact hsame heq
      · intro q hq hid
        rw [heq] at hq
        rcases List.mem_append.mp hq with hq | hq
        · exact h q hq hid
        · rw [List.mem_singleton.mp hq]
          exact hone.1
  | create i row =>
      obtain ⟨-, -, rfl⟩ := step_create hstep
      exact hsame rfl
  | orphan row =>
      obtain ⟨-, rfl⟩ := step_orphan hstep
      exact hsame rfl
  | retry i =>
      obtain ⟨-, rfl⟩ := step_retry hstep
      exact hsame rfl
  | edit rule => exact hsame (by rw [← Option.some.inj hstep]; rfl)

omit [DecidableEq ι] in
/-- In time, the receiver's successes are the client's. -/
theorem answered_eq_successes {w : World ι} (h : InTime w a) :
    answered a w = (w.ledger a).successes := by
  simp only [answered, Ledger.successes, World.ledger, List.countP_filter]
  refine List.countP_congr fun q hq => ?_
  by_cases hid : q.alertId = a
  · simp [hid, Reply.answered_eq_ok (h q hq hid)]
  · simp [hid]

/-- **Exactly-once delivery with one sender at a time.** -/
theorem exactly_once (h₀ : Start a c₀) (hrun : Reaches (step M) OneSender c₀ c) :
    answered a c.world ≤ 1 := by
  have honce : (c.world.ledger a).successes ≤ 1 := by
    obtain ⟨life, rfl, hlife⟩ := Life.of_run hrun
    have hinv := Course.once_invariant M
    have htended : Life.Tended M .any Course.Once a life := by
      refine Life.Tended.run hinv (fun c e hacts => ?_) hlife
        (.init hinv (Life.start_ofDelivery h₀))
      cases e with
      | act act => exact ⟨hacts.exclusive, Life.within_any a c _, trivial⟩
      | crash i => exact hacts.elim
    obtain ⟨round, opened, h, -⟩ := htended.holds
    exact h.once
  have htime : InTime c.world a := by
    refine hrun.invariant (I := fun d => InTime d.world a)
      (fun _ _ _ hI hone hs => hI.step hone hs) ?_
    intro q hq hid
    have hempty : c₀.world.requests.filter (fun q => q.alertId = a) = [] :=
      congrArg Ledger.requests h₀.unborn
    have hmem : q ∈ c₀.world.requests.filter (fun q => q.alertId = a) :=
      List.mem_filter.mpr ⟨hq, by simpa using hid⟩
    rw [hempty] at hmem
    exact absurd hmem (by simp)
  rw [answered_eq_successes htime]
  exact honce

instance (c : Delivery WorkerTask) : (act : Action WorkerTask) → Decidable (OneSender c act)
  | .answer i inp => inferInstanceAs (Decidable (inp.reply.isLate = false ∧
      ∀ row ∈ loads (c.task i) inp, ∀ j, j ≠ i → ¬ c.InHand j row.id))
  | .create _ _ | .orphan _ | .retry _ | .edit _ => inferInstanceAs (Decidable True)

/-- The first delivery gets through; the pass after it finds nothing to do. -/
theorem exactly_once_calm : ∃ c : Delivery WorkerTask, 0 < answered 7 c.world ∧
    answered 7 c.world ≤ 1 := by
  have hcount : (runs (fun c act => if OneSender c act then step 5 c act else none)
      recoverySchedule (initial sampleRules)).map (fun c => answered 7 c.world)
        = some 1 := by decide
  obtain ⟨c, hc, hcount⟩ := Option.map_eq_some_iff.mp hcount
  exact ⟨c, by omega, exactly_once (start_initial sampleRules 7) (Reaches.of_runs hc)⟩

/-- The pass loads its rows after the main loop committed the alert and before it
sent the request; both get a 200. -/
def overlapSchedule : List (Action WorkerTask) :=
  [.create .mainLoop sampleAlert,
   .retry .retryScheduler,
   .answer .retryScheduler {},
   .answer .retryScheduler { rows := [sampleAlert] },
   .answer .mainLoop {}, .answer .mainLoop {}, .answer .mainLoop {},
   .answer .mainLoop {}, .answer .mainLoop {}, .answer .mainLoop {},
   .answer .mainLoop {},
   .answer .retryScheduler {}, .answer .retryScheduler {},
   .answer .retryScheduler {}, .answer .retryScheduler {},
   .answer .retryScheduler {}]

/-- **Two requests for one alert get through**, although both are answered in
time and the main loop had committed the delivery before the pass sent. -/
theorem exactly_once_fails : ¬ ∀ c : Delivery WorkerTask,
    Reaches (step 5) (fun _ _ => True) (initial sampleRules) c →
      ∀ a, answered a c.world ≤ 1 := by
  intro h
  have hcount : (runs (fun c act => if True then step 5 c act else none)
      overlapSchedule (initial sampleRules)).map (fun c => answered 7 c.world)
        = some 2 := by decide
  obtain ⟨c, hc, hcount⟩ := Option.map_eq_some_iff.mp hcount
  have := h c (Reaches.of_runs hc) 7
  omega

end Delivery

end Pulse
