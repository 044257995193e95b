/-
  Pulse.Dispatch.Life
  ───────────────────
  **THE DELIVERY SYSTEM, WATCHED.**

  The delivery system with the record of its rounds, and with one more event: a
  session dies at an await.  Its task and its transaction are gone; what it sent
  stays sent and what it committed stays committed.  A process that dies takes its
  sessions along one after the other.

    • `Life.step`                — one event,
    • `Exclusive`, `Within`, `Spares` — what a run is supposed to respect,
    • `Tended.step`/`Tended.run` — whatever the courses of an alert keep, every
                                   such run keeps,
    • `Life.of_run`              — a run of the delivery system is one of these.
-/
import Pulse.Dispatch.Delivery
import Pulse.Dispatch.Paths

namespace Pulse

open Pulse.Async Pulse.Store

/-! ## §1. States and events. -/

/-- The delivery system, the record of its rounds, and which sessions are in a pass over
the pending alerts. -/
structure Life (ι : Type) where
  delivery : Delivery ι
  record : Record ι
  retrying : ι → Bool

namespace Life

inductive Event (ι : Type) where
  /-- An action of the delivery system. -/
  | act (act : Delivery.Action ι)
  /-- The process of session `i` dies. -/
  | crash (i : ι)

variable {ι : Type} [DecidableEq ι]

abbrev world (c : Life ι) : World ι := c.delivery.world

abbrev watched (c : Life ι) : Watched ι := ⟨c.record, c.world⟩

abbrev task (c : Life ι) (i : ι) : Prog Unit := c.delivery.task i

abbrev hand (c : Life ι) (i : ι) : List Alert := c.delivery.hand i

/-- The world becomes `w`. -/
def env (c : Life ι) (w : World ι) : Life ι :=
  { c with delivery := { c.delivery with pool := { c.delivery.pool with world := w } } }

/-- Session `i` starts task `t` in the world `w` with `rows` in hand. -/
def start (c : Life ι) (w : World ι) (i : ι) (t : Prog Unit) (rows : List Alert)
    (retrying : Bool) : Life ι where
  delivery := c.delivery.start w i t rows
  record := c.record.drop i
  retrying := Function.update c.retrying i retrying

/-- The record once the operation that session `i` awaits is answered. -/
def heard (c : Life ι) (i : ι) (inp : Input) : Record ι :=
  match c.task i with
  | .await o _ =>
      match World.perform i o inp c.world with
      | some (r, _) => c.record.after i inp o r
      | none => c.record
  | _ => c.record

/-- The record of an action that leads to `d`. -/
def after (c : Life ι) (d : Delivery ι) : Delivery.Action ι → Life ι
  | .create i _ => ⟨d, c.record.drop i, Function.update c.retrying i false⟩
  | .retry i => ⟨d, c.record.drop i, Function.update c.retrying i true⟩
  | .answer i inp => ⟨d, c.heard i inp, c.retrying⟩
  | .orphan _ | .edit _ => ⟨d, c.record, c.retrying⟩

/-- One event, when `retry_backoff_max` is `M`. -/
def step (M : Nat) (c : Life ι) : Event ι → Option (Life ι)
  | .act act => (Delivery.step M c.delivery act).map fun d => c.after d act
  | .crash i => some (c.start (c.world.abort i) i (.pure ()) [] false)

/-- Session `j` is at work with alert `a` in hand. -/
abbrev InHand (c : Life ι) (j : ι) (a : AlertId) : Prop := c.delivery.InHand j a

/-- No operation on alert `a` is in progress. -/
def Idle (a : AlertId) (c : Life ι) : Prop := ∀ j, ¬ c.InHand j a

/-- The operation that a task awaits. -/
def awaited : Prog Unit → Option Op
  | .await o _ => some o
  | _ => none

/-- **Exclusive loading** of alert `a`, as in the delivery system. -/
def Exclusive (a : AlertId) (c : Life ι) : Event ι → Prop
  | .act act => c.delivery.Exclusive a act
  | .crash _ => True

/-- The answers to whoever has alert `a` in hand are within the terms. -/
def Within (T : Terms) (a : AlertId) (c : Life ι) : Event ι → Prop
  | .act (.answer i inp) => c.InHand i a →
      ∀ o ∈ awaited (c.task i), Allows T a (c.retrying i) c.world inp o
  | _ => True

/-- The course of alert `a` that a crash breaks off satisfies `C`. -/
def Spares (C : Course → Prop) (a : AlertId) (c : Life ι) : Event ι → Prop
  | .crash i => C (c.watched.course i a)
  | _ => True

omit [DecidableEq ι] in
/-- Nothing supposed is nothing to respect. -/
theorem within_any (a : AlertId) (c : Life ι) (e : Event ι) : Within .any a c e := by
  unfold Within
  split
  next =>
    intro _ o _
    cases o with
    | payload ch alert rule => exact fun hint => hint.elim
    | post ch alert rule => exact fun _ => trivial
    | selectRule alert => exact fun hl => hl.elim
    | _ => trivial
  next => trivial

omit [DecidableEq ι] in
theorem spares_any (a : AlertId) (c : Life ι) (e : Event ι) :
    Spares (fun _ => True) a c e := by
  cases e <;> trivial

/-- Nobody is at work, and alert `a` does not exist. -/
structure Start (a : AlertId) (c : Life ι) : Prop where
  idle : ∀ j, (c.task j).finished = true
  unborn : c.world.ledger a = Ledger.empty
  unsent : c.record.rounds a = 0
  unbegun : c.record.begun a = 0
  blank : ∀ j, Rested j a c.watched

/-! ### Sessions that start a task. -/

section StartTask

variable (c : Life ι) (w : World ι) (i : ι) (t : Prog Unit) (rows : List Alert) (b : Bool)

@[simp] theorem start_world : (c.start w i t rows b).world = w := rfl

@[simp] theorem start_rest (a : AlertId) :
    (c.start w i t rows b).watched.rest a
      = ⟨w.ledger a, [], c.watched.rounds a, c.watched.begun a, false⟩ := rfl

@[simp] theorem start_task_self : (c.start w i t rows b).task i = t :=
  c.delivery.start_task_self w i t rows

@[simp] theorem start_hand_self : (c.start w i t rows b).hand i = rows :=
  c.delivery.start_hand_self w i t rows

@[simp] theorem start_retrying_self : (c.start w i t rows b).retrying i = b := by
  simp [start]

theorem start_rested_self (a : AlertId) : Rested i a (c.start w i t rows b).watched := by
  constructor <;> simp [start, Record.drop]

variable {i}

theorem start_task_other {j : ι} (h : j ≠ i) :
    (c.start w i t rows b).task j = c.task j := c.delivery.start_task_other w t rows h

theorem start_hand_other {j : ι} (h : j ≠ i) :
    (c.start w i t rows b).hand j = c.hand j := c.delivery.start_hand_other w t rows h

theorem start_retrying_other {j : ι} (h : j ≠ i) :
    (c.start w i t rows b).retrying j = c.retrying j := by
  simp [start, h]

theorem start_current_other {j : ι} (h : j ≠ i) :
    (c.start w i t rows b).watched.current j = c.watched.current j := by
  simp [start, Record.drop, h]

theorem start_opened_other {j : ι} (h : j ≠ i) :
    (c.start w i t rows b).watched.opened j = c.watched.opened j := by
  simp [start, Record.drop, h]

end StartTask

/-! ## §2. One alert under exclusive loading. -/

section Tended

variable {M : Nat} {T : Terms} {C I : Course → Prop} {a : AlertId}

/-- The one session that may work on `a`, if there is one, does so properly. -/
def Owns (M : Nat) (T : Terms) (I : Course → Prop) (a : AlertId) (c : Life ι) :
    Option ι → Prop
  | none => I (c.watched.rest a)
  | some i => (∃ row ∈ c.hand i, row.id = a) ∧ (c.world.alerts.get a).isSome ∧
      I (c.watched.course i a) ∧
      steady M T i a (c.retrying i) (fun _ => Rested i a) (Rested i a) (c.task i) c.watched

/-- Session `j` cannot touch `a`, or is in a pass and about to load. -/
def Unconcerned (M : Nat) (a : AlertId) (c : Life ι) (j : ι) : Prop :=
  Aloof a (c.task j) ∨ Delivery.PassStart M (c.task j) ∧ c.retrying j = true

/-- Session `j` has nothing to do with `a`. -/
structure Outside (M : Nat) (a : AlertId) (c : Life ι) (j : ι) : Prop where
  unconcerned : Unconcerned M a c j
  rested : Rested j a c.watched

/-- The state of alert `a` in the system: in the hands of one session at most, and
on a course that satisfies `I`. -/
structure Tended (M : Nat) (T : Terms) (I : Course → Prop) (a : AlertId) (c : Life ι) :
    Prop where
  unborn : c.world.alerts.get a = none → c.watched.rest a = Course.unborn
  linked : ∀ row, c.world.alerts.get a = some row → (c.world.rules.get row.ruleId).isSome
  owner : ∃ own : Option ι, Owns M T I a c own ∧ ∀ j, own ≠ some j → Outside M a c j

omit [DecidableEq ι] in
/-- With no round in progress, a course is at rest. -/
theorem course_of_rested {s : Watched ι} {i : ι} (h : Rested i a s) :
    s.course i a = s.rest a := by
  simp only [Watched.course, Watched.rest, h.round, h.closed]

/-- The owner's task is over: no round is in progress. -/
theorem Owns.rested {c : Life ι} {i : ι} (h : Owns M T I a c (some i))
    (hf : (c.task i).finished = true) : Rested i a c.watched := by
  obtain ⟨-, -, -, hwp⟩ := h
  cases ht : c.task i with
  | pure u => rw [ht] at hwp; exact hwp
  | raise e => rw [ht] at hwp; exact hwp
  | await o k => rw [ht] at hf; exact absurd hf (by simp [Coro.finished])

/-- The owner's task is over: the course is at rest. -/
theorem Owns.rest {c : Life ι} {own : Option ι} (h : Owns M T I a c own)
    (hf : ∀ i, own = some i → (c.task i).finished = true) : I (c.watched.rest a) := by
  cases own with
  | none => exact h
  | some i =>
      rw [← course_of_rested (h.rested (hf i rfl))]
      exact h.2.2.1

/-- Nothing that session `i` sees of alert `a` has changed. -/
structure Same (i : ι) (a : AlertId) (c c' : Life ι) : Prop where
  task : c'.task i = c.task i
  hand : c'.hand i = c.hand i
  retrying : c'.retrying i = c.retrying i
  current : c'.watched.current i a = c.watched.current i a
  opened : c'.watched.opened i a = c.watched.opened i a

/-- Whoever owns the alert goes on owning it while the others leave it alone. -/
theorem Owns.keep {c c' : Life ι} {own : Option ι} (h : Owns M T I a c own)
    (hrest : c'.watched.rest a = c.watched.rest a)
    (hr : ∀ id, (c.world.rules.get id).isSome → (c'.world.rules.get id).isSome)
    (hi : ∀ i, own = some i → Same i a c c' ∧ c'.world.failed i = c.world.failed i) :
    Owns M T I a c' own := by
  cases own with
  | none =>
      show I (c'.watched.rest a)
      rw [hrest]
      exact h
  | some i =>
      obtain ⟨hhand, hsome, hI, hwp⟩ := h
      obtain ⟨hsame, hfailed⟩ := hi i rfl
      have hcourse : c'.watched.course i a = c.watched.course i a :=
        Watched.course_eq (congrArg Course.ledger hrest) hsame.current
          (congrArg Course.rounds hrest) (congrArg Course.begun hrest) hsame.opened
      have hk : Stays i a c.watched c'.watched := ⟨hcourse, hr, hfailed⟩
      have hrow : c'.world.alerts.get a = c.world.alerts.get a := hk.row
      refine ⟨by rw [hsame.hand]; exact hhand, by rw [hrow]; exact hsome,
        by rw [hcourse]; exact hI, ?_⟩
      rw [hsame.task, hsame.retrying]
      exact Coro.wp_rely (fun _ _ _ h h' => h.trans h') (fun _ _ _ hk h => h.stays hk)
        (fun _ _ _ hk h => h.stays hk) hk hwp

omit [DecidableEq ι] in
/-- Unconcerned with nothing sent, as before. -/
theorem Outside.keep {c c' : Life ι} {j : ι} (h : Outside M a c j) (hsame : Same j a c c') :
    Outside M a c' j := by
  refine ⟨?_, hsame.current.trans h.rested.round, hsame.opened.trans h.rested.closed⟩
  rw [Unconcerned, hsame.task, hsame.retrying]
  exact h.unconcerned

/-- Sessions other than the one that starts a task see nothing of it. -/
theorem same_start {c : Life ι} {w : World ι} {i j : ι} {t : Prog Unit} {rows : List Alert}
    {b : Bool} (h : j ≠ i) : Same j a c (c.start w i t rows b) where
  task := start_task_other _ _ _ _ _ h
  hand := start_hand_other _ _ _ _ _ h
  retrying := start_retrying_other _ _ _ _ _ h
  current := congrFun (start_current_other _ _ _ _ _ h) a
  opened := congrFun (start_opened_other _ _ _ _ _ h) a

/-! ## §3. Answers. -/

/-- What an answer does to the system. -/
theorem step_answer {c c' : Life ι} {i : ι} {inp : Input}
    (h : step M c (.act (.answer i inp)) = some c') :
    inp.fault = none ∧ ∃ o k r, c.task i = .await o k ∧
      Watched.perform i o inp c.watched = some (r, c'.watched) ∧ c'.task i = k r ∧
      (∀ j, j ≠ i → Same j a c c') ∧
      c'.hand i = c.hand i ++ Delivery.loads (c.task i) inp ∧
      c'.retrying = c.retrying := by
  obtain ⟨d, hd, rfl⟩ := Option.map_eq_some_iff.mp h
  obtain ⟨hok, o, k, r, ht, hperf, htask, hrest, hhand⟩ := Delivery.step_answer hd
  have hheard : c.heard i inp = c.record.after i inp o r := by
    have ht : c.task i = .await o k := ht
    have hperf : World.perform i o inp c.world = some (r, d.world) := hperf
    rw [heard, ht]
    simp only [hperf]
  refine ⟨hok, o, k, r, ht, ?_, htask, fun j hj => ?_, hhand, rfl⟩
  · have hperf : World.perform i o inp c.world = some (r, d.world) := hperf
    simp only [Watched.perform, hperf, Option.map_some, after, hheard]
  · refine ⟨(hrest j hj).1, (hrest j hj).2, rfl, ?_, ?_⟩
    · show (c.heard i inp).current j a = _
      rw [hheard]
      exact congrFun (Record.after_other hj).1 a
    · show (c.heard i inp).opened j a = _
      rw [hheard]
      exact congrFun (Record.after_other hj).2 a

/-- The other actions of the delivery system. -/
theorem step_create {c c' : Life ι} {i : ι} {row : Alert}
    (h : step M c (.act (.create i row)) = some c') :
    (c.task i).finished = true ∧ Delivery.canStore c.world row = true ∧
      c' = c.start (Delivery.store c.world row) i (deliver row.id) [row] false := by
  obtain ⟨d, hd, rfl⟩ := Option.map_eq_some_iff.mp h
  obtain ⟨hf, hcan, rfl⟩ := Delivery.step_create hd
  exact ⟨hf, hcan, rfl⟩

theorem step_orphan {c c' : Life ι} {row : Alert} (h : step M c (.act (.orphan row)) = some c') :
    Delivery.canStore c.world row = true ∧ c' = c.env (Delivery.store c.world row) := by
  obtain ⟨d, hd, rfl⟩ := Option.map_eq_some_iff.mp h
  obtain ⟨hcan, rfl⟩ := Delivery.step_orphan hd
  exact ⟨hcan, rfl⟩

theorem step_retry {c c' : Life ι} {i : ι} (h : step M c (.act (.retry i)) = some c') :
    (c.task i).finished = true ∧
      c' = c.start c.world i (processPendingAlerts M) [] true := by
  obtain ⟨d, hd, rfl⟩ := Option.map_eq_some_iff.mp h
  obtain ⟨hf, rfl⟩ := Delivery.step_retry hd
  exact ⟨hf, rfl⟩

theorem step_edit {c c' : Life ι} {rule : Rule} (h : step M c (.act (.edit rule)) = some c') :
    c' = c.env (Delivery.editRule c.world rule) := (Option.some.inj h).symm

/-- What every answer keeps. -/
theorem Tended.kept {c c' : Life ι} {i : ι} {o : Op} {inp : Input} {r : Resp o}
    (h : Tended M T I a c)
    (hperf : Watched.perform i o inp c.watched = some (r, c'.watched))
    (hrow : ∀ row', c'.world.alerts.get a = some row' →
      ∃ row, c.world.alerts.get a = some row ∧ row'.ruleId = row.ruleId) :
    (∀ id, (c.world.rules.get id).isSome → (c'.world.rules.get id).isSome) ∧
      ∀ row', c'.world.alerts.get a = some row' →
        (c'.world.rules.get row'.ruleId).isSome := by
  have hr : ∀ id, (c.world.rules.get id).isSome → (c'.world.rules.get id).isSome := by
    intro id hid
    rw [(World.perform_kept (Watched.perform_cases hperf).1).rules]
    exact hid
  refine ⟨hr, fun row' hrow' => ?_⟩
  obtain ⟨row, hget, hid⟩ := hrow row' hrow'
  rw [hid]
  exact hr _ (h.linked row hget)

/-- The owner takes a step. -/
theorem Tended.answer_owner {c c' : Life ι} {i : ι} {inp : Input}
    (hinv : Course.Invariant M T C I) (h : Tended M T I a c) (hown : Owns M T I a c (some i))
    (hothers : ∀ j, some i ≠ some j → Outside M a c j)
    (hwithin : Within T a c (.act (.answer i inp)))
    (hstep : step M c (.act (.answer i inp)) = some c') : Tended M T I a c' := by
  obtain ⟨hok, o, k, r, ht, hperf, htask, hrest, hhand, hretry⟩ := step_answer hstep
  obtain ⟨⟨row, hrow, hid⟩, hsome, hI, hwp⟩ := hown
  -- the answer is one that the owner's specification speaks of
  have hallow : Allows T a (c.retrying i) c.world inp o := by
    refine hwithin ⟨?_, row, hrow, hid⟩ o ?_
    · show (c.task i).finished = false
      rw [ht]
      rfl
    · rw [ht]
      rfl
  rw [ht] at hwp
  obtain ⟨hmove, hk⟩ := hwp c.watched (.refl i a _) inp r c'.watched ⟨hok, hallow⟩ hperf
  obtain ⟨stored, hstored⟩ := Option.isSome_iff_exists.mp hsome
  obtain ⟨stored', hstored', hrule⟩ := Course.Step.row hmove hstored
  have hstored' : c'.world.alerts.get a = some stored' := hstored'
  obtain ⟨hr, hlinked⟩ := h.kept hperf (fun row' hrow' => by
    rw [hstored', Option.some.injEq] at hrow'
    subst hrow'
    exact ⟨stored, hstored, hrule⟩)
  refine ⟨fun hnone => ?_, hlinked, some i, ⟨⟨row, ?_, hid⟩, ?_, ?_, ?_⟩, fun j hj => ?_⟩
  · rw [hstored'] at hnone
    exact absurd hnone (by simp)
  · rw [hhand]
    exact List.mem_append_left _ hrow
  · exact Option.isSome_iff_exists.mpr ⟨stored', hstored'⟩
  · exact hinv.step _ _ hI hmove
  · rw [htask, hretry]
    exact hk
  · exact (hothers j hj).keep (hrest j fun hji => hj (by rw [hji]))

/-- A session that does not own the alert takes a step that leaves it alone. -/
theorem Tended.answer_other {c c' : Life ι} {own : Option ι} {i : ι} {inp : Input}
    {o : Op} {r : Resp o} (h : Tended M T I a c) (hown : Owns M T I a c own)
    (hothers : ∀ j, own ≠ some j → Outside M a c j) (hne : own ≠ some i)
    (hperf : Watched.perform i o inp c.watched = some (r, c'.watched))
    (ho : ¬ o.touches a) (hrest : ∀ j, j ≠ i → Same j a c c')
    (hnext : Unconcerned M a c' i) : Tended M T I a c' := by
  obtain ⟨hat, hcourse⟩ := Watched.perform_course hperf ho
  have hl : c'.world.ledger a = c.world.ledger a := congrArg Course.ledger hat
  have hget : c'.world.alerts.get a = c.world.alerts.get a := congrArg Ledger.row hl
  obtain ⟨hr, hlinked⟩ := h.kept hperf
    (fun row' hrow' => ⟨row', hget.symm.trans hrow', rfl⟩)
  have hkept := World.perform_kept (Watched.perform_cases hperf).1
  refine ⟨fun hnone => ?_, hlinked, own, hown.keep hat hr ?_, fun j hj => ?_⟩
  · rw [hat]
    exact h.unborn (hget.symm.trans hnone)
  · rintro j rfl
    have hji : j ≠ i := fun hji => hne (by rw [hji])
    exact ⟨hrest j hji, hkept.failed j hji⟩
  · by_cases hji : j = i
    · subst hji
      exact ⟨hnext, (hothers j hj).rested.of_course (hcourse j)⟩
    · exact (hothers j hj).keep (hrest j hji)

/-- **A pass loads its rows.**  If the alert is among them, the session becomes
its owner; exclusive loading says that nobody else was at work on it. -/
theorem Tended.answer_load {c c' : Life ι} {own : Option ι} {i : ι} {inp : Input}
    {r : Resp (.selectPending M)} (h : Tended M T I a c) (hown : Owns M T I a c own)
    (hothers : ∀ j, own ≠ some j → Outside M a c j) (hne : own ≠ some i)
    (hperf : Watched.perform i (.selectPending M) inp c.watched = some (r, c'.watched))
    (htask : c'.task i
      = (Coro.ofExcept r >>= fun alerts => Coro.forEach alerts (retryAlert M)))
    (hrest : ∀ j, j ≠ i → Same j a c c')
    (hhand : c'.hand i = c.hand i ++ inp.rows) (hretry : c'.retrying = c.retrying)
    (hpass : c.retrying i = true)
    (hex : ∀ row ∈ inp.rows, row.id = a → ∀ j, j ≠ i → ¬ c.InHand j a) :
    Tended M T I a c' := by
  obtain haloof | ⟨⟨row, hrow, hid⟩, rfl, hpage⟩ :=
    load_cases (a := a) (Watched.perform_cases hperf).1
  · exact h.answer_other hown hothers hne hperf (fun ho => ho) hrest
      (Or.inl (by rw [htask]; exact haloof))
  · have htask : c'.task i = Coro.forEach inp.rows (retryAlert M) := htask
    -- the old owner, if any, has finished
    have hdone : ∀ j, own = some j → (c.task j).finished = true := by
      rintro j rfl
      by_contra hf
      exact hex row hrow hid j (fun hji => hne (by rw [hji])) ⟨by simpa using hf, hown.1⟩
    obtain ⟨hat, hcourse⟩ := Watched.perform_course (a := a) hperf (fun ho => ho)
    have hl : c'.world.ledger a = c.world.ledger a := congrArg Course.ledger hat
    have hget : c'.world.alerts.get a = c.world.alerts.get a := congrArg Ledger.row hl
    obtain ⟨hr, hlinked⟩ := h.kept hperf
      (fun row' hrow' => ⟨row', hget.symm.trans hrow', rfl⟩)
    have hrested : Rested i a c'.watched := (hothers i hne).rested.of_course (hcourse i)
    have hready : ∀ row ∈ inp.rows, row.id = a → row.deliveryStatus = .pending ∧
        row.deliveryAttempts < M ∧ Waiting i a row c'.watched := by
      intro row hrow hid
      obtain ⟨hstored, hpend, hbelow⟩ := World.stored_of_page hpage hrow
      rw [hid] at hstored
      exact ⟨hpend, hbelow, hstored, hlinked row hstored, hrested.round, hrested.closed⟩
    refine ⟨fun hnone => ?_, hlinked, some i, ⟨⟨row, ?_, hid⟩, ?_, ?_, ?_⟩, fun j hj => ?_⟩
    · rw [(hready row hrow hid).2.2.stored] at hnone
      exact absurd hnone (by simp)
    · rw [hhand]
      exact List.mem_append_right _ hrow
    · exact Option.isSome_iff_exists.mpr ⟨row, (hready row hrow hid).2.2.stored⟩
    · rw [course_of_rested hrested, hat]
      exact hown.rest hdone
    · rw [htask, hretry, hpass]
      exact steady_pass inp.rows _
        ⟨hpage.nodup_map (World.pendingAlerts_nodup _ M), hready, hrested⟩
    · have hji : j ≠ i := fun hji => hj (by rw [hji])
      by_cases hjo : own = some j
      · subst hjo
        refine ⟨?_, (hown.rested (hdone j rfl)).of_course (hcourse j)⟩
        exact Or.inl (aloof_of_finished (by rw [(hrest j hji).task]; exact hdone j rfl))
      · exact (hothers j hjo).keep (hrest j hji)

/-- **An answer.** -/
theorem Tended.answer {c c' : Life ι} {i : ι} {inp : Input}
    (hinv : Course.Invariant M T C I) (h : Tended M T I a c)
    (hex : Exclusive a c (.act (.answer i inp))) (hwithin : Within T a c (.act (.answer i inp)))
    (hstep : step M c (.act (.answer i inp)) = some c') : Tended M T I a c' := by
  obtain ⟨own, hown, hothers⟩ := h.owner
  by_cases hi : own = some i
  · subst hi
    exact h.answer_owner hinv hown hothers hwithin hstep
  · obtain ⟨-, o, k, r, ht, hperf, htask, hrest, hhand, hretry⟩ := step_answer hstep
    rcases (hothers i hi).unconcerned with haloof | ⟨hstart | hstart, hpass⟩
    · rw [ht] at haloof
      exact h.answer_other hown hothers hi hperf haloof.1 hrest
        (Or.inl (by rw [htask]; exact haloof.2 r))
    · -- the session of the pass is opened
      rw [ht] at hstart
      cases hstart
      exact h.answer_other hown hothers hi hperf (fun ho => ho) hrest
        (Or.inr ⟨Or.inr (by rw [htask]; rfl), by rw [hretry]; exact hpass⟩)
    · have hstart' := hstart
      rw [ht] at hstart'
      cases hstart'
      refine h.answer_load hown hothers hi hperf htask hrest ?_ hretry hpass ?_
      · rw [hhand, hstart]
        rfl
      · intro row hrow hid
        refine hex row ?_ hid
        show row ∈ Delivery.loads (c.task i) inp
        rw [hstart]
        exact hrow

/-! ## §4. New alerts, passes, edits and crashes. -/

/-- Session `i` lets go of the alert, whose course is then at rest. -/
theorem Tended.release {c : Life ι} (h : Tended M T I a c) (i : ι)
    (hi : Owns M T I a c (some i) → I (c.watched.rest a)) :
    ∃ own : Option ι, own ≠ some i ∧ Owns M T I a c own ∧
      ∀ j, j ≠ i → own ≠ some j → Outside M a c j := by
  obtain ⟨own, hown, hothers⟩ := h.owner
  by_cases hoi : own = some i
  · subst hoi
    refine ⟨none, by simp, hi hown, fun j hji _ => hothers j fun hij => ?_⟩
    exact hji (Option.some.inj hij).symm
  · exact ⟨own, hoi, hown, fun j _ hj => hothers j hj⟩

/-- A session starts a task that does not concern the alert. -/
theorem Tended.start {c : Life ι} {w : World ι} {i : ι} {t : Prog Unit}
    {rows : List Alert} {b : Bool} (h : Tended M T I a c)
    (hi : Owns M T I a c (some i) → I (c.watched.rest a))
    (hl : w.ledger a = c.world.ledger a)
    (hr : ∀ id, (c.world.rules.get id).isSome → (w.rules.get id).isSome)
    (hfailed : ∀ j, j ≠ i → w.failed j = c.world.failed j)
    (ht : Aloof a t ∨ Delivery.PassStart M t ∧ b = true) :
    Tended M T I a (c.start w i t rows b) := by
  -- session `i` gives the alert up, if it had it in hand
  obtain ⟨own, hne, hown, hothers⟩ := h.release i hi
  have hget : w.alerts.get a = c.world.alerts.get a := congrArg Ledger.row hl
  have hat : (c.start w i t rows b).watched.rest a = c.watched.rest a := by
    rw [start_rest, hl]
    rfl
  refine ⟨fun hnone => ?_, fun row hrow => ?_, own, hown.keep hat hr ?_, fun j hj => ?_⟩
  · rw [hat]
    exact h.unborn (hget.symm.trans hnone)
  · exact hr _ (h.linked row (hget.symm.trans hrow))
  · rintro j rfl
    have hji : j ≠ i := fun hji => hne (by rw [hji])
    exact ⟨same_start hji, hfailed j hji⟩
  · by_cases hji : j = i
    · subst hji
      refine ⟨?_, start_rested_self _ _ _ _ _ _ _⟩
      rw [Unconcerned, start_task_self, start_retrying_self]
      exact ht
    · exact (hothers j hji hj).keep (same_start hji)

/-- The world changes outside the alert and the sessions. -/
theorem Tended.env {c : Life ι} {w : World ι} (h : Tended M T I a c)
    (hl : w.ledger a = c.world.ledger a)
    (hr : ∀ id, (c.world.rules.get id).isSome → (w.rules.get id).isSome)
    (hfailed : w.failed = c.world.failed) : Tended M T I a (c.env w) := by
  obtain ⟨own, hown, hothers⟩ := h.owner
  have hget : w.alerts.get a = c.world.alerts.get a := congrArg Ledger.row hl
  have hat : (c.env w).watched.rest a = c.watched.rest a := by
    show (⟨w.ledger a, [], _, _, false⟩ : Course) = _
    rw [hl]
    rfl
  refine ⟨fun hnone => ?_, fun row hrow => ?_, own,
    hown.keep hat hr (fun i _ => ⟨⟨rfl, rfl, rfl, rfl, rfl⟩, congrFun hfailed i⟩),
    fun j hj => (hothers j hj).keep ⟨rfl, rfl, rfl, rfl, rfl⟩⟩
  · rw [hat]
    exact h.unborn (hget.symm.trans hnone)
  · exact hr _ (h.linked row (hget.symm.trans hrow))

/-- Nobody owns an alert that does not exist. -/
theorem Tended.nobody {c : Life ι} (h : Tended M T I a c)
    (hnone : c.world.alerts.get a = none) : ∀ j, Outside M a c j := by
  obtain ⟨own, hown, hothers⟩ := h.owner
  cases own with
  | none => exact fun j => hothers j (by simp)
  | some i =>
      obtain ⟨-, hsome, -, -⟩ := hown
      rw [hnone] at hsome
      exact absurd hsome (by simp)

omit [DecidableEq ι] in
/-- The course of an alert that was just stored. -/
theorem rest_store {s : Watched ι} {row : Alert} (h : s.rest row.id = Course.unborn) :
    (⟨(Delivery.store s.world row).ledger row.id, [], s.rounds row.id, s.begun row.id, false⟩
      : Course) = Course.fresh row := by
  rw [Delivery.ledger_store_self (congrArg Course.ledger h),
    show s.rounds row.id = 0 from congrArg Course.rounds h,
    show s.begun row.id = 0 from congrArg Course.begun h]
  rfl

/-- A new alert in the hands of the session that will deliver it. -/
theorem Tended.create {c : Life ι} {i : ι} {row : Alert} (hinv : Course.Invariant M T C I)
    (h : Tended M T I row.id c) (hcan : Delivery.canStore c.world row = true) :
    Tended M T I row.id
      (c.start (Delivery.store c.world row) i (deliver row.id) [row] false) := by
  obtain ⟨hp, hn, hlast, hnew, hrule⟩ := Delivery.canStore_iff.mp hcan
  have hget : (Delivery.store c.world row).alerts.get row.id = some row :=
    Table.get_insertNew_self hnew
  have hcourse := rest_store (h.unborn hnew)
  refine ⟨fun hnone => ?_, fun row' hrow' => ?_, some i, ⟨⟨row, by simp, rfl⟩, ?_, ?_, ?_⟩,
    fun j hj => ?_⟩
  · rw [start_world, hget] at hnone
    exact absurd hnone (by simp)
  · rw [start_world, hget, Option.some.injEq] at hrow'
    subst hrow'
    exact hrule
  · rw [start_world, hget]
    rfl
  · rw [course_of_rested (start_rested_self _ _ _ _ _ _ _), start_rest, hcourse]
    exact hinv.fresh row hp hn
  · have hrested := start_rested_self c (Delivery.store c.world row) i (deliver row.id) [row]
      false row.id
    rw [start_task_self]
    exact steady_deliver hp hn hlast ⟨hget, hrule, hrested.round, hrested.closed⟩
  · exact (h.nobody hnew j).keep (same_start fun hji => hj (by rw [hji]))

/-- A new alert that nobody has in hand. -/
theorem Tended.orphan {c : Life ι} {row : Alert} (hinv : Course.Invariant M T C I)
    (h : Tended M T I row.id c) (hcan : Delivery.canStore c.world row = true) :
    Tended M T I row.id (c.env (Delivery.store c.world row)) := by
  obtain ⟨hp, hn, -, hnew, hrule⟩ := Delivery.canStore_iff.mp hcan
  have hget : (Delivery.store c.world row).alerts.get row.id = some row :=
    Table.get_insertNew_self hnew
  refine ⟨fun hnone => ?_, fun row' hrow' => ?_, none, ?_,
    fun j _ => (h.nobody hnew j).keep ⟨rfl, rfl, rfl, rfl, rfl⟩⟩
  · have hnone : (Delivery.store c.world row).alerts.get row.id = none := hnone
    rw [hget] at hnone
    exact absurd hnone (by simp)
  · have hrow' : (Delivery.store c.world row).alerts.get row.id = some row' := hrow'
    rw [hget, Option.some.injEq] at hrow'
    subst hrow'
    exact hrule
  · show I ((c.env (Delivery.store c.world row)).watched.rest row.id)
    rw [show (c.env (Delivery.store c.world row)).watched.rest row.id = Course.fresh row from
      rest_store (h.unborn hnew)]
    exact hinv.fresh row hp hn

/-! ## §5. Runs. -/

/-- **One step.** -/
theorem Tended.step {c c' : Life ι} {e : Event ι} (hinv : Course.Invariant M T C I)
    (h : Tended M T I a c) (hex : Exclusive a c e) (hwithin : Within T a c e)
    (hspares : Spares C a c e) (hstep : step M c e = some c') : Tended M T I a c' := by
  cases e with
  | act act =>
      cases act with
      | create i row =>
          obtain ⟨hf, hcan, rfl⟩ := step_create hstep
          by_cases hid : row.id = a
          · subst hid
            exact h.create hinv hcan
          · refine h.start (fun hown => hown.rest ?_) (Delivery.ledger_store_other _ hid)
              (fun _ hr => hr) (fun _ _ => rfl) (Or.inl (aloof_deliver hid))
            rintro j hj
            rw [← Option.some.inj hj]
            exact hf
      | orphan row =>
          obtain ⟨hcan, rfl⟩ := step_orphan hstep
          by_cases hid : row.id = a
          · subst hid
            exact h.orphan hinv hcan
          · exact h.env (Delivery.ledger_store_other _ hid) (fun _ hr => hr) rfl
      | retry i =>
          obtain ⟨hf, rfl⟩ := step_retry hstep
          refine h.start (fun hown => hown.rest ?_) rfl (fun _ hr => hr) (fun _ _ => rfl)
            (Or.inr ⟨Or.inl rfl, rfl⟩)
          rintro j hj
          rw [← Option.some.inj hj]
          exact hf
      | answer i inp => exact h.answer hinv hex hwithin hstep
      | edit rule =>
          obtain rfl := step_edit hstep
          exact h.env rfl (Delivery.rules_editRule _ rule) rfl
  | crash i =>
      obtain rfl := Option.some.inj hstep
      -- the round in progress is lost, and the course goes on from there
      exact h.start (fun hown => hinv.crash _ hown.2.2.1 hspares) (World.ledger_abort _ i a)
        (fun _ hr => hr) (World.kept_abort i c.world).failed (Or.inl trivial)

theorem Tended.init {c : Life ι} (hinv : Course.Invariant M T C I) (h : Start a c) :
    Tended M T I a c := by
  have hrest : c.watched.rest a = Course.unborn := by
    simp only [Watched.rest, h.unborn, h.unsent, h.unbegun]
    rfl
  have hrow : c.world.alerts.get a = none := congrArg Ledger.row h.unborn
  refine ⟨fun _ => hrest, fun row hr => ?_, none, ?_, fun j _ => ?_⟩
  · rw [hrow] at hr
    exact absurd hr (by simp)
  · show I (c.watched.rest a)
    rw [hrest]
    exact hinv.unborn
  · exact ⟨Or.inl (aloof_of_finished (h.idle j)), h.blank j⟩

/-- **A whole run.** -/
theorem Tended.run {P : Life ι → Event ι → Prop} (hinv : Course.Invariant M T C I)
    (hP : ∀ c e, P c e → Exclusive a c e ∧ Within T a c e ∧ Spares C a c e)
    {c c' : Life ι} (hrun : Reaches (Life.step M) P c c') (h : Tended M T I a c) :
    Tended M T I a c' := by
  refine hrun.invariant (fun c e c' hI hp hs => ?_) h
  obtain ⟨hex, hwithin, hspares⟩ := hP c e hp
  exact hI.step hinv hex hwithin hspares hs

/-- Session `j` is in a round for alert `a`. -/
structure InRound (c : Life ι) (j : ι) (a : AlertId) : Prop where
  working : (c.task j).finished = false
  opened : c.watched.opened j a = true

/-- **In every state the invariant holds of the alert's course**, in which a round is in
progress exactly if some session is in one. -/
theorem Tended.holds {c : Life ι} (h : Tended M T I a c) :
    ∃ round opened, I ⟨c.world.ledger a, round, c.watched.rounds a, c.watched.begun a, opened⟩ ∧
      (opened = true ↔ ∃ j, c.InRound j a) := by
  obtain ⟨own, hown, hothers⟩ := h.owner
  cases own with
  | none =>
      refine ⟨[], false, hown, by simp, ?_⟩
      rintro ⟨j, hj⟩
      have hclosed := (hothers j (by simp)).rested.closed
      exact absurd (hj.opened.symm.trans hclosed) (by simp)
  | some i =>
      refine ⟨_, _, hown.2.2.1, fun hopened => ⟨i, ?_, hopened⟩, ?_⟩
      · -- whoever is in a round has not finished
        by_contra hf
        have hclosed := (hown.rested (by simpa using hf)).closed
        rw [hclosed] at hopened
        exact absurd hopened (by simp)
      · rintro ⟨j, hj⟩
        by_cases hji : j = i
        · exact hji ▸ hj.opened
        · have hclosed := (hothers j fun hij => hji (Option.some.inj hij).symm).rested.closed
          exact absurd (hj.opened.symm.trans hclosed) (by simp)

/-- **Settled is final**, whatever happens next. -/
theorem Tended.final {c c' : Life ι} {e : Event ι} (h : Tended M T I a c)
    (hwithin : Within T a c e) (hstep : Life.step M c e = some c') {row : Alert}
    (hrow : c.world.alerts.get a = some row) (hs : row.deliveryStatus ≠ .pending) :
    c'.world.ledger a = c.world.ledger a := by
  have hstored : ∀ row : Alert, Delivery.canStore c.world row = true → row.id ≠ a := by
    rintro new hcan rfl
    obtain ⟨-, -, -, hnew, -⟩ := Delivery.canStore_iff.mp hcan
    exact absurd (hrow.symm.trans hnew) (by simp)
  cases e with
  | act act =>
      cases act with
      | create i new =>
          obtain ⟨-, hcan, rfl⟩ := step_create hstep
          exact Delivery.ledger_store_other _ (hstored new hcan)
      | orphan new =>
          obtain ⟨hcan, rfl⟩ := step_orphan hstep
          exact Delivery.ledger_store_other _ (hstored new hcan)
      | retry i =>
          obtain ⟨-, rfl⟩ := step_retry hstep
          rfl
      | edit rule =>
          obtain rfl := step_edit hstep
          rfl
      | answer i inp =>
          obtain ⟨own, hown, hothers⟩ := h.owner
          obtain ⟨hok, o, k, r, ht, hperf, -⟩ := step_answer (a := a) hstep
          have hworld := (Watched.perform_cases hperf).1
          -- the owner keeps to the alert's course, nobody else can touch it
          by_cases hi : own = some i
          · subst hi
            obtain ⟨⟨loaded, hloaded, hid⟩, -, -, hwp⟩ := hown
            have hallow : Allows T a (c.retrying i) c.world inp o :=
              hwithin ⟨show (c.task i).finished = false by rw [ht]; rfl, loaded, hloaded, hid⟩ o
                (by rw [ht]; rfl)
            rw [ht] at hwp
            exact Course.Step.final
              (hwp c.watched (.refl i a _) inp r c'.watched ⟨hok, hallow⟩ hperf).1 hrow hs
          · rcases (hothers i hi).unconcerned with haloof | ⟨hstart | hstart, -⟩
            · rw [ht] at haloof
              exact World.perform_ledger hworld haloof.1
            · rw [ht] at hstart
              cases hstart
              exact World.perform_ledger hworld (fun ho => ho)
            · rw [ht] at hstart
              cases hstart
              exact World.perform_ledger hworld (fun ho => ho)
  | crash i =>
      obtain rfl := Option.some.inj hstep
      exact World.ledger_abort _ i a

/-- While nobody works on the alert, no round is in progress. -/
theorem Tended.at_rest {c : Life ι} (h : Tended M T I a c) (hidle : Idle a c) :
    I (c.watched.rest a) := by
  obtain ⟨own, hown, -⟩ := h.owner
  refine hown.rest ?_
  rintro i rfl
  by_contra hf
  exact hidle i ⟨by simpa using hf, hown.1⟩

end Tended

/-! ## §6. Runs of the delivery system. -/

/-- The delivery system with nothing on record. -/
def ofDelivery (d : Delivery ι) : Life ι := ⟨d, .empty, fun _ => false⟩

/-- An action that satisfies `P`. -/
def Acts (P : Delivery ι → Delivery.Action ι → Prop) (c : Life ι) : Event ι → Prop
  | .act act => P c.delivery act
  | .crash _ => False

omit [DecidableEq ι] in
theorem start_ofDelivery {a : AlertId} {d : Delivery ι} (h : d.Start a) :
    Start a (ofDelivery d) :=
  ⟨h.idle, h.unborn, rfl, rfl, fun _ => ⟨rfl, rfl⟩⟩

/-- **A run of the delivery system is one of the watched system.** -/
theorem of_run {M : Nat} {P : Delivery ι → Delivery.Action ι → Prop} {d d' : Delivery ι}
    (hrun : Reaches (Delivery.step M) P d d') :
    ∃ c, c.delivery = d' ∧ Reaches (step M) (Acts P) (ofDelivery d) c := by
  induction hrun with
  | refl => exact ⟨ofDelivery d, rfl, .refl⟩
  | @step d₁ d₂ act _ hP hstep ih =>
      obtain ⟨c, rfl, hc⟩ := ih
      have hdelivery : (c.after d₂ act).delivery = d₂ := by cases act <;> rfl
      have hlife : step M c (.act act) = some (c.after d₂ act) := by
        show (Delivery.step M c.delivery act).map _ = _
        rw [hstep]
        rfl
      have hact : Acts P c (.act act) := hP
      exact ⟨c.after d₂ act, hdelivery, .step hc hact hlife⟩

/-! ## §7. One worker. -/

open Delivery (WorkerTask)

instance (a : AlertId) (c : Life WorkerTask) : Decidable (Idle a c) :=
  inferInstanceAs (Decidable (∀ j, ¬ c.InHand j a))

instance (a : AlertId) (c : Life WorkerTask) : (e : Event WorkerTask) → Decidable (Exclusive a c e)
  | .act act => inferInstanceAs (Decidable (c.delivery.Exclusive a act))
  | .crash _ => inferInstanceAs (Decidable True)

/-- Nothing was done yet: the given rules, no alerts. -/
def initial (rules : Table Rule.id) : Life ι := ofDelivery (.initial rules)

omit [DecidableEq ι] in
theorem start_initial (rules : Table Rule.id) (a : AlertId) :
    Start a (initial rules : Life ι) := start_ofDelivery (Delivery.start_initial rules a)

end Life

end Pulse
