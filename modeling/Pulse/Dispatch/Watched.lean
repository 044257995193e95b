/-
  Pulse.Dispatch.Watched
  ──────────────────────
  **THE WORLD, WATCHED ROUND BY ROUND.**

  Next to the world stand the rounds of each alert: how many began, in which
  session one is in progress, what that session has sent since its last delivery
  commit, and how many rounds sent something.  A round begins when the rule of the
  alert is found.  Nothing reads the record but statements about runs.

    • `Watched.perform`  — the handler of the operations, keeping that record,
    • `Allows`           — the answers that the terms of a run allow,
    • `steady`           — rely and guarantee for the session that has an alert
                           in hand, and the specification of each operation.
-/
import Pulse.Dispatch.Course
import Pulse.Dispatch.Footprint

namespace Pulse

open Pulse.Async Pulse.Store

/-- Some webhook URL is configured. -/
def Rule.hasUrl (rule : Rule) : Bool := isSet (rule.url .discord) || isSet (rule.url .generic)

/-! ## §1. The watched world. -/

/-- The rounds of the alerts. -/
structure Record (ι : Type) where
  /-- The requests of a session for an alert since its last delivery commit. -/
  current : ι → AlertId → List Request
  /-- The session has found the alert's rule and not committed a delivery since. -/
  opened : ι → AlertId → Bool
  /-- The rounds for an alert that sent a request. -/
  rounds : AlertId → Nat
  /-- The rounds for an alert that began. -/
  begun : AlertId → Nat

/-- The world and the record of its rounds. -/
structure Watched (ι : Type) extends Record ι where
  world : World ι

namespace Record

variable {ι : Type} [DecidableEq ι]

/-- No round yet. -/
def empty : Record ι := ⟨fun _ _ => [], fun _ _ => false, fun _ => 0, fun _ => 0⟩

/-- `x` stands for session `i` and alert `a` now. -/
def put {β : Type} (f : ι → AlertId → β) (i : ι) (a : AlertId) (x : β) : ι → AlertId → β :=
  Function.update f i (Function.update (f i) a x)

@[simp] theorem put_self {β : Type} (f : ι → AlertId → β) (i : ι) (a : AlertId) (x : β) :
    put f i a x i a = x := by simp [put]

theorem put_session {β : Type} {f : ι → AlertId → β} {i j : ι} {a : AlertId} {x : β}
    (h : j ≠ i) : put f i a x j = f j := Function.update_of_ne h _ _

theorem put_alert {β : Type} {f : ι → AlertId → β} {i : ι} {a b : AlertId} {x : β}
    (h : b ≠ a) (j : ι) : put f i a x j b = f j b := by
  by_cases hj : j = i
  · subst hj
    rw [put, Function.update_self]
    exact Function.update_of_ne h _ _
  · rw [put_session hj]

/-- The record after operation `o` of session `i` was answered. -/
def after (s : Record ι) (i : ι) (inp : Input) : (o : Op) → Resp o → Record ι
  | .selectRule alert, .ok (some _) =>
      { s with
        opened := put s.opened i alert.id true
        begun := Function.update s.begun alert.id (s.begun alert.id + 1) }
  | .post ch alert _, _ =>
      { s with
        current := put s.current i alert.id (s.current i alert.id ++ [⟨alert.id, ch, inp.reply⟩])
        rounds := Function.update s.rounds alert.id
          (if s.current i alert.id = [] then s.rounds alert.id + 1
          else s.rounds alert.id) }
  | .commitDelivery alert _, .ok () =>
      { s with
        current := put s.current i alert.row.id []
        opened := put s.opened i alert.row.id false }
  | _, _ => s

/-- Session `i` forgets the rounds it was in. -/
def drop (s : Record ι) (i : ι) : Record ι :=
  { s with
    current := Function.update s.current i fun _ => []
    opened := Function.update s.opened i fun _ => false }

/-- The record of the other sessions stays. -/
theorem after_other {s : Record ι} {i j : ι} {inp : Input} {o : Op} {r : Resp o} (h : j ≠ i) :
    (s.after i inp o r).current j = s.current j ∧ (s.after i inp o r).opened j = s.opened j := by
  unfold after
  split
  next => exact ⟨rfl, put_session h⟩
  next => exact ⟨put_session h, rfl⟩
  next => exact ⟨put_session h, put_session h⟩
  next => exact ⟨rfl, rfl⟩

end Record

namespace Watched

variable {ι : Type} [DecidableEq ι]

/-- Answer operation `o` of session `i`. -/
def perform (i : ι) (o : Op) (inp : Input) (s : Watched ι) : Option (Resp o × Watched ι) :=
  (World.perform i o inp s.world).map fun out => (out.1, ⟨s.toRecord.after i inp o out.1, out.2⟩)

/-- The course of alert `a`, the round in progress being session `i`'s. -/
def course (s : Watched ι) (i : ι) (a : AlertId) : Course :=
  ⟨s.world.ledger a, s.current i a, s.rounds a, s.begun a, s.opened i a⟩

/-- The course of alert `a` when no round is in progress. -/
def rest (s : Watched ι) (a : AlertId) : Course :=
  ⟨s.world.ledger a, [], s.rounds a, s.begun a, false⟩

/-- What an answer is in the world. -/
theorem perform_cases {i : ι} {o : Op} {inp : Input} {s s' : Watched ι} {r : Resp o}
    (h : perform i o inp s = some (r, s')) :
    World.perform i o inp s.world = some (r, s'.world) ∧
      s'.toRecord = s.toRecord.after i inp o r := by
  simp only [perform, Option.map_eq_some_iff, Prod.mk.injEq] at h
  obtain ⟨⟨r₀, w⟩, hperf, rfl, rfl⟩ := h
  exact ⟨hperf, rfl⟩

omit [DecidableEq ι] in
/-- What is recorded of a course. -/
theorem course_eq {s s' : Watched ι} {i : ι} {a : AlertId}
    (hl : s'.world.ledger a = s.world.ledger a) (hcur : s'.current i a = s.current i a)
    (hrounds : s'.rounds a = s.rounds a) (hbegun : s'.begun a = s.begun a)
    (hopened : s'.opened i a = s.opened i a) : s'.course i a = s.course i a := by
  simp only [course, hl, hcur, hrounds, hbegun, hopened]

/-- An operation that does not touch alert `a` leaves its record alone. -/
theorem perform_record {i : ι} {o : Op} {inp : Input} {s s' : Watched ι} {r : Resp o}
    {a : AlertId} (h : perform i o inp s = some (r, s')) (ho : ¬ o.touches a) :
    s'.rounds a = s.rounds a ∧ s'.begun a = s.begun a ∧
      ∀ j, s'.current j a = s.current j a ∧ s'.opened j a = s.opened j a := by
  obtain ⟨-, hs⟩ := perform_cases h
  rw [hs]
  unfold Record.after
  split
  next alert rule =>
    have hne : a ≠ alert.id := fun hid => ho hid.symm
    exact ⟨rfl, Function.update_of_ne hne _ _, fun j => ⟨rfl, Record.put_alert hne j⟩⟩
  next ch alert rule r' =>
    have hne : a ≠ alert.id := fun hid => ho hid.symm
    exact ⟨Function.update_of_ne hne _ _, rfl, fun j => ⟨Record.put_alert hne j, rfl⟩⟩
  next alert records =>
    have hne : a ≠ alert.row.id := fun hid => ho (Or.inl hid.symm)
    exact ⟨rfl, rfl, fun j => ⟨Record.put_alert hne j, Record.put_alert hne j⟩⟩
  next => exact ⟨rfl, rfl, fun _ => ⟨rfl, rfl⟩⟩

/-- **An operation that does not touch alert `a` leaves its course alone.** -/
theorem perform_course {i : ι} {o : Op} {inp : Input} {s s' : Watched ι} {r : Resp o}
    {a : AlertId} (h : perform i o inp s = some (r, s')) (ho : ¬ o.touches a) :
    s'.rest a = s.rest a ∧ ∀ j, s'.course j a = s.course j a := by
  obtain ⟨hrounds, hbegun, hsessions⟩ := perform_record h ho
  have hl := World.perform_ledger (perform_cases h).1 ho
  refine ⟨by simp only [rest, hl, hrounds, hbegun], fun j => ?_⟩
  exact course_eq hl (hsessions j).1 hrounds hbegun (hsessions j).2

end Watched

/-! ## §2. Rely and guarantee. -/

section Steady

variable {ι : Type} [DecidableEq ι]

/-- The answers to a session with alert `a` in hand that the terms allow;
`retrying` tells whether the session is in a pass over the pending alerts. -/
def Allows (T : Terms) (a : AlertId) (retrying : Bool) (w : World ι) (inp : Input) :
    Op → Prop
  | .payload _ alert _ => T.intact → alert.id = a → inp.broken = none
  | .post _ alert _ => alert.id = a → T.reply inp.reply
  | .selectRule alert => T.linked → retrying = true → ∀ row, w.alerts.get a = some row →
      row.ruleId = alert.ruleId → ∀ rule, w.rules.get alert.ruleId = some rule →
      rule.hasUrl = true
  | _ => True

/-- The database does not fail, and the answer is within the terms. -/
def Allowed (T : Terms) (a : AlertId) (retrying : Bool) (o : Op) (inp : Input)
    (s : Watched ι) : Prop :=
  inp.fault = none ∧ Allows T a retrying s.world inp o

/-- The RELY of session `i` with alert `a` in hand. -/
structure Stays (i : ι) (a : AlertId) (s s' : Watched ι) : Prop where
  course : s'.course i a = s.course i a
  rules : ∀ id, (s.world.rules.get id).isSome → (s'.world.rules.get id).isSome
  failed : s'.world.failed i = s.world.failed i

/-- `p` ends in `Q`, or raises in `E`, when session `i` has alert `a` in hand; each
of its operations is a step in the alert's course. -/
abbrev steady {α : Type} (M : Nat) (T : Terms) (i : ι) (a : AlertId) (retrying : Bool)
    (Q : α → Watched ι → Prop) (E : Watched ι → Prop) (p : Prog α) (s : Watched ι) : Prop :=
  Coro.wp (Watched.perform i) (Allowed T a retrying) (Stays i a)
    (fun s s' => Course.Step M T (s.course i a) (s'.course i a)) Q (fun _ => E) p s

/-- The alert is stored as `row`, its rule exists, and no round is in progress. -/
structure Waiting (i : ι) (a : AlertId) (row : Alert) (s : Watched ι) : Prop where
  stored : s.world.alerts.get a = some row
  rule : (s.world.rules.get row.ruleId).isSome
  round : s.current i a = []
  closed : s.opened i a = false

/-- The alert is stored as `row`, `round` was sent, and the session can commit. -/
structure Trying (i : ι) (a : AlertId) (row : Alert) (round : List Request)
    (s : Watched ι) : Prop where
  stored : s.world.alerts.get a = some row
  rule : (s.world.rules.get row.ruleId).isSome
  round : s.current i a = round
  opened : s.opened i a = true
  usable : s.world.failed i = false

/-- No round is in progress. -/
structure Rested (i : ι) (a : AlertId) (s : Watched ι) : Prop where
  round : s.current i a = []
  closed : s.opened i a = false

omit [DecidableEq ι] in
theorem Stays.refl (i : ι) (a : AlertId) (s : Watched ι) : Stays i a s s :=
  ⟨rfl, fun _ h => h, rfl⟩

omit [DecidableEq ι] in
theorem Stays.trans {i : ι} {a : AlertId} {s s' s'' : Watched ι} (h : Stays i a s s')
    (h' : Stays i a s' s'') : Stays i a s s'' :=
  ⟨h'.course.trans h.course, fun id hid => h'.rules id (h.rules id hid),
    h'.failed.trans h.failed⟩

omit [DecidableEq ι] in
/-- What a session with the alert in hand knows depends on its course only. -/
theorem Waiting.of_course {i : ι} {a : AlertId} {row : Alert} {s s' : Watched ι}
    (hc : s'.course i a = s.course i a)
    (hr : ∀ id, (s.world.rules.get id).isSome → (s'.world.rules.get id).isSome)
    (h : Waiting i a row s) : Waiting i a row s' :=
  ⟨(congrArg (fun c => c.ledger.row) hc).trans h.stored, hr _ h.rule,
    (congrArg Course.round hc).trans h.round, (congrArg Course.opened hc).trans h.closed⟩

omit [DecidableEq ι] in
theorem Rested.of_course {i : ι} {a : AlertId} {s s' : Watched ι}
    (hc : s'.course i a = s.course i a) (h : Rested i a s) : Rested i a s' :=
  ⟨(congrArg Course.round hc).trans h.round, (congrArg Course.opened hc).trans h.closed⟩

omit [DecidableEq ι] in
theorem Stays.row {i : ι} {a : AlertId} {s s' : Watched ι} (h : Stays i a s s') :
    s'.world.alerts.get a = s.world.alerts.get a :=
  congrArg (fun c => c.ledger.row) h.course

omit [DecidableEq ι] in
theorem Rested.stays {i : ι} {a : AlertId} {s s' : Watched ι} (h : Rested i a s)
    (hk : Stays i a s s') : Rested i a s' := h.of_course hk.course

omit [DecidableEq ι] in
theorem Waiting.stays {i : ι} {a : AlertId} {row : Alert} {s s' : Watched ι}
    (h : Waiting i a row s) (hk : Stays i a s s') : Waiting i a row s' :=
  h.of_course hk.course hk.rules

omit [DecidableEq ι] in
theorem Waiting.rested {i : ι} {a : AlertId} {row : Alert} {s : Watched ι}
    (h : Waiting i a row s) : Rested i a s := ⟨h.round, h.closed⟩

omit [DecidableEq ι] in
theorem Trying.stays {i : ι} {a : AlertId} {row : Alert} {round : List Request}
    {s s' : Watched ι} (h : Trying i a row round s) (hk : Stays i a s s') :
    Trying i a row round s' :=
  ⟨hk.row.trans h.stored, hk.rules _ h.rule, (congrArg Course.round hk.course).trans h.round,
    (congrArg Course.opened hk.course).trans h.opened, hk.failed.trans h.usable⟩

/-- What an operation that does not touch `a` does to the session. -/
theorem stays_of_untouched {i j : ι} {a : AlertId} {o : Op} {inp : Input}
    {s s' : Watched ι} {r : Resp o} (h : Watched.perform i o inp s = some (r, s'))
    (ho : ¬ o.touches a) (hf : s'.world.failed j = s.world.failed j) : Stays j a s s' := by
  refine ⟨(Watched.perform_course h ho).2 j, fun id hid => ?_, hf⟩
  rw [(World.perform_kept (Watched.perform_cases h).1).rules]
  exact hid

theorem step_of_untouched {M : Nat} {T : Terms} {i j : ι} {a : AlertId} {o : Op}
    {inp : Input} {s s' : Watched ι} {r : Resp o}
    (h : Watched.perform i o inp s = some (r, s')) (ho : ¬ o.touches a) :
    Course.Step M T (s.course j a) (s'.course j a) := by
  rw [(Watched.perform_course h ho).2 j]
  exact .stay

/-- **Frame**: a coroutine that cannot touch `a` keeps whatever depends on the course
of `a` and the presence of rules only. -/
theorem steady_frame {α : Type} {M : Nat} {T : Terms} {i : ι} {a : AlertId}
    {retrying : Bool} {I : Watched ι → Prop}
    (hI : ∀ s s', s'.course i a = s.course i a →
      (∀ id, (s.world.rules.get id).isSome → (s'.world.rules.get id).isSome) → I s → I s')
    {p : Prog α} (hp : Aloof a p) {s : Watched ι} (h : I s) :
    steady M T i a retrying (fun _ => I) I p s := by
  refine Coro.wp_mono (fun _ _ hQ => hQ.2) (fun _ _ hE => hE)
    (Coro.wp_of_uses (fun s s' hk => hI s s' hk.course hk.rules) ?_ hp h)
  intro o inp s r s' ho _ hperf hIs
  refine ⟨step_of_untouched hperf ho,
    hI s s' ((Watched.perform_course hperf ho).2 i) (fun id hid => ?_) hIs⟩
  rw [(World.perform_kept (Watched.perform_cases hperf).1).rules]
  exact hid

end Steady

end Pulse
