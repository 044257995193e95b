/-
  Pulse.Api.Admission
  ───────────────────
  **WHO GETS THROUGH, AND HOW OFTEN.**

  Requests interleave at every statement and every command of Redis, all of which may fail.

    • `Gate.GatedSystem.step` — every request is gated while the others move,
    • `only_valid_keys_pass` — in every run: without a key that opens a bucket a request is
                               neither counted nor passed on, and what is refused has a reason,
    • `Gate.limits_step`     — a step is one of the limiter inside, or nothing to it,
    • `writes_bounded`       — so the limiter's bounds hold of the requests passed on.
-/
import Pulse.Api.Gate
import Pulse.Api.Refusals

namespace Pulse.Api

open Pulse.Async Pulse.Store

namespace Gate

variable {ι : Type} [DecidableEq ι] {sha256 : String → String} {settings : Settings}
  {c c' : Gate ι} {a : Action ι}

/-! ## §1. Calls and results. -/

/-- Who has asked the limiter waits for it, or was told its result. -/
structure Orderly (c : Gate ι) : Prop where
  fresh : ∀ i, c.asked i = none → (c.task i).finished = true ∧ c.limits.asked i = none ∧
    c.told i = none ∧ c.passed i = false
  calls : ∀ i q, c.limits.asked i = some q → c.told i = none →
    ∃ redisUrl bucketId limitPerMinute k,
      c.task i = .await (.checkRateLimit redisUrl bucketId limitPerMinute) k ∧
      q = ⟨some redisUrl, bucketId, limitPerMinute⟩
  told : ∀ i rl, c.told i = some rl → c.limits.task i = .pure rl ∧
    ∃ q, c.limits.asked i = some q

omit [DecidableEq ι] in
theorem Orderly.init (h : Start c) : Orderly c where
  fresh := fun i _ => ⟨h.idle i, h.limits.asked i, h.told i, h.passed i⟩
  calls := fun i q hq _ => absurd ((h.limits.asked i).symm.trans hq) (by simp)
  told := fun i rl hrl => absurd ((h.told i).symm.trans hrl) (by simp)

/-- A step of the limiter that asks for nobody else than a caller. -/
theorem Orderly.limit {b : RateLimit.System.Action ι} (h : Orderly c)
    (hb : ∀ i q, b = .request i q → ∃ redisUrl bucketId limitPerMinute k,
      c.task i = .await (.checkRateLimit redisUrl bucketId limitPerMinute) k ∧
      q = ⟨some redisUrl, bucketId, limitPerMinute⟩) (hstep : c.limit b = some c') :
    Orderly c' := by
  obtain ⟨limits, hlimits, rfl⟩ := Option.map_eq_some_iff.mp hstep
  refine ⟨?_, ?_, ?_⟩
  · intro i hi
    obtain ⟨hidle, hasked, hrest⟩ := h.fresh i hi
    refine ⟨hidle, ?_, hrest⟩
    show limits.asked i = none
    cases hq : limits.asked i with
    | none => rfl
    | some q =>
        rcases RateLimit.System.step_asked hlimits hq with hold | ⟨-, hreq⟩
        · exact absurd (hasked.symm.trans hold) (by simp)
        · obtain ⟨_, _, _, _, hawait, -⟩ := hb i q hreq
          rw [hawait] at hidle
          exact absurd hidle (by simp [Coro.finished])
  · intro i q hq htold
    rcases RateLimit.System.step_asked hlimits hq with hold | ⟨-, hreq⟩
    · exact h.calls i q hold htold
    · exact hb i q hreq
  · intro i rl hrl
    obtain ⟨htask, q, hq⟩ := h.told i rl hrl
    obtain ⟨hq', hkept⟩ := RateLimit.System.step_keeps hlimits hq
    exact ⟨hkept rl htask, q, hq'⟩

/-- Request `i` comes in for the first time, at the start of the middleware. -/
theorem request_cases {i : ι} {r : Request}
    (hstep : step sha256 settings c (.request i r) = some c') :
    c.asked i = none ∧ c' = { c with
      front := c.front.assign i (dispatch sha256 settings r runHandler)
      asked := Function.update c.asked i (some r) } := by
  simp only [step] at hstep
  split at hstep
  next hnone => exact ⟨Option.isNone_iff_eq_none.mp hnone, (Option.some.inj hstep).symm⟩
  next => exact absurd hstep (by simp)

/-- What the task of request `i` is, and what is known of the others. -/
theorem Orderly.request {i : ι} {r : Request} (h : Orderly c)
    (hstep : step sha256 settings c (.request i r) = some c') : Orderly c' := by
  obtain ⟨hnone, rfl⟩ := request_cases hstep
  have hi := h.fresh i hnone
  refine ⟨?_, ?_, h.told⟩
  · intro j hj
    have hj : Function.update c.asked i (some r) j = none := hj
    by_cases hji : j = i
    · rw [hji, Function.update_self] at hj
      exact absurd hj (by simp)
    · rw [Function.update_of_ne hji] at hj
      obtain ⟨hidle, hrest⟩ := h.fresh j hj
      refine ⟨?_, hrest⟩
      show ((c.front.assign i _).task j).finished = true
      rw [Pool.assign_other _ _ hji]
      exact hidle
  · intro j q hq htold
    have hji : j ≠ i := by
      rintro rfl
      exact absurd (hi.2.1.symm.trans hq) (by simp)
    show ∃ redisUrl bucketId limitPerMinute k, (c.front.assign i _).task j = _ ∧ _
    rw [Pool.assign_other _ _ hji]
    exact h.calls j q hq htold

/-- What is answered in the middleware. -/
theorem step_answer {i : ι} {inp : Input}
    (hstep : step sha256 settings c (.answer i inp) = some c') :
    ∃ o k out w, c.task i = .await o k ∧ o.isCall = false ∧
      Server.perform o { inp with elapsed := 0 } c.front.world = some (out, w) ∧
      c' = { c with
        front := ⟨w, Function.update c.front.task i (k out)⟩
        passed := Function.update c.passed i (c.passed i || o.isHandler) } := by
  simp only [step] at hstep
  split at hstep
  next o k htask =>
    split at hstep
    next => exact absurd hstep (by simp)
    next hcall =>
      obtain ⟨⟨out, w⟩, hperf, rfl⟩ := Option.map_eq_some_iff.mp hstep
      exact ⟨o, k, out, w, htask, by simpa using hcall, hperf, rfl⟩
  next => exact absurd hstep (by simp)

/-- What the limiter returns. -/
theorem step_result {i : ι} (h : Orderly c)
    (hstep : step sha256 settings c (.result i) = some c') :
    ∃ redisUrl bucketId limitPerMinute k rl,
      c.task i = .await (.checkRateLimit redisUrl bucketId limitPerMinute) k ∧
      c.limits.asked i = some ⟨some redisUrl, bucketId, limitPerMinute⟩ ∧
      c.limits.task i = .pure rl ∧ c.told i = none ∧
      c' = { c with
        front := c.front.assign i (k rl)
        told := Function.update c.told i (some rl) } := by
  simp only [step] at hstep
  split at hstep
  next redisUrl bucketId limitPerMinute k q rl htask hq htold hresult =>
    obtain rfl := Option.some.inj hstep
    obtain ⟨redisUrl', bucketId', limit', k', htask', rfl⟩ := h.calls i q hq htold
    rw [htask] at htask'
    obtain ⟨rfl, rfl, rfl⟩ := Op.checkRateLimit.inj (Coro.await.inj htask').1
    exact ⟨_, _, _, k, rl, htask, hq, hresult, htold, rfl⟩
  next => exact absurd hstep (by simp)

theorem Orderly.answer {i : ι} {inp : Input} (h : Orderly c)
    (hstep : step sha256 settings c (.answer i inp) = some c') : Orderly c' := by
  obtain ⟨o, k, out, w, htask, hcall, -, rfl⟩ := step_answer hstep
  refine ⟨?_, ?_, h.told⟩
  · intro j hj
    obtain ⟨hidle, hasked, htold, hpassed⟩ := h.fresh j hj
    have hji : j ≠ i := by
      rintro rfl
      rw [htask] at hidle
      exact absurd hidle (by simp [Coro.finished])
    refine ⟨?_, hasked, htold, (Function.update_of_ne hji _ _).trans hpassed⟩
    show (Function.update c.front.task i (k out) j).finished = true
    rw [Function.update_of_ne hji]
    exact hidle
  · intro j q hq htold
    obtain ⟨redisUrl, bucketId, limit, k', hawait, hargs⟩ := h.calls j q hq htold
    have hji : j ≠ i := by
      rintro rfl
      rw [htask] at hawait
      obtain ⟨rfl, -⟩ := Coro.await.inj hawait
      exact absurd hcall (by simp [Op.isCall])
    exact ⟨redisUrl, bucketId, limit, k', (Function.update_of_ne hji _ _).trans hawait, hargs⟩

theorem Orderly.result {i : ι} (h : Orderly c)
    (hstep : step sha256 settings c (.result i) = some c') : Orderly c' := by
  obtain ⟨redisUrl, bucketId, limit, k, rl, htask, hq, hresult, htold, rfl⟩ :=
    step_result h hstep
  refine ⟨?_, ?_, ?_⟩
  · intro j hj
    obtain ⟨hidle, hasked, hnone, hpassed⟩ := h.fresh j hj
    have hji : j ≠ i := by
      rintro rfl
      exact absurd (hasked.symm.trans hq) (by simp)
    refine ⟨?_, hasked, (Function.update_of_ne hji _ _).trans hnone, hpassed⟩
    show ((c.front.assign i (k rl)).task j).finished = true
    rw [Pool.assign_other _ _ hji]
    exact hidle
  · intro j q' hq' hnone
    have hnone : Function.update c.told i (some rl) j = none := hnone
    have hji : j ≠ i := by
      rintro rfl
      rw [Function.update_self] at hnone
      exact absurd hnone (by simp)
    rw [Function.update_of_ne hji] at hnone
    show ∃ redisUrl bucketId limitPerMinute k, (c.front.assign i _).task j = _ ∧ _
    rw [Pool.assign_other _ _ hji]
    exact h.calls j q' hq' hnone
  · intro j rl' hrl
    have hrl : Function.update c.told i (some rl) j = some rl' := hrl
    by_cases hji : j = i
    · subst hji
      rw [Function.update_self, Option.some.injEq] at hrl
      subst hrl
      exact ⟨hresult, _, hq⟩
    · rw [Function.update_of_ne hji] at hrl
      exact h.told j rl' hrl

/-- **One step.** -/
theorem Orderly.step (h : Orderly c) (hstep : step sha256 settings c a = some c') :
    Orderly c' := by
  cases a with
  | request i r => exact h.request hstep
  | answer i inp => exact h.answer hstep
  | result i => exact h.result hstep
  | call i =>
      simp only [Gate.step] at hstep
      split at hstep
      next redisUrl bucketId limit k htask =>
        refine h.limit (fun j q hreq => ?_) hstep
        obtain ⟨rfl, rfl⟩ := RateLimit.System.Action.request.inj hreq
        exact ⟨redisUrl, bucketId, limit, k, htask, rfl⟩
      next => exact absurd hstep (by simp)
  | limiter i inp => exact h.limit (fun _ _ hreq => absurd hreq (by simp)) hstep
  | drop key => exact h.limit (fun _ _ hreq => absurd hreq (by simp)) hstep
  | tick n =>
      simp only [Gate.step, Option.map_eq_some_iff] at hstep
      obtain ⟨d, hd, rfl⟩ := hstep
      have hd := h.limit (fun _ _ hreq => absurd hreq (by simp)) hd
      exact ⟨hd.fresh, hd.calls, hd.told⟩
  | edit apiKeys =>
      obtain rfl := Option.some.inj hstep
      exact ⟨h.fresh, h.calls, h.told⟩

/-! ## §2. All requests. -/

/-- What request `i` sees. -/
def view (c : Gate ι) (i : ι) : View :=
  ⟨c.front.world, (c.told i).bind fun rl => (c.limits.asked i).map fun q => (q, rl), c.passed i⟩

variable (sha256 settings) in
/-- Edits keep the table within `V`. -/
def Edits (V : String → String → Int → Prop) (_ : Gate ι) : Action ι → Prop
  | .edit apiKeys => Lawful sha256 settings V apiKeys
  | _ => True

variable {V : String → String → Int → Prop} {new : ι → Prop}

variable (sha256 settings V) in
/-- The requests in `new` are gated, while the table stays within `V`. -/
structure GatedSystem (new : ι → Prop) (c : Gate ι) : Prop where
  orderly : Orderly c
  lawful : Lawful sha256 settings V c.table
  gate : ∀ i r, new i → c.asked i = some r → Gated settings V r (c.view i)
  task : ∀ i r, new i → c.asked i = some r →
    gated sha256 settings V r (Served settings r) (fun _ _ => False) (c.task i) (c.view i)

omit [DecidableEq ι] in
/-- A request that does not move, while the others do. -/
theorem GatedSystem.keep {i : ι} {r : Request} (h : GatedSystem sha256 settings V new c)
    (hi : new i) (hr : c.asked i = some r) (htask : c'.task i = c.task i)
    (hview : Beside sha256 settings V (c.view i) (c'.view i)) :
    Gated settings V r (c'.view i) ∧ gated sha256 settings V r (Served settings r) (fun _ _ => False)
      (c'.task i) (c'.view i) := by
  refine ⟨(h.gate i r hi hr).beside hview, ?_⟩
  rw [htask]
  exact Coro.wp_rely (R := Beside sha256 settings V) (Q := Served settings r)
    (fun _ _ _ hv hv' => hv.trans hv') (fun _ _ _ hv hq => hq.beside hv)
    (fun _ _ _ _ hf => hf) hview (h.task i r hi hr)

omit [DecidableEq ι] in
/-- The database, the clock or the limiter moves. -/
theorem GatedSystem.outside (h : GatedSystem sha256 settings V new c) (horderly : Orderly c')
    (hlawful : Lawful sha256 settings V c'.table) (hasked : c'.asked = c.asked)
    (htask : c'.front.task = c.front.task) (htold : c'.told = c.told)
    (hpassed : c'.passed = c.passed)
    (hlimits : ∀ i q, c.limits.asked i = some q → c'.limits.asked i = some q) :
    GatedSystem sha256 settings V new c' := by
  have hkeep : ∀ i r, new i → c'.asked i = some r → Gated settings V r (c'.view i) ∧
      gated sha256 settings V r (Served settings r) (fun _ _ => False) (c'.task i)
        (c'.view i) := by
    intro i r hi hr
    refine h.keep hi (hasked ▸ hr) (congrFun htask i) ⟨?_, congrFun hpassed i, hlawful⟩
    show (c'.told i).bind _ = (c.told i).bind _
    rw [htold]
    cases hrl : c.told i with
    | none => rfl
    | some rl =>
        obtain ⟨-, q, hq⟩ := h.orderly.told i rl hrl
        show (c'.limits.asked i).map _ = (c.limits.asked i).map _
        rw [hq, hlimits i q hq]
  exact ⟨horderly, hlawful, fun i r hi hr => (hkeep i r hi hr).1,
    fun i r hi hr => (hkeep i r hi hr).2⟩

/-- A request comes in; if it is in `new`, it is at the start of the middleware. -/
theorem GatedSystem.request {i : ι} {r : Request} (h : GatedSystem sha256 settings V new c)
    (hstep : step sha256 settings c (.request i r) = some c') :
    GatedSystem sha256 settings V new c' := by
  have horderly := h.orderly.step hstep
  obtain ⟨hnone, rfl⟩ := request_cases hstep
  obtain ⟨-, -, htold, hpassed⟩ := h.orderly.fresh i hnone
  have hwaits : (c.view i).Waits := by
    refine ⟨?_, hpassed⟩
    show (c.told i).bind _ = none
    rw [htold]
    rfl
  have hall : ∀ j r', new j → Function.update c.asked i (some r) j = some r' →
      Gated settings V r' (c.view j) ∧ gated sha256 settings V r' (Served settings r')
        (fun _ _ => False) ((c.front.assign i (dispatch sha256 settings r runHandler)).task j)
        (c.view j) := by
    intro j r' hj hr'
    by_cases hji : j = i
    · subst hji
      rw [Function.update_self, Option.some.injEq] at hr'
      subst hr'
      rw [Pool.assign_self]
      exact ⟨hwaits.gated, gated_dispatch h.lawful hwaits⟩
    · rw [Function.update_of_ne hji] at hr'
      rw [Pool.assign_other _ _ hji]
      exact ⟨h.gate j r' hj hr', h.task j r' hj hr'⟩
  exact ⟨horderly, h.lawful, fun j r' hj hr' => (hall j r' hj hr').1,
    fun j r' hj hr' => (hall j r' hj hr').2⟩

/-- What request `i` does; the others see it at most as an edit. -/
theorem GatedSystem.moves {i : ι} (h : GatedSystem sha256 settings V new c) (horderly : Orderly c')
    (hlawful : Lawful sha256 settings V c'.table) (hasked : c'.asked = c.asked)
    (hself : ∀ r, new i → c.asked i = some r → Gated settings V r (c'.view i) ∧
      gated sha256 settings V r (Served settings r) (fun _ _ => False) (c'.task i) (c'.view i))
    (hother : ∀ j, j ≠ i → c'.task j = c.task j ∧ (c'.view j).told = (c.view j).told ∧
      c'.passed j = c.passed j) : GatedSystem sha256 settings V new c' := by
  have hall : ∀ j r, new j → c'.asked j = some r → Gated settings V r (c'.view j) ∧
      gated sha256 settings V r (Served settings r) (fun _ _ => False) (c'.task j)
        (c'.view j) := by
    intro j r hj hr
    rw [hasked] at hr
    by_cases hji : j = i
    · subst hji
      exact hself r hj hr
    · obtain ⟨htask, htold, hpassed⟩ := hother j hji
      exact h.keep hj hr htask ⟨htold, hpassed, hlawful⟩
  exact ⟨horderly, hlawful, fun j r hj hr => (hall j r hj hr).1,
    fun j r hj hr => (hall j r hj hr).2⟩

theorem GatedSystem.answer {i : ι} {inp : Input} (h : GatedSystem sha256 settings V new c)
    (hstep : step sha256 settings c (.answer i inp) = some c') :
    GatedSystem sha256 settings V new c' := by
  have horderly := h.orderly.step hstep
  obtain ⟨o, k, out, w, htask, hcall, hperf, rfl⟩ := step_answer hstep
  refine h.moves horderly (h.lawful.perform hperf) rfl (i := i) ?_ ?_
  · intro r hi hr
    have hwp := h.task i r hi hr
    rw [htask] at hwp
    have hview : View.perform o ({ inp with elapsed := 0 }, ⟨true, 0, 0, 0⟩) (c.view i)
        = some (out, { c.view i with server := w, passed := c.passed i || o.isHandler }) := by
      rw [View.perform_eq hcall]
      show (Server.perform o { inp with elapsed := 0 } c.front.world).map _ = _
      rw [hperf]
      rfl
    have hmoved := hwp (c.view i) ⟨rfl, rfl, h.lawful⟩ _ _ _ trivial hview
    show Gated settings V r (View.mk w (c.view i).told
        (Function.update c.passed i (c.passed i || o.isHandler) i)) ∧
      gated sha256 settings V r _ _ (Function.update c.front.task i (k out) i)
        (View.mk w (c.view i).told (Function.update c.passed i (c.passed i || o.isHandler) i))
    rw [Function.update_self, Function.update_self]
    exact hmoved
  · intro j hji
    exact ⟨Function.update_of_ne hji _ _, rfl, Function.update_of_ne hji _ _⟩

/-- **The limiter returns.** -/
theorem GatedSystem.result {i : ι} (h : GatedSystem sha256 settings V new c)
    (hstep : step sha256 settings c (.result i) = some c') :
    GatedSystem sha256 settings V new c' := by
  have horderly := h.orderly.step hstep
  obtain ⟨redisUrl, bucketId, limit, k, rl, htask, hq, -, -, rfl⟩ := step_result h.orderly hstep
  refine h.moves horderly h.lawful rfl (i := i) ?_ ?_
  · intro r hi hr
    have hwp := h.task i r hi hr
    rw [htask] at hwp
    have hmoved := hwp (c.view i) ⟨rfl, rfl, h.lawful⟩ (({} : Input), rl) rl _ trivial rfl
    have hafter : view { c with
        front := c.front.assign i (k rl), told := Function.update c.told i (some rl) } i
          = { c.view i with told := some (⟨some redisUrl, bucketId, limit⟩, rl) } := by
      show View.mk _ ((Function.update c.told i (some rl) i).bind _) _ = _
      rw [Function.update_self, Option.bind_some, hq]
      rfl
    rw [hafter]
    refine ⟨hmoved.1, ?_⟩
    show gated sha256 settings V r _ _ ((c.front.assign i (k rl)).task i) _
    rw [Pool.assign_self]
    exact hmoved.2
  · intro j hji
    refine ⟨Pool.assign_other _ _ hji, ?_, rfl⟩
    show (Function.update c.told i (some rl) j).bind _ = _
    rw [Function.update_of_ne hji]
    rfl

/-- A step of the limiter. -/
theorem GatedSystem.limit {b : RateLimit.System.Action ι} (h : GatedSystem sha256 settings V new c)
    (horderly : Orderly c') (hstep : c.limit b = some c') :
    GatedSystem sha256 settings V new c' := by
  obtain ⟨limits, hlimits, rfl⟩ := Option.map_eq_some_iff.mp hstep
  exact h.outside horderly h.lawful rfl rfl rfl rfl fun i q hq =>
    (RateLimit.System.step_keeps hlimits hq).1

/-- **One step.** -/
theorem GatedSystem.step (h : GatedSystem sha256 settings V new c)
    (hedit : Edits sha256 settings V c a) (hstep : step sha256 settings c a = some c') : GatedSystem sha256 settings V new c' := by
  have horderly := h.orderly.step hstep
  cases a with
  | request i r => exact h.request hstep
  | answer i inp => exact h.answer hstep
  | result i => exact h.result hstep
  | call i =>
      simp only [Gate.step] at hstep
      split at hstep
      next => exact h.limit horderly hstep
      next => exact absurd hstep (by simp)
  | limiter i inp => exact h.limit horderly hstep
  | drop key => exact h.limit horderly hstep
  | tick n =>
      simp only [Gate.step, Option.map_eq_some_iff] at hstep
      obtain ⟨d, hd, rfl⟩ := hstep
      obtain ⟨limits, hlimits, rfl⟩ := Option.map_eq_some_iff.mp hd
      exact h.outside horderly h.lawful rfl rfl rfl rfl fun i q hq =>
        (RateLimit.System.step_keeps hlimits hq).1
  | edit apiKeys =>
      obtain rfl := Option.some.inj hstep
      exact h.outside horderly hedit rfl rfl rfl rfl fun _ _ hq => hq

omit [DecidableEq ι] in
/-- Every query, answered or not, was made for a bucket that the key opens. -/
theorem GatedSystem.query {i : ι} {r : Request} {q : RateLimit.Query}
    (h : GatedSystem sha256 settings V new c) (hi : new i) (hr : c.asked i = some r)
    (hq : c.limits.asked i = some q) :
    Permits settings V r q := by
  cases htold : c.told i with
  | some rl =>
      refine (h.gate i r hi hr).query q rl ?_
      show (c.told i).bind _ = _
      rw [htold, Option.bind_some, hq]
      rfl
  | none =>
      -- whatever the limiter will answer, it was asked so
      obtain ⟨redisUrl, bucketId, limit, k, htask, rfl⟩ := h.orderly.calls i q hq htold
      have hwp := h.task i r hi hr
      rw [htask] at hwp
      have hmoved := hwp (c.view i) ⟨rfl, rfl, h.lawful⟩ (({} : Input), ⟨true, 0, 0, 0⟩) _ _
        trivial rfl
      exact hmoved.1.query _ _ rfl

/-! ## §3. The limiter inside. -/

/-- **A step is one of the limiter, or nothing to it.** -/
theorem limits_step (h : step sha256 settings c a = some c') :
    c'.limits = c.limits ∨ ∃ b, c.limits.step b = some c'.limits ∧
      ∀ i inp, b = .answer i inp → a = .limiter i inp := by
  have hlimit : ∀ b d, c.limit b = some d → c.limits.step b = some d.limits := by
    intro b d hd
    obtain ⟨limits, hlimits, rfl⟩ := Option.map_eq_some_iff.mp hd
    exact hlimits
  cases a with
  | request i r =>
      obtain ⟨-, rfl⟩ := request_cases h
      exact Or.inl rfl
  | answer i inp =>
      obtain ⟨o, k, out, w, -, -, -, rfl⟩ := step_answer h
      exact Or.inl rfl
  | call i =>
      simp only [step] at h
      split at h
      -- the middleware calls `check_rate_limit`
      next => exact Or.inr ⟨_, hlimit _ _ h, fun _ _ hb => absurd hb (by simp)⟩
      next => exact absurd h (by simp)
  | limiter i inp =>
      refine Or.inr ⟨_, hlimit _ _ h, fun j inp' hb => ?_⟩
      obtain ⟨rfl, rfl⟩ := RateLimit.System.Action.answer.inj hb
      rfl
  | result i =>
      simp only [step] at h
      split at h
      next =>
        obtain rfl := Option.some.inj h
        exact Or.inl rfl
      next => exact absurd h (by simp)
  | tick n =>
      simp only [step, Option.map_eq_some_iff] at h
      obtain ⟨d, hd, rfl⟩ := h
      exact Or.inr ⟨.tick n, hlimit _ d hd, fun _ _ hb => absurd hb (by simp)⟩
  | drop key => exact Or.inr ⟨_, hlimit _ _ h, fun _ _ hb => absurd hb (by simp)⟩
  | edit apiKeys =>
      obtain rfl := Option.some.inj h
      exact Or.inl rfl

/-- Whoever is answered by the limiter was refused for a reason. -/
theorem candid_of_run {P : Gate ι → Action ι → Prop} {c₀ : Gate ι} (hstart : Start c₀)
    (hrun : Reaches (step sha256 settings) P c₀ c) : c.limits.Candid := by
  refine hrun.invariant (I := fun c => c.limits.Candid) ?_ ?_
  · intro d a d' hd _ hstep
    rcases limits_step hstep with hsame | ⟨b, hb, -⟩
    · rw [hsame]
      exact hd
    · exact hd.step hb
  · exact ⟨fun i _ => hstart.limits.idle i,
      fun i q hq => absurd ((hstart.limits.asked i).symm.trans hq) (by simp)⟩

theorem orderly_of_run {P : Gate ι → Action ι → Prop} {c₀ : Gate ι} (hstart : Start c₀)
    (hrun : Reaches (step sha256 settings) P c₀ c) : Orderly c :=
  hrun.invariant (fun _ _ _ hI _ hstep => hI.step hstep) (.init hstart)

/-! ## §4. Who gets through. -/

variable (settings) in
/-- Why request `i` was refused. -/
inductive Reason (c : Gate ι) (i : ι) (r : Request) : Response → Prop
  | missing : r.rawKey = "" → Reason c i r (detailResponse 401 "Missing X-API-Key header")
  | inactive : r.rawKey ≠ settings.apiKey →
      Reason c i r (detailResponse 401 "Invalid or inactive API key")
  | unavailable : r.rawKey ≠ settings.apiKey →
      Reason c i r (detailResponse 503 "Auth backend unavailable")
  | limited (q : RateLimit.Query) (rl : RateLimitResult) : c.limits.asked i = some q →
      c.told i = some rl → RateLimit.Over i q c.limits.limiter →
      Reason c i r (tooManyRequests rl)

omit [DecidableEq ι] in
/-- What request `i` sees of the limiter. -/
theorem view_told {i : ι} {q : RateLimit.Query} {rl : RateLimitResult}
    (h : (c.view i).told = some (q, rl)) : c.limits.asked i = some q ∧ c.told i = some rl := by
  obtain ⟨rl', hrl, hq⟩ := Option.bind_eq_some_iff.mp h
  obtain ⟨q', hq', hpair⟩ := Option.map_eq_some_iff.mp hq
  obtain ⟨rfl, rfl⟩ := Prod.mk.inj hpair
  exact ⟨hq', hrl⟩

/-- **Only valid keys pass.**  In every run, whatever fails: let from some state on the key
table open nothing but what `V` permits.  A request that comes in later is counted only in a
bucket that `V` permits its key, and passed on only if it is exempt or the limiter let it go; the
middleware raises nothing; and a request that was answered was passed on, or refused for a
reason: over the limit only if its count in the window is above it. -/
theorem only_valid_keys_pass {c₀ c₁ c : Gate ι} (hstart : Start c₀)
    (hbefore : Reaches (step sha256 settings) (fun _ _ => True) c₀ c₁)
    (hlawful : Lawful sha256 settings V c₁.table)
    (hrun : Reaches (step sha256 settings) (Edits sha256 settings V) c₁ c) {i : ι}
    {r : Request} (hnew : c₁.asked i = none) (hr : c.asked i = some r) :
    (∀ q, c.limits.asked i = some q → Permits settings V r q) ∧
      (c.passed i = true → r.Exempt ∨ ∃ q rl, c.limits.asked i = some q ∧
        c.told i = some rl ∧ rl.allowed = true) ∧
      (∀ e, c.task i ≠ .raise e) ∧
      ∀ response, c.task i = .pure response →
        c.passed i = true ∨ (¬ r.Exempt ∧ Reason settings c i r response) := by
  have hsound : GatedSystem sha256 settings V (fun j => c₁.asked j = none) c := by
    refine hrun.invariant (fun _ _ _ hI hedit hstep => hI.step hedit hstep) ?_
    refine ⟨orderly_of_run hstart hbefore, hlawful, ?_, ?_⟩
    · intro j r' hj hr'
      exact absurd (hj.symm.trans hr') (by simp)
    · intro j r' hj hr'
      exact absurd (hj.symm.trans hr') (by simp)
  -- from the start, before `c₁` as well: counts may be older
  have hcandid : c.limits.Candid :=
    candid_of_run hstart (hbefore.trans (hrun.mono fun _ _ _ => trivial))
  have hwp := hsound.task i r hnew hr
  refine ⟨fun q hq => hsound.query hnew hr hq, fun hpassed => ?_, fun e htask => ?_,
    fun response htask => ?_⟩
  · rcases (hsound.gate i r hnew hr).passed hpassed with hexempt | ⟨q, rl, htold, hallowed⟩
    · exact Or.inl hexempt
    · obtain ⟨hq, hrl⟩ := view_told htold
      exact Or.inr ⟨q, rl, hq, hrl, hallowed⟩
  · rw [htask] at hwp
    exact hwp
  · rw [htask] at hwp
    rcases hwp with hpassed | ⟨hwrite, hrefused⟩
    · exact Or.inl hpassed
    · refine Or.inr ⟨hwrite, ?_⟩
      cases hrefused with
      | missing hraw => exact .missing hraw
      | inactive hraw => exact .inactive hraw
      | unavailable hraw => exact .unavailable hraw
      | limited q rl htold hnot =>
          obtain ⟨hq, hrl⟩ := view_told htold
          -- the result that it was told is the one its task has returned
          have hresult := hcandid.task i q hq
          rw [(hsound.orderly.told i rl hrl).1] at hresult
          exact .limited q rl hq hrl (hresult hnot)

/-- Nothing was asked yet, at the epoch. -/
def initial (apiKeys : Table ApiKey.keyHash) : Gate ι where
  front := ⟨⟨apiKeys, 0, []⟩, fun _ => .pure (detailResponse 200 "")⟩
  limits := .initial 0
  asked := fun _ => none
  told := fun _ => none
  passed := fun _ => false

omit [DecidableEq ι] in
theorem start_initial (apiKeys : Table ApiKey.keyHash) : Start (initial apiKeys : Gate ι) :=
  ⟨RateLimit.System.start_initial (le_refl 0), fun _ => rfl, fun _ => rfl, fun _ => rfl,
    fun _ => rfl⟩

def Action.isEdit : Action ι → Bool
  | .edit _ => true
  | _ => false

omit [DecidableEq ι] in
theorem edits_of_no_edit (h : a.isEdit = false) : Edits sha256 settings V c a := by
  cases a with
  | edit _ => exact absurd h (by simp [Action.isEdit])
  | _ => trivial

def gateSettings : Settings := ⟨"admin-key", 1000, "redis://localhost"⟩

/-- The key table with one key. -/
def oneKey (isActive : Bool) : Table ApiKey.keyHash :=
  Table.empty.insertNew ⟨"3c1f", "pk_live", 120, isActive, none⟩

/-- The key is revoked. -/
def revoked : Gate Unit := (initial (oneKey true)).env ⟨oneKey false, 0, []⟩

/-- Its request is not counted. -/
theorem only_valid_keys_pass_revoked : ∃ c : Gate Unit,
    c.asked () = some (RuleWrite.createRule.request (some "pk_live")) ∧
    (c.task ()).returned = true ∧ c.limits.asked () = none := by
  have hbefore : Reaches (step id gateSettings) (fun _ _ => True) (initial (oneKey true))
      revoked := .step .refl (a := .edit (oneKey false)) trivial rfl
  have hlawful : Lawful id gateSettings (fun rawKey _ _ => rawKey = "admin-key")
      revoked.table := by
    intro rawKey bucketId limit hopen
    rcases hopen with ⟨hadmin, -, -⟩ | ⟨-, k, hk, -, hactive, -, -⟩
    · exact hadmin
    · rw [List.mem_singleton.mp hk] at hactive
      exact absurd hactive (by decide)
  have hend : (runs (fun c a => if a.isEdit = false then step id gateSettings c a else none)
      [.request () (RuleWrite.createRule.request (some "pk_live")), .answer () {}] revoked).any
      (fun c => decide (c.asked () = some (RuleWrite.createRule.request (some "pk_live"))) &&
        (c.task ()).returned) = true := by decide
  obtain ⟨c, hc, htest⟩ := Reaches.exists_of_runs hend
  rw [Bool.and_eq_true, decide_eq_true_iff] at htest
  have hedits : Reaches (step id gateSettings)
      (Edits id gateSettings fun rawKey _ _ => rawKey = "admin-key") revoked c :=
    hc.mono fun d a ha => edits_of_no_edit ha
  have hvalid := only_valid_keys_pass (start_initial _) hbefore hlawful hedits rfl htest.1
  refine ⟨c, htest.1, htest.2, ?_⟩
  cases hq : c.limits.asked () with
  | none => rfl
  | some q => exact absurd (hvalid.1 q hq).bucket (by decide)

/-! ## §5. How often. -/

/-- Redis answers, and an `INCR` is executed at most one second after its request read the
time. -/
def Answers (c : Gate ι) : Action ι → Prop
  | .limiter i inp => RateLimit.System.Prompt c.limits (.answer i inp)
  | _ => True

instance (c : Gate ι) : (a : Action ι) → Decidable (Answers c a)
  | .limiter i inp => inferInstanceAs (Decidable (RateLimit.System.Prompt c.limits (.answer i inp)))
  | .request _ _ | .answer _ _ | .call _ | .result _ | .tick _ | .drop _ | .edit _ =>
      inferInstanceAs (Decidable True)

variable (sha256 settings V) in
/-- Edits keep the table within `V`, and Redis answers. -/
def Prompt (c : Gate ι) (a : Action ι) : Prop := Edits sha256 settings V c a ∧ Answers c a

/-- Request `i` is a write that was passed on, and its key opens bucket `b` at most. -/
def Wrote (V : String → String → Int → Prop) (c : Gate ι) (b : String) (i : ι) : Prop :=
  c.passed i = true ∧ ∃ r, c.asked i = some r ∧ ¬ r.Exempt ∧
    ∀ bucketId limit, V r.rawKey bucketId limit → bucketId = b

/-- The limiter inside is asked by `redisUrl` alone and answers in time. -/
theorem prompt_limits {c₀ : Gate ι} (hstart : Start c₀) (hredis : settings.redisUrl ≠ "")
    (hlawful : Lawful sha256 settings V c₀.table)
    (hrun : Reaches (step sha256 settings) (Prompt sha256 settings V) c₀ c) :
    GatedSystem sha256 settings V (fun _ => True) c ∧ RateLimit.System.FairSystem c.limits := by
  refine hrun.invariant (I := fun c => GatedSystem sha256 settings V (fun _ => True) c ∧
    RateLimit.System.FairSystem c.limits) ?_ ⟨?_, .init hstart.limits⟩
  · intro d a d' hd hprompt hstep
    have hsound : GatedSystem sha256 settings V (fun _ => True) d' := hd.1.step hprompt.1 hstep
    refine ⟨hsound, ?_⟩
    rcases limits_step hstep with hsame | ⟨b, hb, hanswer⟩
    · rw [hsame]
      exact hd.2
    · refine hd.2.step ?_ hb
      cases b with
      | request i q =>
          -- whoever asks has a request, which asks by the setting
          have hq : d'.limits.asked i = some q := RateLimit.System.step_request hb
          cases hr : d'.asked i with
          | none => exact absurd ((hsound.orderly.fresh i hr).2.1.symm.trans hq) (by simp)
          | some r =>
              show isSet q.redisUrl = true
              rw [(hsound.query trivial hr hq).redis]
              simpa [isSet] using hredis
      | answer i inp =>
          rw [hanswer i inp rfl] at hprompt
          exact hprompt.2
      | tick n => trivial
      | drop key => trivial
  · refine ⟨.init hstart, hlawful, ?_, ?_⟩
    · intro j r _ hr
      exact absurd ((hstart.asked j).symm.trans hr) (by simp)
    · intro j r _ hr
      exact absurd ((hstart.asked j).symm.trans hr) (by simp)

omit [DecidableEq ι] in
/-- A write that was passed on was allowed by the limiter. -/
theorem Wrote.allowed {b : String} {i : ι} (h : Wrote V c b i)
    (hsound : GatedSystem sha256 settings V (fun _ => True) c) : c.limits.Allowed b i := by
  obtain ⟨hpassed, r, hr, hwrite, hbucket⟩ := h
  rcases (hsound.gate i r trivial hr).passed hpassed with hexempt | ⟨q, rl, htold, hallowed⟩
  · exact absurd hexempt hwrite
  · obtain ⟨hq, hrl⟩ := view_told htold
    have hb : q.bucketId = b := hbucket _ _ (hsound.query trivial hr hq).bucket
    exact ⟨rl, ⟨⟨q, hq, hb⟩, (hsound.orderly.told i rl hrl).1⟩, hallowed⟩

/-- **Writes are bounded.**  In every run in which Redis answers: if the table never gives the
bucket `b` another limit than `L`, then of the writes whose key opens no other bucket at most
`L` that read the same window are passed on, and at most `2 L` that read the clock within any
60 seconds; whatever the statements answer and however the key table is edited. -/
theorem writes_bounded {c₀ c : Gate ι} (hstart : Start c₀) (hredis : settings.redisUrl ≠ "")
    (hlawful : Lawful sha256 settings V c₀.table)
    (hrun : Reaches (step sha256 settings) (Prompt sha256 settings V) c₀ c) {b : String}
    {L : Int} (h0 : 0 ≤ L) (hL : ∀ rawKey limit, V rawKey b limit → limit = L) :
    (∀ (w : Int) (S : Finset ι), (∀ i ∈ S, Wrote V c b i ∧
        ∀ t ∈ c.limits.limiter.reading i, RateLimit.windowOf t = w) → (S.card : Int) ≤ L) ∧
      ∀ (t : Time) (S : Finset ι), (∀ i ∈ S, Wrote V c b i ∧
        ∀ r ∈ c.limits.limiter.reading i, t ≤ r ∧ r < t + minute) →
          (S.card : Int) ≤ 2 * L := by
  obtain ⟨hsound, hlimits⟩ := prompt_limits hstart hredis hlawful hrun
  have hlimit : ∀ i, ∀ q ∈ c.limits.asked i, q.bucketId = b → q.limitPerMinute = L := by
    intro i q hq hb
    cases hr : c.asked i with
    | none => exact absurd ((hsound.orderly.fresh i hr).2.1.symm.trans hq) (by simp)
    | some r =>
        have hbucket := (hsound.query trivial hr hq).bucket
        rw [hb] at hbucket
        exact hL _ _ hbucket
  refine ⟨fun w S hS => ?_, fun t S hS => ?_⟩
  · exact hlimits.window_bound hlimit h0 fun i hi => ⟨(hS i hi).1.allowed hsound, (hS i hi).2⟩
  · exact hlimits.minute_bound hlimit h0 fun i hi => ⟨(hS i hi).1.allowed hsound, (hS i hi).2⟩

/-- A write with the admin key. -/
def oneWrite : List (Action Unit) :=
  [.request () (RuleWrite.createRule.request (some "admin-key")), .call (), .limiter () {},
   .limiter () {}, .limiter () {}, .limiter () {}, .limiter () {}, .limiter () {},
   .result (), .answer () {}]

theorem writes_bounded_admin : ∃ c : Gate Unit,
    c.passed () = true ∧ ∀ S : Finset Unit, (∀ i ∈ S,
      Wrote (fun rawKey b L => rawKey = "admin-key" ∧ b = "admin" ∧ L = 1000) c "admin" i ∧
      ∀ t ∈ c.limits.limiter.reading i, RateLimit.windowOf t = 0) → (S.card : Int) ≤ 1000 := by
  have hlawful : Lawful id gateSettings
      (fun rawKey b L => rawKey = "admin-key" ∧ b = "admin" ∧ L = 1000)
      (initial Table.empty : Gate Unit).table := by
    intro rawKey bucketId limit hopen
    rcases hopen with hadmin | ⟨-, k, hk, -⟩
    · exact hadmin
    · exact absurd hk (by simp [initial, Table.empty])
  have hend : (runs (fun c a => if a.isEdit = false ∧ Answers c a
      then step id gateSettings c a else none) oneWrite (initial Table.empty)).any
      (fun c => c.passed ()) = true := by decide
  obtain ⟨c, hc, htest⟩ := Reaches.exists_of_runs hend
  have hrun : Reaches (step id gateSettings)
      (Prompt id gateSettings fun rawKey b L => rawKey = "admin-key" ∧ b = "admin" ∧ L = 1000)
      (initial Table.empty) c := hc.mono fun d a ha => ⟨edits_of_no_edit ha.1, ha.2⟩
  have hbound := writes_bounded (b := "admin") (start_initial _) (by decide) hlawful hrun
    (by decide) fun rawKey limit h => h.2.2
  exact ⟨c, htest, fun S hS => hbound.1 0 S hS⟩

end Gate

end Pulse.Api
