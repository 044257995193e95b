/-
  Pulse.Api.Refusals
  ──────────────────
  **WHEN THE LIMITER REFUSES.**

  Redis may be missing or fail at any command, and other requests come between any two.  What
  is refused was counted, and its count is above the limit; and nothing is raised.

    • `candid_checkRateLimit` — one request,
    • `System.Candid.step`    — all requests,
    • `System.step_keeps`     — what was asked and answered stays.
-/
import Pulse.Api.Window

namespace Pulse.RateLimit

open Pulse.Async Pulse.Api

variable {ι : Type} [DecidableEq ι] {i : ι} {b : String} {s : Limiter ι}

/-! ## §1. One request. -/

/-- The marks of the other requests stay. -/
def Leaves (i : ι) (s s' : Limiter ι) : Prop :=
  s'.clock = s.clock ∧ ∀ j, j ≠ i → s'.reading j = s.reading j ∧ s'.counted j = s.counted j

/-- `p` as request `i` among others, whatever fails; it raises nothing. -/
abbrev candid {α : Type} (i : ι) (Q : α → Limiter ι → Prop) (p : Prog α)
    (s : Limiter ι) : Prop :=
  Coro.wp (Limiter.perform i) (fun _ _ _ => True) (OthersMove i) (Leaves i) Q (fun _ _ => False) p s

/-- The count of request `i` in the window that it read is above the limit. -/
def Over (i : ι) (q : Query) (s : Limiter ι) : Prop :=
  ∃ t n, s.reading i = some t ∧ s.counted i = some (keyOf q.bucketId (windowOf t), n) ∧
    q.limitPerMinute < n

omit [DecidableEq ι] in
theorem leaves_refl (i : ι) (s : Limiter ι) : Leaves i s s := ⟨rfl, fun _ _ => ⟨rfl, rfl⟩⟩

theorem candid_getClient {redisUrl : Option String} :
    candid i (fun _ _ => True) (getClient redisUrl) s := by
  unfold getClient
  intro s₁ _ inp r s₂ _ hperf
  obtain ⟨rfl, rfl⟩ := Prod.mk.inj (Option.some.inj hperf)
  refine ⟨leaves_refl i s₁, ?_⟩
  show candid i _ (if s₁.cached = true then Coro.pure true else _) s₁
  split
  next => trivial
  next =>
    show candid i _ (if (!isSet redisUrl) = true then Coro.pure false else _) s₁
    split
    next => trivial
    next =>
      intro s₃ _ inp' r' s₄ _ hperf
      cases hfault : inp'.fault with
      | some e =>
          simp only [Limiter.perform, hfault, Option.some.injEq, Prod.mk.injEq] at hperf
          obtain ⟨rfl, rfl⟩ := hperf
          exact ⟨leaves_refl i s₃, trivial⟩
      | none =>
          simp only [Limiter.perform, hfault, Option.some.injEq, Prod.mk.injEq] at hperf
          obtain ⟨rfl, rfl⟩ := hperf
          refine ⟨leaves_refl i s₃, ?_⟩
          intro s₅ _ inp'' r'' s₆ _ hperf
          obtain ⟨-, rfl⟩ := Prod.mk.inj (Option.some.inj hperf)
          exact ⟨⟨rfl, fun _ _ => ⟨rfl, rfl⟩⟩, trivial⟩

omit [DecidableEq ι] in
theorem touch_marks (s : Limiter ι) (key : String) (ttl : Nat) :
    (s.touch key ttl).reading = s.reading ∧ (s.touch key ttl).counted = s.counted ∧
      (s.touch key ttl).clock = s.clock := by
  unfold Limiter.touch
  split <;> exact ⟨rfl, rfl, rfl⟩

/-- **The two commands**: a count that is returned is that of the request. -/
theorem candid_countRequest {t : Time} (h : s.reading i = some t) :
    candid i (fun out s' => ∀ n, out = some n → s'.reading i = some t ∧
        s'.counted i = some (keyOf b (windowOf t), n))
      (countRequest (keyOf b (windowOf t))) s := by
  unfold countRequest
  refine Coro.wp_tryCatch ?_
  intro s₁ ha inp r s₂ _ hperf
  have hreading : s₁.reading i = some t := ha.reading.trans h
  cases hfault : inp.fault with
  | some e =>
      simp only [Limiter.perform, hfault, Option.some.injEq, Prod.mk.injEq] at hperf
      obtain ⟨rfl, rfl⟩ := hperf
      exact ⟨leaves_refl i s₁, fun _ hout => absurd hout (by simp)⟩
  | none =>
      simp only [Limiter.perform, hfault, Option.some.injEq, Prod.mk.injEq] at hperf
      obtain ⟨rfl, rfl⟩ := hperf
      refine ⟨⟨rfl, fun j hj => ⟨rfl, Function.update_of_ne hj _ _⟩⟩, ?_⟩
      have hcounted : (s₁.count i (keyOf b (windowOf t))).counted i
          = some (keyOf b (windowOf t), s₁.next (keyOf b (windowOf t))) :=
        Function.update_self i _ s₁.counted
      generalize s₁.next (keyOf b (windowOf t)) = n at hcounted
      -- the count is noted; `EXPIRE` is sent by the first alone
      show Coro.wp _ _ _ _ _ _ (if n = 1
        then expire (keyOf b (windowOf t)) 61 >>= fun _ => pure (some n)
        else pure (some n)) (s₁.count i (keyOf b (windowOf t)))
      split
      next =>
        intro s₃ ha₃ inp₃ r₃ s₄ _ hperf₃
        cases hfault₃ : inp₃.fault with
        | some e =>
            -- without a TTL the request is let go: `None` is returned
            simp only [Limiter.perform, hfault₃, Option.some.injEq, Prod.mk.injEq] at hperf₃
            obtain ⟨rfl, rfl⟩ := hperf₃
            exact ⟨leaves_refl i s₃, fun _ hout => absurd hout (by simp)⟩
        | none =>
            simp only [Limiter.perform, hfault₃, Option.some.injEq, Prod.mk.injEq] at hperf₃
            obtain ⟨rfl, rfl⟩ := hperf₃
            obtain ⟨hr, hc, hclock⟩ := touch_marks s₃ (keyOf b (windowOf t)) 61
            refine ⟨⟨hclock, fun j _ => ⟨congrFun hr j, congrFun hc j⟩⟩, fun m hm => ?_⟩
            obtain rfl := Option.some.inj hm
            exact ⟨(congrFun hr i).trans (ha₃.reading.trans hreading),
              (congrFun hc i).trans (ha₃.counted.trans hcounted)⟩
      next =>
        intro m hm
        obtain rfl := Option.some.inj hm
        exact ⟨hreading, hcounted⟩

/-- **A request is refused only if its count is above the limit**, whatever fails. -/
theorem candid_checkRateLimit (q : Query) :
    candid i (fun result s' => result.allowed = false → Over i q s')
      (checkRateLimit q.redisUrl q.bucketId q.limitPerMinute) s := by
  unfold checkRateLimit
  refine Coro.wp_bind (Coro.wp_mono (fun client s₁ _ => ?_) (fun _ _ he => he)
    candid_getClient)
  show candid i _ (if (!client) = true then _ else _) s₁
  split
  next => exact fun hrefused => absurd hrefused (by simp [failOpen])
  next =>
    intro s₂ _ inp t s₃ _ hperf
    obtain ⟨rfl, rfl⟩ := Prod.mk.inj (Option.some.inj hperf)
    refine ⟨⟨rfl, fun j hj => ⟨Function.update_of_ne hj _ _, rfl⟩⟩, ?_⟩
    have hread : (s₂.read i).reading i = some s₂.clock := by
      show Function.update s₂.reading i (some s₂.clock) i = some s₂.clock
      rw [Function.update_self]
    show candid i _ (countRequest (keyOf q.bucketId (windowOf s₂.clock)) >>= _) (s₂.read i)
    refine Coro.wp_bind (Coro.wp_mono (fun out s₄ hout => ?_) (fun _ _ he => he)
      (candid_countRequest hread))
    cases out with
    | none => exact fun hrefused => absurd hrefused (by simp [failOpen])
    | some n =>
        obtain ⟨hreading, hcounted⟩ := hout n rfl
        intro hrefused
        refine ⟨s₂.clock, n, hreading, hcounted, ?_⟩
        simpa [verdict] using hrefused

/-! ## §2. All requests. -/

namespace System

variable {c c' : System ι} {a : Action ι}

/-- A query stays, and its result. -/
theorem step_keeps (h : step c a = some c') {i : ι} {q : Query} (hq : c.asked i = some q) :
    c'.asked i = some q ∧ ∀ rl, c.task i = .pure rl → c'.task i = .pure rl := by
  cases a with
  | request j q' =>
      obtain ⟨hnone, rfl⟩ := request_cases h
      have hij : i ≠ j := by
        rintro rfl
        rw [hq] at hnone
        exact absurd hnone (by simp)
      refine ⟨(Function.update_of_ne hij _ _).trans hq, fun rl hrl => ?_⟩
      exact (Pool.assign_other _ _ hij).trans hrl
  | answer j inp =>
      obtain ⟨o, k, r, pool, rfl, ht, -, -, hother⟩ := answer_cases h
      refine ⟨hq, fun rl hrl => ?_⟩
      by_cases hij : i = j
      · -- whoever has a result awaits nothing
        subst hij
        rw [ht] at hrl
        exact absurd hrl (by simp)
      · exact (hother i hij).trans hrl
  | tick n =>
      obtain rfl := Option.some.inj h
      exact ⟨hq, fun _ hrl => hrl⟩
  | drop key =>
      obtain ⟨-, rfl⟩ := drop_cases h
      exact ⟨hq, fun _ hrl => hrl⟩

theorem step_request {q : Query} (h : step c (.request i q) = some c') :
    c'.asked i = some q := by
  obtain ⟨-, rfl⟩ := request_cases h
  exact Function.update_self i (some q) c.asked

/-- Only a request asks. -/
theorem step_asked (h : step c a = some c') {i : ι} {q : Query} (hq : c'.asked i = some q) :
    c.asked i = some q ∨ (c.asked i = none ∧ a = .request i q) := by
  cases a with
  | request j q' =>
      obtain ⟨hnone, rfl⟩ := request_cases h
      have hq : Function.update c.asked j (some q') i = some q := hq
      by_cases hij : i = j
      · subst hij
        rw [Function.update_self, Option.some.injEq] at hq
        subst hq
        exact Or.inr ⟨hnone, rfl⟩
      · rw [Function.update_of_ne hij] at hq
        exact Or.inl hq
  | answer j inp =>
      obtain ⟨_, _, _, pool, rfl, -⟩ := answer_cases h
      exact Or.inl hq
  | tick n =>
      obtain rfl := Option.some.inj h
      exact Or.inl hq
  | drop key =>
      obtain ⟨-, rfl⟩ := drop_cases h
      exact Or.inl hq

/-- Every request is refused for a reason only. -/
structure Candid (c : System ι) : Prop where
  idle : ∀ i, c.asked i = none → (c.task i).finished = true
  task : ∀ i q, c.asked i = some q →
    candid i (fun result s => result.allowed = false → Over i q s) (c.task i) c.limiter

omit [DecidableEq ι] in
theorem Over.apart {q : Query} {s' : Limiter ι} (h : Over i q s) (ha : OthersMove i s s') :
    Over i q s' := by
  obtain ⟨t, n, hreading, hcounted, hover⟩ := h
  exact ⟨t, n, ha.reading.trans hreading, ha.counted.trans hcounted, hover⟩

theorem Candid.keep {q : Query} {p : Prog RateLimitResult} {s' : Limiter ι}
    (h : candid i (fun result s => result.allowed = false → Over i q s) p s)
    (ha : OthersMove i s s') :
    candid i (fun result s => result.allowed = false → Over i q s) p s' :=
  Coro.wp_rely (fun _ _ _ h h' => h.trans h') (fun _ _ _ ha h hr => Over.apart (h hr) ha)
    (fun _ _ _ _ he => he) ha h

/-- **One step.** -/
theorem Candid.step (h : Candid c) (hstep : System.step c a = some c') : Candid c' := by
  refine ⟨idle_step h.idle hstep, ?_⟩
  cases a with
  | request i q =>
      obtain ⟨-, rfl⟩ := request_cases hstep
      intro j q' hq'
      have hq' : Function.update c.asked i (some q) j = some q' := hq'
      by_cases hji : j = i
      · subst hji
        rw [Function.update_self, Option.some.injEq] at hq'
        subst hq'
        show candid j _ ((c.pool.assign j _).task j) c.limiter
        rw [Pool.assign_self]
        -- a call of `check_rate_limit` begins
        exact candid_checkRateLimit q
      · rw [Function.update_of_ne hji] at hq'
        show candid j _ ((c.pool.assign i _).task j) c.limiter
        rw [Pool.assign_other _ _ hji]
        exact h.task j q' hq'
  | answer i inp =>
      obtain ⟨o, k, r, pool, rfl, ht, hperf, htask, hother⟩ := answer_cases hstep
      obtain ⟨q, hq⟩ := asked_of_awaits h.idle ht
      have hwp := h.task i q hq
      rw [ht] at hwp
      obtain ⟨hleaves, hk⟩ := hwp c.limiter (.refl i _) inp r pool.world trivial hperf
      intro j q' hq'
      by_cases hji : j = i
      · subst hji
        obtain rfl := Option.some.inj (hq.symm.trans hq')
        show candid j _ (pool.task j) pool.world
        rw [htask]
        exact hk
      · show candid j _ (pool.task j) pool.world
        rw [hother j hji]
        -- what the others read and counted is left alone
        obtain ⟨hreading, hcounted⟩ := hleaves.2 j hji
        exact Candid.keep (h.task j q' hq') ⟨hreading, hcounted, le_of_eq hleaves.1.symm⟩
  | tick n =>
      obtain rfl := Option.some.inj hstep
      intro j q hq
      have hclock : c.limiter.clock ≤ c.limiter.clock + n :=
        Int.le_add_of_nonneg_right (Int.natCast_nonneg n)
      exact Candid.keep (h.task j q hq) ⟨rfl, rfl, hclock⟩
  | drop key =>
      obtain ⟨-, rfl⟩ := drop_cases hstep
      exact fun j q hq => Candid.keep (h.task j q hq) ⟨rfl, rfl, le_refl _⟩

end System

end Pulse.RateLimit
