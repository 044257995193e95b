/-
  Pulse.Api.Expiry
  ────────────────
  **COUNTERS EXPIRE.**

  `INCR` and `EXPIRE` are two commands, so a counter may be left without a TTL.  It then has an
  owner: the request that was its first, which is about to send the `EXPIRE`, or was let go as
  if nothing had been counted because its `EXPIRE` failed.

    • `Dutiful`          — whoever is answered one sends `EXPIRE` next,
    • `CountersKept.step` — a counter has a TTL in time, or an owner,
    • `counters_expire`  — in every run; and once all requests have returned, a minute and a
                           second later only what failed is left in Redis.
-/
import Pulse.Api.Refusals

namespace Pulse.RateLimit

open Pulse.Async Pulse.Api

/-! ## §1. One request. -/

/-- After the answer to an `INCR`, whoever is the first sends `EXPIRE`, and is let go if that
fails; a TTL is 61 seconds at most. -/
def Follows (limitPerMinute : Int) : (o : Op) → (Resp o → Prog RateLimitResult) → Prop
  | .incr key, k => ∃ k', k (.ok 1) = .await (.expire key 61) k' ∧
      ∀ e, ∃ resetIn, k' (.error e) = .pure (failOpen limitPerMinute resetIn)
  | .expire _ ttl, _ => ttl ≤ 61
  | _, _ => True

/-- So it is for every operation of the task. -/
def Dutiful (limitPerMinute : Int) : Prog RateLimitResult → Prop
  | .pure _ | .raise _ => True
  | .await o k => Follows limitPerMinute o k ∧ ∀ r, Dutiful limitPerMinute (k r)

/-- The operation concerns no counter. -/
def Op.plain : Op → Prop
  | .incr _ | .expire _ _ => False
  | _ => True

theorem follows_of_plain {L : Int} {o : Op} {k : Resp o → Prog RateLimitResult}
    (ho : o.plain) : Follows L o k := by
  cases o with
  | incr _ | expire _ _ => exact ho.elim
  | cachedClient | connect _ | cacheClient | time => trivial

/-- A part that concerns no counter goes before. -/
theorem Dutiful.bind {α : Type} {L : Int} {ρ : α → Prop} {p : Prog α}
    {f : α → Prog RateLimitResult} (hp : p.Uses Op.plain ρ) (hf : ∀ a, ρ a → Dutiful L (f a)) :
    Dutiful L (p >>= f) := by
  induction p with
  | pure a => exact hf a hp
  | raise e => trivial
  | await o k ih => exact ⟨follows_of_plain hp.1, fun r => ih r (hp.2 r)⟩

theorem plain_getClient {redisUrl : Option String} :
    (getClient redisUrl).Uses Op.plain (fun _ => True) := by
  unfold getClient
  refine ⟨trivial, fun cached => ?_⟩
  show Coro.Uses _ _ (if cached = true then Coro.pure true else _)
  split
  next => trivial
  next =>
    show Coro.Uses _ _ (if (!isSet redisUrl) = true then Coro.pure false else _)
    split
    next => trivial
    next =>
      refine Coro.Uses.tryCatch ⟨trivial, fun r => ?_⟩ fun _ => trivial
      cases r with
      | error e => trivial
      | ok _ => exact ⟨trivial, fun _ => trivial⟩

/-- **`check_rate_limit`** is. -/
theorem dutiful_checkRateLimit (q : Query) :
    Dutiful q.limitPerMinute (checkRateLimit q.redisUrl q.bucketId q.limitPerMinute) := by
  unfold checkRateLimit
  refine Dutiful.bind plain_getClient fun client _ => ?_
  split
  next => trivial
  next =>
    refine ⟨trivial, fun t => ?_⟩
    refine ⟨⟨_, rfl, fun e => ⟨_, rfl⟩⟩, fun (n : Except PyErr Nat) => ?_⟩
    cases n with
    | error e => trivial
    | ok n =>
        by_cases hfirst : n = 1
        · subst hfirst
          refine ⟨le_refl 61, fun (done : Except PyErr Unit) => ?_⟩
          cases done <;> trivial
        · show Dutiful _ (tryCatch (if n = 1 then _ else _) _ >>= _)
          rw [if_neg hfirst]
          trivial

/-! ## §2. All counters. -/

namespace System

variable {ι : Type} [DecidableEq ι] {c c' : System ι} {a : Action ι}

/-- Request `i` was the first under `key`, and is about to send the `EXPIRE`. -/
def Sends (c : System ι) (i : ι) (key : String) : Prop :=
  c.limiter.counted i = some (key, 1) ∧ ∃ q k, c.asked i = some q ∧
    c.task i = .await (.expire key 61) k ∧
    ∀ e, ∃ resetIn, k (.error e) = .pure (failOpen q.limitPerMinute resetIn)

/-- Request `i` was the first under `key`, and was let go as if nothing had been counted. -/
def LetGo (c : System ι) (i : ι) (key : String) : Prop :=
  c.limiter.counted i = some (key, 1) ∧
    ∃ q resetIn, c.asked i = some q ∧ c.task i = .pure (failOpen q.limitPerMinute resetIn)

/-- A counter has a TTL that is over in 61 seconds, or no TTL and an owner. -/
def TtlOrOwner (c : System ι) (key : String) (e : Entry) : Prop :=
  (∃ t, e.expiresAt = some t ∧ t ≤ c.limiter.clock + seconds 61) ∨
    (e.expiresAt = none ∧ ∃ i, c.Sends i key ∨ c.LetGo i key)

/-- **The invariant.** -/
structure CountersKept (c : System ι) : Prop where
  idle : ∀ i, c.asked i = none → (c.task i).finished = true
  dutiful : ∀ i q, c.asked i = some q → Dutiful q.limitPerMinute (c.task i)
  accounted : ∀ key e, c.limiter.keys key = some e → c.TtlOrOwner key e

omit [DecidableEq ι] in
theorem CountersKept.init (h : Start c) : CountersKept c where
  idle := fun i _ => h.idle i
  dutiful := fun i q hq => absurd ((h.asked i).symm.trans hq) (by simp)
  accounted := fun key e he => absurd ((h.keys key).symm.trans he) (by simp)

omit [DecidableEq ι] in
/-- A counter stays accounted for while its owner does not move. -/
theorem TtlOrOwner.keep {key : String} {e : Entry} (h : c.TtlOrOwner key e)
    (hclock : c.limiter.clock ≤ c'.limiter.clock)
    (howner : ∀ i, c.Sends i key ∨ c.LetGo i key → c'.Sends i key ∨ c'.LetGo i key) :
    c'.TtlOrOwner key e := by
  rcases h with ⟨t, ht, hle⟩ | ⟨hnone, i, hi⟩
  · exact Or.inl ⟨t, ht, hle.trans (Int.add_le_add_right hclock _)⟩
  · exact Or.inr ⟨hnone, i, howner i hi⟩

omit [DecidableEq ι] in
/-- An owner has asked. -/
theorem owner_asked {i : ι} {key : String} (h : c.Sends i key ∨ c.LetGo i key) :
    ∃ q, c.asked i = some q := by
  rcases h with ⟨-, q, k, hq, -⟩ | ⟨-, q, resetIn, hq, -⟩
  · exact ⟨q, hq⟩
  · exact ⟨q, hq⟩

omit [DecidableEq ι] in
/-- An owner that does not move. -/
theorem owner_keeps {i : ι} {key : String} (h : c.Sends i key ∨ c.LetGo i key)
    (hcounted : c'.limiter.counted i = c.limiter.counted i) (hasked : c'.asked i = c.asked i)
    (htask : c'.task i = c.task i) : c'.Sends i key ∨ c'.LetGo i key := by
  unfold Sends LetGo
  rw [hcounted, hasked, htask]
  exact h

theorem CountersKept.request {i : ι} {q : Query} (h : CountersKept c)
    (hstep : System.step c (.request i q) = some c') : CountersKept c' := by
  have hidle := idle_step h.idle hstep
  obtain ⟨hnone, rfl⟩ := request_cases hstep
  refine ⟨hidle, ?_, ?_⟩
  · intro j q' hq'
    have hq' : Function.update c.asked i (some q) j = some q' := hq'
    show Dutiful _ ((c.pool.assign i _).task j)
    by_cases hji : j = i
    · subst hji
      rw [Function.update_self, Option.some.injEq] at hq'
      subst hq'
      rw [Pool.assign_self]
      exact dutiful_checkRateLimit q
    · rw [Function.update_of_ne hji] at hq'
      rw [Pool.assign_other _ _ hji]
      exact h.dutiful j q' hq'
  · intro key e he
    refine (h.accounted key e he).keep (le_refl _) fun j hj => ?_
    have hji : j ≠ i := by
      rintro rfl
      obtain ⟨q', hq'⟩ := owner_asked hj
      exact absurd (hnone.symm.trans hq') (by simp)
    exact owner_keeps hj rfl (Function.update_of_ne hji _ _) (Pool.assign_other _ _ hji)

/-- Request `i` goes on with an answer. -/
structure GoesOn (c c' : System ι) (i : ι) (o : Op) (k : Resp o → Prog RateLimitResult)
    (r : Resp o) : Prop where
  asked : c'.asked = c.asked
  before : c.task i = .await o k
  after : c'.task i = k r
  others : ∀ j, j ≠ i → c'.task j = c.task j

variable {i : ι} {o : Op} {k : Resp o → Prog RateLimitResult} {r : Resp o}

omit [DecidableEq ι] in
/-- It has asked. -/
theorem GoesOn.query (h : GoesOn c c' i o k r) (hkept : CountersKept c) : ∃ q, c.asked i = some q :=
  asked_of_awaits hkept.idle h.before

omit [DecidableEq ι] in
theorem GoesOn.idle (h : GoesOn c c' i o k r) (hkept : CountersKept c) (j : ι)
    (hj : c'.asked j = none) : (c'.task j).finished = true := by
  rw [h.asked] at hj
  obtain ⟨q, hq⟩ := h.query hkept
  have hji : j ≠ i := by
    rintro rfl
    exact absurd (hq.symm.trans hj) (by simp)
  rw [h.others j hji]
  exact hkept.idle j hj

omit [DecidableEq ι] in
theorem GoesOn.dutiful (h : GoesOn c c' i o k r) (hkept : CountersKept c) (j : ι)
    (q : Query) (hq : c'.asked j = some q) : Dutiful q.limitPerMinute (c'.task j) := by
  rw [h.asked] at hq
  by_cases hji : j = i
  · subst hji
    have hdutiful := hkept.dutiful j q hq
    rw [h.before] at hdutiful
    rw [h.after]
    exact hdutiful.2 r
  · rw [h.others j hji]
    exact hkept.dutiful j q hq

omit [DecidableEq ι] in
/-- The other owners stay. -/
theorem GoesOn.owner (h : GoesOn c c' i o k r) {j : ι} {key : String} (hji : j ≠ i)
    (hcounted : c'.limiter.counted j = c.limiter.counted j)
    (hj : c.Sends j key ∨ c.LetGo j key) : c'.Sends j key ∨ c'.LetGo j key :=
  owner_keeps hj hcounted (congrFun h.asked j) (h.others j hji)

omit [DecidableEq ι] in
/-- It was let go by nobody yet. -/
theorem GoesOn.not_letGo (h : GoesOn c c' i o k r) (key : String) : ¬ c.LetGo i key := by
  rintro ⟨-, _, _, -, hpure⟩
  rw [h.before] at hpure
  exact absurd hpure (by simp)

/-- Nothing was counted, and no time has passed. -/
structure SameCounters (s s' : Limiter ι) : Prop where
  keys : s'.keys = s.keys
  clock : s'.clock = s.clock
  counted : s'.counted = s.counted

omit [DecidableEq ι] in
theorem SameCounters.of_eq {s s' : Limiter ι} (h : s' = s) : SameCounters s s' :=
  ⟨congrArg Limiter.keys h, congrArg Limiter.clock h, congrArg Limiter.counted h⟩

theorem perform_plain {inp : Limiter.Input} {s s' : Limiter ι} (ho : o.plain)
    (h : Limiter.perform i o inp s = some (r, s')) : SameCounters s s' := by
  cases o with
  | incr _ | expire _ _ => exact ho.elim
  | cachedClient | cacheClient | time =>
      obtain ⟨-, rfl⟩ := Prod.mk.inj (Option.some.inj h)
      exact ⟨rfl, rfl, rfl⟩
  | connect url =>
      simp only [Limiter.perform, Option.some.injEq] at h
      split at h <;> exact (Prod.mk.inj h).2 ▸ ⟨rfl, rfl, rfl⟩

omit [DecidableEq ι] in
/-- An answer that changes no counter. -/
theorem CountersKept.aside (h : CountersKept c) (hgoes : GoesOn c c' i o k r)
    (hsame : SameCounters c.limiter c'.limiter)
    (hexpire : ∀ key, c.Sends i key → c'.LetGo i key) : CountersKept c' := by
  refine ⟨hgoes.idle h, hgoes.dutiful h, fun key e he => ?_⟩
  rw [hsame.keys] at he
  refine (h.accounted key e he).keep (le_of_eq hsame.clock.symm) fun j hj => ?_
  by_cases hji : j = i
  · subst hji
    rcases hj with hsends | hletGo
    · exact Or.inr (hexpire key hsends)
    · exact absurd hletGo (hgoes.not_letGo key)
  · exact hgoes.owner hji (congrFun hsame.counted j) hj

/-- **`INCR`**: the first under a key will send its `EXPIRE`. -/
theorem CountersKept.incr {key : String} {k : Resp (.incr key) → Prog RateLimitResult}
    (h : CountersKept c) (hgoes : GoesOn c c' i (.incr key) k (.ok (c.limiter.next key)))
    (hcount : c'.limiter = c.limiter.count i key) : CountersKept c' := by
  have hclock : c.limiter.clock ≤ c'.limiter.clock := by rw [hcount]; exact le_refl _
  have hothers : ∀ j, j ≠ i → ∀ key', c.Sends j key' ∨ c.LetGo j key' →
      c'.Sends j key' ∨ c'.LetGo j key' := by
    intro j hji key'
    refine hgoes.owner hji ?_
    rw [hcount]
    exact Function.update_of_ne hji _ _
  -- whoever awaits an `INCR` owns nothing
  have hnone : ∀ key', ¬ (c.Sends i key' ∨ c.LetGo i key') := by
    intro key' howner
    rcases howner with ⟨-, _, _, -, hawait, -⟩ | hletGo
    · rw [hgoes.before] at hawait
      exact absurd (Coro.await.inj hawait).1 (by simp)
    · exact hgoes.not_letGo key' hletGo
  have hkeep : ∀ key' e, c.TtlOrOwner key' e → c'.TtlOrOwner key' e := by
    intro key' e he
    refine he.keep hclock fun j hj => ?_
    by_cases hji : j = i
    · subst hji
      exact absurd hj (hnone key')
    · exact hothers j hji key' hj
  refine ⟨hgoes.idle h, hgoes.dutiful h, fun key' e he => ?_⟩
  rw [hcount] at he
  have he : Function.update c.limiter.keys key (some ⟨c.limiter.next key,
      (c.limiter.live key).bind Entry.expiresAt⟩) key' = some e := he
  by_cases hkey : key' = key
  · subst hkey
    rw [Function.update_self, Option.some.injEq] at he
    subst he
    cases hlive : c.limiter.live key' with
    | some e₀ =>
        -- one more; the TTL stays
        exact hkeep key' e₀ (h.accounted key' e₀ (Option.filter_eq_some_iff.mp hlive).1)
    | none =>
        have hone : c.limiter.next key' = 1 := by
          rw [Limiter.next, hlive]
          rfl
        obtain ⟨q, hq⟩ := hgoes.query h
        have hdutiful := h.dutiful i q hq
        rw [hgoes.before] at hdutiful
        obtain ⟨k', hk', hfail⟩ := hdutiful.1
        refine Or.inr ⟨rfl, i, Or.inl ⟨?_, q, k', ?_, ?_, hfail⟩⟩
        · rw [hcount, ← hone]
          exact Function.update_self i _ c.limiter.counted
        · rw [hgoes.asked]
          exact hq
        · rw [hgoes.after, hone]
          exact hk'
  · rw [Function.update_of_ne hkey] at he
    exact hkeep key' e (h.accounted key' e he)

omit [DecidableEq ι] in
/-- **`EXPIRE`**: the counter has a TTL, and needs no owner any more. -/
theorem CountersKept.expire {key : String} {ttl : Nat}
    {k : Resp (.expire key ttl) → Prog RateLimitResult}
    (h : CountersKept c) (hgoes : GoesOn c c' i (.expire key ttl) k (.ok ()))
    (htouch : c'.limiter = c.limiter.touch key ttl) : CountersKept c' := by
  obtain ⟨-, hcounted, hclock⟩ := touch_marks c.limiter key ttl
  rw [← htouch] at hcounted hclock
  have httl : ttl ≤ 61 := by
    obtain ⟨q, hq⟩ := hgoes.query h
    have hdutiful := h.dutiful i q hq
    rw [hgoes.before] at hdutiful
    exact hdutiful.1
  have hkeep : ∀ key' e, key' ≠ key ∨ e.expiresAt ≠ none → c.TtlOrOwner key' e →
      c'.TtlOrOwner key' e := by
    intro key' e hother he
    rcases he with ⟨t, ht, hle⟩ | ⟨hnone, j, hj⟩
    · exact Or.inl ⟨t, ht, by rw [hclock]; exact hle⟩
    · have hne : key' ≠ key := hother.resolve_right fun hsome => hsome hnone
      refine Or.inr ⟨hnone, j, hgoes.owner ?_ (congrFun hcounted j) hj⟩
      rintro rfl
      rcases hj with ⟨-, _, _, -, hawait, -⟩ | hletGo
      · rw [hgoes.before] at hawait
        exact hne (Op.expire.inj (Coro.await.inj hawait).1).1.symm
      · exact hgoes.not_letGo key' hletGo
  refine ⟨hgoes.idle h, hgoes.dutiful h, fun key' e he => ?_⟩
  rw [htouch] at he
  unfold Limiter.touch at he
  cases hlive : c.limiter.live key with
  | none =>
      -- what is there has a TTL that is over
      rw [hlive] at he
      refine hkeep key' e ?_ (h.accounted key' e he)
      by_cases hkey : key' = key
      · right
        intro hnone
        rw [hkey] at he
        have hlive' : c.limiter.live key = some e := by
          rw [Limiter.live, he, Option.filter_eq_some_iff]
          exact ⟨rfl, by simp [Limiter.overdue, hnone]⟩
        exact absurd (hlive.symm.trans hlive') (by simp)
      · exact Or.inl hkey
  | some e₀ =>
      rw [hlive] at he
      have he : Function.update c.limiter.keys key (some { e₀ with
          expiresAt := some (c.limiter.clock + seconds ttl) }) key' = some e := he
      by_cases hkey : key' = key
      · rw [hkey, Function.update_self, Option.some.injEq] at he
        subst he
        refine Or.inl ⟨_, rfl, ?_⟩
        rw [hclock]
        refine Int.add_le_add_left ?_ _
        show (ttl : Int) * second ≤ (61 : Int) * second
        exact Int.mul_le_mul_of_nonneg_right (by exact_mod_cast httl) (by decide)
      · rw [Function.update_of_ne hkey] at he
        exact hkeep key' e (Or.inl hkey) (h.accounted key' e he)

omit [DecidableEq ι] in
/-- Whoever is about to send `EXPIRE` awaits it. -/
theorem GoesOn.sends {key : String} (h : GoesOn c c' i o k r) (hsends : c.Sends i key) :
    o = .expire key 61 := by
  obtain ⟨-, _, _, -, hawait, -⟩ := hsends
  rw [h.before] at hawait
  exact (Coro.await.inj hawait).1

/-- **What is answered.** -/
theorem CountersKept.answer {inp : Limiter.Input} (h : CountersKept c)
    (hstep : System.step c (.answer i inp) = some c') : CountersKept c' := by
  obtain ⟨o, k, r, pool, rfl, ht, hperf, htask, hother⟩ := answer_cases hstep
  have hgoes : GoesOn c { c with pool := pool } i o k r := ⟨rfl, ht, htask, hother⟩
  cases o with
  | cachedClient | cacheClient | time | connect _ =>
      have hsame : SameCounters c.limiter pool.world := perform_plain (by trivial) hperf
      refine h.aside hgoes hsame fun key hsends => ?_
      exact absurd (hgoes.sends hsends) (by simp)
  | incr key =>
      simp only [Limiter.perform, Option.some.injEq] at hperf
      split at hperf
      next e _ =>
        obtain ⟨rfl, hworld⟩ := Prod.mk.inj hperf
        refine h.aside hgoes (.of_eq hworld.symm) fun key' hsends => ?_
        exact absurd (hgoes.sends hsends) (by simp)
      next =>
        obtain ⟨rfl, hworld⟩ := Prod.mk.inj hperf
        exact h.incr hgoes hworld.symm
  | expire key ttl =>
      simp only [Limiter.perform, Option.some.injEq] at hperf
      split at hperf
      next e _ =>
        -- it is let go
        obtain ⟨rfl, hworld⟩ := Prod.mk.inj hperf
        refine h.aside hgoes (.of_eq hworld.symm) fun key' hsends => ?_
        obtain ⟨hcounted, q, k', hq, hawait, hfail⟩ := hsends
        rw [hgoes.before] at hawait
        obtain ⟨ho, hk⟩ := Coro.await.inj hawait
        obtain ⟨rfl, rfl⟩ := Op.expire.inj ho
        obtain rfl := eq_of_heq hk
        obtain ⟨resetIn, hpure⟩ := hfail e
        refine ⟨?_, q, resetIn, hq, htask.trans hpure⟩
        show pool.world.counted i = some (key, 1)
        rw [← hworld]
        exact hcounted
      next =>
        obtain ⟨rfl, hworld⟩ := Prod.mk.inj hperf
        exact h.expire hgoes hworld.symm

/-- **One step.** -/
theorem CountersKept.step (h : CountersKept c) (hstep : System.step c a = some c') :
    CountersKept c' := by
  cases a with
  | request i q => exact h.request hstep
  | answer i inp => exact h.answer hstep
  | tick n =>
      obtain rfl := Option.some.inj hstep
      refine ⟨h.idle, h.dutiful, fun key e he => ?_⟩
      exact (h.accounted key e he).keep
        (Int.le_add_of_nonneg_right (Int.natCast_nonneg n)) fun i hi => hi
  | drop key =>
      obtain ⟨-, rfl⟩ := drop_cases hstep
      refine ⟨h.idle, h.dutiful, fun key' e he => ?_⟩
      exact (h.accounted key' e (kept_of_dropped he)).keep (le_refl _) fun i hi => hi

/-! ## §3. Whole runs. -/

def Action.isRequest : Action ι → Bool
  | .request _ _ => true
  | _ => false

/-- Nobody asks any more: keys are dropped, the rest is as it was. -/
structure Rests (c c' : System ι) : Prop where
  asked : c'.asked = c.asked
  task : c'.pool.task = c.pool.task
  counted : c'.limiter.counted = c.limiter.counted
  keys : ∀ key e, c'.limiter.keys key = some e → c.limiter.keys key = some e

/-- One step after all requests have returned. -/
theorem Rests.step {c₀ : System ι} (h : Rests c₀ c) (hdone : ∀ i, (c₀.task i).finished = true)
    (ha : a.isRequest = false) (hstep : System.step c a = some c') : Rests c₀ c' := by
  cases a with
  | request i q => exact absurd ha (by simp [Action.isRequest])
  | answer i inp =>
      -- nobody awaits an answer
      obtain ⟨o, k, r, pool, -, ht, -⟩ := answer_cases hstep
      have hfinished : (c.task i).finished = true := by
        rw [System.task, h.task]
        exact hdone i
      rw [ht] at hfinished
      exact absurd hfinished (by simp [Coro.finished])
  | tick n =>
      obtain rfl := Option.some.inj hstep
      exact ⟨h.asked, h.task, h.counted, h.keys⟩
  | drop key =>
      obtain ⟨-, rfl⟩ := drop_cases hstep
      exact ⟨h.asked, h.task, h.counted, fun key' e he => h.keys key' e (kept_of_dropped he)⟩

omit [DecidableEq ι] in
/-- What is found after 61 seconds was left by a request that was let go. -/
theorem Rests.letGo (h : Rests c c') (hkept : CountersKept c)
    (hdone : ∀ i, (c.task i).finished = true)
    (hclock : c.limiter.clock + seconds 61 ≤ c'.limiter.clock) {key : String} {e : Entry}
    (he : c'.limiter.live key = some e) : ∃ i, c'.LetGo i key := by
  obtain ⟨hkey, hlive⟩ := Option.filter_eq_some_iff.mp he
  rcases hkept.accounted key e (h.keys key e hkey) with ⟨t, ht, hle⟩ | ⟨-, i, hsends | hletGo⟩
  · -- its TTL is over
    have hover : c'.limiter.overdue e = true := by
      simp only [Limiter.overdue, ht, Option.any_some, decide_eq_true_eq]
      exact hle.trans hclock
    rw [hover] at hlive
    exact absurd hlive (by simp)
  · obtain ⟨-, _, _, -, hawait, -⟩ := hsends
    have hfinished := hdone i
    rw [hawait] at hfinished
    exact absurd hfinished (by simp [Coro.finished])
  · refine ⟨i, ?_⟩
    unfold LetGo
    rw [h.counted, h.asked, System.task, h.task]
    exact hletGo

theorem CountersKept.run {c₀ : System ι} (h₀ : Start c₀)
    (hrun : Reaches System.step (fun _ _ => True) c₀ c) : CountersKept c :=
  hrun.invariant (fun _ _ _ h _ hstep => h.step hstep) (.init h₀)

/-- **Counters expire.**  Whatever fails: every counter in Redis has a TTL that is over within
61 seconds, or its first request is about to set one or was let go as if nothing had been
counted.  Once all requests have returned and none comes in, what is found 61 seconds later was
left by such a request. -/
theorem counters_expire {c₀ : System ι} (h₀ : Start c₀)
    (hrun : Reaches System.step (fun _ _ => True) c₀ c) :
    (∀ key e, c.limiter.keys key = some e → c.TtlOrOwner key e) ∧
      ∀ c', (∀ i, (c.task i).finished = true) →
        Reaches System.step (fun _ a => a.isRequest = false) c c' →
        c.limiter.clock + seconds 61 ≤ c'.limiter.clock →
        ∀ key, c'.limiter.live key = none ∨ ∃ i, c'.LetGo i key := by
  have hkept : CountersKept c := .run h₀ hrun
  refine ⟨hkept.accounted, fun c' hdone hrest hclock key => ?_⟩
  have hrests : Rests c c' :=
    hrest.invariant (fun _ _ _ h ha hstep => h.step hdone ha hstep)
      ⟨rfl, rfl, rfl, fun _ _ he => he⟩
  cases hlive : c'.limiter.live key with
  | none => exact Or.inl rfl
  | some e => exact Or.inr (hrests.letGo hkept hdone hclock hlive)

/-- Two first requests of a bucket; the `EXPIRE` of one fails, and a minute and a second pass. -/
def leaking : List (Action Bool) :=
  [.request false ⟨some "redis://localhost", "admin", 1⟩,
   .answer false {}, .answer false {}, .answer false {}, .answer false {}, .answer false {},
   .answer false { fault := some ⟨.other, "Connection reset by peer"⟩ },
   .request true ⟨some "redis://localhost", "7", 1⟩,
   .answer true {}, .answer true {}, .answer true {}, .answer true {}]

theorem counters_expire_leaking : ∃ c : System Bool,
    (c.limiter.live (keyOf "7" 0)).isNone = true ∧ ∃ i, c.LetGo i (keyOf "admin" 0) := by
  have hrun : (runs (fun c act => if True then step c act else none) leaking
      (initial 0)).any (fun c => (c.task false).finished && (c.task true).finished &&
        decide (c.limiter.clock = 0) &&
        (runs (fun c act => if act.isRequest = false then step c act else none)
          [.tick 61000000] c).any fun c' => decide (seconds 61 ≤ c'.limiter.clock) &&
            (c'.limiter.live (keyOf "7" 0)).isNone &&
            (c'.limiter.live (keyOf "admin" 0)).isSome) = true := by decide
  obtain ⟨c, hc, htest⟩ := Reaches.exists_of_runs hrun
  simp only [Bool.and_eq_true, decide_eq_true_eq] at htest
  obtain ⟨⟨⟨hfalse, htrue⟩, hclock⟩, hrest⟩ := htest
  obtain ⟨c', hc', htest'⟩ := Reaches.exists_of_runs hrest
  simp only [Bool.and_eq_true, decide_eq_true_eq] at htest'
  obtain ⟨⟨hlate, hgone⟩, hleft⟩ := htest'
  have hdone : ∀ i, (c.task i).finished = true := by
    intro i
    cases i with
    | false => exact hfalse
    | true => exact htrue
  have hafter : c.limiter.clock + seconds 61 ≤ c'.limiter.clock := by
    rw [hclock, zero_add]
    exact hlate
  refine ⟨c', hgone, ?_⟩
  have hexpire := (counters_expire (start_initial (le_refl 0)) hc).2 c' hdone hc' hafter
    (keyOf "admin" 0)
  rcases hexpire with hnone | hletGo
  · rw [hnone] at hleft
    exact absurd hleft (by simp)
  · exact hletGo

end System

end Pulse.RateLimit
