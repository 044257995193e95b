/-
  Pulse.Api.Window
  ────────────────
  **AT MOST `L` REQUESTS IN A MINUTE, AND `2 L` ACROSS TWO.**

  The counter and its TTL are set by two commands, and any request may come
  between them.  What saves the bound is that the TTL outlives the window: it is
  set no earlier than the window begins and lasts 61 seconds, while the last
  `INCR` of the window comes before its 61st second.

    • `Fair`             — what the limiter keeps: answers of one key are distinct,
                           and no key of a window expires before its deadline,
    • `counting_checkRateLimit` — a request makes one counted step,
    • `rate_limit_bound` — the bounds, in every reachable state.
-/
import Std.Data.String.ToInt
import Mathlib.Data.Finset.Card
import Mathlib.Order.Interval.Finset.Nat
import Pulse.Api.RateLimit

namespace Pulse.RateLimit

open Pulse.Async Pulse.Api

/-! ## §1. Keys and windows. -/

theorem isDigit_of_mem_repr {n : Nat} {c : Char} (h : c ∈ n.repr.toList) : c.isDigit := by
  rw [Nat.toList_repr] at h
  exact Nat.isDigit_of_mem_toDigits (by decide) (by decide) h

/-- A window is written without a colon. -/
theorem colon_notMem_repr (w : Int) : ':' ∉ w.repr.toList := by
  intro h
  cases w with
  | ofNat n => exact absurd (isDigit_of_mem_repr h) (by decide)
  | negSucc n =>
      have h : ':' ∈ ("-" ++ (n + 1).repr).toList := h
      rw [String.toList_append, List.mem_append] at h
      rcases h with h | h
      · exact absurd h (by decide)
      · exact absurd (isDigit_of_mem_repr h) (by decide)

/-- What stands behind the last of a separator. -/
theorem suffix_of_append {α : Type} {x : α} {xs xs' ys ys' : List α} (hy : x ∉ ys)
    (hy' : x ∉ ys') (h : xs ++ x :: ys = xs' ++ x :: ys') : ys = ys' := by
  rw [List.append_eq_append_iff] at h
  obtain ⟨zs, -, hz⟩ | ⟨zs, -, hz⟩ := h
  · cases zs with
    | nil => exact (List.cons.inj hz).2
    | cons z zs =>
        -- the separator would stand in `ys`
        have hmem : x ∈ ys := by
          rw [(List.cons.inj hz).2]
          simp
        exact absurd hmem hy
  · cases zs with
    | nil => exact (List.cons.inj hz).2.symm
    | cons z zs =>
        have hmem : x ∈ ys' := by
          rw [(List.cons.inj hz).2]
          simp
        exact absurd hmem hy'

/-- **A key tells its window.** -/
theorem window_of_keyOf {b b' : String} {w w' : Int} (h : keyOf b w = keyOf b' w') :
    w = w' := by
  have hlists : ("rl:" ++ b).toList ++ ':' :: w.repr.toList
      = ("rl:" ++ b').toList ++ ':' :: w'.repr.toList := by
    have hlist : ("rl:" ++ b ++ ":" ++ w.repr).toList
        = ("rl:" ++ b' ++ ":" ++ w'.repr).toList := congrArg String.toList h
    simpa [String.toList_append] using hlist
  have hrepr := suffix_of_append (colon_notMem_repr w) (colon_notMem_repr w') hlists
  exact Int.repr_injective (String.toList_inj.mp hrepr)

/-- No `INCR` of window `w` is executed from here on. -/
def deadline (w : Int) : Int := seconds (60 * w + 61)

theorem windowOf_of_nonneg {t : Int} (h : 0 ≤ t) : windowOf t = t / 1000000 / 60 := by
  rw [windowOf, secondsOf, second, Int.tdiv_eq_ediv_of_nonneg h]

theorem windowOf_le {t : Int} (h : 0 ≤ t) : seconds (60 * windowOf t) ≤ t := by
  rw [windowOf_of_nonneg h]
  unfold seconds second
  omega

theorem lt_windowOf {t : Int} (h : 0 ≤ t) : t + second < deadline (windowOf t) := by
  rw [windowOf_of_nonneg h]
  unfold deadline seconds second
  omega

/-- A TTL of 61 seconds set in a window outlives its deadline. -/
theorem deadline_le {w t : Int} (h : seconds (60 * w) ≤ t) :
    deadline w ≤ t + seconds 61 := by
  unfold deadline
  unfold seconds second at *
  omega

/-- A minute touches two windows. -/
theorem windowOf_in_minute {t r : Int} (hr : 0 ≤ r) (h : t ≤ r) (h' : r < t + minute) :
    windowOf r = t / minute ∨ windowOf r = t / minute + 1 := by
  rw [windowOf_of_nonneg hr]
  unfold minute second at *
  omega

/-! ## §2. What the limiter keeps. -/

section Fair

variable {ι : Type}

/-- Answers of one key are distinct, the counter of a window is there until its
deadline, and no key of a window expires before. -/
structure Fair (s : Limiter ι) : Prop where
  epoch : 0 ≤ s.clock
  past : ∀ i t, s.reading i = some t → 0 ≤ t ∧ t ≤ s.clock
  positive : ∀ i key n, s.counted i = some (key, n) → 1 ≤ n
  distinct : ∀ i j key n, s.counted i = some (key, n) → s.counted j = some (key, n) → i = j
  held : ∀ i b w n, s.counted i = some (keyOf b w, n) → s.clock < deadline w →
    ∃ e, s.keys (keyOf b w) = some e ∧ n ≤ e.count
  lasting : ∀ b w e t, s.keys (keyOf b w) = some e → e.expiresAt = some t → deadline w ≤ t

/-- Before its deadline the key of a window has not expired. -/
theorem Fair.live {s : Limiter ι} (h : Fair s) {b : String} {w : Int}
    (hw : s.clock < deadline w) : s.live (keyOf b w) = s.keys (keyOf b w) := by
  unfold Limiter.live
  cases he : s.keys (keyOf b w) with
  | none => rfl
  | some e =>
      have hfresh : s.overdue e = false := by
        unfold Limiter.overdue
        cases ht : e.expiresAt with
        | none => rfl
        | some t =>
            have hlast := h.lasting b w e t he ht
            have hlt : ¬ t ≤ s.clock := not_le.mpr (lt_of_lt_of_le hw hlast)
            simp [hlt]
      simp [hfresh]

variable [DecidableEq ι]

/-- A request reads the clock. -/
theorem Fair.read {s : Limiter ι} (h : Fair s) (i : ι) : Fair (s.read i) := by
  refine ⟨h.epoch, fun j t hj => ?_, h.positive, h.distinct, h.held, h.lasting⟩
  have hj : Function.update s.reading i (some s.clock) j = some t := hj
  by_cases hji : j = i
  · subst hji
    rw [Function.update_self, Option.some.injEq] at hj
    subst hj
    exact ⟨h.epoch, le_refl _⟩
  · rw [Function.update_of_ne hji] at hj
    exact h.past j t hj

/-- **A request increments the key of its window in time**: it is answered by a number
that nobody else was answered for that key. -/
theorem Fair.count {s : Limiter ι} (h : Fair s) {i : ι} {b : String} {w : Int}
    (hfirst : s.counted i = none) (hw : s.clock < deadline w) :
    Fair (s.count i (keyOf b w)) := by
  have hlive := h.live (b := b) hw
  -- what was answered before is below the new count
  have hbelow : ∀ j n, s.counted j = some (keyOf b w, n) → n < s.next (keyOf b w) := by
    intro j n hj
    obtain ⟨e, he, hn⟩ := h.held j b w n hj hw
    rw [Limiter.next, hlive, he]
    exact Nat.lt_succ_of_le hn
  have hself : ∀ j key n, (s.count i (keyOf b w)).counted j = some (key, n) →
      (j = i ∧ key = keyOf b w ∧ n = s.next (keyOf b w)) ∨
        (j ≠ i ∧ s.counted j = some (key, n)) := by
    intro j key n hj
    have hj : Function.update s.counted i (some (keyOf b w, s.next (keyOf b w))) j
      = some (key, n) := hj
    by_cases hji : j = i
    · subst hji
      rw [Function.update_self, Option.some.injEq, Prod.mk.injEq] at hj
      exact Or.inl ⟨rfl, hj.1.symm, hj.2.symm⟩
    · rw [Function.update_of_ne hji] at hj
      exact Or.inr ⟨hji, hj⟩
  refine ⟨h.epoch, h.past, fun j key n hj => ?_, fun j j' key n hj hj' => ?_,
    fun j b' w' n hj hw' => ?_, fun b' w' e t he ht => ?_⟩
  · obtain ⟨-, -, rfl⟩ | ⟨-, hj⟩ := hself j key n hj
    · exact Nat.le_add_left 1 _
    · exact h.positive j key n hj
  · obtain ⟨rfl, rfl, rfl⟩ | ⟨-, hold⟩ := hself j key n hj
    · obtain ⟨rfl, -, -⟩ | ⟨-, hold'⟩ := hself j' _ _ hj'
      · rfl
      · exact absurd (hbelow j' _ hold') (lt_irrefl _)
    · obtain ⟨rfl, rfl, rfl⟩ | ⟨-, hold'⟩ := hself j' key n hj'
      · exact absurd (hbelow j _ hold) (lt_irrefl _)
      · exact h.distinct j j' key n hold hold'
  · show ∃ e, Function.update s.keys (keyOf b w) _ (keyOf b' w') = some e ∧ n ≤ e.count
    by_cases hkey : keyOf b' w' = keyOf b w
    · rw [hkey, Function.update_self]
      refine ⟨_, rfl, ?_⟩
      obtain ⟨-, -, rfl⟩ | ⟨-, hold⟩ := hself j _ n hj
      · exact le_refl _
      · rw [hkey] at hold
        exact le_of_lt (hbelow j n hold)
    · rw [Function.update_of_ne hkey]
      obtain ⟨-, hsame, -⟩ | ⟨-, hold⟩ := hself j _ n hj
      · exact absurd hsame hkey
      · exact h.held j b' w' n hold hw'
  · have he : Function.update s.keys (keyOf b w) (some (⟨s.next (keyOf b w),
      (s.live (keyOf b w)).bind Entry.expiresAt⟩ : Entry)) (keyOf b' w') = some e := he
    by_cases hkey : keyOf b' w' = keyOf b w
    · rw [hkey, Function.update_self, Option.some.injEq] at he
      subst he
      rw [hlive, Option.bind_eq_some_iff] at ht
      obtain ⟨e₀, he₀, ht⟩ := ht
      exact h.lasting b' w' e₀ t (by rw [hkey]; exact he₀) ht
    · rw [Function.update_of_ne hkey] at he
      exact h.lasting b' w' e t he ht

omit [DecidableEq ι] in
/-- **The TTL that a request sets outlives its window.** -/
theorem Fair.touch {s : Limiter ι} (h : Fair s) {b : String} {w : Int}
    (hw : seconds (60 * w) ≤ s.clock) : Fair (s.touch (keyOf b w) 61) := by
  have hdead : deadline w ≤ s.clock + seconds 61 := deadline_le hw
  unfold Limiter.touch
  cases hlive : s.live (keyOf b w) with
  | none => exact h
  | some e₀ =>
      have hkeys : s.keys (keyOf b w) = some e₀ := (Option.filter_eq_some_iff.mp hlive).1
      refine ⟨h.epoch, h.past, h.positive, h.distinct, fun j b' w' n hj hw' => ?_,
        fun b' w' e t he ht => ?_⟩
      · obtain ⟨e, he, hn⟩ := h.held j b' w' n hj hw'
        show ∃ e, Function.update s.keys (keyOf b w) _ (keyOf b' w') = some e ∧ n ≤ e.count
        by_cases hkey : keyOf b' w' = keyOf b w
        · rw [hkey, hkeys, Option.some.injEq] at he
          subst he
          rw [hkey, Function.update_self]
          exact ⟨_, rfl, hn⟩
        · rw [Function.update_of_ne hkey]
          exact ⟨e, he, hn⟩
      · -- the key names its window, so its TTL is that of this window
        have he : Function.update s.keys (keyOf b w)
          (some { e₀ with expiresAt := some (s.clock + seconds 61) }) (keyOf b' w')
            = some e := he
        by_cases hkey : keyOf b' w' = keyOf b w
        · rw [hkey, Function.update_self, Option.some.injEq] at he
          subst he
          rw [Option.some.injEq] at ht
          rw [window_of_keyOf hkey, ← ht]
          exact hdead
        · rw [Function.update_of_ne hkey] at he
          exact h.lasting b' w' e t he ht

omit [DecidableEq ι] in
/-- Time passes. -/
theorem Fair.tick {s : Limiter ι} (h : Fair s) (n : Nat) :
    Fair { s with clock := s.clock + n } := by
  have hle : s.clock ≤ s.clock + n := Int.le_add_of_nonneg_right (Int.natCast_nonneg n)
  refine ⟨le_trans h.epoch hle, fun i t hi => ?_, h.positive, h.distinct,
    fun i b w k hi hw => h.held i b w k hi (lt_of_le_of_lt hle hw), h.lasting⟩
  exact ⟨(h.past i t hi).1, le_trans (h.past i t hi).2 hle⟩

/-- What is left when a key is dropped was there before. -/
theorem kept_of_dropped {keys : String → Option Entry} {key key' : String} {e : Entry}
    (he : Function.update keys key none key' = some e) : keys key' = some e := by
  by_cases hkey : key' = key
  · rw [hkey, Function.update_self] at he
    exact absurd he (by simp)
  · rwa [Function.update_of_ne hkey] at he

omit [DecidableEq ι] in
/-- Redis drops a key whose TTL is over: its window has passed. -/
theorem Fair.drop {s : Limiter ι} (h : Fair s) {key : String}
    (hdrop : (s.keys key).any s.overdue = true) :
    Fair { s with keys := Function.update s.keys key none } := by
  refine ⟨h.epoch, h.past, h.positive, h.distinct, fun i b w n hi hw => ?_,
    fun b w e t he ht => ?_⟩
  · show ∃ e, Function.update s.keys key none (keyOf b w) = some e ∧ n ≤ e.count
    by_cases hkey : keyOf b w = key
    · subst hkey
      rw [Option.any_eq_true] at hdrop
      obtain ⟨e, he, hover⟩ := hdrop
      rw [Limiter.overdue, Option.any_eq_true] at hover
      obtain ⟨t, ht, hle⟩ := hover
      have hlast := h.lasting b w e t he ht
      rw [decide_eq_true_eq] at hle
      exact absurd hw (not_lt.mpr (le_trans hlast hle))
    · rw [Function.update_of_ne hkey]
      exact h.held i b w n hi hw
  · exact h.lasting b w e t (kept_of_dropped he) ht

end Fair

/-! ## §3. One request. -/

section Counting

variable {ι : Type} [DecidableEq ι]

/-- Redis answers, and an `INCR` within a second of the reading of its request. -/
def WithinSecond (i : ι) (o : Op) (inp : Limiter.Input) (s : Limiter ι) : Prop :=
  inp.fault = none ∧
    match o with
    | .incr _ => ∀ t ∈ s.reading i, s.clock ≤ t + second
    | _ => True

/-- The RELY of request `i`. -/
structure OthersMove (i : ι) (s s' : Limiter ι) : Prop where
  reading : s'.reading i = s.reading i
  counted : s'.counted i = s.counted i
  clock : s.clock ≤ s'.clock

/-- The GUARANTEE of request `i`. -/
structure Guarantee (i : ι) (s s' : Limiter ι) : Prop where
  fair : Fair s → Fair s'
  clock : s'.clock = s.clock
  others : ∀ j, j ≠ i → s'.reading j = s.reading j ∧ s'.counted j = s.counted j

/-- `p` ends in `Q` as request `i` among others; it raises nothing. -/
abbrev counting {α : Type} (i : ι) (Q : α → Limiter ι → Prop) (p : Prog α)
    (s : Limiter ι) : Prop :=
  Coro.wp (Limiter.perform i) (WithinSecond i) (OthersMove i) (Guarantee i) Q (fun _ _ => False) p s

/-- How far request `i` for bucket `b` has come: its reading, and its count. -/
def At (i : ι) (b : String) (reading : Option Time) (n : Option Nat) (s : Limiter ι) : Prop :=
  s.reading i = reading ∧
    s.counted i = n.bind fun n => reading.map fun t => (keyOf b (windowOf t), n)

/-- The request has been counted, and `result` says what its count allows. -/
def Counted (i : ι) (q : Query) (result : RateLimitResult) (s : Limiter ι) : Prop :=
  ∃ t n resetIn, At i q.bucketId (some t) (some n) s ∧
    result = verdict q.limitPerMinute n resetIn

omit [DecidableEq ι] in
theorem At.apart {i : ι} {b : String} {reading : Option Time} {n : Option Nat}
    {s s' : Limiter ι} (h : At i b reading n s) (ha : OthersMove i s s') : At i b reading n s' :=
  ⟨ha.reading.trans h.1, ha.counted.trans h.2⟩

omit [DecidableEq ι] in
theorem Counted.apart {i : ι} {q : Query} {result : RateLimitResult} {s s' : Limiter ι}
    (h : Counted i q result s) (ha : OthersMove i s s') : Counted i q result s' := by
  obtain ⟨t, n, resetIn, hat, hres⟩ := h
  exact ⟨t, n, resetIn, hat.apart ha, hres⟩

omit [DecidableEq ι] in
theorem OthersMove.refl (i : ι) (s : Limiter ι) : OthersMove i s s := ⟨rfl, rfl, le_refl _⟩

omit [DecidableEq ι] in
theorem OthersMove.trans {i : ι} {s s' s'' : Limiter ι} (h : OthersMove i s s')
    (h' : OthersMove i s' s'') :
    OthersMove i s s'' :=
  ⟨h'.reading.trans h.reading, h'.counted.trans h.counted, le_trans h.clock h'.clock⟩

variable {i : ι} {b : String} {s : Limiter ι}

/-- A configured client is there. -/
theorem counting_getClient {redisUrl : Option String} (hset : isSet redisUrl = true)
    (h : At i b none none s) :
    counting i (fun client s' => client = true ∧ At i b none none s')
      (getClient redisUrl) s := by
  have hsame : ∀ s : Limiter ι, Guarantee i s s :=
    fun s => ⟨fun hf => hf, rfl, fun _ _ => ⟨rfl, rfl⟩⟩
  unfold getClient
  intro s₁ ha inp r s₂ _ hperf
  simp only [Limiter.perform, Option.some.injEq, Prod.mk.injEq] at hperf
  obtain ⟨rfl, rfl⟩ := hperf
  refine ⟨hsame s₁, ?_⟩
  show counting i _ (if s₁.cached = true then Coro.pure true else _) s₁
  split
  next => exact ⟨rfl, h.apart ha⟩
  next =>
    rw [hset]
    -- connect, which answers, and keep the client
    intro s₃ ha' inp' r' s₄ hok hperf
    simp only [Limiter.perform, hok.1, Option.some.injEq, Prod.mk.injEq] at hperf
    obtain ⟨rfl, rfl⟩ := hperf
    refine ⟨hsame s₃, ?_⟩
    intro s₅ ha'' inp'' r'' s₆ _ hperf
    simp only [Limiter.perform, Option.some.injEq, Prod.mk.injEq] at hperf
    obtain ⟨-, rfl⟩ := hperf
    have hat := ((h.apart ha).apart ha').apart ha''
    refine ⟨⟨fun hf => ?_, rfl, fun _ _ => ⟨rfl, rfl⟩⟩, rfl, hat⟩
    exact ⟨hf.epoch, hf.past, hf.positive, hf.distinct, hf.held, hf.lasting⟩

theorem counting_time (h : At i b none none s) :
    counting i (fun t => At i b (some t) none) time s := by
  intro s₁ ha inp r s₂ _ hperf
  simp only [Limiter.perform, Option.some.injEq, Prod.mk.injEq] at hperf
  obtain ⟨rfl, rfl⟩ := hperf
  refine ⟨⟨fun hf => hf.read i, rfl, fun j hj => ⟨?_, rfl⟩⟩, ?_, ?_⟩
  · exact Function.update_of_ne hj _ _
  · exact Function.update_self i (some s₁.clock) s₁.reading
  · exact (h.apart ha).2

/-- The `INCR` of a request comes before the deadline of its window. -/
theorem counting_incr {t : Time} (h : At i b (some t) none s) :
    counting i (fun n => At i b (some t) (some n)) (incr (keyOf b (windowOf t))) s := by
  intro s₁ ha inp r s₂ hok hperf
  simp only [Limiter.perform, hok.1, Option.some.injEq, Prod.mk.injEq] at hperf
  obtain ⟨rfl, rfl⟩ := hperf
  have h₁ := h.apart ha
  have hsoon : s₁.clock ≤ t + second := hok.2 t h₁.1
  refine ⟨⟨fun hf => ?_, rfl, fun j hj => ⟨rfl, Function.update_of_ne hj _ _⟩⟩, h₁.1, ?_⟩
  · have hpos : 0 ≤ t := (hf.past i t h₁.1).1
    exact hf.count h₁.2 (lt_of_le_of_lt hsoon (lt_windowOf hpos))
  · exact Function.update_self i _ s₁.counted

/-- The TTL is set after the reading. -/
theorem counting_expire {t : Time} {n : Nat} (h : At i b (some t) (some n) s) :
    counting i (fun _ => At i b (some t) (some n)) (expire (keyOf b (windowOf t)) 61) s := by
  intro s₁ ha inp r s₂ hok hperf
  simp only [Limiter.perform, hok.1, Option.some.injEq, Prod.mk.injEq] at hperf
  obtain ⟨rfl, rfl⟩ := hperf
  have h₁ := h.apart ha
  have hmarks : (s₁.touch (keyOf b (windowOf t)) 61).reading = s₁.reading ∧
      (s₁.touch (keyOf b (windowOf t)) 61).counted = s₁.counted ∧
      (s₁.touch (keyOf b (windowOf t)) 61).clock = s₁.clock := by
    unfold Limiter.touch
    split <;> exact ⟨rfl, rfl, rfl⟩
  refine ⟨⟨fun hf => ?_, hmarks.2.2, fun j _ => ?_⟩, ?_⟩
  · obtain ⟨hpos, hle⟩ := hf.past i t h₁.1
    exact hf.touch (le_trans (windowOf_le hpos) hle)
  · rw [hmarks.1, hmarks.2.1]
    exact ⟨rfl, rfl⟩
  · exact ⟨(congrFun hmarks.1 i).trans h₁.1, (congrFun hmarks.2.1 i).trans h₁.2⟩

/-- **A request is counted once, in the window it read.** -/
theorem counting_checkRateLimit (q : Query) (hset : isSet q.redisUrl = true)
    (h : At i q.bucketId none none s) :
    counting i (Counted i q) (checkRateLimit q.redisUrl q.bucketId q.limitPerMinute) s := by
  unfold checkRateLimit
  apply Coro.wp_bind
  refine Coro.wp_mono ?_ (fun _ _ he => he) (counting_getClient hset h)
  rintro _ s₁ ⟨rfl, h₁⟩
  apply Coro.wp_bind
  refine Coro.wp_mono ?_ (fun _ _ he => he) (counting_time h₁)
  intro t s₂ h₂
  apply Coro.wp_bind
  refine Coro.wp_mono ?_ (fun _ _ he => he) (?_ : counting i (fun out s' =>
    ∃ n, out = some n ∧ At i q.bucketId (some t) (some n) s') (countRequest _) s₂)
  · rintro _ s₃ ⟨n, rfl, h₃⟩
    exact ⟨t, n, _, h₃, rfl⟩
  · unfold countRequest
    apply Coro.wp_tryCatch
    apply Coro.wp_bind
    refine Coro.wp_mono ?_ (fun _ _ he => he.elim) (counting_incr h₂)
    intro n s₃ h₃
    show Coro.wp _ _ _ _ _ _ (if n = 1 then _ else _) s₃
    split
    next =>
      apply Coro.wp_bind
      refine Coro.wp_mono ?_ (fun _ _ he => he.elim) (counting_expire h₃)
      intro _ s₄ h₄
      exact ⟨n, rfl, h₄⟩
    next => exact ⟨n, rfl, h₃⟩

end Counting

/-! ## §4. All requests. -/

namespace System

variable {ι : Type} [DecidableEq ι]

/-- **One step**: whoever has not asked awaits nothing. -/
theorem idle_step {c c' : System ι} {a : Action ι}
    (h : ∀ i, c.asked i = none → (c.task i).finished = true)
    (hstep : System.step c a = some c') (j : ι) (hj : c'.asked j = none) :
    (c'.task j).finished = true := by
  cases a with
  | request i q =>
      obtain ⟨-, rfl⟩ := request_cases hstep
      have hj : Function.update c.asked i (some q) j = none := hj
      by_cases hji : j = i
      · rw [hji, Function.update_self] at hj
        exact absurd hj (by simp)
      · rw [Function.update_of_ne hji] at hj
        show ((c.pool.assign i _).task j).finished = true
        rw [Pool.assign_other _ _ hji]
        exact h j hj
  | answer i inp =>
      obtain ⟨o, k, r, pool, rfl, ht, -, -, hother⟩ := answer_cases hstep
      by_cases hji : j = i
      · subst hji
        -- it would await what is answered now
        have hidle := h j hj
        rw [ht] at hidle
        exact absurd hidle (by simp [Coro.finished])
      · show (pool.task j).finished = true
        rw [hother j hji]
        exact h j hj
  | tick n =>
      obtain rfl := Option.some.inj hstep
      exact h j hj
  | drop key =>
      obtain ⟨-, rfl⟩ := drop_cases hstep
      exact h j hj

omit [DecidableEq ι] in
/-- Only a request that was made awaits anything. -/
theorem asked_of_awaits {c : System ι} {i : ι} {o : Op} {k : Resp o → Prog RateLimitResult}
    (h : ∀ i, c.asked i = none → (c.task i).finished = true) (ht : c.task i = .await o k) :
    ∃ q, c.asked i = some q := by
  cases hq : c.asked i with
  | some q => exact ⟨q, rfl⟩
  | none =>
      have hidle := h i hq
      rw [ht] at hidle
      exact absurd hidle (by simp [Coro.finished])

/-- The limiter is fair, and every request goes its way. -/
structure FairSystem (c : System ι) : Prop where
  fair : Fair c.limiter
  fresh : ∀ i, c.asked i = none → c.limiter.reading i = none ∧ c.limiter.counted i = none
  idle : ∀ i, c.asked i = none → (c.task i).finished = true
  task : ∀ i q, c.asked i = some q → counting i (Counted i q) (c.task i) c.limiter

theorem FairSystem.init {c : System ι} (h : Start c) : FairSystem c where
  fair :=
    { epoch := h.clock
      past := fun i t hi => absurd ((h.reading i).symm.trans hi) (by simp)
      positive := fun i key n hi => absurd ((h.counted i).symm.trans hi) (by simp)
      distinct := fun i _ key n hi _ => absurd ((h.counted i).symm.trans hi) (by simp)
      held := fun i b w n hi _ => absurd ((h.counted i).symm.trans hi) (by simp)
      lasting := fun b w e t he _ => absurd ((h.keys _).symm.trans he) (by simp) }
  fresh := fun i _ => ⟨h.reading i, h.counted i⟩
  idle := fun i _ => h.idle i
  task := fun i q hq => absurd ((h.asked i).symm.trans hq) (by simp)

/-- A request goes its way while the others move. -/
theorem counting_apart {i : ι} {q : Query} {p : Prog RateLimitResult} {s s' : Limiter ι}
    (h : counting i (Counted i q) p s) (ha : OthersMove i s s') :
    counting i (Counted i q) p s' :=
  Coro.wp_rely (fun _ _ _ h h' => h.trans h') (fun _ _ _ ha h => h.apart ha)
    (fun _ _ _ _ he => he) ha h

/-- Redis or the clock moves. -/
theorem FairSystem.env {c : System ι} {s : Limiter ι} (h : FairSystem c) (hfair : Fair s)
    (hreading : s.reading = c.limiter.reading) (hcounted : s.counted = c.limiter.counted)
    (hclock : c.limiter.clock ≤ s.clock) : FairSystem (c.env s) where
  fair := hfair
  fresh := by
    intro i hi
    show s.reading i = none ∧ s.counted i = none
    rw [hreading, hcounted]
    exact h.fresh i hi
  idle := h.idle
  task := fun i q hq => counting_apart (h.task i q hq)
    ⟨congrFun hreading i, congrFun hcounted i, hclock⟩

/-- **A request is made.**  Whoever had none has counted nothing yet. -/
theorem FairSystem.request {c c' : System ι} {i : ι} {q : Query} (h : FairSystem c)
    (hp : Prompt c (.request i q)) (hstep : System.step c (.request i q) = some c') :
    FairSystem c' := by
  have hidle := idle_step h.idle hstep
  obtain ⟨hnone, rfl⟩ := request_cases hstep
  refine ⟨h.fair, fun j hj => h.fresh j ?_, hidle, fun j q' hq' => ?_⟩
  · have hj : Function.update c.asked i (some q) j = none := hj
    by_cases hji : j = i
    · rw [hji]
      exact hnone
    · rwa [Function.update_of_ne hji] at hj
  · have hq' : Function.update c.asked i (some q) j = some q' := hq'
    by_cases hji : j = i
    · subst hji
      rw [Function.update_self, Option.some.injEq] at hq'
      subst hq'
      show counting j _ ((c.pool.assign j _).task j) c.limiter
      rw [Pool.assign_self]
      obtain ⟨hreading, hcounted⟩ := h.fresh j hnone
      exact counting_checkRateLimit q hp ⟨hreading, hcounted⟩
    · rw [Function.update_of_ne hji] at hq'
      show counting j _ ((c.pool.assign i _).task j) c.limiter
      rw [Pool.assign_other _ _ hji]
      exact h.task j q' hq'

/-- **An answer.**  The other requests see the clock and the store move only. -/
theorem FairSystem.answer {c c' : System ι} {i : ι} {inp : Limiter.Input} (h : FairSystem c)
    (hp : Prompt c (.answer i inp)) (hstep : System.step c (.answer i inp) = some c') :
    FairSystem c' := by
  have hidle := idle_step h.idle hstep
  obtain ⟨o, k, r, pool, rfl, ht, hperf, htask, hother⟩ := answer_cases hstep
  obtain ⟨hok, hsoon⟩ := hp
  -- only between the reading of the clock and `INCR` is promptness needed
  have htimely : WithinSecond i o inp c.limiter := by
    refine ⟨hok, ?_⟩
    cases o with
    | incr key => exact hsoon (by rw [ht]; rfl)
    | _ => trivial
  obtain ⟨q, hq⟩ := asked_of_awaits h.idle ht
  have hwp := h.task i q hq
  rw [ht] at hwp
  obtain ⟨hmoves, hk⟩ := hwp c.limiter (.refl i _) inp r pool.world htimely hperf
  refine ⟨hmoves.fair h.fair, fun j hj => ?_, hidle, fun j q' hq' => ?_⟩
  · have hji : j ≠ i := by
      rintro rfl
      exact absurd (hq.symm.trans hj) (by simp)
    obtain ⟨hr, hc⟩ := hmoves.others j hji
    show pool.world.reading j = none ∧ pool.world.counted j = none
    rw [hr, hc]
    exact h.fresh j hj
  · by_cases hji : j = i
    · subst hji
      rw [hq, Option.some.injEq] at hq'
      subst hq'
      show counting j _ (pool.task j) pool.world
      rw [htask]
      exact hk
    · show counting j _ (pool.task j) pool.world
      rw [hother j hji]
      obtain ⟨hr, hc⟩ := hmoves.others j hji
      exact counting_apart (h.task j q' hq') ⟨hr, hc, le_of_eq hmoves.clock.symm⟩

/-- **One step.** -/
theorem FairSystem.step {c c' : System ι} {act : Action ι} (h : FairSystem c) (hp : Prompt c act)
    (hstep : System.step c act = some c') : FairSystem c' := by
  cases act with
  | request i q => exact h.request hp hstep
  | answer i inp => exact h.answer hp hstep
  | tick n =>
      obtain rfl := Option.some.inj hstep
      exact h.env (h.fair.tick n) rfl rfl
        (Int.le_add_of_nonneg_right (Int.natCast_nonneg n))
  | drop key =>
      obtain ⟨hdrop, rfl⟩ := drop_cases hstep
      exact h.env (h.fair.drop hdrop) rfl rfl (le_refl _)

/-! ## §5. The bounds. -/

/-- An allowed request has a count of its own in its window, within the limit. -/
theorem FairSystem.allowed {c : System ι} (h : FairSystem c) {b : String} {L : Int}
    (hL : ∀ i, ∀ q ∈ c.asked i, q.bucketId = b → q.limitPerMinute = L) {i : ι}
    {result : RateLimitResult} (hans : c.Answered b i result)
    (hallow : result.allowed = true) :
    ∃ t n, c.limiter.reading i = some t ∧
      c.limiter.counted i = some (keyOf b (windowOf t), n) ∧
      1 ≤ n ∧ (n : Int) ≤ L ∧ result.remaining = L - n := by
  obtain ⟨⟨q, hq, hb⟩, ht⟩ := hans
  have hwp := h.task i q hq
  rw [ht] at hwp
  obtain ⟨t, n, resetIn, ⟨hreading, hcounted⟩, rfl⟩ := hwp
  rw [hb] at hcounted
  have hn : (n : Int) ≤ L := by
    rw [← hL i q hq hb]
    simpa [verdict] using hallow
  refine ⟨t, n, hreading, hcounted, h.fair.positive i _ n hcounted, hn, ?_⟩
  show max 0 (q.limitPerMinute - n) = L - n
  rw [hL i q hq hb]
  omega

/-- The number a request was answered. -/
def countOf (c : System ι) (i : ι) : Nat := ((c.limiter.counted i).map Prod.snd).getD 0

/-- At most `L` requests that read the same window are allowed. -/
theorem FairSystem.window_bound {c : System ι} (h : FairSystem c) {b : String} {L : Int}
    (hL : ∀ i, ∀ q ∈ c.asked i, q.bucketId = b → q.limitPerMinute = L) (h0 : 0 ≤ L)
    {w : Int} {S : Finset ι} (hS : ∀ i ∈ S, c.Allowed b i ∧
      ∀ t ∈ c.limiter.reading i, windowOf t = w) : (S.card : Int) ≤ L := by
  have hcount : ∀ i ∈ S, ∃ n, c.limiter.counted i = some (keyOf b w, n) ∧
      c.countOf i = n ∧ 1 ≤ n ∧ (n : Int) ≤ L := by
    intro i hi
    obtain ⟨⟨result, hans, hallow⟩, hw⟩ := hS i hi
    obtain ⟨t, n, hreading, hcounted, hn, hle, -⟩ := h.allowed hL hans hallow
    rw [hw t hreading] at hcounted
    exact ⟨n, hcounted, by rw [countOf, hcounted]; rfl, hn, hle⟩
  -- the counts are distinct numbers between 1 and `L`
  have hmaps : ∀ i ∈ S, c.countOf i ∈ Finset.Icc 1 L.toNat := by
    intro i hi
    obtain ⟨n, -, heq, hn, hle⟩ := hcount i hi
    rw [Finset.mem_Icc, heq]
    omega
  have hinj : Set.InjOn c.countOf S := by
    intro i hi j hj hij
    obtain ⟨n, hcounted, heq, -, -⟩ := hcount i hi
    obtain ⟨m, hcounted', heq', -, -⟩ := hcount j hj
    have hmn : n = m := heq.symm.trans (hij.trans heq')
    exact h.fair.distinct i j _ n hcounted (hmn ▸ hcounted')
  have hcard := Finset.card_le_card_of_injOn c.countOf hmaps hinj
  rw [Nat.card_Icc] at hcard
  omega

/-- At most `2 L` requests that read the clock within a minute are allowed. -/
theorem FairSystem.minute_bound {c : System ι} (h : FairSystem c) {b : String} {L : Int}
    (hL : ∀ i, ∀ q ∈ c.asked i, q.bucketId = b → q.limitPerMinute = L) (h0 : 0 ≤ L)
    {t : Time} {S : Finset ι} (hS : ∀ i ∈ S, c.Allowed b i ∧
      ∀ r ∈ c.limiter.reading i, t ≤ r ∧ r < t + minute) : (S.card : Int) ≤ 2 * L := by
  let early : ι → Prop := fun i => ∀ r ∈ c.limiter.reading i, windowOf r = t / minute
  have hearly : ((S.filter early).card : Int) ≤ L := by
    refine h.window_bound hL h0 (w := t / minute) fun i hi => ?_
    obtain ⟨hi, hw⟩ := Finset.mem_filter.mp hi
    exact ⟨(hS i hi).1, hw⟩
  have hlate : ((S.filter fun i => ¬ early i).card : Int) ≤ L := by
    refine h.window_bound hL h0 (w := t / minute + 1) fun i hi => ⟨?_, fun r hr => ?_⟩
    · exact (hS i (Finset.mem_filter.mp hi).1).1
    · obtain ⟨hi, hnot⟩ := Finset.mem_filter.mp hi
      obtain ⟨hle, hlt⟩ := (hS i hi).2 r hr
      have hpos := (h.fair.past i r hr).1
      rcases windowOf_in_minute hpos hle hlt with hw | hw
      · refine absurd (fun r' hr' => ?_) hnot
        rw [Option.mem_unique hr' hr]
        exact hw
      · exact hw
  have hsplit := Finset.card_filter_add_card_filter_not (s := S) early
  omega

/-- **The rate limit bounds.**  In every reachable state, for every bucket with limit
`L`: at most `L` allowed requests read the same window, these report distinct
numbers remaining, and at most `2 L` allowed requests read the clock within any
60 seconds. -/
theorem rate_limit_bound {c₀ c : System ι} (h₀ : Start c₀)
    (hrun : Reaches step Prompt c₀ c) {b : String} {L : Int} (h0 : 0 ≤ L)
    (hL : ∀ i, ∀ q ∈ c.asked i, q.bucketId = b → q.limitPerMinute = L) :
    (∀ (w : Int) (S : Finset ι), (∀ i ∈ S, c.Allowed b i ∧
        ∀ t ∈ c.limiter.reading i, windowOf t = w) → (S.card : Int) ≤ L) ∧
      (∀ (i j : ι) (result result' : RateLimitResult), c.Answered b i result →
        result.allowed = true → c.Answered b j result' → result'.allowed = true → i ≠ j →
        (c.limiter.reading i).map windowOf = (c.limiter.reading j).map windowOf →
        result.remaining ≠ result'.remaining) ∧
      ∀ (t : Time) (S : Finset ι), (∀ i ∈ S, c.Allowed b i ∧
        ∀ r ∈ c.limiter.reading i, t ≤ r ∧ r < t + minute) → (S.card : Int) ≤ 2 * L := by
  have hsound : FairSystem c := hrun.invariant (fun _ _ _ hI hp hs => hI.step hp hs) (.init h₀)
  refine ⟨fun w S hS => hsound.window_bound hL h0 hS, ?_,
    fun t S hS => hsound.minute_bound hL h0 hS⟩
  intro i j result result' hi hallow hj hallow' hij hwindow hsame
  obtain ⟨t, n, hreading, hcounted, -, -, hrem⟩ := hsound.allowed hL hi hallow
  obtain ⟨t', n', hreading', hcounted', -, -, hrem'⟩ := hsound.allowed hL hj hallow'
  rw [hreading, hreading', Option.map_some, Option.map_some, Option.some.injEq] at hwindow
  have hnn : n = n' := by omega
  rw [hwindow] at hcounted
  exact hij (hsound.fair.distinct i j _ n hcounted (hnn ▸ hcounted'))

/-- The task has returned that the request is allowed. -/
def allows : Prog RateLimitResult → Bool
  | .pure result => result.allowed
  | _ => false

/-- Two requests of a bucket with limit one, the second between the `INCR` and the
`EXPIRE` of the first. -/
def crossing : List (Action Bool) :=
  [.request false ⟨some "redis://localhost", "admin", 1⟩,
   .answer false {}, .answer false {}, .answer false {}, .tick 1000, .answer false {},
   .request true ⟨some "redis://localhost", "admin", 1⟩,
   .answer true {}, .tick 1000, .answer true {},
   .answer false {}, .answer true {}, .answer false {}]

theorem rate_limit_bound_crossing : ∃ c : System Bool, c.Allowed "admin" false ∧
    ∀ S : Finset Bool, (∀ i ∈ S, c.Allowed "admin" i ∧
      ∀ r ∈ c.limiter.reading i, 0 ≤ r ∧ r < 0 + minute) → (S.card : Int) ≤ 2 * 1 := by
  have hrun : (runs (fun c act => if Prompt c act then step c act else none) crossing
      (initial 0)).any (fun c => allows (c.task false) &&
        decide (∃ q ∈ c.asked false, q.bucketId = "admin") &&
        decide (∀ i, ∀ q ∈ c.asked i, q.bucketId = "admin" → q.limitPerMinute = 1))
      = true := by decide
  obtain ⟨c, hc, htest⟩ := Reaches.exists_of_runs hrun
  rw [Bool.and_eq_true, Bool.and_eq_true, decide_eq_true_eq, decide_eq_true_eq] at htest
  obtain ⟨⟨hallows, hasked⟩, hL⟩ := htest
  have hbound := rate_limit_bound (start_initial (le_refl 0)) hc (by decide) hL
  refine ⟨c, ?_, fun S hS => hbound.2.2 0 S hS⟩
  cases ht : c.task false with
  | pure result =>
      rw [ht] at hallows
      exact ⟨result, ⟨hasked, ht⟩, hallows⟩
  | raise e => rw [ht] at hallows; exact absurd hallows (by simp [allows])
  | await o k => rw [ht] at hallows; exact absurd hallows (by simp [allows])

end System

end Pulse.RateLimit
