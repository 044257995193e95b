/-
  Pulse.Async.Pool
  ────────────────
  **MANY COROUTINES OVER ONE WORLD.**

  A pool holds one coroutine per session; one step answers the operation that
  one session awaits and leaves every other session where it was.  Schedules
  are lists of actions of a partial step function, so a concrete schedule can
  be evaluated; `Reaches` is the same thing as a relation, with a side
  condition on every step, for the theorems about all schedules.

    • `Pool.answer_cases` — the inversion of one step,
    • `Reaches.invariant` — induction over runs,
    • `Reaches.of_runs`   — an evaluated schedule is a run.
-/
import Pulse.Async.Coro

namespace Pulse.Async

/-! ## §1. Pools. -/

/-- The sessions `ι`, each with a coroutine, over a shared world. -/
structure Pool {Op : Type} (ι : Type) (Resp : Op → Type) (ε α σ : Type) where
  world : σ
  task : ι → Coro Resp ε α

namespace Pool

variable {Op : Type} {ι : Type} {Resp : Op → Type} {ε α Λ σ : Type} [DecidableEq ι]

/-- Put coroutine `t` into session `i`. -/
def assign (p : Pool ι Resp ε α σ) (i : ι) (t : Coro Resp ε α) : Pool ι Resp ε α σ :=
  { p with task := Function.update p.task i t }

@[simp] theorem assign_world (p : Pool ι Resp ε α σ) (i : ι) (t : Coro Resp ε α) :
    (p.assign i t).world = p.world := rfl

@[simp] theorem assign_self (p : Pool ι Resp ε α σ) (i : ι) (t : Coro Resp ε α) :
    (p.assign i t).task i = t := by
  simp [assign]

theorem assign_other (p : Pool ι Resp ε α σ) {i j : ι} (t : Coro Resp ε α)
    (h : j ≠ i) : (p.assign i t).task j = p.task j := by
  simp [assign, h]

/-- Answer the operation session `i` awaits. -/
def answer (H : ι → (o : Op) → Λ → σ → Option (Resp o × σ)) (i : ι) (l : Λ)
    (p : Pool ι Resp ε α σ) : Option (Pool ι Resp ε α σ) :=
  match p.task i with
  | .await o k =>
      match H i o l p.world with
      | some (r, s') => some { world := s', task := Function.update p.task i (k r) }
      | none => none
  | _ => none

/-- What one step does: the awaited operation is answered by the handler, and
the session goes on with the answer. -/
theorem answer_cases {H : ι → (o : Op) → Λ → σ → Option (Resp o × σ)} {i : ι}
    {l : Λ} {p p' : Pool ι Resp ε α σ} (h : p.answer H i l = some p') :
    ∃ o k r, p.task i = .await o k ∧ H i o l p.world = some (r, p'.world) ∧
      p'.task i = k r ∧ ∀ j, j ≠ i → p'.task j = p.task j := by
  unfold answer at h
  cases ht : p.task i with
  | pure a => rw [ht] at h; exact absurd h (by simp)
  | raise e => rw [ht] at h; exact absurd h (by simp)
  | await o k =>
      rw [ht] at h
      cases hH : H i o l p.world with
      | none => simp [hH] at h
      | some rs =>
          simp only [hH, Option.some.injEq] at h
          subst h
          exact ⟨o, k, rs.1, rfl, hH, by simp, fun j hj => by simp [hj]⟩

end Pool

/-! ## §2. Runs of a partial step function. -/

section Runs

variable {κ A : Type} (step : κ → A → Option κ)

/-- Run a schedule. -/
def runs : List A → κ → Option κ
  | [], c => some c
  | a :: as, c => (step c a).bind (runs as)

/-- `Reaches P c c'`: some run from `c` ends in `c'`, and `P` holds of every
state and the action taken in it. -/
inductive Reaches (P : κ → A → Prop) (c : κ) : κ → Prop
  | refl : Reaches P c c
  | step {c' c'' : κ} {a : A} : Reaches P c c' → P c' a → step c' a = some c'' →
      Reaches P c c''

variable {step}

theorem Reaches.trans {P : κ → A → Prop} {c c' c'' : κ}
    (h : Reaches step P c c') (h' : Reaches step P c' c'') :
    Reaches step P c c'' := by
  induction h' with
  | refl => exact h
  | step _ hP hs ih => exact .step ih hP hs

theorem Reaches.mono {P P' : κ → A → Prop} (hP : ∀ c a, P c a → P' c a)
    {c c' : κ} (h : Reaches step P c c') : Reaches step P' c c' := by
  induction h with
  | refl => exact .refl
  | step _ hp hs ih => exact .step ih (hP _ _ hp) hs

/-- **Induction over runs.** -/
theorem Reaches.invariant {P : κ → A → Prop} {I : κ → Prop}
    (hstep : ∀ c a c', I c → P c a → step c a = some c' → I c')
    {c c' : κ} (h : Reaches step P c c') (hI : I c) : I c' := by
  induction h with
  | refl => exact hI
  | step _ hp hs ih => exact hstep _ _ _ ih hp hs

/-- A schedule that evaluates, with the side condition checked at every step, is
a run. -/
theorem Reaches.of_runs {P : κ → A → Prop} [∀ c a, Decidable (P c a)] {as : List A}
    {c c' : κ} (h : runs (fun c a => if P c a then step c a else none) as c = some c') :
    Reaches step P c c' := by
  induction as generalizing c with
  | nil =>
      simp only [runs, Option.some.injEq] at h
      subst h
      exact .refl
  | cons a as ih =>
      simp only [runs, Option.bind_eq_some_iff] at h
      obtain ⟨d, hd, hrest⟩ := h
      split at hd
      next hP => exact (Reaches.step .refl hP hd).trans (ih hrest)
      next => exact absurd hd (by simp)

/-- A schedule that evaluates to a state in which a test succeeds. -/
theorem Reaches.exists_of_runs {P : κ → A → Prop} [∀ c a, Decidable (P c a)] {as : List A}
    {c : κ} {test : κ → Bool}
    (h : (runs (fun c a => if P c a then step c a else none) as c).any test = true) :
    ∃ c', Reaches step P c c' ∧ test c' = true := by
  rw [Option.any_eq_true] at h
  obtain ⟨c', hc', ht⟩ := h
  exact ⟨c', .of_runs hc', ht⟩

end Runs

end Pulse.Async
