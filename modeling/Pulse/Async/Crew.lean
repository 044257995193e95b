/-
  Pulse.Async.Crew
  ────────────────
  **SESSIONS THAT TAKE ONE JOB AFTER ANOTHER.**

  A session without a task takes a job and works on it, awaiting; it can be killed at
  any await, and the world can be edited from outside at any time.

    • `Crew.sound` — the RULE for relations: what every job guarantees and relies on, and
                     every crash and edit respects, holds from the start of a run to
                     any state it reaches.
-/
import Pulse.Async.Pool

namespace Pulse.Async

/-- What can happen next: sessions `ι`, labels `Λ`, jobs `J`, edits `D`. -/
inductive Crew.Action (ι Λ J D : Type) where
  | answer (i : ι) (l : Λ)
  | take (i : ι) (job : J)
  | crash (i : ι)
  | edit (d : D)

namespace Crew

variable {Op : Type} {ι : Type} {Resp : Op → Type} {ε Λ σ J D : Type} [DecidableEq ι]

/-- Session `i` has lost its task; `drop` is what the world makes of that. -/
def kill (drop : ι → σ → σ) (p : Pool ι Resp ε Unit σ) (i : ι) : Pool ι Resp ε Unit σ :=
  ⟨drop i p.world, Function.update p.task i (.pure ())⟩

/-- One action. -/
def step (H : ι → (o : Op) → Λ → σ → Option (Resp o × σ)) (prog : J → Coro Resp ε Unit)
    (drop : ι → σ → σ) (edit : D → σ → σ) (p : Pool ι Resp ε Unit σ) :
    Action ι Λ J D → Option (Pool ι Resp ε Unit σ)
  | .answer i l => p.answer H i l
  | .take i job => if (p.task i).finished then some (p.assign i (prog job)) else none
  | .crash i => some (kill drop p i)
  | .edit d => some { p with world := edit d p.world }

variable {H : ι → (o : Op) → Λ → σ → Option (Resp o × σ)} {prog : J → Coro Resp ε Unit}
  {drop : ι → σ → σ} {edit : D → σ → σ} {R : σ → σ → Prop} {p p' p₀ : Pool ι Resp ε Unit σ}

variable (H R) in
/-- `t` relies on `R` and guarantees `R`, as session `i`. -/
abbrev Keeps (i : ι) (t : Coro Resp ε Unit) (s : σ) : Prop :=
  Coro.wp (H i) (fun _ _ _ => True) R R (fun _ _ => True) (fun _ _ => True) t s

/-- **One action** moves the world along `R`, and every session keeps to it. -/
theorem keeps_step (hrefl : ∀ s, R s s) (htrans : ∀ s s' s'', R s s' → R s' s'' → R s s'')
    (hjob : ∀ i job s, Keeps H R i (prog job) s) (hdrop : ∀ i s, R s (drop i s))
    (hedit : ∀ d s, R s (edit d s)) {a : Action ι Λ J D}
    (hkeeps : ∀ i, Keeps H R i (p.task i) p.world)
    (hstep : step H prog drop edit p a = some p') :
    R p.world p'.world ∧ ∀ i, Keeps H R i (p'.task i) p'.world := by
  -- a session that is not at work sees a move along its rely
  have hmoved : ∀ i s', R p.world s' → Keeps H R i (p.task i) s' := by
    intro i s' hs
    exact Coro.wp_rely htrans (fun _ _ _ _ _ => trivial) (fun _ _ _ _ _ => trivial) hs (hkeeps i)
  cases a with
  | answer i l =>
      obtain ⟨o, k, r, htask, hperf, hself, hother⟩ := Pool.answer_cases hstep
      have hi := hkeeps i
      rw [htask] at hi
      obtain ⟨hR, hk⟩ := hi p.world (hrefl _) l r p'.world trivial hperf
      refine ⟨hR, fun j => ?_⟩
      by_cases hj : j = i
      · subst hj
        rw [hself]
        exact hk
      · rw [hother j hj]
        exact hmoved j _ hR
  | take i job =>
      simp only [step] at hstep
      split at hstep
      next =>
        obtain rfl := Option.some.inj hstep
        refine ⟨hrefl _, fun j => ?_⟩
        by_cases hj : j = i
        · subst hj
          rw [Pool.assign_self]
          exact hjob j job _
        · rw [Pool.assign_other p _ hj]
          exact hkeeps j
      next => exact absurd hstep (by simp)
  | crash i =>
      obtain rfl := Option.some.inj hstep
      refine ⟨hdrop i _, fun j => ?_⟩
      by_cases hj : j = i
      · subst hj
        show Keeps H R j (Function.update p.task j (.pure ()) j) _
        rw [Function.update_self]
        trivial
      · show Keeps H R j (Function.update p.task i (.pure ()) j) _
        rw [Function.update_of_ne hj]
        exact hmoved j _ (hdrop i _)
  | edit d =>
      obtain rfl := Option.some.inj hstep
      exact ⟨hedit d _, fun j => hmoved j _ (hedit d _)⟩

/-- **The rule**, from sessions that have nothing to do. -/
theorem sound (hrefl : ∀ s, R s s) (htrans : ∀ s s' s'', R s s' → R s' s'' → R s s'')
    (hjob : ∀ i job s, Keeps H R i (prog job) s) (hdrop : ∀ i s, R s (drop i s))
    (hedit : ∀ d s, R s (edit d s)) (hidle : ∀ i, (p₀.task i).finished = true)
    {P : Pool ι Resp ε Unit σ → Action ι Λ J D → Prop}
    (hrun : Reaches (step H prog drop edit) P p₀ p) : R p₀.world p.world := by
  have hsound : R p₀.world p.world ∧ ∀ i, Keeps H R i (p.task i) p.world := by
    refine hrun.invariant (I := fun p => R p₀.world p.world ∧
      ∀ i, Keeps H R i (p.task i) p.world) ?_ ⟨hrefl _, fun i => ?_⟩
    · intro q a q' ⟨hR, hkeeps⟩ _ hstep
      obtain ⟨hmove, hkeeps'⟩ := keeps_step hrefl htrans hjob hdrop hedit hkeeps hstep
      exact ⟨htrans _ _ _ hR hmove, hkeeps'⟩
    · have hend := hidle i
      cases ht : p₀.task i with
      | pure a => trivial
      | raise e => trivial
      | await o k =>
          rw [ht] at hend
          exact absurd hend (by simp [Coro.finished])
  exact hsound.1

end Crew

end Pulse.Async
