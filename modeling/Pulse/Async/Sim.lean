/-
  Pulse.Async.Sim
  ───────────────
  **ONE COROUTINE IN TWO WORLDS.**

  `sim p s t`: whatever label answers an operation of `p` in the first world
  answers it in the second, with the SAME answer, and the worlds stay related
  by `I`.  A coroutine sees its world through the answers only, so it then goes
  through the same operations in both, to the last await:

    • `sim_bind`, `sim_tryCatch`, `sim_forEach` — the rules of the language,
    • `sim_of_uses` — from the operations to the programs that issue them,
    • `run_sim`     — every run in the first world is one in the second.
-/
import Pulse.Async.Coro

namespace Pulse.Async.Coro

variable {Op : Type} {Resp : Op → Type} {ε α β Λ σ : Type}
  (H : (o : Op) → Λ → σ → Option (Resp o × σ)) (I : σ → σ → Prop)

/-- `p` does in the world `t` what it does in the world `s`, and ends in `Q` if it
returns and in `E` if it raises. -/
def sim (Q : α → σ → σ → Prop) (E : ε → σ → σ → Prop) : Coro Resp ε α → σ → σ → Prop
  | .pure a, s, t => Q a s t
  | .raise e, s, t => E e s t
  | .await o k, s, t => ∀ l r s', H o l s = some (r, s') →
      ∃ t', H o l t = some (r, t') ∧ I s' t' ∧ sim Q E (k r) s' t'

variable {H I}

/-- **Consequence.** -/
theorem sim_mono {Q Q' : α → σ → σ → Prop} {E E' : ε → σ → σ → Prop}
    (hQ : ∀ a s t, Q a s t → Q' a s t) (hE : ∀ e s t, E e s t → E' e s t)
    {p : Coro Resp ε α} {s t : σ} (h : sim H I Q E p s t) : sim H I Q' E' p s t := by
  induction p generalizing s t with
  | pure a => exact hQ a s t h
  | raise e => exact hE e s t h
  | await o k ih =>
      intro l r s' hH
      obtain ⟨t', hH', hI, hk⟩ := h l r s' hH
      exact ⟨t', hH', hI, ih r hk⟩

/-- **Sequencing.** -/
theorem sim_bind {Q : β → σ → σ → Prop} {E : ε → σ → σ → Prop} {p : Coro Resp ε α}
    {f : α → Coro Resp ε β} {s t : σ}
    (h : sim H I (fun a s t => sim H I Q E (f a) s t) E p s t) :
    sim H I Q E (p >>= f) s t := by
  induction p generalizing s t with
  | pure a => exact h
  | raise e => exact h
  | await o k ih =>
      intro l r s' hH
      obtain ⟨t', hH', hI, hk⟩ := h l r s' hH
      exact ⟨t', hH', hI, ih r hk⟩

/-- **Exceptions.** -/
theorem sim_tryCatch {Q : α → σ → σ → Prop} {E : ε → σ → σ → Prop} {p : Coro Resp ε α}
    {h : ε → Coro Resp ε α} {s t : σ}
    (hp : sim H I Q (fun e s t => sim H I Q E (h e) s t) p s t) :
    sim H I Q E (tryCatch p h) s t := by
  induction p generalizing s t with
  | pure a => exact hp
  | raise e => exact hp
  | await o k ih =>
      intro l r s' hH
      obtain ⟨t', hH', hI, hk⟩ := hp l r s' hH
      exact ⟨t', hH', hI, ih r hk⟩

/-- **Loops** whose rounds all keep `I`. -/
theorem sim_forEach {E : ε → σ → σ → Prop} {f : β → Coro Resp ε Unit} {xs : List β}
    (hstep : ∀ x ∈ xs, ∀ s t, I s t → sim H I (fun _ => I) E (f x) s t)
    {s t : σ} (hI : I s t) : sim H I (fun _ => I) E (forEach xs f) s t := by
  induction xs generalizing s t with
  | nil => exact hI
  | cons x xs ih =>
      rw [forEach_cons]
      apply sim_bind
      apply sim_mono _ (fun _ _ _ he => he) (hstep x List.mem_cons_self s t hI)
      intro _ s' t' hI'
      exact ih (fun y hy => hstep y (List.mem_cons_of_mem x hy)) hI'

/-- **Footprints.**  Programs whose operations all do the same in both worlds. -/
theorem sim_of_uses {φ : Op → Prop} {ρ : α → Prop} {J : σ → σ → Prop}
    (hJ : ∀ s t, J s t → I s t)
    (hH : ∀ o l s t r s', φ o → J s t → H o l s = some (r, s') →
      ∃ t', H o l t = some (r, t') ∧ J s' t')
    {p : Coro Resp ε α} (hp : Uses φ ρ p) {s t : σ} (h : J s t) :
    sim H I (fun a s t => ρ a ∧ J s t) (fun _ => J) p s t := by
  induction p generalizing s t with
  | pure a => exact ⟨hp, h⟩
  | raise e => exact h
  | await o k ih =>
      intro l r s' hr
      obtain ⟨t', hr', hJ'⟩ := hH o l s t r s' hp.1 h hr
      exact ⟨t', hr', hJ _ _ hJ', ih r (hp.2 r) hJ'⟩

/-- **Runs.**  Fed with the same labels, `p` is left at the same point. -/
theorem run_sim {Q : α → σ → σ → Prop} {E : ε → σ → σ → Prop} {ls : List Λ}
    {p p' : Coro Resp ε α} {s s' t : σ} (h : sim H I Q E p s t) (hI : I s t)
    (hrun : run H ls p s = some (p', s')) :
    ∃ t', run H ls p t = some (p', t') ∧ I s' t' := by
  induction ls generalizing p s t with
  | nil =>
      simp only [run, Option.some.injEq, Prod.mk.injEq] at hrun
      obtain ⟨rfl, rfl⟩ := hrun
      exact ⟨t, rfl, hI⟩
  | cons l ls ih =>
      cases p with
      | pure a => exact absurd hrun (by simp [run])
      | raise e => exact absurd hrun (by simp [run])
      | await o k =>
          obtain ⟨r, s₁, hH, hrest⟩ := run_cons_await H hrun
          obtain ⟨t₁, hH', hI₁, hk⟩ := h l r s₁ hH
          obtain ⟨t', hrun', hI'⟩ := ih hk hI₁ hrest
          refine ⟨t', ?_, hI'⟩
          rw [run, hH']
          exact hrun'

end Pulse.Async.Coro
