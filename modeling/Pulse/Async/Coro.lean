/-
  Pulse.Async.Coro
  ────────────────
  **COROUTINES THAT AWAIT OPERATIONS.**

  A coroutine either returns, raises, or awaits an operation `o : Op` and goes
  on with whatever answer of type `Resp o` it is given.  The tree fixes the
  program text alone; what an operation does to the world is a HANDLER, given
  from outside:

      H : (o : Op) → Λ → σ → Option (Resp o × σ)

  The label `Λ` resolves every choice the world makes (what a peer answers,
  what the clock reads, whether a statement fails).  `none` means that the
  operation cannot be answered in this state under this label: it waits.

    • `run`  — one coroutine alone, fed with a list of labels; a PREFIX of a
      run is a run that stopped at an await, so a crash is a short run,
    • `Uses` — the footprint: what the text can issue and return at all,
    • `Leads` — the footprint up to a given point of the text,
    • `wp`   — rely and guarantee: between two awaits the world moves along a
      relation `R`, and every operation answered moves it along `G`.

  Nothing here mentions a particular program.
-/
import Mathlib.Logic.Function.Basic

namespace Pulse.Async

/-- A coroutine over the operations `Op`, answered by `Resp`. -/
inductive Coro {Op : Type} (Resp : Op → Type) (ε α : Type) : Type where
  /-- Returned `a`. -/
  | pure (a : α)
  /-- Raised `e`, uncaught so far. -/
  | raise (e : ε)
  /-- Awaits the answer to `o`. -/
  | await (o : Op) (k : Resp o → Coro Resp ε α)

namespace Coro

variable {Op : Type} {Resp : Op → Type} {ε α β γ : Type}

/-! ## §1. The monad and its exceptions. -/

/-- Sequencing; a raised exception skips the rest. -/
def bind : Coro Resp ε α → (α → Coro Resp ε β) → Coro Resp ε β
  | .pure a, f => f a
  | .raise e, _ => .raise e
  | .await o k, f => .await o (fun r => (k r).bind f)

/-- `try p except h`. -/
def handle : Coro Resp ε α → (ε → Coro Resp ε α) → Coro Resp ε α
  | .pure a, _ => .pure a
  | .raise e, h => h e
  | .await o k, h => .await o (fun r => (k r).handle h)

instance : Monad (Coro Resp ε) where
  pure := .pure
  bind := .bind

instance : MonadExcept ε (Coro Resp ε) where
  throw := .raise
  tryCatch := .handle

/-- Issue one operation and return its answer. -/
def perform (o : Op) : Coro Resp ε (Resp o) := .await o .pure

/-- Return a value or raise an exception that was computed without awaiting. -/
def ofExcept : Except ε α → Coro Resp ε α
  | .ok a => .pure a
  | .error e => .raise e

/-- Run `f` on each element in turn. -/
def forEach : List β → (β → Coro Resp ε Unit) → Coro Resp ε Unit
  | [], _ => .pure ()
  | x :: xs, f => (f x).bind (fun _ => forEach xs f)

@[simp] theorem pure_eq (a : α) : (Pure.pure a : Coro Resp ε α) = .pure a := rfl

@[simp] theorem throw_eq (e : ε) : (throw e : Coro Resp ε α) = .raise e := rfl

@[simp] theorem pure_bind (a : α) (f : α → Coro Resp ε β) :
    (Coro.pure a : Coro Resp ε α) >>= f = f a := rfl

@[simp] theorem raise_bind (e : ε) (f : α → Coro Resp ε β) :
    (Coro.raise e : Coro Resp ε α) >>= f = .raise e := rfl

@[simp] theorem await_bind (o : Op) (k : Resp o → Coro Resp ε α)
    (f : α → Coro Resp ε β) :
    (Coro.await o k) >>= f = .await o (fun r => k r >>= f) := rfl

theorem forEach_cons (x : β) (xs : List β) (f : β → Coro Resp ε Unit) :
    forEach (x :: xs) f = f x >>= fun _ => forEach xs f := rfl

/-- Returned or raised: nothing is awaited any more. -/
def finished : Coro Resp ε α → Bool
  | .await _ _ => false
  | _ => true

/-- Returned. -/
def returned : Coro Resp ε α → Bool
  | .pure _ => true
  | _ => false

theorem returned_iff {p : Coro Resp ε α} : p.returned = true ↔ ∃ a, p = .pure a := by
  cases p <;> simp [returned]

/-! ## §2. Footprints. -/

/-- Whatever its operations are answered, every operation `p` issues satisfies
`φ` and every value it returns satisfies `ρ`. -/
def Uses (φ : Op → Prop) (ρ : α → Prop) : Coro Resp ε α → Prop
  | .pure a => ρ a
  | .raise _ => True
  | .await o k => φ o ∧ ∀ r, Uses φ ρ (k r)

theorem Uses.mono {φ φ' : Op → Prop} {ρ ρ' : α → Prop} (h : ∀ o, φ o → φ' o)
    (hρ : ∀ a, ρ a → ρ' a) {p : Coro Resp ε α} (hp : Uses φ ρ p) : Uses φ' ρ' p := by
  induction p with
  | pure a => exact hρ a hp
  | raise e => trivial
  | await o k ih => exact ⟨h o hp.1, fun r => ih r (hp.2 r)⟩

theorem uses_trivial (p : Coro Resp ε α) : Uses (fun _ => True) (fun _ => True) p := by
  induction p with
  | pure a => trivial
  | raise e => trivial
  | await o k ih => exact ⟨trivial, ih⟩

theorem Uses.bind {φ : Op → Prop} {ρ : α → Prop} {ρ' : β → Prop} {p : Coro Resp ε α}
    {f : α → Coro Resp ε β} (hp : Uses φ ρ p) (hf : ∀ a, ρ a → Uses φ ρ' (f a)) :
    Uses φ ρ' (p >>= f) := by
  induction p with
  | pure a => exact hf a hp
  | raise e => trivial
  | await o k ih => exact ⟨hp.1, fun r => ih r (hp.2 r)⟩

theorem Uses.tryCatch {φ : Op → Prop} {ρ : α → Prop} {p : Coro Resp ε α}
    {h : ε → Coro Resp ε α} (hp : Uses φ ρ p) (hh : ∀ e, Uses φ ρ (h e)) :
    Uses φ ρ (tryCatch p h) := by
  induction p with
  | pure a => exact hp
  | raise e => exact hh e
  | await o k ih => exact ⟨hp.1, fun r => ih r (hp.2 r)⟩

theorem Uses.forEach {φ : Op → Prop} {f : β → Coro Resp ε Unit} {xs : List β}
    (hf : ∀ x ∈ xs, Uses φ (fun _ => True) (f x)) :
    Uses φ (fun _ => True) (forEach xs f) := by
  induction xs with
  | nil => trivial
  | cons x xs ih =>
      rw [forEach_cons]
      exact (hf x List.mem_cons_self).bind
        (fun _ _ => ih (fun y hy => hf y (List.mem_cons_of_mem _ hy)))

/-- Some answers make `p` return `a`. -/
def MayReturn : Coro Resp ε α → α → Prop
  | .pure b, a => b = a
  | .raise _, _ => False
  | .await _ k, a => ∃ r, (k r).MayReturn a

/-- What is returned is among what may be. -/
theorem Uses.mayReturn {φ : Op → Prop} {ρ : α → Prop} {p : Coro Resp ε α} (hp : Uses φ ρ p) :
    Uses φ (fun a => ρ a ∧ p.MayReturn a) p := by
  induction p with
  | pure a => exact ⟨hp, rfl⟩
  | raise e => trivial
  | await o k ih =>
      refine ⟨hp.1, fun r => (ih r (hp.2 r)).mono (fun _ ho => ho) fun a ha => ⟨ha.1, r, ha.2⟩⟩

theorem Uses.ofExcept {φ : Op → Prop} (r : Except ε α) :
    Uses φ (fun _ => True) (ofExcept r : Coro Resp ε α) := by
  cases r <;> trivial

/-- `p` issues operations in `φ` until it satisfies `P`, which it does before it
ends. -/
def Leads (φ : Op → Prop) (P : Coro Resp ε α → Prop) : Coro Resp ε α → Prop
  | .pure a => P (.pure a)
  | .raise e => P (.raise e)
  | .await o k => P (.await o k) ∨ (φ o ∧ ∀ r, Leads φ P (k r))

theorem Leads.of {φ : Op → Prop} {P : Coro Resp ε α → Prop} {p : Coro Resp ε α}
    (h : P p) : Leads φ P p := by
  cases p with
  | pure a => exact h
  | raise e => exact h
  | await o k => exact Or.inl h

theorem Leads.bind {φ : Op → Prop} {ρ : α → Prop} {P : Coro Resp ε β → Prop}
    {p : Coro Resp ε α} {f : α → Coro Resp ε β} (hp : Uses φ ρ p)
    (hf : ∀ a, ρ a → Leads φ P (f a)) (he : ∀ e, P (.raise e)) :
    Leads φ P (p >>= f) := by
  induction p with
  | pure a => exact hf a hp
  | raise e => exact he e
  | await o k ih => exact Or.inr ⟨hp.1, fun r => ih r (hp.2 r)⟩

/-- In a `try`, exceptions of the first part go to the handler. -/
theorem Leads.tryCatch_bind {φ : Op → Prop} {ρ : α → Prop} {P : Coro Resp ε β → Prop}
    {p : Coro Resp ε α} {f : α → Coro Resp ε β} {h : ε → Coro Resp ε β}
    (hp : Uses φ ρ p) (hf : ∀ a, ρ a → Leads φ P (tryCatch (f a) h))
    (he : ∀ e, Leads φ P (h e)) : Leads φ P (tryCatch (p >>= f) h) := by
  induction p with
  | pure a => exact hf a hp
  | raise e => exact he e
  | await o k ih => exact Or.inr ⟨hp.1, fun r => ih r (hp.2 r)⟩

/-! ## §3. Running one coroutine. -/

section Run

variable {Λ σ : Type} (H : (o : Op) → Λ → σ → Option (Resp o × σ))

/-- Feed a list of labels to a coroutine: what is left of it, and the world it
left behind.  `none` when a label cannot answer the awaited operation. -/
def run : List Λ → Coro Resp ε α → σ → Option (Coro Resp ε α × σ)
  | [], p, s => some (p, s)
  | l :: ls, .await o k, s =>
      match H o l s with
      | some (r, s') => run ls (k r) s'
      | none => none
  | _ :: _, _, _ => none

theorem run_cons_await {l : Λ} {ls : List Λ} {o : Op}
    {k : Resp o → Coro Resp ε α} {s : σ} {out : Coro Resp ε α × σ}
    (h : run H (l :: ls) (.await o k) s = some out) :
    ∃ r s', H o l s = some (r, s') ∧ run H ls (k r) s' = some out := by
  simp only [run] at h
  cases hH : H o l s with
  | none => rw [hH] at h; exact absurd h (by simp)
  | some rs => rw [hH] at h; exact ⟨rs.1, rs.2, rfl, h⟩

theorem run_await {l : Λ} {ls : List Λ} {o : Op} {k : Resp o → Coro Resp ε α} {s : σ} :
    run H (l :: ls) (.await o k) s = (H o l s).bind fun out => run H ls (k out.1) out.2 := by
  simp only [run]
  cases H o l s with
  | none => rfl
  | some out => rfl

/-- A part that returned, and then the rest. -/
theorem run_bind {ls ls' : List Λ} {p : Coro Resp ε α} {f : α → Coro Resp ε β} {s s' : σ} {a : α}
    (h : run H ls p s = some (.pure a, s')) :
    run H (ls ++ ls') (p >>= f) s = run H ls' (f a) s' := by
  induction ls generalizing p s with
  | nil =>
      obtain ⟨rfl, rfl⟩ := Prod.mk.inj (Option.some.inj h)
      rfl
  | cons l ls ih =>
      cases p with
      | pure b => exact absurd h (by simp [run])
      | raise e => exact absurd h (by simp [run])
      | await o k =>
          obtain ⟨r, s₁, hH, hrest⟩ := run_cons_await H h
          rw [await_bind, List.cons_append, run_await, hH]
          exact ih hrest

/-- A part that raised ends the whole. -/
theorem run_bind_raise {ls : List Λ} {p : Coro Resp ε α} {f : α → Coro Resp ε β} {s s' : σ} {e : ε}
    (h : run H ls p s = some (.raise e, s')) : run H ls (p >>= f) s = some (.raise e, s') := by
  induction ls generalizing p s with
  | nil =>
      obtain ⟨rfl, rfl⟩ := Prod.mk.inj (Option.some.inj h)
      rfl
  | cons l ls ih =>
      cases p with
      | pure b => exact absurd h (by simp [run])
      | raise e => exact absurd h (by simp [run])
      | await o k =>
          obtain ⟨r, s₁, hH, hrest⟩ := run_cons_await H h
          rw [await_bind, run_await, hH]
          exact ih hrest

/-- A part inside a `try`: what was not raised is left to go on inside it. -/
theorem run_tryCatch {ls : List Λ} {p p' : Coro Resp ε α} {h : ε → Coro Resp ε α} {s s' : σ}
    (hrun : run H ls p s = some (p', s')) :
    run H ls (tryCatch p h) s = some (tryCatch p' h, s') := by
  induction ls generalizing p s with
  | nil =>
      obtain ⟨rfl, rfl⟩ := Prod.mk.inj (Option.some.inj hrun)
      rfl
  | cons l ls ih =>
      cases p with
      | pure b => exact absurd hrun (by simp [run])
      | raise e => exact absurd hrun (by simp [run])
      | await o k =>
          obtain ⟨r, s₁, hH, hrest⟩ := run_cons_await H hrun
          show run H (l :: ls) (.await o fun r => tryCatch (k r) h) s = some (tryCatch p' h, s')
          rw [run_await, hH]
          exact ih hrest

/-- A label that answers every operation a coroutine can issue runs it to its end. -/
theorem run_completes_of_uses {φ : Op → Prop} {ρ : α → Prop} {l : Λ}
    (hl : ∀ o s, φ o → (H o l s).isSome) {p : Coro Resp ε α} (hp : Uses φ ρ p) (s : σ) :
    ∃ n p' s', p'.finished = true ∧ run H (List.replicate n l) p s = some (p', s') := by
  induction p generalizing s with
  | pure a => exact ⟨0, .pure a, s, rfl, rfl⟩
  | raise e => exact ⟨0, .raise e, s, rfl, rfl⟩
  | await o k ih =>
      obtain ⟨⟨r, s₁⟩, hH⟩ := Option.isSome_iff_exists.mp (hl o s hp.1)
      obtain ⟨n, p', s', hend, hrun⟩ := ih r (hp.2 r) s₁
      refine ⟨n + 1, p', s', hend, ?_⟩
      rw [List.replicate_succ, run_await, hH]
      exact hrun

/-- A label that answers every operation runs a coroutine to its end. -/
theorem run_completes {l : Λ} (hl : ∀ o s, (H o l s).isSome) (p : Coro Resp ε α) (s : σ) :
    ∃ n p' s', p'.finished = true ∧ run H (List.replicate n l) p s = some (p', s') :=
  run_completes_of_uses H (fun o s _ => hl o s) p.uses_trivial s

end Run

/-! ## §4. Rely and guarantee. -/

section Wp

variable {Λ σ : Type} (H : (o : Op) → Λ → σ → Option (Resp o × σ))
  (ok : Op → Λ → σ → Prop) (R G : σ → σ → Prop)

/-- `wp p s`: run from `s` with answers that satisfy `ok`, while the rest of the
system moves the world along the RELY `R` before each operation is answered,
every operation of `p` moves it along the GUARANTEE `G`, and `p` ends in `Q` if
it returns and in `E` if it raises. -/
def wp (Q : α → σ → Prop) (E : ε → σ → Prop) : Coro Resp ε α → σ → Prop
  | .pure a, s => Q a s
  | .raise e, s => E e s
  | .await o k, s => ∀ s₁, R s s₁ →
      ∀ l r s₂, ok o l s₁ → H o l s₁ = some (r, s₂) → G s₁ s₂ ∧ wp Q E (k r) s₂

variable {H ok R G}

@[simp] theorem wp_pure {Q : α → σ → Prop} {E : ε → σ → Prop} {a : α} {s : σ} :
    wp H ok R G Q E (.pure a : Coro Resp ε α) s ↔ Q a s := Iff.rfl

@[simp] theorem wp_raise {Q : α → σ → Prop} {E : ε → σ → Prop} {e : ε} {s : σ} :
    wp H ok R G Q E (.raise e : Coro Resp ε α) s ↔ E e s := Iff.rfl

/-- **Consequence.** -/
theorem wp_mono {Q Q' : α → σ → Prop} {E E' : ε → σ → Prop}
    (hQ : ∀ a s, Q a s → Q' a s) (hE : ∀ e s, E e s → E' e s)
    {p : Coro Resp ε α} {s : σ} (h : wp H ok R G Q E p s) :
    wp H ok R G Q' E' p s := by
  induction p generalizing s with
  | pure a => exact hQ a s h
  | raise e => exact hE e s h
  | await o k ih =>
      intro s₁ hR l r s₂ hl hH
      obtain ⟨hG, hk⟩ := h s₁ hR l r s₂ hl hH
      exact ⟨hG, ih r hk⟩

/-- **Conjunction.** -/
theorem wp_and {Q Q' : α → σ → Prop} {E E' : ε → σ → Prop} {p : Coro Resp ε α} {s : σ}
    (h : wp H ok R G Q E p s) (h' : wp H ok R G Q' E' p s) :
    wp H ok R G (fun a s => Q a s ∧ Q' a s) (fun e s => E e s ∧ E' e s) p s := by
  induction p generalizing s with
  | pure a => exact ⟨h, h'⟩
  | raise e => exact ⟨h, h'⟩
  | await o k ih =>
      intro s₁ hR l r s₂ hl hH
      obtain ⟨hG, hk⟩ := h s₁ hR l r s₂ hl hH
      exact ⟨hG, ih r hk (h' s₁ hR l r s₂ hl hH).2⟩

/-- **Two guarantees** that were proved apart. -/
theorem wp_inter {G' : σ → σ → Prop} {Q Q' : α → σ → Prop} {E E' : ε → σ → Prop}
    {p : Coro Resp ε α} {s : σ} (h : wp H ok R G Q E p s) (h' : wp H ok R G' Q' E' p s) :
    wp H ok R (fun s s' => G s s' ∧ G' s s') (fun a s => Q a s ∧ Q' a s)
      (fun e s => E e s ∧ E' e s) p s := by
  induction p generalizing s with
  | pure a => exact ⟨h, h'⟩
  | raise e => exact ⟨h, h'⟩
  | await o k ih =>
      intro s₁ hR l r s₂ hl hH
      obtain ⟨hG, hk⟩ := h s₁ hR l r s₂ hl hH
      obtain ⟨hG', hk'⟩ := h' s₁ hR l r s₂ hl hH
      exact ⟨⟨hG, hG'⟩, ih r hk hk'⟩

/-- **A quieter system and a weaker guarantee.** -/
theorem wp_weaken {R' G' : σ → σ → Prop} {Q : α → σ → Prop} {E : ε → σ → Prop}
    (hR : ∀ s s', R' s s' → R s s') (hG : ∀ s s', G s s' → G' s s')
    {p : Coro Resp ε α} {s : σ} (h : wp H ok R G Q E p s) : wp H ok R' G' Q E p s := by
  induction p generalizing s with
  | pure a => exact h
  | raise e => exact h
  | await o k ih =>
      intro s₁ hs l r s₂ hl hH
      obtain ⟨hG₂, hk⟩ := h s₁ (hR s s₁ hs) l r s₂ hl hH
      exact ⟨hG s₁ s₂ hG₂, ih r hk⟩

/-- Nothing is asked. -/
theorem wp_trivial (p : Coro Resp ε α) (s : σ) :
    wp H ok R (fun _ _ => True) (fun _ _ => True) (fun _ _ => True) p s := by
  induction p generalizing s with
  | pure a => trivial
  | raise e => trivial
  | await o k ih => exact fun s₁ _ l r s₂ _ _ => ⟨trivial, ih r s₂⟩

/-- **Sequencing.** -/
theorem wp_bind {Q : β → σ → Prop} {E : ε → σ → Prop} {p : Coro Resp ε α}
    {f : α → Coro Resp ε β} {s : σ}
    (h : wp H ok R G (fun a s => wp H ok R G Q E (f a) s) E p s) :
    wp H ok R G Q E (p >>= f) s := by
  induction p generalizing s with
  | pure a => exact h
  | raise e => exact h
  | await o k ih =>
      intro s₁ hR l r s₂ hl hH
      obtain ⟨hG, hk⟩ := h s₁ hR l r s₂ hl hH
      exact ⟨hG, ih r hk⟩

/-- **Exceptions.** -/
theorem wp_tryCatch {Q : α → σ → Prop} {E : ε → σ → Prop} {p : Coro Resp ε α}
    {h : ε → Coro Resp ε α} {s : σ}
    (hp : wp H ok R G Q (fun e s => wp H ok R G Q E (h e) s) p s) :
    wp H ok R G Q E (tryCatch p h) s := by
  induction p generalizing s with
  | pure a => exact hp
  | raise e => exact hp
  | await o k ih =>
      intro s₁ hR l r s₂ hl hH
      obtain ⟨hG, hk⟩ := hp s₁ hR l r s₂ hl hH
      exact ⟨hG, ih r hk⟩

/-- **Loops.**  An invariant indexed by what is still to be done. -/
theorem wp_forEach {I : List β → σ → Prop} {E : ε → σ → Prop}
    {f : β → Coro Resp ε Unit}
    (hstep : ∀ x xs s, I (x :: xs) s →
      wp H ok R G (fun _ s' => I xs s') E (f x) s) :
    ∀ (xs : List β) (s : σ), I xs s →
      wp H ok R G (fun _ s' => I [] s') E (forEach xs f) s := by
  intro xs
  induction xs with
  | nil => intro s hI; exact hI
  | cons x xs ih =>
      intro s hI
      rw [forEach_cons]
      exact wp_bind (wp_mono (fun _ s' hI' => ih s' hI') (fun _ _ he => he)
        (hstep x xs s hI))

/-- **Footprints.**  What the rest of the system and every operation `p` can
issue keep, `p` keeps. -/
theorem wp_of_uses {φ : Op → Prop} {ρ : α → Prop} {I : σ → Prop} (hR : ∀ s s', R s s' → I s → I s')
    (hH : ∀ o l s r s', φ o → ok o l s → H o l s = some (r, s') → I s → G s s' ∧ I s')
    {p : Coro Resp ε α} (hp : Uses φ ρ p) {s : σ} (hI : I s) :
    wp H ok R G (fun a s' => ρ a ∧ I s') (fun _ s' => I s') p s := by
  induction p generalizing s with
  | pure a => exact ⟨hp, hI⟩
  | raise e => exact hI
  | await o k ih =>
      intro s₁ hs l r s₂ hl hr
      obtain ⟨hG, hI₂⟩ := hH o l s₁ r s₂ hp.1 hl hr (hR s s₁ hs hI)
      exact ⟨hG, ih r (hp.2 r) hI₂⟩

/-- **Frame.**  What neither the rest of the system nor an operation breaks stays true. -/
theorem wp_frame {J : σ → Prop} {Q : α → σ → Prop} {E : ε → σ → Prop}
    (hR : ∀ s s', R s s' → J s → J s') (hG : ∀ s s', G s s' → J s → J s')
    {p : Coro Resp ε α} {s : σ} (h : wp H ok R G Q E p s) (hJ : J s) :
    wp H ok R G (fun a s => Q a s ∧ J s) (fun e s => E e s ∧ J s) p s := by
  induction p generalizing s with
  | pure a => exact ⟨h, hJ⟩
  | raise e => exact ⟨h, hJ⟩
  | await o k ih =>
      intro s₁ hs l r s₂ hl hH
      obtain ⟨hmove, hk⟩ := h s₁ hs l r s₂ hl hH
      exact ⟨hmove, ih r hk (hG s₁ s₂ hmove (hR s s₁ hs hJ))⟩

/-- **Interference.**  A step of the rest of the system leaves `wp` as it is. -/
theorem wp_rely {Q : α → σ → Prop} {E : ε → σ → Prop}
    (htrans : ∀ s s' s'', R s s' → R s' s'' → R s s'')
    (hQ : ∀ a s s', R s s' → Q a s → Q a s')
    (hE : ∀ e s s', R s s' → E e s → E e s')
    {p : Coro Resp ε α} {s s' : σ} (hR : R s s') (h : wp H ok R G Q E p s) :
    wp H ok R G Q E p s' := by
  cases p with
  | pure a => exact hQ a s s' hR h
  | raise e => exact hE e s s' hR h
  | await o k => exact fun s₁ hs => h s₁ (htrans s s' s₁ hR hs)

/-- **Runs.**  Alone, a coroutine keeps its specification along every run. -/
theorem wp_run {Q : α → σ → Prop} {E : ε → σ → Prop} {ls : List Λ}
    {p p' : Coro Resp ε α} {s s' : σ} (hok : ∀ l ∈ ls, ∀ o s, ok o l s)
    (h : wp H ok Eq G Q E p s) (hrun : run H ls p s = some (p', s')) :
    wp H ok Eq G Q E p' s' := by
  induction ls generalizing p s with
  | nil =>
      simp only [run, Option.some.injEq, Prod.mk.injEq] at hrun
      obtain ⟨rfl, rfl⟩ := hrun
      exact h
  | cons l ls ih =>
      cases p with
      | pure a => exact absurd hrun (by simp [run])
      | raise e => exact absurd hrun (by simp [run])
      | await o k =>
          obtain ⟨r, s₁, hH, hrest⟩ := run_cons_await H hrun
          exact ih (fun l' hl' => hok l' (List.mem_cons_of_mem _ hl'))
            (h s rfl l r s₁ (hok l List.mem_cons_self o s) hH).2 hrest

/-- What every operation of a coroutine keeps holds wherever its run has come to. -/
theorem wp_run_keeps {I : σ → Prop} {Q : α → σ → Prop} {E : ε → σ → Prop} {ls : List Λ}
    {p p' : Coro Resp ε α} {s s' : σ} (hok : ∀ l ∈ ls, ∀ o s, ok o l s) (hI : I s)
    (h : wp H ok Eq (fun _ s' => I s') Q E p s) (hrun : run H ls p s = some (p', s')) : I s' := by
  induction ls generalizing p s with
  | nil =>
      simp only [run, Option.some.injEq, Prod.mk.injEq] at hrun
      obtain ⟨-, rfl⟩ := hrun
      exact hI
  | cons l ls ih =>
      cases p with
      | pure a => exact absurd hrun (by simp [run])
      | raise e => exact absurd hrun (by simp [run])
      | await o k =>
          obtain ⟨r, s₁, hH, hrest⟩ := run_cons_await H hrun
          obtain ⟨hI₁, hk⟩ := h s rfl l r s₁ (hok l List.mem_cons_self o s) hH
          exact ih (fun l' hl' => hok l' (List.mem_cons_of_mem _ hl')) hI₁ hk hrest

end Wp

end Coro

end Pulse.Async
