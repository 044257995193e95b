/-
  Pulse.Async.Loop
  ────────────────
  **LOOPS THAT NEVER END.**

  `while True` is not a coroutine, which is a finite tree.  A loop is the state
  machine around one: its body is started with a state, and started again with
  the state it returned.

    • `Loop.sound` — if every round keeps `J` at every operation and hands `I`
      on, every reachable state satisfies `J`.
-/
import Pulse.Async.Pool

namespace Pulse.Async

/-- A loop in the middle of a round. -/
structure Loop {Op : Type} (Resp : Op → Type) (ε S σ : Type) where
  world : σ
  task : Coro Resp ε S

namespace Loop

inductive Action (Λ : Type) where
  /-- The awaited operation is answered. -/
  | answer (l : Λ)
  /-- The round is over and the next one starts. -/
  | again

variable {Op : Type} {Resp : Op → Type} {ε S Λ σ : Type}

/-- One action of the loop. -/
def step (H : (o : Op) → Λ → σ → Option (Resp o × σ)) (body : S → Coro Resp ε S)
    (c : Loop Resp ε S σ) : Action Λ → Option (Loop Resp ε S σ)
  | .answer l =>
      match c.task with
      | .await o k =>
          match H o l c.world with
          | some (r, s) => some ⟨s, k r⟩
          | none => none
      | _ => none
  | .again =>
      match c.task with
      | .pure s => some { c with task := body s }
      | _ => none

/-- The side condition `ok` on every operation that is answered. -/
def Meets (ok : Op → Λ → σ → Prop) (c : Loop Resp ε S σ) : Action Λ → Prop
  | .answer l =>
      match c.task with
      | .await o _ => ok o l c.world
      | _ => True
  | .again => True

instance {ok : Op → Λ → σ → Prop} [∀ o l s, Decidable (ok o l s)] :
    (c : Loop Resp ε S σ) → (a : Action Λ) → Decidable (Meets ok c a)
  | ⟨w, .await o _⟩, .answer l => inferInstanceAs (Decidable (ok o l w))
  | ⟨_, .pure _⟩, .answer _ | ⟨_, .raise _⟩, .answer _ | _, .again =>
      inferInstanceAs (Decidable True)

variable {H : (o : Op) → Λ → σ → Option (Resp o × σ)} {ok : Op → Λ → σ → Prop}
  {body : S → Coro Resp ε S} {J : σ → Prop} {I : S → σ → Prop} {E : ε → σ → Prop}

/-- **The loop rule.** -/
theorem sound (hbody : ∀ s w, J w → I s w →
      Coro.wp H ok Eq (fun _ w' => J w') I E (body s) w)
    {c c' : Loop Resp ε S σ} (hJ : J c.world)
    (htask : Coro.wp H ok Eq (fun _ w' => J w') I E c.task c.world)
    (hrun : Reaches (step H body) (Meets ok) c c') : J c'.world := by
  have hsound : J c'.world ∧ Coro.wp H ok Eq (fun _ w' => J w') I E c'.task c'.world := by
    refine hrun.invariant (I := fun c => J c.world ∧
      Coro.wp H ok Eq (fun _ w' => J w') I E c.task c.world) ?_ ⟨hJ, htask⟩
    rintro ⟨w, task⟩ a d ⟨hw, hwp⟩ hok hstep
    cases a with
    | answer l =>
        cases task with
        | pure s => exact absurd hstep (by simp [step])
        | raise e => exact absurd hstep (by simp [step])
        | await o k =>
            simp only [step] at hstep
            split at hstep
            next r w' hperf =>
              obtain rfl := Option.some.inj hstep
              exact hwp w rfl l r w' hok hperf
            next => exact absurd hstep (by simp)
    | again =>
        cases task with
        | pure s =>
            obtain rfl := Option.some.inj hstep
            exact ⟨hw, hbody s w hw hwp⟩
        | raise e => exact absurd hstep (by simp [step])
        | await o k => exact absurd hstep (by simp [step])
  exact hsound.1

end Loop

end Pulse.Async
