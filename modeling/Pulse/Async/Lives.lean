/-
  Pulse.Async.Lives
  ─────────────────
  **A PROCESS THAT IS STARTED AGAIN AND AGAIN.**

  When it starts a process loads something from the world, and works with that to its
  end.  It is given one job after the other and can die at any await; the next process
  finds the world as it was left.

    • `Lives.step` — boots, jobs, answers, deaths and edits from outside as one system,
    • `boot_cases`, `take_cases`, `answer_cases`, `die_cases`, `edit_cases` — what each
                     requires, and where it leads.
-/
import Pulse.Async.Loop

namespace Pulse.Async

/-- The processes, one after the other, over one world. -/
structure Lives {Op : Type} (Resp : Op → Type) (ε S σ : Type) where
  world : σ
  /-- The number of the process. -/
  life : Nat
  alive : Bool
  /-- What the process loaded when it started. -/
  loaded : S
  /-- What is left to do of the last job. -/
  task : Coro Resp ε Unit

namespace Lives

/-- Labels `Λ`, jobs `J`, edits `D`. -/
inductive Action (Λ J D : Type) where
  | boot
  | take (job : J)
  | answer (l : Λ)
  | die
  | edit (d : D)

variable {Op : Type} {Resp : Op → Type} {ε S σ Λ J D : Type}

/-- Alive and without a job. -/
def ready (c : Lives Resp ε S σ) : Bool := c.alive && c.task.returned

/-- One action.  An edit may have to wait. -/
def step (H : Nat → (o : Op) → Λ → σ → Option (Resp o × σ)) (load : σ → S)
    (prog : S → J → Coro Resp ε Unit) (drop : Nat → σ → σ) (edit : D → σ → Option σ)
    (c : Lives Resp ε S σ) : Action Λ J D → Option (Lives Resp ε S σ)
  | .boot =>
      if c.alive then none
      else some { c with
        life := c.life + 1
        alive := true
        loaded := load c.world
        task := .pure () }
  | .take job => if c.ready then some { c with task := prog c.loaded job } else none
  | .answer l =>
      match c.task with
      | .await o k =>
          match H c.life o l c.world with
          | some (r, s) => some { c with world := s, task := k r }
          | none => none
      | _ => none
  | .die =>
      if c.alive then
        some { c with world := drop c.life c.world, alive := false, task := .pure () }
      else none
  | .edit d =>
      match edit d c.world with
      | some s => some { c with world := s }
      | none => none

variable {H : Nat → (o : Op) → Λ → σ → Option (Resp o × σ)} {load : σ → S}
  {prog : S → J → Coro Resp ε Unit} {drop : Nat → σ → σ} {edit : D → σ → Option σ}
  {c c' : Lives Resp ε S σ}

/-- A process is started when none lives. -/
theorem boot_cases (h : step H load prog drop edit c .boot = some c') :
    c.alive = false ∧
      c' = { c with life := c.life + 1, alive := true, loaded := load c.world, task := .pure () } := by
  simp only [step] at h
  split at h
  next => exact absurd h (by simp)
  next hdead => exact ⟨Bool.eq_false_iff.mpr hdead, (Option.some.inj h).symm⟩

/-- A process that lives takes a job when it is done with the last. -/
theorem take_cases {job : J} (h : step H load prog drop edit c (.take job) = some c') :
    c.alive = true ∧ c.task.returned = true ∧ c' = { c with task := prog c.loaded job } := by
  simp only [step] at h
  split at h
  next hready =>
    obtain ⟨halive, hidle⟩ := Bool.and_eq_true_iff.mp hready
    exact ⟨halive, hidle, (Option.some.inj h).symm⟩
  next => exact absurd h (by simp)

/-- The process is answered what it awaits. -/
theorem answer_cases {l : Λ} (h : step H load prog drop edit c (.answer l) = some c') :
    ∃ o k r s, c.task = .await o k ∧ H c.life o l c.world = some (r, s) ∧
      c' = { c with world := s, task := k r } := by
  simp only [step] at h
  split at h
  next o k htask =>
    split at h
    next r s hperf => exact ⟨o, k, r, s, htask, hperf, (Option.some.inj h).symm⟩
    next => exact absurd h (by simp)
  next => exact absurd h (by simp)

/-- A process that lives dies. -/
theorem die_cases (h : step H load prog drop edit c .die = some c') :
    c.alive = true ∧
      c' = { c with world := drop c.life c.world, alive := false, task := .pure () } := by
  simp only [step] at h
  split at h
  next halive => exact ⟨halive, (Option.some.inj h).symm⟩
  next => exact absurd h (by simp)

/-- The world is edited, and the process does not notice. -/
theorem edit_cases {d : D} (h : step H load prog drop edit c (.edit d) = some c') :
    ∃ s, edit d c.world = some s ∧ c' = { c with world := s } := by
  simp only [step] at h
  split at h
  next s hedit => exact ⟨s, hedit, (Option.some.inj h).symm⟩
  next => exact absurd h (by simp)

end Lives

end Pulse.Async
