/-
  Pulse.Main.Lifetimes
  ────────────────────
  **CANDLES ACROSS CRASHES.**

  A worker process loads its rules and cursors, is given candles by the stream,
  one after the other, and dies at any await; the next process trusts the
  cursors.  The cursor of a candle is committed before its rules are evaluated,
  so a death in between skips the candle for good.

    • `no_candle_skipped`       — no candle is skipped as long as no process
                                  ends in that window and the stream leaves no
                                  unevaluated candle behind,
    • `no_candle_skipped_fails` — a process that dies there.
-/
import Pulse.Main.MainLoop
import Pulse.Evaluate.Alerts
import Pulse.Dispatch.Footprint

namespace Pulse

open Pulse.Async Pulse.Store

/-! ## §1. The system. -/

/-- A candle that `stream()` gave to the main loop: in which process, and with
which rules loaded. -/
structure Yield where
  life : Nat
  rules : List Rule
  candle : Candle

/-- The worker, and what it was given. -/
structure Process extends Worker where
  /-- The cursors it loaded and gave to `seed_last_seen`. -/
  seeds : String → Option Time
  /-- The candle it was given last. -/
  current : Option Candle
  /-- Every candle given to any process. -/
  yielded : List Yield

namespace Process

/-- The rules the process loaded. -/
abbrev rules (p : Process) : List Rule := p.loaded

inductive Action where
  /-- A new process loads the rules and the cursors. -/
  | boot
  /-- The stream yields a candle. -/
  | yield (candle : Candle)
  | answer (inp : Input)
  /-- The process dies, or ends with the exception that left the main loop. -/
  | die
  /-- Somebody edits the rules. -/
  | edit (rules : Table Rule.id)

/-- A candle that is newer than the seed of its symbol, if there is one. -/
def isNew (seeds : String → Option Time) (candle : Candle) : Bool :=
  match seeds (upper candle.symbol) with
  | none => true
  | some seed => seed < candle.timestamp

/-- One action. -/
def step (ruleClasses : RuleClasses) (p : Process) : Action → Option Process
  | .boot => (worker ruleClasses p.toLives .boot).map fun c =>
      { p with toLives := c, seeds := p.world.cursors, current := none }
  | .yield candle =>
      if isNew p.seeds candle then
        (worker ruleClasses p.toLives (.take candle)).map fun c => { p with
          toLives := c
          current := some candle
          yielded := p.yielded ++ [⟨p.life, p.rules, candle⟩] }
      else none
  | .answer inp => (worker ruleClasses p.toLives (.answer inp)).map fun c =>
      { p with toLives := c }
  | .die => (worker ruleClasses p.toLives .die).map fun c =>
      { p with toLives := c, current := none }
  | .edit rules =>
      (worker ruleClasses p.toLives (.edit ⟨rules, p.world.alerts, p.world.attempts⟩)).map
        fun c => { p with toLives := c }

/-! ## §2. What is asked, and on which condition it holds. -/

/-- The persisted cursor of the candle's symbol is at or past it. -/
def Past (w : World Nat) (candle : Candle) : Prop :=
  match w.cursors (upper candle.symbol) with
  | none => False
  | some t => candle.timestamp ≤ t

/-- `evaluate` was called for the rule on the candle. -/
def Called (w : World Nat) (life : Nat) (ruleId : RuleId) (candle : Candle) : Prop :=
  ∃ x ∈ w.calls, x.1 = life ∧ x.2.Evaluates ruleId candle

theorem Called.mono {w w' : World Nat} {life : Nat} {ruleId : RuleId} {candle : Candle}
    (h : Called w life ruleId candle) (hcalls : ∀ x ∈ w.calls, x ∈ w'.calls) :
    Called w' life ruleId candle := by
  obtain ⟨x, hx, hcall⟩ := h
  exact ⟨x, hcalls x hx, hcall⟩

/-- `evaluate` was called on the candle for each of `rules` that it concerns. -/
def CalledFor (w : World Nat) (life : Nat) (rules : List Rule) (candle : Candle) : Prop :=
  ∀ r ∈ symbolRules rules candle, Called w life r.id candle

/-- Some process that was given the candle has called `evaluate` for all rules. -/
def Evaluated (p : Process) (candle : Candle) : Prop :=
  ∃ y ∈ p.yielded, y.candle = candle ∧ CalledFor p.world y.life y.rules candle

/-- The main loop is not done with the candle. -/
def InProcess (p : Process) (candle : Candle) : Prop :=
  p.current = some candle ∧ p.task.returned = false

/-- A candle that was yielded, is past the cursor and is not being processed has
been evaluated. -/
def NoneSkipped (p : Process) : Prop :=
  ∀ y ∈ p.yielded, ¬ p.InProcess y.candle → Past p.world y.candle → p.Evaluated y.candle

/-- The candle in process is not past the cursor, or its rules were all called. -/
def EndsWell (p : Process) : Prop :=
  match p.current with
  | none => True
  | some candle => p.InProcess candle → Past p.world candle →
      CalledFor p.world p.life p.rules candle

/-- The process does not end between the commit of a candle's cursor and the call
for the last of its rules, and the stream passes over no candle it yielded
before that was not evaluated. -/
def Orderly (p : Process) : Action → Prop
  | .yield candle => ∀ y ∈ p.yielded, upper y.candle.symbol = upper candle.symbol →
      y.candle.timestamp ≤ candle.timestamp → p.Evaluated y.candle ∨ y.candle = candle
  | .die => p.EndsWell
  | _ => True

end Process

/-! ## §3. One operation of a process. -/

/-- An operation that moves no cursor but that of `candle`, and that one to it. -/
def Op.handles (candle : Candle) : Op → Prop
  | .commitCursor _ symbol timestamp =>
      symbol = upper candle.symbol ∧ timestamp = candle.timestamp
  | _ => True

namespace World

/-- What the processing of `candle` does to the cursors and the calls. -/
structure Moves (candle : Candle) (w w' : World Nat) : Prop where
  calls : ∀ x ∈ w.calls, x ∈ w'.calls
  cursors : w'.cursors = w.cursors ∨
    w'.cursors = Function.update w.cursors (upper candle.symbol) (some candle.timestamp)

/-- What others do meanwhile. -/
structure Aside (w w' : World Nat) : Prop where
  calls : w'.calls = w.calls
  cursors : w'.cursors = w.cursors

variable {candle : Candle} {w w' : World Nat}

/-- What operation `o` does to the calls, the candle rows and the cursors. -/
structure Progress (o : Op) (w w' : World Nat) : Prop where
  calls : ∀ x ∈ w.calls, x ∈ w'.calls
  candles : ∀ k row, w.candles.get k = some row → w'.candles.get k = some row
  cursors : w'.cursors = w.cursors ∨ ∃ present symbol timestamp,
    o = .commitCursor present symbol timestamp ∧
      w'.cursors = Function.update w.cursors symbol (some timestamp)

theorem Progress.of_eq {o : Op} (hcalls : w'.calls = w.calls) (hcandles : w'.candles = w.candles)
    (hcursors : w'.cursors = w.cursors) : Progress o w w' :=
  ⟨fun x hx => by rw [hcalls]; exact hx, fun k row h => by rw [hcandles]; exact h,
    Or.inl hcursors⟩

/-- **One operation** of any session. -/
theorem perform_progress {i : Nat} {o : Op} {inp : Input} {r : Resp o}
    (h : perform i o inp w = some (r, w')) : Progress o w w' := by
  -- the time that passes is seen by none of them
  suffices hp : Progress o (w.tick inp.elapsed) w' from ⟨hp.calls, hp.candles, hp.cursors⟩
  have heffect := perform_effect h
  generalize w.tick inp.elapsed = w₁ at heffect ⊢
  cases heffect with
  | nothing | abort | post | fault | undone | refused | insert | commit =>
      exact .of_eq rfl rfl rfl
  | call => exact ⟨fun x hx => List.mem_append_left _ hx, fun _ _ hrow => hrow, Or.inl rfl⟩
  | delivery alert records =>
      have hapart := storeDelivery_apart w₁ i alert records
      exact .of_eq hapart.calls hapart.candles hapart.cursors
  | candle =>
      exact ⟨fun x hx => hx, fun _ _ hrow => Table.get_insertNew_of_some hrow _, Or.inl rfl⟩
  | cursor present symbol timestamp =>
      exact ⟨fun x hx => hx, fun _ _ hrow => hrow, Or.inr ⟨present, symbol, timestamp, rfl, rfl⟩⟩

theorem perform_moves {i : Nat} {o : Op} {inp : Input} {r : Resp o}
    (h : perform i o inp w = some (r, w')) (ho : o.handles candle) :
    Moves candle w w' := by
  have hp := perform_progress h
  refine ⟨hp.calls, hp.cursors.imp_right ?_⟩
  rintro ⟨present, symbol, timestamp, rfl, hcursors⟩
  obtain ⟨rfl, rfl⟩ := ho
  exact hcursors

end World

/-! ## §4. The processing of one candle. -/

section Candle

variable {ruleClasses : RuleClasses} {candle : Candle} {rules : List Rule} {life : Nat}
  {w : World Nat}

theorem uses_updateCursor :
    (updateCursor candle.symbol candle.timestamp).Uses (Op.handles candle) (fun _ => True) := by
  unfold updateCursor
  exact Coro.Uses.bind (ρ := fun _ => True) ⟨trivial, fun _ => .ofExcept _⟩
    fun _ _ => ⟨⟨rfl, rfl⟩, fun _ => .ofExcept _⟩

/-- Of all that the main loop asks for, only the commit of the cursor moves one. -/
theorem Op.records.handles {o : Op} (ho : o.records candle) : o.handles candle := by
  cases o with
  | commitCursor _ _ _ => exact ho
  | _ => trivial

theorem Op.processes.handles {o : Op} {rule : Rule} (ho : o.processes ruleClasses rule candle) :
    o.handles candle := by
  rcases ho with ho | rfl | ⟨loaded, ho⟩
  · cases o with
    | commitCursor _ _ _ => exact ho.elim
    | _ => trivial
  · trivial
  · cases o with
    | commitCursor _ _ _ => exact ho.elim
    | _ => trivial

theorem handles_recordCandle :
    (recordCandle candle).Uses (Op.handles candle) (fun _ => True) :=
  uses_recordCandle.mono (fun _ ho => ho.handles) fun _ h => h

theorem handles_processRule {rule : Rule} :
    (processRule ruleClasses candle rule).Uses (Op.handles candle) (fun _ => True) :=
  uses_processRule.mono (fun _ ho => ho.handles) fun _ h => h

variable (candle life) in
/-- Process `life` works on `candle`, while others leave the cursors and the calls
alone. -/
abbrev handling {α : Type} (Q : α → World Nat → Prop) (p : Prog α) (w : World Nat) : Prop :=
  Coro.wp (World.perform life) (fun _ _ _ => True) World.Aside (World.Moves candle) Q
    (fun _ _ => True) p w

/-- What keeps calls, keeps the calls made. -/
theorem handling_calls {α : Type} {ρ : α → Prop} {p : Prog α} {C : List (Nat × Call)}
    (hp : p.Uses (Op.handles candle) ρ) (hC : ∀ x ∈ C, x ∈ w.calls) :
    handling candle life (fun _ w' => ∀ x ∈ C, x ∈ w'.calls) p w := by
  refine Coro.wp_mono (fun _ _ hq => hq.2) (fun _ _ _ => trivial)
    (Coro.wp_of_uses (I := fun w' => ∀ x ∈ C, x ∈ w'.calls) (R := World.Aside)
      (fun _ _ hs hI x hx => by rw [hs.calls]; exact hI x hx) ?_ hp hC)
  intro o inp s r s' ho _ hperf hI
  have hmoves := World.perform_moves hperf ho
  exact ⟨hmoves, fun x hx => hmoves.calls x (hI x hx)⟩

/-- A round of the inner loop calls `evaluate` first. -/
theorem handling_processRule {rule : Rule} :
    handling candle life (fun _ w' => Process.Called w' life rule.id candle ∧
      ∀ x ∈ w.calls, x ∈ w'.calls) (processRule ruleClasses candle rule) w := by
  obtain ⟨k, hk⟩ : ∃ k, processRule ruleClasses candle rule
      = .await (.call (.evaluate rule candle)) k := ⟨_, rfl⟩
  have huses : (processRule ruleClasses candle rule).Uses (Op.handles candle)
      (fun _ => True) := handles_processRule
  rw [hk] at huses ⊢
  intro s₁ hs inp r w₁ _ hperf
  have hmoves := World.perform_moves hperf (show Op.handles candle _ from trivial)
  have hcalled : Process.Called w₁ life rule.id candle := by
    obtain ⟨-, rfl⟩ := World.answer_inj hperf
    exact ⟨_, List.mem_append_right _ (List.mem_singleton_self _), rfl, rfl, rfl⟩
  refine ⟨hmoves, Coro.wp_mono (fun _ u hu => ?_) (fun _ _ _ => trivial)
    (handling_calls (C := w₁.calls) (huses.2 r) (fun x hx => hx))⟩
  exact ⟨hcalled.mono hu, fun x hx => hu x (hmoves.calls x (by rw [hs.calls]; exact hx))⟩

/-- **A candle that is processed to its end has been evaluated.** -/
theorem handling_processCandle :
    handling candle life (fun _ w' => Process.CalledFor w' life rules candle)
      (processCandle ruleClasses rules candle) w := by
  unfold processCandle
  refine Coro.wp_bind (Coro.wp_mono (fun _ u _ => ?_) (fun _ _ _ => trivial)
    (handling_calls (C := []) handles_recordCandle (by simp)))
  -- a rule of the candle is still to come, or was called
  have hround : ∀ (x : Rule) (xs : List Rule) (s : World Nat),
      (∀ r ∈ symbolRules rules candle,
        r ∈ x :: xs ∨ Process.Called s life r.id candle) →
      handling candle life (fun _ s' => ∀ r ∈ symbolRules rules candle,
        r ∈ xs ∨ Process.Called s' life r.id candle)
        (processRule ruleClasses candle x) s := by
    intro x xs s hI
    refine Coro.wp_mono (fun _ w' hq r hr => ?_) (fun _ _ _ => trivial) handling_processRule
    rcases hI r hr with hmem | hcalled
    · rcases List.mem_cons.mp hmem with rfl | hmem
      · exact Or.inr hq.1
      · exact Or.inl hmem
    · exact Or.inr (hcalled.mono hq.2)
  refine Coro.wp_mono (fun _ w' hq r hr => ?_) (fun _ _ _ => trivial)
    (Coro.wp_forEach (I := fun xs s => ∀ r ∈ symbolRules rules candle,
      r ∈ xs ∨ Process.Called s life r.id candle) hround (symbolRules rules candle) u
        (fun r hr => Or.inl hr))
  exact (hq r hr).resolve_left (by simp)

/-- What others do meanwhile does not matter. -/
theorem handling_aside {p : Prog Unit} {w' : World Nat}
    (h : handling candle life (fun _ u => Process.CalledFor u life rules candle) p w)
    (ha : World.Aside w w') :
    handling candle life (fun _ u => Process.CalledFor u life rules candle) p w' := by
  refine Coro.wp_rely ?_ ?_ (fun _ _ _ _ _ => trivial) ha h
  · exact fun _ _ _ h h' => ⟨h'.calls.trans h.calls, h'.cursors.trans h.cursors⟩
  · exact fun _ s s' hs hq r hr => (hq r hr).mono fun x hx => by rw [hs.calls]; exact hx

end Candle

/-! ## §5. Whole runs. -/

namespace Process

variable {ruleClasses : RuleClasses} {p p' p₀ : Process}

/-- The invariant. -/
structure HandlesAll (ruleClasses : RuleClasses) (p : Process) : Prop where
  none_skipped : p.NoneSkipped
  /-- What is in process was yielded to this process, and the rest of its rules
  will be called. -/
  current : ∀ candle, p.InProcess candle →
    (∃ y ∈ p.yielded, y.candle = candle ∧ y.life = p.life ∧ y.rules = p.rules) ∧
    handling candle p.life (fun _ w => CalledFor w p.life p.rules candle) p.task p.world ∧
    ∀ y ∈ p.yielded, upper y.candle.symbol = upper candle.symbol →
      y.candle.timestamp ≤ candle.timestamp → p.Evaluated y.candle ∨ y.candle = candle
  /-- A process that works is alive and was given a candle. -/
  busy : p.task.returned = false → p.alive = true ∧ ∃ candle, p.current = some candle

/-- No process has run yet. -/
structure Start (p : Process) : Prop where
  yielded : p.yielded = []
  task : p.task = .pure ()

theorem HandlesAll.init (h : Start p) : HandlesAll ruleClasses p where
  none_skipped := by
    intro y hy
    rw [h.yielded] at hy
    exact absurd hy (by simp)
  current := fun candle hin => absurd hin.2 (by rw [h.task]; simp [Coro.returned])
  busy := fun hb => absurd hb (by rw [h.task]; simp [Coro.returned])

/-- Evaluated candles stay evaluated. -/
theorem Evaluated.mono {candle : Candle} (h : p.Evaluated candle)
    (hcalls : ∀ x ∈ p.world.calls, x ∈ p'.world.calls)
    (hyielded : ∀ y ∈ p.yielded, y ∈ p'.yielded) : p'.Evaluated candle := by
  obtain ⟨y, hy, hc, hcalled⟩ := h
  exact ⟨y, hyielded y hy, hc, fun r hr => (hcalled r hr).mono hcalls⟩

theorem not_inProcess (hp : p.task.returned = true)
    (candle : Candle) : ¬ p.InProcess candle := by
  rintro ⟨-, hbusy⟩
  rw [hp] at hbusy
  exact absurd hbusy (by simp)

/-- A new process finds nothing skipped. -/
theorem HandlesAll.boot (h : HandlesAll ruleClasses p)
    (hstep : Process.step ruleClasses p .boot = some p') : HandlesAll ruleClasses p' := by
  obtain ⟨c, hboot, rfl⟩ := Option.map_eq_some_iff.mp hstep
  obtain ⟨hdead, rfl⟩ := Lives.boot_cases hboot
  have hidle : p.task.returned = true := by
    rw [← Bool.not_eq_false]
    exact fun hbusy => absurd (h.busy hbusy).1 (by rw [hdead]; simp)
  refine ⟨fun y hy _ hpast => ?_, fun c hin => ?_, fun hb => ?_⟩
  · exact h.none_skipped y hy (not_inProcess hidle _) hpast
  · exact absurd hin.2 (by simp [Coro.returned])
  · exact absurd hb (by simp [Coro.returned])

/-- A candle is yielded. -/
theorem HandlesAll.yield {candle : Candle} (h : HandlesAll ruleClasses p)
    (hok : p.Orderly (.yield candle))
    (hstep : Process.step ruleClasses p (.yield candle) = some p') :
    HandlesAll ruleClasses p' := by
  simp only [Process.step] at hstep
  split at hstep
  next =>
    obtain ⟨_, htake, rfl⟩ := Option.map_eq_some_iff.mp hstep
    obtain ⟨halive, hidle, rfl⟩ := Lives.take_cases htake
    have hmono : ∀ {c : Candle}, p.Evaluated c → Evaluated { p with
        task := processCandle ruleClasses p.rules candle
        current := some candle
        yielded := p.yielded ++ [⟨p.life, p.rules, candle⟩] } c :=
      fun hc => hc.mono (fun _ hx => hx) (fun _ hy => List.mem_append_left _ hy)
    refine ⟨fun y hy hin hpast => ?_, fun c hin => ?_, fun _ => ⟨halive, candle, rfl⟩⟩
    · rcases List.mem_append.mp hy with hy | hy
      · exact hmono (h.none_skipped y hy (not_inProcess hidle _) hpast)
      · rw [List.mem_singleton.mp hy] at hin
        exact absurd ⟨rfl, rfl⟩ hin
    · obtain rfl := Option.some.inj hin.1
      refine ⟨⟨⟨p.life, p.rules, candle⟩, ?_, rfl, rfl, rfl⟩, handling_processCandle, ?_⟩
      · exact List.mem_append_right _ (List.mem_singleton_self _)
      · intro y hy hsym hle
        rcases List.mem_append.mp hy with hy | hy
        · exact (hok y hy hsym hle).imp_left hmono
        · rw [List.mem_singleton.mp hy]
          exact Or.inr rfl
  next => exact absurd hstep (by simp)

/-- An operation is answered: if it moves the cursor past a candle, that candle is
the one in process or was evaluated before. -/
theorem HandlesAll.answer {inp : Input} (h : HandlesAll ruleClasses p)
    (hstep : Process.step ruleClasses p (.answer inp) = some p') : HandlesAll ruleClasses p' := by
  obtain ⟨_, hanswer, rfl⟩ := Option.map_eq_some_iff.mp hstep
  obtain ⟨o, k, r, w, ht, hperf, rfl⟩ := Lives.answer_cases hanswer
  have hbusy : p.task.returned = false := by rw [ht]; rfl
  obtain ⟨halive, candle, hcurrent⟩ := h.busy hbusy
  obtain ⟨⟨y₀, hy₀, hc₀, hlife, hrules⟩, hrest, horder⟩ :=
    h.current candle ⟨hcurrent, hbusy⟩
  rw [ht] at hrest
  obtain ⟨hmoves, hrest⟩ := hrest p.world ⟨rfl, rfl⟩ inp r w trivial hperf
  have hmono : ∀ {c : Candle}, p.Evaluated c → Evaluated { p with world := w, task := k r } c :=
    fun hc => hc.mono hmoves.calls (fun _ hy => hy)
  refine ⟨fun y hy hin hpast => ?_, fun c hin => ?_, fun _ => ⟨halive, candle, hcurrent⟩⟩
  · by_cases hyc : y.candle = candle
    · -- the candle itself: the loop is done with it
      have hdone : (k r).returned = true := by
        rw [← Bool.not_eq_false]
        exact fun hb => hin ⟨by rw [hyc]; exact hcurrent, hb⟩
      obtain ⟨_, hpure⟩ := Coro.returned_iff.mp hdone
      rw [hpure] at hrest
      refine ⟨y₀, hy₀, hc₀.trans hyc.symm, ?_⟩
      rw [hlife, hrules, hyc]
      exact hrest
    · -- another candle: past now means past before, or the cursor has just come to it
      have hnot : ¬ p.InProcess y.candle := by
        rintro ⟨hcur, -⟩
        exact hyc (Option.some.inj (hcur.symm.trans hcurrent))
      have hpast : Past w y.candle := hpast
      by_cases hsym : upper y.candle.symbol = upper candle.symbol
      · rcases hmoves.cursors with hsame | hmoved
        · rw [Past, hsame] at hpast
          exact hmono (h.none_skipped y hy hnot hpast)
        · rw [Past, hmoved, hsym, Function.update_self] at hpast
          exact hmono ((horder y hy hsym hpast).resolve_right hyc)
      · refine hmono (h.none_skipped y hy hnot ?_)
        rcases hmoves.cursors with hsame | hmoved
        · rw [Past, hsame] at hpast
          exact hpast
        · rw [Past, hmoved, Function.update_of_ne hsym] at hpast
          exact hpast
  · obtain rfl := Option.some.inj (hin.1.symm.trans hcurrent)
    exact ⟨⟨y₀, hy₀, hc₀, hlife, hrules⟩, hrest,
      fun y hy hsym hle => (horder y hy hsym hle).imp_left hmono⟩

/-- The process ends: its candle is not past the cursor, or was evaluated. -/
theorem HandlesAll.die (h : HandlesAll ruleClasses p) (hok : p.Orderly .die)
    (hstep : Process.step ruleClasses p .die = some p') : HandlesAll ruleClasses p' := by
  obtain ⟨_, hdie, rfl⟩ := Option.map_eq_some_iff.mp hstep
  obtain ⟨-, rfl⟩ := Lives.die_cases hdie
  refine ⟨fun y hy _ hpast => ?_, fun c hin => ?_, fun hb => ?_⟩
  · by_cases hin : p.InProcess y.candle
    · obtain ⟨⟨y₀, hy₀, hc₀, hlife, hrules⟩, -, -⟩ := h.current y.candle hin
      refine ⟨y₀, hy₀, hc₀, ?_⟩
      rw [hlife, hrules]
      rw [Orderly, EndsWell, hin.1] at hok
      exact hok hin hpast
    · exact h.none_skipped y hy hin hpast
  · exact absurd hin.2 (by simp [Coro.returned])
  · exact absurd hb (by simp [Coro.returned])

/-- An edit of the rules is seen by the next process only. -/
theorem HandlesAll.edit {rules : Table Rule.id} (h : HandlesAll ruleClasses p)
    (hstep : Process.step ruleClasses p (.edit rules) = some p') : HandlesAll ruleClasses p' := by
  obtain rfl := Option.some.inj hstep
  refine ⟨h.none_skipped, fun c hin => ?_, h.busy⟩
  obtain ⟨hyield, hrest, horder⟩ := h.current c hin
  exact ⟨hyield, handling_aside hrest ⟨rfl, rfl⟩, horder⟩

theorem HandlesAll.step {a : Action} (h : HandlesAll ruleClasses p) (hok : p.Orderly a)
    (hstep : Process.step ruleClasses p a = some p') : HandlesAll ruleClasses p' := by
  cases a with
  | boot => exact h.boot hstep
  | yield candle => exact h.yield hok hstep
  | answer inp => exact h.answer hstep
  | die => exact h.die hok hstep
  | edit rules => exact h.edit hstep

/-- **No candle is skipped in an orderly run**, over any number of processes. -/
theorem no_candle_skipped (h₀ : Start p₀)
    (hrun : Reaches (Process.step ruleClasses) Orderly p₀ p) : p.NoneSkipped :=
  (hrun.invariant (fun _ _ _ hI hok hs => hI.step hok hs) (HandlesAll.init h₀)).none_skipped

/-! ### Two processes and one candle. -/

instance (w : World Nat) (candle : Candle) : Decidable (Past w candle) := by
  unfold Past
  split <;> infer_instance

instance (w : World Nat) (life : Nat) (rules : List Rule) (candle : Candle) :
    Decidable (CalledFor w life rules candle) :=
  inferInstanceAs (Decidable (∀ r ∈ symbolRules rules candle, ∃ x ∈ w.calls, _ ∧ _))

instance (p : Process) (candle : Candle) : Decidable (p.Evaluated candle) :=
  inferInstanceAs (Decidable (∃ y ∈ p.yielded, _ ∧ _))

instance (p : Process) (candle : Candle) : Decidable (p.InProcess candle) :=
  inferInstanceAs (Decidable (_ ∧ _))

instance (p : Process) : Decidable p.NoneSkipped :=
  inferInstanceAs (Decidable (∀ y ∈ p.yielded, _ → _ → _))

instance (p : Process) : Decidable p.EndsWell := by
  unfold EndsWell
  split <;> infer_instance

instance (p : Process) : (a : Action) → Decidable (p.Orderly a)
  | .yield _ => inferInstanceAs (Decidable (∀ y ∈ p.yielded, _ → _ → _ ∨ _))
  | .die => inferInstanceAs (Decidable p.EndsWell)
  | .boot | .answer _ | .edit _ => inferInstanceAs (Decidable True)

/-- A database with the sample rule, before the first process. -/
def initial : Process where
  world := .initial sampleRules
  life := 0
  alive := false
  loaded := []
  task := .pure ()
  seeds := fun _ => none
  current := none
  yielded := []

theorem start_initial : Start initial := ⟨rfl, rfl⟩

/-- The first process dies before it saves the candle; the second is given it again
and dies once `evaluate` is called. -/
def againSchedule : List Action :=
  [.boot, .yield sampleCandle, .die,
   .boot, .yield sampleCandle, .answer {}, .answer {}, .answer {}, .answer {}, .die]

theorem no_candle_skipped_again : ∃ p : Process, Past p.world sampleCandle ∧
    p.yielded.length = 2 ∧ p.NoneSkipped := by
  have hend : (runs (fun p a => if Orderly p a then step alwaysMatches p a else none)
      againSchedule initial).map (fun p => decide
        (Past p.world sampleCandle ∧ p.yielded.length = 2)) = some true := by decide
  obtain ⟨p, hp, hend⟩ := Option.map_eq_some_iff.mp hend
  obtain ⟨hpast, hlength⟩ := of_decide_eq_true hend
  exact ⟨p, hpast, hlength, no_candle_skipped start_initial (Reaches.of_runs hp)⟩

/-- The process dies after the three statements before the rules. -/
def skippingSchedule : List Action :=
  [.boot, .yield sampleCandle, .answer {}, .answer {}, .answer {}, .die]

/-- **A death right after `update_cursor` skips the candle**: the cursor is at it, so
no later process is given it, and no rule has seen it. -/
theorem no_candle_skipped_fails : ¬ ∀ p : Process,
    Reaches (step alwaysMatches) (fun _ _ => True) initial p → p.NoneSkipped := by
  intro h
  have hend : (runs (fun p a => if True then step alwaysMatches p a else none)
      skippingSchedule initial).map (fun p => decide p.NoneSkipped) = some false := by decide
  obtain ⟨p, hp, hskipped⟩ := Option.map_eq_some_iff.mp hend
  exact of_decide_eq_false hskipped (h p (Reaches.of_runs hp))

end Process

end Pulse
