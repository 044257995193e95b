/-
  Pulse.Main.Cursor
  ─────────────────
  **CURSORS NEVER GO BACK.**

  The worker as a whole: the client, seeded with the cursors of the database,
  yields candles; the main loop stores the candle, then the cursor, then
  evaluates the rules; the process may die at any await, and the next one starts
  from what was committed.

    • `Advances`        — what the work on one candle does to cursors and rows,
    • `Pipeline.step`   — stream, main loop and crashes as one system,
    • `monotone_ingest` — yields and cursors only move forward, and behind every
                          cursor stands a candle row.
-/
import Pulse.Main.Lifetimes
import Pulse.Ingest.Monotone

namespace Pulse

open Pulse.Async Pulse.Store

/-! ## §1. The work on one candle. -/

namespace World

/-- Candle rows stay, and the cursor of the candle's symbol moves to the candle once
its row is there. -/
structure Advances (candle : Candle) (w w' : World Nat) : Prop where
  candles : ∀ k row, w.candles.get k = some row → w'.candles.get k = some row
  cursors : w'.cursors = w.cursors ∨
    (w'.cursors = Function.update w.cursors (upper candle.symbol) (some candle.timestamp) ∧
      (w'.candles.get candle.key).isSome)

/-- What the rest of the system does to a worker's cursors and candle rows. -/
structure Idle (w w' : World Nat) : Prop where
  candles : w'.candles = w.candles
  cursors : w'.cursors = w.cursors

/-- Integrity errors of a candle row come from its unique key only. -/
def UniqueKeyOnly : Op → Input → World Nat → Prop
  | .insertCandle _, inp, _ => ∀ e, inp.fault = some e → e.cls ≠ .integrityError
  | _, _, _ => True

variable {candle : Candle} {w w' : World Nat}

/-- A cursor that is read afterwards was there before, or is that of the candle. -/
theorem Advances.cursor_cases (h : Advances candle w w') {symbol : String} {t : Time}
    (htime : w'.cursors symbol = some t) : w.cursors symbol = some t ∨
      (symbol = upper candle.symbol ∧ t = candle.timestamp ∧
        (w'.candles.get candle.key).isSome) := by
  rcases h.cursors with hsame | ⟨hmoved, hstored⟩
  · rw [hsame] at htime
    exact Or.inl htime
  · rw [hmoved] at htime
    by_cases hs : symbol = upper candle.symbol
    · subst hs
      rw [Function.update_self, Option.some.injEq] at htime
      exact Or.inr ⟨rfl, htime.symm, hstored⟩
    · rw [Function.update_of_ne hs] at htime
      exact Or.inl htime

theorem isSome_mono {k : String × Time × Nat}
    (hrows : ∀ k row, w.candles.get k = some row → w'.candles.get k = some row)
    (h : (w.candles.get k).isSome) : (w'.candles.get k).isSome := by
  obtain ⟨row, hrow⟩ := Option.isSome_iff_exists.mp h
  exact Option.isSome_iff_exists.mpr ⟨row, hrows k row hrow⟩

/-- An operation for the candle, once its row is there. -/
theorem perform_records {i : Nat} {o : Op} {inp : Input} {r : Resp o} (ho : o.handles candle)
    (h : perform i o inp w = some (r, w')) (hrow : (w.candles.get candle.key).isSome) :
    Advances candle w w' ∧ (w'.candles.get candle.key).isSome := by
  have hrows := (perform_progress h).candles
  have hrow' := isSome_mono hrows hrow
  exact ⟨⟨hrows, (perform_moves h ho).cursors.imp_right fun hc => ⟨hc, hrow'⟩⟩, hrow'⟩

/-- The commit of a candle row: it is there afterwards, or the statement failed with
something else than an integrity error. -/
theorem insertCandle_cases {i : Nat} {inp : Input} {r : Resp (.insertCandle candle)}
    (hok : UniqueKeyOnly (.insertCandle candle) inp w)
    (h : perform i (.insertCandle candle) inp w = some (r, w')) :
    w'.cursors = w.cursors ∧
      ((w'.candles.get candle.key).isSome ∨ ∃ e, r = .error e ∧ e.cls ≠ .integrityError) := by
  simp only [perform, statement] at h
  split at h
  next =>
    obtain ⟨rfl, rfl⟩ := answer_inj h
    exact ⟨rfl, Or.inr ⟨_, rfl, by simp⟩⟩
  next =>
    split at h
    next e he =>
      obtain ⟨rfl, rfl⟩ := answer_inj h
      exact ⟨rfl, Or.inr ⟨e, rfl, hok e he⟩⟩
    next =>
      split at h
      next row hrow =>
        obtain ⟨rfl, rfl⟩ := answer_inj h
        exact ⟨rfl, Or.inl (Option.isSome_iff_exists.mpr ⟨row, hrow⟩)⟩
      next hnone =>
        obtain ⟨rfl, rfl⟩ := answer_inj h
        refine ⟨rfl, Or.inl (Option.isSome_iff_exists.mpr ⟨candle, ?_⟩)⟩
        exact Table.get_insertNew_self hnone

end World

section Candle

variable {ruleClasses : RuleClasses} {candle : Candle} {rules : List Rule} {life : Nat}
  {w w' : World Nat}

variable (candle life) in
/-- Process `life` records `candle`, while others keep away from cursors and rows. -/
abbrev recording {α : Type} (Q : α → World Nat → Prop) (p : Prog α) (w : World Nat) : Prop :=
  Coro.wp (World.perform life) World.UniqueKeyOnly World.Idle (World.Advances candle) Q
    (fun _ _ => True) p w

theorem recording_uses {α : Type} {p : Prog α} (hp : p.Uses (Op.handles candle) (fun _ => True))
    (hrow : (w.candles.get candle.key).isSome) :
    recording candle life (fun _ w' => (w'.candles.get candle.key).isSome) p w := by
  refine Coro.wp_mono (fun _ _ hq => hq.2) (fun _ _ _ => trivial)
    (Coro.wp_of_uses (I := fun u => (u.candles.get candle.key).isSome) ?_ ?_ hp hrow)
  · intro s s' hs hI
    rw [hs.candles]
    exact hI
  · exact fun o inp s r s' ho _ hperf hI => World.perform_records ho hperf hI

/-- **After `save_candle` the row is there**, whether it was stored before or not. -/
theorem recording_saveCandle :
    recording candle life (fun _ w' => (w'.candles.get candle.key).isSome)
      (saveCandle candle) w := by
  unfold saveCandle
  refine Coro.wp_tryCatch ?_
  intro s _ inp r s' hok hperf
  obtain ⟨hcursors, hstored⟩ := World.insertCandle_cases hok hperf
  refine ⟨⟨(World.perform_progress hperf).candles, Or.inl hcursors⟩, ?_⟩
  show Coro.wp _ _ _ _ _ _ (Coro.ofExcept r) s'
  cases r with
  | ok _ => exact hstored.resolve_right (by simp)
  | error e =>
      show recording candle life _ (if e.cls = .integrityError then rollback else throw e) s'
      split
      next hdup =>
        -- a duplicate: the row of the earlier save stays when the session rolls back
        have hrow : (s'.candles.get candle.key).isSome := by
          refine hstored.resolve_right ?_
          rintro ⟨e', he', hne⟩
          exact hne (Except.error.inj he' ▸ hdup)
        exact recording_uses ⟨trivial, fun _ => trivial⟩ hrow
      next => trivial

/-- **The work on one candle.** -/
theorem recording_processCandle :
    recording candle life (fun _ _ => True) (processCandle ruleClasses rules candle) w := by
  unfold processCandle recordCandle
  refine Coro.wp_bind (Coro.wp_bind (Coro.wp_mono (fun _ u hu => ?_) (fun _ _ _ => trivial)
    recording_saveCandle))
  refine Coro.wp_mono (fun _ v hv => ?_) (fun _ _ _ => trivial)
    (recording_uses uses_updateCursor hu)
  exact Coro.wp_mono (fun _ _ _ => trivial) (fun _ _ _ => trivial)
    (recording_uses (Coro.Uses.forEach fun _ _ => handles_processRule) hv)

theorem recording_idle {p : Prog Unit} (h : recording candle life (fun _ _ => True) p w)
    (hidle : World.Idle w w') : recording candle life (fun _ _ => True) p w' :=
  Coro.wp_rely (fun _ _ _ h h' => ⟨h'.candles.trans h.candles, h'.cursors.trans h.cursors⟩)
    (fun _ _ _ _ _ => trivial) (fun _ _ _ _ _ => trivial) hidle h

end Candle

/-! ## §2. The system. -/

/-- The client as a process starts it: seeded, and nothing yielded. -/
def startClient (mode : Ingest.Mode) (cursors : String → Option Time) (clock : Time) :
    Ingest.Client.Stream where
  world := { lastCandleTs := cursors, clock := clock, yielded := [], log := [] }
  task := .pure mode.start

/-- The worker with the stream that feeds it. -/
structure Pipeline extends Worker where
  /-- `settings.symbols`. -/
  symbols : String
  /-- The cursors the process loaded; their symbols are in upper case, as
  `seed_last_seen` wants them. -/
  seeds : String → Option Time
  client : Ingest.Client.Stream

namespace Pipeline

/-- The rules the process loaded. -/
abbrev rules (p : Pipeline) : List Rule := p.loaded

inductive Action where
  /-- A new process loads the rules and the cursors. -/
  | boot (mode : Ingest.Mode) (symbols : String) (clock : Time)
  /-- The stream goes on, while the main loop awaits a candle. -/
  | stream (a : Loop.Action Ingest.Input)
  | answer (inp : Input)
  /-- The process dies, or ends with the exception that left the main loop. -/
  | die
  /-- The API edits rules, the retry scheduler alerts. -/
  | others (rules : Table Rule.id) (alerts : Table Alert.id)
      (attempts : List AlertDeliveryAttempt)

/-- The candle that the stream is about to yield. -/
def offered : Ingest.ClientProg Ingest.Phase → Option Candle
  | .await (.emit _ candle) _ => some candle
  | _ => none

/-- One action. -/
def step (ruleClasses : RuleClasses) (p : Pipeline) : Action → Option Pipeline
  | .boot mode symbols clock => (worker ruleClasses p.toLives .boot).map fun c => { p with
      toLives := c
      symbols := symbols
      seeds := p.world.cursors
      client := startClient mode p.world.cursors clock }
  | .stream a =>
      if p.ready then
        match Ingest.Client.step (Ingest.symbolList p.symbols) p.client a with
        | some client =>
            match offered p.client.task with
            | some candle => (worker ruleClasses p.toLives (.take candle)).map fun c =>
                { p with toLives := c, client := client }
            | none => some { p with client := client }
        | none => none
      else none
  | .answer inp => (worker ruleClasses p.toLives (.answer inp)).map fun c =>
      { p with toLives := c }
  | .die => (worker ruleClasses p.toLives .die).map fun c => { p with toLives := c }
  | .others rules alerts attempts =>
      (worker ruleClasses p.toLives (.edit ⟨rules, alerts, attempts⟩)).map fun c =>
        { p with toLives := c }

/-- What is assumed of the exchange and of the database. -/
def Assumed (p : Pipeline) : Action → Prop
  | .stream a => Loop.Meets Ingest.Distinct p.client a
  | .answer inp =>
      match p.task with
      | .await o _ => World.UniqueKeyOnly o inp p.world
      | _ => True
  | _ => True

/-- Behind every cursor stands a 15-minute candle. -/
def Backed (w : World Nat) : Prop :=
  ∀ symbol t, w.cursors symbol = some t → ∃ row, w.candles.get (symbol, t, 900) = some row

/-- No cursor is dropped or moved back. -/
def CursorsForward (w w' : World Nat) : Prop :=
  ∀ symbol t, w.cursors symbol = some t → ∃ t', w'.cursors symbol = some t' ∧ t ≤ t'

/-- Before the first process; the database may have been used before. -/
structure Start (p : Pipeline) : Prop where
  alive : p.alive = false
  task : p.task = .pure ()
  backed : Backed p.world

/-! ## §3. One action. -/

variable {ruleClasses : RuleClasses} {p p' p₀ : Pipeline}

/-- What the main loop has to do about what the stream is about to yield. -/
def handOver (ruleClasses : RuleClasses) (rules : List Rule)
    (task : Ingest.ClientProg Ingest.Phase) : Prog Unit :=
  match offered task with
  | some candle => processCandle ruleClasses rules candle
  | none => .pure ()

/-- A process is started when none lives. -/
theorem boot_cases {mode : Ingest.Mode} {symbols : String} {clock : Time}
    (hstep : step ruleClasses p (.boot mode symbols clock) = some p') :
    p.alive = false ∧ p' = { p with
      life := p.life + 1
      alive := true
      loaded := loadActiveRules p.world.rules.rows
      symbols := symbols
      seeds := p.world.cursors
      client := startClient mode p.world.cursors clock
      task := .pure () } := by
  obtain ⟨_, hboot, rfl⟩ := Option.map_eq_some_iff.mp hstep
  obtain ⟨hdead, rfl⟩ := Lives.boot_cases hboot
  exact ⟨hdead, rfl⟩

/-- The stream goes on while the main loop awaits a candle. -/
theorem stream_cases {a : Loop.Action Ingest.Input}
    (hstep : step ruleClasses p (.stream a) = some p') :
    p.alive = true ∧ p.task.returned = true ∧ ∃ client,
      Ingest.Client.step (Ingest.symbolList p.symbols) p.client a = some client ∧
      p' = { p with
        client := client
        task := handOver ruleClasses p.rules p.client.task } := by
  simp only [step] at hstep
  split at hstep
  next hready =>
    obtain ⟨halive, hidle⟩ := Bool.and_eq_true_iff.mp hready
    refine ⟨halive, hidle, ?_⟩
    split at hstep
    next client hclient =>
      refine ⟨client, hclient, ?_⟩
      unfold handOver
      split at hstep
      next candle _ =>
        obtain ⟨_, htake, rfl⟩ := Option.map_eq_some_iff.mp hstep
        obtain ⟨-, -, rfl⟩ := Lives.take_cases htake
        rfl
      next =>
        -- nothing is offered, and nothing is left to do
        obtain rfl := Option.some.inj hstep
        obtain ⟨_, htask⟩ := Coro.returned_iff.mp hidle
        have htask : p.task = .pure () := htask
        rw [← htask]
    next => exact absurd hstep (by simp)
  next => exact absurd hstep (by simp)

/-- The main loop is answered what it awaits. -/
theorem answer_cases {inp : Input} (hstep : step ruleClasses p (.answer inp) = some p') :
    ∃ o k r w, p.task = .await o k ∧ World.perform p.life o inp p.world = some (r, w) ∧
      p' = { p with world := w, task := k r } := by
  obtain ⟨_, hanswer, rfl⟩ := Option.map_eq_some_iff.mp hstep
  obtain ⟨o, k, r, w, ht, hperf, rfl⟩ := Lives.answer_cases hanswer
  exact ⟨o, k, r, w, ht, hperf, rfl⟩

/-- A process that lives dies, and its transaction with it. -/
theorem die_cases (hstep : step ruleClasses p .die = some p') :
    p.alive = true ∧
      p' = { p with world := p.world.abort p.life, alive := false, task := .pure () } := by
  obtain ⟨_, hdie, rfl⟩ := Option.map_eq_some_iff.mp hstep
  obtain ⟨halive, rfl⟩ := Lives.die_cases hdie
  exact ⟨halive, rfl⟩

/-- The invariant. -/
structure Traceable (p : Pipeline) : Prop where
  backed : Backed p.world
  /-- The client has run from the seeds of its process. -/
  client : p.alive = true → ∃ mode c₀, Ingest.Client.Start mode c₀ ∧
    c₀.world.lastCandleTs = p.seeds ∧
    Reaches (Ingest.Client.step (Ingest.symbolList p.symbols)) (Loop.Meets Ingest.Distinct)
      c₀ p.client
  /-- A cursor is still the seed, or was moved to a candle of this process. -/
  cursors : p.alive = true → ∀ symbol t, p.world.cursors symbol = some t →
    p.seeds symbol = some t ∨ ∃ y ∈ p.client.world.yielded,
      y.candle.symbol = symbol ∧ y.candle.timestamp = t
  /-- The main loop works on the candle yielded last. -/
  busy : p.task.returned = false → p.alive = true ∧ ∃ earlier y,
    p.client.world.yielded = earlier ++ [y] ∧
      recording y.candle p.life (fun _ _ => True) p.task p.world

theorem CursorsForward.refl (w : World Nat) : CursorsForward w w := fun _ t h => ⟨t, h, le_refl _⟩

theorem CursorsForward.trans {w w' w'' : World Nat} (h : CursorsForward w w')
    (h' : CursorsForward w' w'') :
    CursorsForward w w'' := by
  intro symbol t ht
  obtain ⟨t', ht', hle⟩ := h symbol t ht
  obtain ⟨t'', ht'', hle'⟩ := h' symbol t' ht'
  exact ⟨t'', ht'', hle.trans hle'⟩

/-- The yields of the process are in order. -/
theorem Traceable.forward (h : Traceable p) (halive : p.alive = true) :
    Ingest.Forward p.seeds p.client.world := by
  obtain ⟨mode, c₀, hstart, hseeds, hrun⟩ := h.client halive
  rw [← hseeds]
  exact .run hstart hrun

/-- A step of the stream yields nothing, or the candle that is handed over. -/
theorem handOver_cases (ruleClasses : RuleClasses) (rules : List Rule) {symbols : List String}
    {c c' : Ingest.Client.Stream} {a : Loop.Action Ingest.Input}
    (h : Ingest.Client.step symbols c a = some c') :
    (handOver ruleClasses rules c.task = .pure () ∧
      c'.world.yielded = c.world.yielded) ∨
    ∃ y, handOver ruleClasses rules c.task = processCandle ruleClasses rules y.candle ∧
      c'.world.yielded = c.world.yielded ++ [y] := by
  cases htask : c.task with
  | raise e => cases a <;> exact absurd h (by simp [Loop.step, htask])
  | pure phase =>
      cases a with
      | answer inp => exact absurd h (by simp [Loop.step, htask])
      | again =>
          simp only [Loop.step, htask] at h
          obtain rfl := Option.some.inj h
          exact Or.inl ⟨rfl, rfl⟩
  | await o k =>
      cases a with
      | again => exact absurd h (by simp [Loop.step, htask])
      | answer inp =>
          simp only [Loop.step, htask] at h
          split at h
          next r w hperf =>
            obtain rfl := Option.some.inj h
            cases o with
            | emit coin candle =>
                obtain ⟨-, rfl⟩ := Prod.mk.inj (Option.some.inj hperf)
                exact Or.inr ⟨⟨candle, c.world.clock⟩, rfl, rfl⟩
            | utcnow | lastSeen | post _ _ _ _ | connect | send _ _ | recv | close | sleep _ =>
                exact Or.inl ⟨rfl, (Ingest.Client.perform_quiet (by trivial) hperf).yielded⟩
          next => exact absurd h (by simp)

/-- What was yielded before still is. -/
theorem yielded_grows {symbols : List String} {c c' : Ingest.Client.Stream}
    {a : Loop.Action Ingest.Input} (h : Ingest.Client.step symbols c a = some c') :
    ∀ y ∈ c.world.yielded, y ∈ c'.world.yielded := by
  intro y hy
  rcases handOver_cases (fun _ => none) [] h with ⟨-, hsame⟩ | ⟨_, -, hmore⟩
  · rw [hsame]
    exact hy
  · rw [hmore]
    exact List.mem_append_left _ hy

theorem Traceable.boot {mode : Ingest.Mode} {symbols : String} {clock : Time} (h : Traceable p)
    (hstep : step ruleClasses p (.boot mode symbols clock) = some p') :
    Traceable p' ∧ CursorsForward p.world p'.world := by
  obtain ⟨-, rfl⟩ := boot_cases hstep
  refine ⟨⟨h.backed, fun _ => ?_, fun _ _ _ ht => Or.inl ht, fun hb => ?_⟩, .refl _⟩
  · exact ⟨mode, startClient mode p.world.cursors clock, ⟨rfl, rfl⟩, rfl, .refl⟩
  · exact absurd hb (by simp [Coro.returned])

theorem Traceable.stream {a : Loop.Action Ingest.Input} (h : Traceable p)
    (hok : p.Assumed (.stream a)) (hstep : step ruleClasses p (.stream a) = some p') :
    Traceable p' ∧ CursorsForward p.world p'.world := by
  obtain ⟨halive, -, client, hclient, rfl⟩ := stream_cases hstep
  obtain ⟨mode, c₀, hstart, hseeds, hrun⟩ := h.client halive
  have hrun' := hrun.step hok hclient
  refine ⟨⟨h.backed, fun _ => ⟨mode, c₀, hstart, hseeds, hrun'⟩, ?_, ?_⟩, .refl _⟩
  · intro _ symbol t ht
    refine (h.cursors halive symbol t ht).imp_right ?_
    rintro ⟨y, hy, hsymbol, htime⟩
    exact ⟨y, yielded_grows hclient y hy, hsymbol, htime⟩
  · intro hbusy
    have hbusy : (handOver ruleClasses p.rules p.client.task).returned = false := hbusy
    rcases handOver_cases ruleClasses p.rules hclient with ⟨hidle, -⟩ | ⟨y, hprocess, hmore⟩
    · rw [hidle] at hbusy
      exact absurd hbusy (by simp [Coro.returned])
    · refine ⟨halive, p.client.world.yielded, y, hmore, ?_⟩
      show recording y.candle p.life _ (handOver ruleClasses p.rules p.client.task) p.world
      rw [hprocess]
      exact recording_processCandle

/-- The candle in process is the last of its symbol: no cursor is past it. -/
theorem Traceable.last {earlier : List Ingest.Yielded} {y : Ingest.Yielded} {t : Time}
    (h : Traceable p) (halive : p.alive = true)
    (hyielded : p.client.world.yielded = earlier ++ [y])
    (ht : p.world.cursors y.candle.symbol = some t) : t ≤ y.candle.timestamp := by
  have hforward := (h.forward halive).ascending
  have hy : y ∈ p.client.world.yielded := by rw [hyielded]; simp
  rcases h.cursors halive _ t ht with hseed | ⟨y', hy', hsymbol, rfl⟩
  · exact le_of_lt (hforward.seeds y hy t hseed)
  · have horder := hforward.order
    rw [hyielded, List.pairwise_append] at horder
    rw [hyielded] at hy'
    rcases List.mem_append.mp hy' with hy' | hy'
    · exact le_of_lt (horder.2.2 y' hy' y (List.mem_singleton_self _) hsymbol)
    · rw [List.mem_singleton.mp hy']

/-- **An operation of the main loop**: the cursor moves to the candle in process, whose
row is stored, or stays. -/
theorem Traceable.answer {inp : Input} (h : Traceable p) (hok : p.Assumed (.answer inp))
    (hstep : step ruleClasses p (.answer inp) = some p') :
    Traceable p' ∧ CursorsForward p.world p'.world := by
  obtain ⟨o, k, r, w, ht, hperf, rfl⟩ := answer_cases hstep
  obtain ⟨halive, earlier, y, hyielded, hrest⟩ := h.busy (by rw [ht]; rfl)
  rw [ht] at hrest
  simp only [Assumed, ht] at hok
  obtain ⟨hrecords, hrest⟩ := hrest p.world ⟨rfl, rfl⟩ inp r w hok hperf
  have hy : y ∈ p.client.world.yielded := by rw [hyielded]; simp
  -- symbols are upper case and the interval is `15m` in all that the client yields
  obtain ⟨hupper, hinterval⟩ := (h.forward halive).regular y hy
  have hcursors := hrecords.cursors
  rw [hupper] at hcursors
  refine ⟨⟨?_, h.client, ?_, fun _ => ⟨halive, earlier, y, hyielded, hrest⟩⟩, ?_⟩
  · intro symbol t htime
    rcases hrecords.cursor_cases htime with hold | ⟨rfl, rfl, hstored⟩
    · -- a cursor from before: its row is not removed
      obtain ⟨row, hrow⟩ := h.backed symbol t hold
      exact ⟨row, hrecords.candles _ row hrow⟩
    · rw [Candle.key, hinterval] at hstored
      rw [hupper]
      exact Option.isSome_iff_exists.mp hstored
  · intro _ symbol t htime
    rcases hrecords.cursor_cases htime with hold | ⟨rfl, rfl, -⟩
    · exact h.cursors halive symbol t hold
    · exact Or.inr ⟨y, hy, hupper.symm, rfl⟩
  · -- the candle is the last that was yielded, so its cursor does not go back
    intro symbol t htime
    show ∃ t', w.cursors symbol = some t' ∧ t ≤ t'
    rcases hcursors with hsame | ⟨hmoved, -⟩
    · rw [hsame]
      exact ⟨t, htime, le_refl _⟩
    · rw [hmoved]
      by_cases hs : symbol = y.candle.symbol
      · subst hs
        rw [Function.update_self]
        exact ⟨_, rfl, h.last halive hyielded htime⟩
      · rw [Function.update_of_ne hs]
        exact ⟨t, htime, le_refl _⟩

/-- Whatever is committed when the process dies stays. -/
theorem Traceable.die (h : Traceable p) (hstep : step ruleClasses p .die = some p') :
    Traceable p' ∧ CursorsForward p.world p'.world := by
  obtain ⟨-, rfl⟩ := die_cases hstep
  refine ⟨⟨h.backed, fun ha => ?_, fun ha => ?_, fun hb => ?_⟩, .refl _⟩
  · exact absurd ha (by simp)
  · exact absurd ha (by simp)
  · exact absurd hb (by simp [Coro.returned])

theorem Traceable.others {rules : Table Rule.id} {alerts : Table Alert.id}
    {attempts : List AlertDeliveryAttempt} (h : Traceable p)
    (hstep : step ruleClasses p (.others rules alerts attempts) = some p') :
    Traceable p' ∧ CursorsForward p.world p'.world := by
  obtain rfl := Option.some.inj hstep
  refine ⟨⟨h.backed, h.client, h.cursors, fun hb => ?_⟩, .refl _⟩
  obtain ⟨halive, earlier, y, hyielded, hrest⟩ := h.busy hb
  exact ⟨halive, earlier, y, hyielded, recording_idle hrest ⟨rfl, rfl⟩⟩

/-- **One action** keeps the invariant and moves no cursor back. -/
theorem Traceable.step {a : Action} (h : Traceable p) (hok : p.Assumed a)
    (hstep : Pipeline.step ruleClasses p a = some p') :
    Traceable p' ∧ CursorsForward p.world p'.world := by
  cases a with
  | boot mode symbols clock => exact h.boot hstep
  | stream a => exact h.stream hok hstep
  | answer inp => exact h.answer hok hstep
  | die => exact h.die hstep
  | others rules alerts attempts => exact h.others hstep

/-! ## §4. Whole runs. -/

theorem Traceable.start (h₀ : Start p₀) : Traceable p₀ where
  backed := h₀.backed
  client := fun ha => absurd ha (by rw [h₀.alive]; simp)
  cursors := fun ha => absurd ha (by rw [h₀.alive]; simp)
  busy := fun hb => absurd hb (by rw [h₀.task]; simp [Coro.returned])

theorem Traceable.run (h : Traceable p)
    (hrun : Reaches (Pipeline.step ruleClasses) Assumed p p') :
    Traceable p' ∧ CursorsForward p.world p'.world := by
  refine hrun.invariant (I := fun q => Traceable q ∧ CursorsForward p.world q.world) ?_ ⟨h, .refl _⟩
  intro q a q' hI hok hstep
  obtain ⟨hq', honward⟩ := hI.1.step hok hstep
  exact ⟨hq', hI.2.trans honward⟩

/-- **Ingest is monotone.**  Each symbol's candles leave the stream in strictly ascending
order and after the seed; over any sequence of processes no cursor moves back, and
behind every cursor stands a candle row. -/
theorem monotone_ingest :
    (∀ (mode : Ingest.Mode) (symbols : String) (c₀ c : Ingest.Client.Stream),
      Ingest.Client.Start mode c₀ →
      Reaches (Ingest.Client.step (Ingest.symbolList symbols))
        (Loop.Meets Ingest.Distinct) c₀ c →
      Ingest.Ascending c₀.world.lastCandleTs c.world.yielded) ∧
    ∀ (ruleClasses : RuleClasses) (p₀ p p' : Pipeline), Start p₀ →
      Reaches (Pipeline.step ruleClasses) Assumed p₀ p →
      Reaches (Pipeline.step ruleClasses) Assumed p p' →
      CursorsForward p.world p'.world ∧ Backed p'.world := by
  constructor
  · intro mode symbols c₀ c hstart hrun
    exact (Ingest.Forward.run hstart hrun).ascending
  · intro ruleClasses p₀ p p' hstart hrun hrun'
    obtain ⟨hsound, -⟩ := (Traceable.start hstart).run hrun
    obtain ⟨hsound', honward⟩ := hsound.run hrun'
    exact ⟨honward, hsound'.backed⟩

/-! ### Two processes: a live candle, and a poll that is cut off. -/

/-- What is asked of a reply, if it parses. -/
theorem distinct_post_iff (coin interval : String) (startMs endMs : Int) (inp : Ingest.Input)
    (w : Ingest.Client) :
    (∀ candles ∈ (Ingest.candlesOfReply coin 900 inp.reply).toOption,
        (candles.map Candle.timestamp).Nodup) ↔
      Ingest.Distinct (.post coin interval startMs endMs) inp w := by
  unfold Ingest.Distinct
  cases hreply : Ingest.candlesOfReply coin 900 inp.reply with
  | ok candles => simp [hreply, Except.toOption]
  | error e => simp [hreply, Except.toOption]

instance : (o : Ingest.Op) → (inp : Ingest.Input) → (w : Ingest.Client) →
    Decidable (Ingest.Distinct o inp w)
  | .post coin interval startMs endMs, inp, w =>
      decidable_of_iff _ (distinct_post_iff coin interval startMs endMs inp w)
  | .utcnow, _, _ | .lastSeen, _, _ | .connect, _, _ | .send _ _, _, _ | .recv, _, _
  | .close, _, _ | .sleep _, _, _ | .emit _ _, _, _ => inferInstanceAs (Decidable True)

instance (o : Op) (inp : Input) (w : World Nat) : Decidable (World.UniqueKeyOnly o inp w) := by
  unfold World.UniqueKeyOnly
  split
  next => exact decidable_of_iff (∀ e ∈ inp.fault, e.cls ≠ .integrityError) Iff.rfl
  next => infer_instance

instance (p : Pipeline) : (a : Action) → Decidable (p.Assumed a)
  | .stream a => inferInstanceAs (Decidable (Loop.Meets Ingest.Distinct p.client a))
  | .answer inp => by
      unfold Assumed
      dsimp only
      split <;> infer_instance
  | .boot _ _ _ | .die | .others _ _ _ => inferInstanceAs (Decidable True)

/-- A fresh database without rules. -/
def initial : Pipeline where
  world := .initial .empty
  life := 0
  alive := false
  loaded := []
  symbols := ""
  seeds := fun _ => none
  client := startClient .ws (fun _ => none) 0
  task := .pure ()

theorem start_initial : Start initial :=
  ⟨rfl, rfl, fun _ _ ht => absurd ht (by simp [initial, World.initial])⟩

/-- A connection and the live candle of 2700. -/
def liveStream : List (Loop.Action Ingest.Input) :=
  [.again, .answer {}, .again, .answer {}, .answer {}] ++ Ingest.sampleLive

/-- A poll that finds the candle of 3600. -/
def pollStream : List (Loop.Action Ingest.Input) :=
  [.again, .answer {},
    .answer { reply := .response 200 (some (.arr [.obj (Ingest.samplePayload 3600)])) },
    .answer {}, .answer {}]

/-- The candle is stored and its cursor committed. -/
def liveSchedule : List Action :=
  [.boot .ws "BTC" (seconds 3000)] ++ liveStream.map .stream ++
    [.answer {}, .answer {}, .answer {}]

/-- The next process dies once the candle's row is stored. -/
def pollSchedule : List Action :=
  [.die, .boot .poll "BTC" (seconds 4600)] ++ pollStream.map .stream ++ [.answer {}, .die]

theorem monotone_ingest_restart :
    (∃ c : Ingest.Client.Stream, Ingest.opened c = [seconds 1800, seconds 2700] ∧
      Ingest.Ascending Ingest.sampleStream.world.lastCandleTs c.world.yielded) ∧
    ∃ p p' : Pipeline, p.world.cursors "BTC" = some (seconds 2700) ∧
      p'.world.candles.rows.length = 2 ∧ CursorsForward p.world p'.world ∧ Backed p'.world := by
  constructor
  · have hrun : (runs (fun c a => if Loop.Meets Ingest.Distinct c a
          then Ingest.Client.step (Ingest.symbolList "BTC") c a else none)
        (Ingest.sampleConnection (.response 200 (some (.arr [.obj (Ingest.samplePayload 900),
          .obj (Ingest.samplePayload 1800)]))) [{}] ++ Ingest.sampleLive)
        Ingest.sampleStream).any
          (fun c => Ingest.opened c = [seconds 1800, seconds 2700]) = true := by decide
    obtain ⟨c, hc, hopened⟩ := Reaches.exists_of_runs hrun
    exact ⟨c, of_decide_eq_true hopened,
      monotone_ingest.1 .ws "BTC" Ingest.sampleStream c ⟨rfl, rfl⟩ hc⟩
  · have hlive : (runs (fun p a => if Assumed p a then step alwaysMatches p a else none)
        liveSchedule initial).any (fun p => (p.world.cursors "BTC" = some (seconds 2700)) &&
          (runs (fun p a => if Assumed p a then step alwaysMatches p a else none)
            pollSchedule p).any (fun p' => p'.world.candles.rows.length = 2)) = true := by
      decide
    obtain ⟨p, hp, htest⟩ := Reaches.exists_of_runs hlive
    obtain ⟨hcursor, hpoll⟩ := Bool.and_eq_true_iff.mp htest
    obtain ⟨p', hp', hrows⟩ := Reaches.exists_of_runs hpoll
    exact ⟨p, p', of_decide_eq_true hcursor, of_decide_eq_true hrows,
      monotone_ingest.2 alwaysMatches initial p p' start_initial hp hp'⟩

end Pipeline

end Pulse
