/-
  Pulse.Main.RulesInForce
  ───────────────────────
  **WHICH RULES A WORKER EVALUATES.**

  The API writes the rules while a worker processes candles.  The worker reads
  the active rules once, when it starts, and evaluates what it read until it
  ends; only the dispatcher goes back to the row.

    • `Attended`        — the database, and what `evaluate` was called for,
    • `Deployment.step` — the calls of the API and the worker as one system,
    • `rules_in_force`  — what holds as long as the active rules of a candle's
                          symbol are what the process found,
    • `rules_in_force_fails` — a rule that was switched off fires.
-/
import Pulse.Api.Rules
import Pulse.Main.MainLoop
import Pulse.Evaluate.Alerts

namespace Pulse

open Pulse.Async Pulse.Store

/-! ## §1. From the rows to the worker. -/

/-- What an evaluation depends on. -/
structure RuleTerms where
  id : RuleId
  ruleType : RuleType
  symbol : String
  config : Config
  cooldownSeconds : Option Int

def Rule.terms (rule : Rule) : RuleTerms :=
  ⟨rule.id, rule.ruleType, rule.symbol, rule.config, rule.cooldownSeconds⟩

/-- The rule that is built from the columns.  A configuration of null has no keys: every
class looks up one that it has no default for, and fails either way. -/
def RuleRow.load (row : RuleRow) : Rule where
  id := row.id
  symbol := row.symbol
  ruleType := row.ruleType
  config :=
    match row.config with
    | .obj v => v
    | _ => []
  cooldownSeconds := row.cooldownSeconds
  discordWebhookUrl := row.discordWebhookUrl
  genericWebhookUrl := row.genericWebhookUrl
  isActive := row.isActive = some true

/-- The rules of the database, as the worker's statements see them. -/
def dbRules (rows : RuleRows) : Table Rule.id :=
  ⟨rows.rows.map RuleRow.load, by rw [List.map_map]; exact rows.nodup⟩

/-- The active rules of the database. -/
def activeRules (rows : RuleRows) : List Rule := loadActiveRules (dbRules rows).rows

theorem mem_activeRules {rows : RuleRows} {rule : Rule} :
    rule ∈ activeRules rows ↔
      ∃ row ∈ rows.rows, row.isActive = some true ∧ row.load = rule := by
  simp only [activeRules, loadActiveRules, dbRules, List.mem_filter, List.mem_map]
  constructor
  · rintro ⟨⟨row, hrow, rfl⟩, hactive⟩
    exact ⟨row, hrow, of_decide_eq_true hactive, rfl⟩
  · rintro ⟨row, hrow, hactive, rfl⟩
    exact ⟨⟨row, hrow, rfl⟩, decide_eq_true hactive⟩

/-! ## §2. The system. -/

/-- One rule at work on one candle. -/
structure Evaluation where
  /-- The rule that `evaluate` was called with. -/
  rule : Rule
  candle : Candle
  /-- The rules of the database at that moment. -/
  rows : RuleRows

/-- An alert that was inserted, and by what. -/
structure Creation where
  alert : Alert
  evaluation : Option Evaluation

/-- What became of a candle once its cursor was stored. -/
structure Round where
  /-- The rules of the database when the cursor was committed. -/
  rows : RuleRows
  evaluations : List Evaluation

/-- The database, and what is recorded of the worker's operations. -/
structure Attended where
  /-- `rules`; what `store` says of them does not count. -/
  rows : RuleRows
  store : World Nat
  /-- The candle that the worker is at, or was at last. -/
  round : Option Round
  /-- Every alert inserted. -/
  created : List Creation

/-- The alerts that an operation left uncommitted. -/
def World.inserted (w w' : World Nat) : List Alert :=
  (w'.inflight.filter fun e => e ∉ w.inflight).map Prod.snd

/-- Deleting a rule deletes its alerts and their delivery attempts. -/
def World.dropAlerts (w : World Nat) (ruleId : RuleId) : World Nat :=
  { w with
    alerts := w.alerts.restrict fun a => a.ruleId ≠ ruleId
    attempts := w.attempts.filter fun r =>
      !w.alerts.rows.any fun a => a.id = r.alertId && a.ruleId = ruleId }

/-- An alert that is not committed holds a lock on its rule: a delete waits for it. -/
def ApiCall.waits (w : World Nat) : ApiCall → Bool
  | .delete id _ => w.inflight.any fun e => e.2.ruleId = id
  | _ => false

/-- What a call does to the tables that refer to the rules. -/
def ApiCall.cascade (rows : RuleRows) (w : World Nat) (c : ApiCall) : World Nat :=
  match c, (serve rows c).1 with
  | .delete id _, .noContent => w.dropAlerts id
  | _, _ => w

namespace Attended

/-- The database as a statement finds it. -/
def db (s : Attended) : World Nat := { s.store with rules := dbRules s.rows }

/-- The evaluation in progress. -/
def evaluation (s : Attended) : Option Evaluation :=
  s.round.bind fun round => round.evaluations.getLast?

/-- The record of a round after an operation was answered. -/
def hear (s : Attended) : (o : Op) → Resp o → Option Round
  | .commitCursor _ _ _, .ok _ => some ⟨s.rows, []⟩
  | .call (.evaluate rule candle), _ =>
      s.round.map fun round => { round with
        evaluations := round.evaluations ++ [⟨rule, candle, s.rows⟩] }
  | _, _ => s.round

/-- One operation of process `life`. -/
def perform (life : Nat) (o : Op) (inp : Input) (s : Attended) : Option (Resp o × Attended) :=
  match World.perform life o inp s.db with
  | some (r, w) => some (r, { s with
      store := w
      round := s.hear o r
      created := s.created ++ (s.store.inserted w).map fun alert => ⟨alert, s.evaluation⟩ })
  | none => none

/-- What others do to the database. -/
inductive Edit where
  | call (c : ApiCall)
  /-- The retry scheduler, or somebody who clears old data. -/
  | others (alerts : Table Alert.id) (attempts : List AlertDeliveryAttempt)

def edit : Edit → Attended → Option Attended
  | .call c, s =>
      if c.waits s.store then none
      else some { s with
        rows := (serve s.rows c).2
        store := c.cascade s.rows s.store }
  | .others alerts attempts, s =>
      some { s with store := { s.store with alerts := alerts, attempts := attempts } }

/-- What the death of a process leaves. -/
def drop (life : Nat) (s : Attended) : Attended :=
  { s with store := s.store.abort life, round := none }

end Attended

/-- What a process loads when it starts. -/
structure Snapshot where
  rules : List Rule
  /-- The rules of the database at that moment. -/
  rows : RuleRows

/-- The worker processes, one after the other. -/
structure Deployment extends Lives Resp PyErr Snapshot Attended where
  /-- The candle that the process was given last. -/
  current : Option Candle

namespace Deployment

abbrev Action := Lives.Action Input Candle Attended.Edit

/-- The process is given a candle, or starts or ends. -/
def given (current : Option Candle) : Action → Option Candle
  | .take candle => some candle
  | .boot | .die => none
  | .answer _ | .edit _ => current

/-- One action. -/
def step (ruleClasses : RuleClasses) (d : Deployment) (a : Action) : Option Deployment :=
  (Lives.step Attended.perform (fun s => ⟨loadActiveRules s.db.rules.rows, s.rows⟩)
    (fun snapshot => processCandle ruleClasses snapshot.rules) Attended.drop Attended.edit
    d.toLives a).map fun c => ⟨c, given d.current a⟩

end Deployment

/-! ## §3. What is asked, and on which condition it holds. -/

/-- The rule is active in the database, with these terms. -/
def Evaluation.InForce (e : Evaluation) : Prop :=
  ∃ row ∈ e.rows.rows, row.isActive = some true ∧ row.load.terms = e.rule.terms

/-- The alert is the work of an evaluation of a rule in force, for its candle and with a
value that the rule's class gives. -/
def Creation.InForce (ruleClasses : RuleClasses) (x : Creation) : Prop :=
  ∃ e, x.evaluation = some e ∧ e.InForce ∧ x.alert.ruleId = e.rule.id ∧
    x.alert.symbol = e.candle.symbol ∧ x.alert.triggeredAt = e.candle.timestamp ∧
    e.rule.Answers ruleClasses e.candle x.alert.triggerValue

/-- Every rule that was active for the candle's symbol was evaluated on it. -/
def Round.Complete (round : Round) (candle : Candle) : Prop :=
  ∀ row ∈ round.rows.rows, row.isActive = some true → row.symbol = candle.symbol →
    ∃ e ∈ round.evaluations, e.candle = candle ∧ e.rule.terms = row.load.terms

/-- The terms of the active rules of the database. -/
def activeTerms (rows : RuleRows) : List RuleTerms := (activeRules rows).map Rule.terms

/-- The active rules of a symbol are the same. -/
def SameActive (symbol : String) (rows rows' : RuleRows) : Prop :=
  ∀ terms : RuleTerms, terms.symbol = symbol →
    (terms ∈ activeTerms rows ↔ terms ∈ activeTerms rows')

namespace Deployment

/-- Alerts come from rules in force only, and a candle that is done with has met all of
them. -/
structure RulesInForce (ruleClasses : RuleClasses) (d : Deployment) : Prop where
  created : ∀ x ∈ d.world.created, x.InForce ruleClasses
  complete : ∀ candle, d.current = some candle → d.task.returned = true →
    ∃ round, d.world.round = some round ∧ round.Complete candle

/-- When the rules of a candle come next, and when `evaluate` is called, the active rules
of its symbol are what they were when the process started. -/
def Unchanged (d : Deployment) : Action → Prop
  | .answer _ =>
      match d.task with
      | .await (.commitCursor _ _ _) _ | .await (.call (.evaluate _ _)) _ =>
          ∀ candle, d.current = some candle →
            SameActive candle.symbol d.world.rows d.loaded.rows
      | _ => True
  | _ => True

/-- No process has run yet. -/
structure Start (d : Deployment) : Prop where
  alive : d.alive = false
  current : d.current = none
  task : d.task = .pure ()
  created : d.world.created = []

end Deployment

/-! ## §4. One operation. -/

section Operation

variable {ruleClasses : RuleClasses} {candle : Candle} {rows₀ : RuleRows} {life : Nat}
  {s s' : Attended} {o : Op} {inp : Input} {r : Resp o}

theorem mem_activeTerms {rows : RuleRows} {terms : RuleTerms} :
    terms ∈ activeTerms rows ↔
      ∃ row ∈ rows.rows, row.isActive = some true ∧ row.load.terms = terms := by
  simp only [activeTerms, List.mem_map, mem_activeRules]
  constructor
  · rintro ⟨rule, ⟨row, hrow, hactive, rfl⟩, hterms⟩
    exact ⟨row, hrow, hactive, hterms⟩
  · rintro ⟨row, hrow, hactive, hterms⟩
    exact ⟨row.load, ⟨row, hrow, hactive, rfl⟩, hterms⟩

namespace Attended

/-- Every alert so far is the work of a rule in force. -/
def Lawful (ruleClasses : RuleClasses) (s : Attended) : Prop :=
  ∀ x ∈ s.created, x.InForce ruleClasses

/-- What others do leaves the records alone. -/
structure RecordsStay (s s' : Attended) : Prop where
  round : s'.round = s.round
  created : s'.created = s.created

theorem RecordsStay.trans {s'' : Attended} (h : RecordsStay s s') (h' : RecordsStay s' s'') :
    RecordsStay s s'' :=
  ⟨h'.round.trans h.round, h'.created.trans h.created⟩

/-- The active rules of the candle's symbol are the same at the two moments that count. -/
def InTime (candle : Candle) (rows₀ : RuleRows) (o : Op) (_ : Input) (s : Attended) : Prop :=
  match o with
  | .commitCursor _ _ _ | .call (.evaluate _ _) => SameActive candle.symbol s.rows rows₀
  | _ => True

/-- What an operation does to the records. -/
theorem perform_cases (h : perform life o inp s = some (r, s')) :
    s'.rows = s.rows ∧ s'.round = s.hear o r ∧ ∃ w, World.perform life o inp s.db = some (r, w) ∧
      s'.created = s.created ++ (s.store.inserted w).map fun alert => ⟨alert, s.evaluation⟩ := by
  simp only [perform] at h
  split at h
  next r' w hperf =>
    obtain ⟨rfl, rfl⟩ := Prod.mk.inj (Option.some.inj h)
    exact ⟨rfl, rfl, w, hperf, rfl⟩
  next => exact absurd h (by simp)

/-- **Where alerts come from**: from an insert, in the evaluation in progress. -/
theorem perform_created (h : perform life o inp s = some (r, s')) {x : Creation}
    (hx : x ∈ s'.created) : x ∈ s.created ∨ ∃ alert, o = .insertAlert alert ∧
      x.evaluation = s.evaluation ∧ ∃ id createdAt,
        x.alert = { alert with id := id, createdAt := createdAt } := by
  obtain ⟨-, -, w, hperf, hcreated⟩ := perform_cases h
  rw [hcreated] at hx
  refine (List.mem_append.mp hx).imp_right fun hx => ?_
  obtain ⟨alert, halert, rfl⟩ := List.mem_map.mp hx
  obtain ⟨e, he, rfl⟩ := List.mem_map.mp halert
  obtain ⟨hnew, hold⟩ := List.mem_filter.mp he
  have hold : e ∉ s.db.inflight := of_decide_eq_true hold
  obtain ⟨alert, rfl, rfl⟩ := (World.perform_inflight hperf hnew).resolve_left hold
  exact ⟨alert, rfl, rfl, _, _, rfl⟩

/-- An operation that inserts nothing. -/
theorem perform_lawful (h : perform life o inp s = some (r, s'))
    (ho : ∀ alert, o ≠ .insertAlert alert) (hs : s.Lawful ruleClasses) :
    s'.Lawful ruleClasses := by
  intro x hx
  rcases perform_created h hx with hx | ⟨alert, rfl, -⟩
  · exact hs x hx
  · exact absurd rfl (ho alert)

end Attended

/-! ## §5. The work on one candle. -/

variable (ruleClasses candle rows₀ life) in
/-- Process `life` works on `candle`, while others leave the records alone. -/
abbrev attending {α : Type} (Q : α → Attended → Prop) (p : Prog α) (s : Attended) : Prop :=
  Coro.wp (Attended.perform life) (Attended.InTime candle rows₀) Attended.RecordsStay
    (fun s s' => s.Lawful ruleClasses → s'.Lawful ruleClasses) Q (fun _ _ => True) p s

/-- **Storing the candle**: the record of its round begins when the cursor is committed. -/
theorem attending_recordCandle :
    attending ruleClasses candle rows₀ life (fun _ s' => ∃ rows,
      s'.round = some ⟨rows, []⟩ ∧ SameActive candle.symbol rows rows₀) (recordCandle candle) s := by
  have hquiet : ∀ {α : Type} {p : Prog α},
      p.Uses (fun o => ∀ alert, o ≠ .insertAlert alert) (fun _ => True) → ∀ s,
        attending ruleClasses candle rows₀ life (fun _ _ => True) p s := by
    intro α p hp s
    refine Coro.wp_mono (fun _ _ _ => trivial) (fun _ _ _ => trivial)
      (Coro.wp_of_uses (I := fun _ => True) (fun _ _ _ _ => trivial) ?_ hp trivial)
    exact fun o inp u r u' ho _ hperf _ => ⟨Attended.perform_lawful hperf ho, trivial⟩
  have hsave : (saveCandle candle).Uses (fun o => ∀ alert, o ≠ .insertAlert alert)
      (fun _ => True) := by
    refine Coro.Uses.tryCatch ⟨by simp, fun _ => .ofExcept _⟩ fun e => ?_
    split
    next => exact ⟨by simp, fun _ => trivial⟩
    next => trivial
  unfold recordCandle updateCursor
  refine Coro.wp_bind (Coro.wp_mono (fun _ u _ => ?_) (fun _ _ _ => trivial) (hquiet hsave s))
  refine Coro.wp_bind (Coro.wp_mono (fun cursor v _ => ?_) (fun _ _ _ => trivial)
    (hquiet (p := getCursor candle.symbol) ⟨by simp, fun _ => .ofExcept _⟩ u))
  -- the commit of the cursor
  intro v₁ _ inp r v₂ hok hperf
  refine ⟨Attended.perform_lawful hperf (by simp), ?_⟩
  obtain ⟨-, hround, -⟩ := Attended.perform_cases hperf
  cases r with
  | error e => trivial
  | ok _ => exact ⟨v₁.rows, hround, hok⟩

/-- Where one rule is at work. -/
structure AtWork (ruleClasses : RuleClasses) (candle : Candle) (round : Round) (rule : Rule)
    (s : Attended) : Prop where
  since : ∃ evaluations, s.round = some ⟨round.rows, round.evaluations ++ evaluations⟩
  evaluation : ∃ e, s.evaluation = some e ∧ e.rule = rule ∧ e.candle = candle ∧ e.InForce

theorem AtWork.aside {round : Round} {rule : Rule} (h : AtWork ruleClasses candle round rule s)
    (hs : Attended.RecordsStay s s') : AtWork ruleClasses candle round rule s' := by
  have hevaluation : s'.evaluation = s.evaluation := by
    unfold Attended.evaluation
    rw [hs.round]
  exact ⟨by rw [hs.round]; exact h.since, by rw [hevaluation]; exact h.evaluation⟩

/-- **`evaluate` is called**, for a rule that the process loaded. -/
theorem AtWork.call {round : Round} {evaluations : List Evaluation} {rule : Rule}
    {r : Resp (.call (.evaluate rule candle))}
    (hs : s.round = some ⟨round.rows, round.evaluations ++ evaluations⟩)
    (hrule : rule.terms ∈ activeTerms rows₀) (hsymbol : rule.symbol = candle.symbol)
    (hsame : SameActive candle.symbol s.rows rows₀)
    (hperf : Attended.perform life (.call (.evaluate rule candle)) inp s = some (r, s')) :
    AtWork ruleClasses candle round rule s' := by
  obtain ⟨-, hround, -⟩ := Attended.perform_cases hperf
  have hround : s'.round = some ⟨round.rows,
      round.evaluations ++ (evaluations ++ [⟨rule, candle, s.rows⟩])⟩ := by
    rw [hround, ← List.append_assoc]
    show s.round.map _ = _
    rw [hs]
    rfl
  refine ⟨⟨_, hround⟩, ⟨rule, candle, s.rows⟩, ?_, rfl, rfl, ?_⟩
  · simp [Attended.evaluation, hround]
  · -- what was loaded is what is there
    exact mem_activeTerms.mp ((hsame rule.terms hsymbol).mpr hrule)

/-- **An operation of one round of the inner loop.** -/
theorem AtWork.perform {round : Round} {rule : Rule} (h : AtWork ruleClasses candle round rule s)
    (hrule : rule.terms ∈ activeTerms rows₀) (hsymbol : rule.symbol = candle.symbol)
    (ho : o.processes ruleClasses rule candle) (hok : Attended.InTime candle rows₀ o inp s)
    (hperf : Attended.perform life o inp s = some (r, s')) :
    (s.Lawful ruleClasses → s'.Lawful ruleClasses) ∧ AtWork ruleClasses candle round rule s' := by
  obtain ⟨e, hevaluation, herule, hecandle, hforce⟩ := h.evaluation
  constructor
  · -- an alert that is inserted is made of the rule in progress
    intro hs x hx
    rcases Attended.perform_created hperf hx with hx | ⟨alert, rfl, hin, id, createdAt, halert⟩
    · exact hs x hx
    · obtain ⟨triggerValue, hvalue, rfl⟩ : ∃ triggerValue,
          rule.Answers ruleClasses candle triggerValue ∧ alert = newAlert rule candle
            (getIdempotencyWindow candle.timestamp).1 (getIdempotencyWindow candle.timestamp).2
            triggerValue := by
        rcases ho with ho | ho | ⟨_, ho⟩
        · exact ho
        · exact absurd ho (by simp)
        · exact ho.elim
      refine ⟨e, hin.trans hevaluation, hforce, ?_⟩
      rw [halert, herule, hecandle]
      exact ⟨rfl, rfl, rfl, hvalue⟩
  · obtain ⟨-, hround, -⟩ := Attended.perform_cases hperf
    by_cases hcall : ∃ r' c, o = .call (.evaluate r' c)
    · obtain ⟨r', c, rfl⟩ := hcall
      obtain ⟨rfl, rfl⟩ : r' = rule ∧ c = candle := by
        rcases ho with ho | ho | ⟨_, ho⟩
        · exact ho
        · exact absurd ho (by simp)
        · exact ho.elim
      obtain ⟨evaluations, hs⟩ := h.since
      exact .call hs hrule hsymbol hok hperf
    · -- nothing else is recorded
      have hsame : s'.round = s.round := by
        rw [hround]
        unfold Attended.hear
        split
        next =>
          rcases ho with ho | ho | ⟨_, ho⟩
          · exact ho.elim
          · exact absurd ho (by simp)
          · exact ho.elim
        next => exact absurd ⟨_, _, rfl⟩ hcall
        next => rfl
      have hkept : s'.evaluation = s.evaluation := by
        unfold Attended.evaluation
        rw [hsame]
      exact ⟨by rw [hsame]; exact h.since, by rw [hkept]; exact h.evaluation⟩

/-- **One round of the inner loop** calls `evaluate` first. -/
theorem attending_processRule {round : Round} {rule : Rule} (hs : s.round = some round)
    (hrule : rule.terms ∈ activeTerms rows₀) (hsymbol : rule.symbol = candle.symbol) :
    attending ruleClasses candle rows₀ life (fun _ s' => ∃ evaluations,
      s'.round = some ⟨round.rows, round.evaluations ++ evaluations⟩ ∧
        ∃ e ∈ round.evaluations ++ evaluations, e.candle = candle ∧ e.rule = rule)
      (processRule ruleClasses candle rule) s := by
  obtain ⟨k, hk⟩ : ∃ k, processRule ruleClasses candle rule
      = .await (.call (.evaluate rule candle)) k := ⟨_, rfl⟩
  have huses : (processRule ruleClasses candle rule).Uses
      (Op.processes ruleClasses rule candle) (fun _ => True) := uses_processRule
  rw [hk] at huses ⊢
  intro s₁ hs₁ inp r s₂ hok hperf
  have hround : s₁.round = some ⟨round.rows, round.evaluations ++ []⟩ := by
    rw [hs₁.round, hs, List.append_nil]
  refine ⟨Attended.perform_lawful hperf (by simp), ?_⟩
  refine Coro.wp_mono (fun _ u hu => ?_) (fun _ _ _ => trivial)
    (Coro.wp_of_uses (I := AtWork ruleClasses candle round rule)
      (fun _ _ hR hI => hI.aside hR) ?_ (huses.2 r) (.call hround hrule hsymbol hok hperf))
  · obtain ⟨-, ⟨evaluations, hu⟩, e, hevaluation, herule, hecandle, -⟩ := hu
    refine ⟨evaluations, hu, e, ?_, hecandle, herule⟩
    rw [Attended.evaluation, hu] at hevaluation
    exact List.mem_of_getLast? hevaluation
  · exact fun o inp u r u' ho hok hperf hI => hI.perform hrule hsymbol ho hok hperf

/-- What was evaluated, and what is to come, covers the rules in force. -/
def Round.Covers (round : Round) (candle : Candle) (rest : List Rule) : Prop :=
  ∀ row ∈ round.rows.rows, row.isActive = some true → row.symbol = candle.symbol →
    (∃ e ∈ round.evaluations, e.candle = candle ∧ e.rule.terms = row.load.terms) ∨
      ∃ rule ∈ rest, rule.terms = row.load.terms

/-- **The work on one candle**, with the rules that were active when the process started. -/
theorem attending_processCandle :
    attending ruleClasses candle rows₀ life
      (fun _ s' => ∃ round, s'.round = some round ∧ round.Complete candle)
      (processCandle ruleClasses (activeRules rows₀) candle) s := by
  unfold processCandle
  refine Coro.wp_bind (Coro.wp_mono (fun _ u hu => ?_) (fun _ _ _ => trivial)
    attending_recordCandle)
  obtain ⟨rows, hu, hsame⟩ := hu
  -- the rest of `symbol_rules` covers what was not evaluated
  refine Coro.wp_mono (fun _ v hv => ?_) (fun _ _ he => he)
    (Coro.wp_forEach (I := fun rest v => rest ⊆ symbolRules (activeRules rows₀) candle ∧
      ∃ round, v.round = some round ∧ round.Covers candle rest) ?_
      (symbolRules (activeRules rows₀) candle) u ⟨List.Subset.refl _, ⟨rows, []⟩, hu, ?_⟩)
  · obtain ⟨-, round, hround, hcovers⟩ := hv
    refine ⟨round, hround, fun row hrow hactive hsymbol => ?_⟩
    exact (hcovers row hrow hactive hsymbol).resolve_right (by simp)
  · rintro rule rest v ⟨hsub, round, hround, hcovers⟩
    obtain ⟨hmem, hrest⟩ := List.cons_subset.mp hsub
    obtain ⟨hloaded, hsymbol⟩ := List.mem_filter.mp hmem
    have hsymbol : rule.symbol = candle.symbol :=
      of_decide_eq_true (Bool.and_eq_true_iff.mp hsymbol).1
    refine Coro.wp_mono (fun _ v' hv' => ?_) (fun _ _ _ => trivial)
      (attending_processRule hround (List.mem_map_of_mem hloaded) hsymbol)
    obtain ⟨evaluations, hround', e, he, hecandle, herule⟩ := hv'
    refine ⟨hrest, _, hround', fun row hrow hactive hrowSymbol => ?_⟩
    rcases hcovers row hrow hactive hrowSymbol with ⟨d, hd, hdone⟩ | ⟨rule', hrule', hterms⟩
    · exact Or.inl ⟨d, List.mem_append_left _ hd, hdone⟩
    · rcases List.mem_cons.mp hrule' with rfl | hrule'
      · exact Or.inl ⟨e, he, hecandle, by rw [herule, hterms]⟩
      · exact Or.inr ⟨rule', hrule', hterms⟩
  · -- at the start they are all to come
    intro row hrow hactive hsymbol
    have hterms : row.load.terms ∈ activeTerms rows₀ :=
      (hsame row.load.terms hsymbol).mp (mem_activeTerms.mpr ⟨row, hrow, hactive, rfl⟩)
    obtain ⟨rule, hrule, hterms⟩ := List.mem_map.mp hterms
    refine Or.inr ⟨rule, List.mem_filter.mpr ⟨hrule, ?_⟩, hterms⟩
    have hruleSymbol : rule.symbol = candle.symbol :=
      (congrArg RuleTerms.symbol hterms).trans hsymbol
    have hactive := (List.mem_filter.mp hrule).2
    simp [hruleSymbol, hactive]

end Operation

/-! ## §6. Whole runs. -/

namespace Deployment

variable {ruleClasses : RuleClasses} {d d' d₀ : Deployment}

/-- The invariant. -/
structure InStep (ruleClasses : RuleClasses) (d : Deployment) : Prop where
  lawful : d.world.Lawful ruleClasses
  /-- A process has the rules that were active when it started. -/
  snapshot : d.alive = true → d.loaded.rules = activeRules d.loaded.rows
  busy : d.task.returned = false → ∃ candle, d.current = some candle
  /-- It works on the candle it was given. -/
  working : ∀ candle, d.current = some candle → d.alive = true ∧
    attending ruleClasses candle d.loaded.rows d.life
      (fun _ s => ∃ round, s.round = some round ∧ round.Complete candle) d.task d.world

/-- What each action requires, and where it leads. -/
theorem step_cases {a : Action} (hstep : step ruleClasses d a = some d') :
    ∃ c, Lives.step Attended.perform (fun s => ⟨loadActiveRules s.db.rules.rows, s.rows⟩)
      (fun snapshot => processCandle ruleClasses snapshot.rules) Attended.drop Attended.edit
      d.toLives a = some c ∧ d' = ⟨c, given d.current a⟩ := by
  obtain ⟨c, hc, rfl⟩ := Option.map_eq_some_iff.mp hstep
  exact ⟨c, hc, rfl⟩

theorem InStep.boot (h : InStep ruleClasses d) (hstep : step ruleClasses d .boot = some d') :
    InStep ruleClasses d' := by
  obtain ⟨_, hboot, rfl⟩ := step_cases hstep
  obtain ⟨-, rfl⟩ := Lives.boot_cases hboot
  exact ⟨h.lawful, fun _ => rfl, fun hb => absurd hb (by simp [Coro.returned]),
    fun _ hc => absurd hc (by simp [given])⟩

theorem InStep.take {candle : Candle} (h : InStep ruleClasses d)
    (hstep : step ruleClasses d (.take candle) = some d') : InStep ruleClasses d' := by
  obtain ⟨_, htake, rfl⟩ := step_cases hstep
  obtain ⟨halive, -, rfl⟩ := Lives.take_cases htake
  refine ⟨h.lawful, h.snapshot, fun _ => ⟨candle, rfl⟩, fun c hc => ⟨halive, ?_⟩⟩
  obtain rfl := Option.some.inj hc
  show attending _ _ _ _ _ (processCandle ruleClasses d.loaded.rules candle) _
  rw [h.snapshot halive]
  exact attending_processCandle

/-- **An operation is answered.** -/
theorem InStep.answer {inp : Input} (h : InStep ruleClasses d) (hok : Unchanged d (.answer inp))
    (hstep : step ruleClasses d (.answer inp) = some d') : InStep ruleClasses d' := by
  obtain ⟨_, hanswer, rfl⟩ := step_cases hstep
  obtain ⟨o, k, r, s, htask, hperf, rfl⟩ := Lives.answer_cases hanswer
  obtain ⟨candle, hcurrent⟩ := h.busy (by rw [htask]; rfl)
  obtain ⟨halive, hwork⟩ := h.working candle hcurrent
  rw [htask] at hwork
  -- what is asked is asked of the candle of the process
  have hin : Attended.InTime candle d.loaded.rows o inp d.world := by
    unfold Unchanged at hok
    rw [htask] at hok
    unfold Attended.InTime
    split
    next => exact hok candle hcurrent
    next => exact hok candle hcurrent
    next => trivial
  obtain ⟨hlawful, hwork⟩ := hwork d.world ⟨rfl, rfl⟩ inp r s hin hperf
  refine ⟨hlawful h.lawful, h.snapshot, fun _ => ⟨candle, hcurrent⟩, fun c hc => ⟨halive, ?_⟩⟩
  obtain rfl := Option.some.inj (hcurrent.symm.trans hc)
  exact hwork

theorem InStep.die (h : InStep ruleClasses d) (hstep : step ruleClasses d .die = some d') :
    InStep ruleClasses d' := by
  obtain ⟨_, hdie, rfl⟩ := step_cases hstep
  obtain ⟨-, rfl⟩ := Lives.die_cases hdie
  exact ⟨h.lawful, fun ha => absurd ha (by simp), fun hb => absurd hb (by simp [Coro.returned]),
    fun _ hc => absurd hc (by simp [given])⟩

/-- The worker notices nothing of what others do. -/
theorem InStep.edit {e : Attended.Edit} (h : InStep ruleClasses d)
    (hstep : step ruleClasses d (.edit e) = some d') : InStep ruleClasses d' := by
  obtain ⟨_, hedit, rfl⟩ := step_cases hstep
  obtain ⟨s, hs, rfl⟩ := Lives.edit_cases hedit
  have haside : Attended.RecordsStay d.world s := by
    cases e with
    | call c =>
        simp only [Attended.edit] at hs
        split at hs
        next => exact absurd hs (by simp)
        next =>
          obtain rfl := Option.some.inj hs
          exact ⟨rfl, rfl⟩
    | others alerts attempts =>
        obtain rfl := Option.some.inj hs
        exact ⟨rfl, rfl⟩
  refine ⟨fun x hx => h.lawful x (haside.created ▸ hx), h.snapshot, h.busy, fun c hc => ?_⟩
  obtain ⟨halive, hwork⟩ := h.working c hc
  refine ⟨halive, Coro.wp_rely (fun _ _ _ h h' => h.trans h') ?_ (fun _ _ _ _ _ => trivial)
    haside hwork⟩
  rintro _ u u' hu ⟨round, hround, hcomplete⟩
  exact ⟨round, hu.round.trans hround, hcomplete⟩

theorem InStep.step {a : Action} (h : InStep ruleClasses d) (hok : Unchanged d a)
    (hstep : Deployment.step ruleClasses d a = some d') : InStep ruleClasses d' := by
  cases a with
  | boot => exact h.boot hstep
  | take candle => exact h.take hstep
  | answer inp => exact h.answer hok hstep
  | die => exact h.die hstep
  | edit e => exact h.edit hstep

theorem InStep.start (h₀ : Start d₀) : InStep ruleClasses d₀ where
  lawful := fun x hx => absurd hx (by simp [h₀.created])
  snapshot := fun halive => absurd halive (by simp [h₀.alive])
  busy := fun hb => absurd hb (by simp [h₀.task, Coro.returned])
  working := fun _ hc => absurd hc (by simp [h₀.current])

/-- **Rules in force.**  As long as the rules of candles are worked on only while the
active rules of their symbols are what the process found, every alert comes from a rule in
force and every candle meets all of them. -/
theorem rules_in_force (h₀ : Start d₀)
    (hrun : Reaches (Deployment.step ruleClasses) Unchanged d₀ d) :
    d.RulesInForce ruleClasses := by
  have h : InStep ruleClasses d :=
    hrun.invariant (fun _ _ _ h hok hstep => h.step hok hstep) (InStep.start h₀)
  refine ⟨h.lawful, fun candle hcurrent hdone => ?_⟩
  obtain ⟨-, hwork⟩ := h.working candle hcurrent
  obtain ⟨_, htask⟩ := Coro.returned_iff.mp hdone
  rw [htask] at hwork
  exact hwork

/-! ### Calls that do not matter. -/

/-- A call under a running worker leaves the active rules and their terms as they are. -/
def Undisturbed (d : Deployment) : Action → Prop
  | .edit (.call c) => d.alive = true →
      activeTerms (serve d.world.rows c).2 = activeTerms d.world.rows
  | _ => True

/-- An update that sends neither configuration nor cooldown nor `is_active`, such as a
rotation of webhooks, leaves the terms of the active rules as they are. -/
theorem activeTerms_update (rows : RuleRows) (id : RuleId) {body : RuleUpdate}
    (fault : Option PyErr) (hconfig : body.config = .unset)
    (hcooldown : body.cooldownSeconds = .unset) (hactive : body.isActive = .unset) :
    activeTerms (serve rows (.update id body fault)).2 = activeTerms rows := by
  have hterms : ∀ rows : RuleRows, activeTerms rows =
      ((rows.rows.filter fun row => row.isActive = some true).map fun row => row.load.terms) := by
    intro rows
    simp only [activeTerms, activeRules, loadActiveRules, dbRules, List.filter_map, List.map_map]
    rfl
  have hrow : ∀ row : RuleRow, (body.setattrs row).load.terms = row.load.terms ∧
      (body.setattrs row).isActive = row.isActive := by
    intro row
    simp [RuleUpdate.setattrs, RuleRow.load, Rule.terms, hconfig, hcooldown, hactive, Sent.onto]
  simp only [serve, updateRule]
  split
  next => rfl
  next row hget =>
    split
    next => rfl
    next =>
      rw [hterms, hterms, Table.filter_modify_of_keep body.setattrs_id
        (fun x => by rw [(hrow x).2]), List.map_map]
      refine List.map_congr_left fun x _ => ?_
      show (RuleRow.load (if x.id = id then body.setattrs x else x)).terms = x.load.terms
      split
      next => exact (hrow x).1
      next => rfl

/-- **An undisturbed run** works on rules only while they are what the process found. -/
theorem unchanged_of_undisturbed (h₀ : Start d₀)
    (hrun : Reaches (Deployment.step ruleClasses) Undisturbed d₀ d) :
    Reaches (Deployment.step ruleClasses) Unchanged d₀ d := by
  suffices h : Reaches (Deployment.step ruleClasses) Unchanged d₀ d ∧ InStep ruleClasses d ∧
      (d.alive = true → activeTerms d.world.rows = activeTerms d.loaded.rows) from h.1
  induction hrun with
  | refl => exact ⟨.refl, .start h₀, fun halive => absurd halive (by simp [h₀.alive])⟩
  | @step d d' a _ hquiet hstep ih =>
      obtain ⟨hreaches, hin, hsame⟩ := ih
      have hunchanged : Unchanged d a := by
        cases a with
        | answer inp =>
            -- whoever works on a candle lives
            have hall : ∀ candle, d.current = some candle →
                SameActive candle.symbol d.world.rows d.loaded.rows := by
              intro candle hcurrent terms _
              rw [hsame (hin.working candle hcurrent).1]
            simp only [Unchanged]
            split
            next => exact hall
            next => exact hall
            next => trivial
        | _ => trivial
      refine ⟨.step hreaches hunchanged hstep, hin.step hunchanged hstep, ?_⟩
      obtain ⟨c, hc, rfl⟩ := step_cases hstep
      cases a with
      | boot =>
          obtain ⟨-, rfl⟩ := Lives.boot_cases hc
          exact fun _ => rfl
      | take candle =>
          obtain ⟨-, -, rfl⟩ := Lives.take_cases hc
          exact hsame
      | answer inp =>
          obtain ⟨o, k, r, s, -, hperf, rfl⟩ := Lives.answer_cases hc
          intro halive
          obtain ⟨hrows, -⟩ := Attended.perform_cases hperf
          show activeTerms s.rows = _
          rw [hrows]
          exact hsame halive
      | die =>
          obtain ⟨-, rfl⟩ := Lives.die_cases hc
          exact fun halive => absurd halive (by simp)
      | edit e =>
          obtain ⟨s, hs, rfl⟩ := Lives.edit_cases hc
          intro halive
          cases e with
          | call c =>
              simp only [Attended.edit] at hs
              split at hs
              next => exact absurd hs (by simp)
              next =>
                obtain rfl := Option.some.inj hs
                exact (hquiet halive).trans (hsame halive)
          | others alerts attempts =>
              obtain rfl := Option.some.inj hs
              exact hsame halive

/-! ### A rotation of webhooks, and a rule that is switched off. -/

/-- The sample rule, as the API stores it. -/
def sampleRow : RuleRow where
  id := 1
  name := "breakout"
  ruleType := .priceThreshold
  symbol := "BTC"
  config := .obj []
  cooldownSeconds := some 0
  discordWebhookUrl := some "https://discord"
  genericWebhookUrl := none
  isActive := some true

/-- That rule, and no worker yet. -/
def initial : Deployment where
  world := ⟨Table.empty.insertNew sampleRow, .initial .empty, none, []⟩
  life := 0
  alive := false
  loaded := ⟨[], .empty⟩
  task := .pure ()
  current := none

theorem start_initial : Start initial := ⟨rfl, rfl, rfl, rfl⟩

/-- A body with a new URL. -/
def rotateBody : RuleUpdate where
  discordWebhookUrl := .value "https://new"
  nameLength := by trivial
  cooldownNonneg := by trivial
  urlLength := by exact ⟨show "https://new".length ≤ 500 by decide, trivial⟩

/-- A body that switches a rule off. -/
def switchOffBody : RuleUpdate where
  isActive := .value false
  nameLength := by trivial
  cooldownNonneg := by trivial
  urlLength := unset_urlLength

/-- A candle is stored and its rule evaluated. -/
def candleSchedule : List Action := .take sampleCandle :: List.replicate 9 (.answer {})

/-- The alert is sent and the candle is done with. -/
def deliverySchedule : List Action := List.replicate 6 (.answer {})

/-- Anything but a call. -/
def NoCall (_ : Deployment) : Action → Prop
  | .edit (.call _) => False
  | _ => True

instance (d : Deployment) : (a : Action) → Decidable (NoCall d a)
  | .edit (.call _) => inferInstanceAs (Decidable False)
  | .boot | .take _ | .answer _ | .die | .edit (.others _ _) => inferInstanceAs (Decidable True)

theorem NoCall.undisturbed (d : Deployment) (a : Action) (h : NoCall d a) : Undisturbed d a := by
  unfold Undisturbed
  split
  next => exact h.elim
  next => trivial

theorem rules_in_force_rotation : ∃ d : Deployment, d.world.created.length = 1 ∧
    d.current = some sampleCandle ∧ d.task.returned = true ∧
    d.RulesInForce alwaysMatches := by
  have hruns : (runs (fun d a => if NoCall d a then step alwaysMatches d a else none)
      [.boot] initial).any (fun d =>
        (step alwaysMatches d (.edit (.call (.update 1 rotateBody)))).any fun d' =>
          (runs (fun d a => if NoCall d a then step alwaysMatches d a else none)
            (candleSchedule ++ deliverySchedule) d').any fun d'' =>
              decide (d''.world.created.length = 1 ∧ d''.current = some sampleCandle ∧
                d''.task.returned = true)) = true := by decide
  obtain ⟨d, hboot, htest⟩ := Reaches.exists_of_runs hruns
  rw [Option.any_eq_true] at htest
  obtain ⟨d', hcall, htest⟩ := htest
  obtain ⟨d'', hcandle, htest⟩ := Reaches.exists_of_runs htest
  obtain ⟨hcreated, hcurrent, hdone⟩ := of_decide_eq_true htest
  have hquiet : Reaches (step alwaysMatches) Undisturbed initial d'' := by
    refine Reaches.trans (.step (hboot.mono NoCall.undisturbed) ?_ hcall)
      (hcandle.mono NoCall.undisturbed)
    exact fun _ => activeTerms_update d.world.rows 1 none rfl rfl rfl
  exact ⟨d'', hcreated, hcurrent, hdone,
    rules_in_force start_initial (unchanged_of_undisturbed start_initial hquiet)⟩

/-- A worker is running when its rule is switched off, and the rule fires. -/
theorem rules_in_force_fails :
    ¬ ∀ (ruleClasses : RuleClasses) (d₀ d : Deployment), Start d₀ →
      Reaches (step ruleClasses) (fun _ _ => True) d₀ d → d.RulesInForce ruleClasses := by
  intro h
  have hruns : (runs (fun d a => if True then step alwaysMatches d a else none)
      ([.boot, .edit (.call (.update 1 switchOffBody))] ++ candleSchedule) initial).any (fun d =>
        d.world.created.any fun x => x.evaluation.any fun e =>
          e.rows.rows.all fun row => row.isActive ≠ some true) = true := by decide
  obtain ⟨d, hreaches, htest⟩ := Reaches.exists_of_runs hruns
  obtain ⟨x, hx, htest⟩ := List.any_eq_true.mp htest
  rw [Option.any_eq_true] at htest
  obtain ⟨e, he, hinactive⟩ := htest
  obtain ⟨e', he', ⟨row, hrow, hactive, -⟩, -⟩ :=
    (h alwaysMatches initial d start_initial hreaches).created x hx
  rw [he, Option.some.injEq] at he'
  subst he'
  exact absurd hactive (of_decide_eq_true (List.all_eq_true.mp hinactive row hrow))

end Deployment

end Pulse
