/-
  Pulse.Evaluate.Cooldown
  ───────────────────────
  **THE COOLDOWN, AND WHEN IT IS NOT HONOURED.**

  The check compares the clock with `triggered_at` of the last alert, which is
  the open time of its candle.  The alert itself is created later: by a bar when
  the candle comes live, by hours when it is replayed.

    • `cooldown_honoured` — alerts of the rule are a cooldown apart as long as
                            no check falls between the two clocks,
    • `cooldown_fails`    — two live bars and a cooldown of twenty minutes
                            give two alerts a quarter of an hour apart.
-/
import Pulse.Evaluate.Workers
import Mathlib.Data.List.Pairwise

namespace Pulse

open Pulse.Async Pulse.Store

/-! ## §1. Alerts that keep their distance. -/

/-- Created at least `gap` apart. -/
def Alert.Apart (gap : Int) (a b : Alert) : Prop :=
  a.createdAt + gap ≤ b.createdAt ∨ b.createdAt + gap ≤ a.createdAt

instance (gap : Int) : Std.Symm (Alert.Apart gap) := ⟨fun _ _ h => h.symm⟩

instance (gap : Int) (a b : Alert) : Decidable (a.Apart gap b) :=
  inferInstanceAs (Decidable (_ ∨ _))

namespace World

/-- The alerts of a rule in the order of their inserts, the uncommitted last. -/
def ruleAlerts (w : World Unit) (ruleId : RuleId) : List Alert :=
  w.allAlerts.filter fun a => a.ruleId = ruleId

/-- The rule whose evaluation the worker has begun last. -/
def evaluating (w : World Unit) : Option RuleId :=
  match w.calls.getLast? with
  | some (_, .evaluate rule _) => some rule.id
  | _ => none

/-- The rule's alerts are created at least `gap` apart, in the past, and are
about one symbol. -/
structure Paced (ruleId : RuleId) (symbol : String) (gap : Int) (w : World Unit) :
    Prop where
  spaced : (w.ruleAlerts ruleId).Pairwise fun a b => a.createdAt + gap ≤ b.createdAt
  born : ∀ a ∈ w.ruleAlerts ruleId, a.createdAt ≤ w.clock
  symbols : ∀ a ∈ w.ruleAlerts ruleId, a.symbol = symbol

/-- No insert of the worker is open, unless its transaction has failed. -/
def AtRest (w : World Unit) : Prop := w.inflight = [] ∨ w.failed () = true

/-- The rule's alerts are all at least `gap` old. -/
def AllOld (ruleId : RuleId) (gap : Int) (w : World Unit) : Prop :=
  ∀ a ∈ w.ruleAlerts ruleId, a.createdAt + gap ≤ w.clock

variable {ruleId : RuleId} {symbol : String} {gap : Int} {w w' : World Unit}

theorem Paced.of_sublist (h : Paced ruleId symbol gap w)
    (hsub : w'.allAlerts.Sublist w.allAlerts) (hclock : w.clock ≤ w'.clock) :
    Paced ruleId symbol gap w' := by
  have hrule : (w'.ruleAlerts ruleId).Sublist (w.ruleAlerts ruleId) := hsub.filter _
  exact ⟨h.spaced.sublist hrule, fun a ha => le_trans (h.born a (hrule.mem ha)) hclock,
    fun a ha => h.symbols a (hrule.mem ha)⟩

/-- The worker's state between two steps of `evaluate`: the alerts are paced, no
insert is open, and if `P` then the rule is out of its cooldown. -/
structure Fit (ruleId : RuleId) (symbol : String) (gap : Int) (P : Prop) (w : World Unit) :
    Prop where
  paced : Paced ruleId symbol gap w
  atRest : AtRest w
  clear : P → AllOld ruleId gap w

variable {P P' : Prop}

theorem Fit.mono (h : Fit ruleId symbol gap P w) (hP : P' → P) :
    Fit ruleId symbol gap P' w :=
  ⟨h.paced, h.atRest, fun hp => h.clear (hP hp)⟩

/-- Reading leaves the worker fit. -/
theorem Fit.reads (h : Fit ruleId symbol gap P w) (hr : Reads () w w')
    (hclock : w.clock ≤ w'.clock) : Fit ruleId symbol gap P w' := by
  have hall : w'.allAlerts = w.allAlerts := by
    rw [allAlerts, hr.alerts, hr.inflight, allAlerts]
  refine ⟨h.paced.of_sublist (by rw [hall]) hclock, ?_, fun hp a ha => ?_⟩
  · rcases h.atRest with hnone | hfailed
    · exact Or.inl (hr.inflight.trans hnone)
    · exact Or.inr (hr.failed hfailed)
  · rw [ruleAlerts, hall] at ha
    exact le_trans (h.clear hp a ha) hclock

/-- After a rollback no insert is open. -/
theorem Fit.abort (h : Paced ruleId symbol gap w) : Fit ruleId symbol gap False (w.abort ()) := by
  have hsub : (w.abort ()).allAlerts.Sublist w.allAlerts :=
    List.Sublist.append_left (List.Sublist.map _ List.filter_sublist) _
  refine ⟨h.of_sublist hsub (le_refl _), Or.inl ?_, False.elim⟩
  rw [World.abort, List.filter_eq_nil_iff]
  simp

/-- The new alert keeps its distance, if the rule is out of its cooldown. -/
theorem Paced.insert (h : Paced ruleId symbol gap w) {row : Alert}
    (hclear : row.ruleId = ruleId → AllOld ruleId gap w)
    (hsymbol : row.ruleId = ruleId → row.symbol = symbol) (hborn : row.createdAt = w.clock) :
    Paced ruleId symbol gap { w with inflight := w.inflight ++ [((), row)] } := by
  have hall : World.ruleAlerts { w with inflight := w.inflight ++ [((), row)] } ruleId
      = w.ruleAlerts ruleId ++ [row].filter (fun a => a.ruleId = ruleId) := by
    rw [ruleAlerts, ruleAlerts, ← List.filter_append]
    congr 1
    simp [allAlerts]
  have hnew : ∀ {a : Alert}, a ∈ [row].filter (fun a => a.ruleId = ruleId) →
      a = row ∧ row.ruleId = ruleId := by
    intro a ha
    rw [List.mem_filter, List.mem_singleton] at ha
    exact ⟨ha.1, ha.1 ▸ by simpa using ha.2⟩
  refine ⟨?_, fun a ha => ?_, fun a ha => ?_⟩
  · -- the gap to every alert of the rule before it is what the cooldown check has shown
    rw [hall, List.pairwise_append]
    refine ⟨h.spaced, (List.pairwise_singleton _ row).sublist List.filter_sublist, ?_⟩
    intro a ha b hb
    obtain ⟨rfl, hrule⟩ := hnew hb
    rw [hborn]
    exact hclear hrule a ha
  · rw [hall] at ha
    rcases List.mem_append.mp ha with ha | ha
    · exact h.born a ha
    · rw [(hnew ha).1, hborn]
  · rw [hall] at ha
    rcases List.mem_append.mp ha with ha | ha
    · exact h.symbols a ha
    · rw [(hnew ha).1]
      exact hsymbol (hnew ha).2

end World

/-! ## §2. One call of `evaluate`. -/

/-- The clock reads what the check needs: if some alert of the rule is younger
than `gap`, some alert's `triggered_at` is as well. -/
def Timely (ruleId : RuleId) (gap : Int) : Op → Input → World Unit → Prop
  | .utcnow, inp, w => w.evaluating = some ruleId →
      (∃ a ∈ w.ruleAlerts ruleId, w.clock + inp.elapsed < a.triggeredAt + gap) ∨
        ∀ a ∈ w.ruleAlerts ruleId, a.createdAt + gap ≤ w.clock + inp.elapsed
  | _, _, _ => True

section Call

variable {α : Type} (ruleId : RuleId) (symbol : String) (gap : Int)

/-- Run alone, on timely clock readings, `p` keeps the alerts paced at every step. -/
abbrev pacing (Q : α → World Unit → Prop) (E : World Unit → Prop) (p : Prog α)
    (w : World Unit) : Prop :=
  Coro.wp (World.perform ()) (Timely ruleId gap) Eq (fun _ w' => w'.Paced ruleId symbol gap)
    Q (fun _ => E) p w

variable {ruleId symbol gap} {P : Prop} {w : World Unit}

/-- What only reads leaves the worker fit. -/
theorem pacing_reads {ρ : α → Prop} {p : Prog α} (hp : p.Uses Op.harmless ρ)
    (h : w.Fit ruleId symbol gap P) :
    pacing ruleId symbol gap (fun a w' => ρ a ∧ w'.Fit ruleId symbol gap P)
      (fun w' => w'.Fit ruleId symbol gap P) p w := by
  refine Coro.wp_of_uses (fun s s' hs hfit => hs ▸ hfit) ?_ hp h
  intro o inp s r s' ho _ hperf hfit
  have hfit' := hfit.reads (World.perform_harmless hperf ho) (World.perform_kept hperf).clock
  exact ⟨hfit'.paced, hfit'⟩

/-! ### The check. -/

/-- The answer to the check's query: a session in good standing, at rest, gets
the alert with the latest `triggered_at`. -/
theorem last_alert {inp : Input} {w' : World Unit} {last : Option Alert}
    (h : w.Fit ruleId symbol gap P)
    (hperf : World.perform () (.selectLastAlert ruleId symbol) inp w
      = some (.ok last, w')) :
    w' = w.tick inp.elapsed ∧ (∀ a ∈ w.ruleAlerts ruleId, ∃ b, last = some b ∧
      a.triggeredAt ≤ b.triggeredAt) := by
  obtain ⟨-, -, e, he⟩ | ⟨-, -, e, -, he⟩ | ⟨hf, -, hb⟩ := World.statement_cases hperf
  · exact absurd he (by simp)
  · exact absurd he (by simp)
  split at hb
  next hpage =>
    obtain ⟨hlast, hw⟩ := World.answer_inj hb
    have hlast : inp.rows.head? = last := by simpa using hlast
    refine ⟨hw.symm, fun a ha => ?_⟩
    have hnone : w.inflight = [] := h.atRest.resolve_right (by
      rw [show w.failed () = false from hf]
      simp)
    have hmem : a ∈ (w.tick inp.elapsed).alertsOf ruleId symbol := by
      have hsym := h.paced.symbols a ha
      rw [World.ruleAlerts, World.allAlerts, hnone, List.map_nil, List.append_nil,
        List.mem_filter] at ha
      refine List.mem_filter.mpr ⟨ha.1, ?_⟩
      simpa [hsym] using ha.2
    obtain ⟨-, hlen, -, -, hall⟩ := hpage
    -- the page holds one row, and `a` is that row or triggered no later
    have hpos : 0 < ((w.tick inp.elapsed).alertsOf ruleId symbol).length :=
      List.length_pos_of_mem hmem
    obtain ⟨b, hb⟩ : ∃ b, inp.rows = [b] :=
      List.length_eq_one_iff.mp (by rw [hlen]; exact Nat.min_eq_left hpos)
    rw [hb] at hlast hall
    refine ⟨b, hlast.symm, ?_⟩
    rcases hall a hmem with hab | hle
    · rw [List.mem_singleton.mp hab]
    · exact hle b (List.mem_singleton_self b)
  next => exact absurd hb (by simp)

/-- **The check.**  On a timely clock the rule that it lets through is out of its
cooldown. -/
theorem pacing_isInCooldown {rule : Rule} {cooldown : Int}
    (hcool : rule.cooldownSeconds = some cooldown) (hpos : 0 < cooldown)
    (hupper : upper symbol = symbol)
    (h : w.Fit rule.id symbol (seconds cooldown) False)
    (hnow : w.evaluating = some rule.id) :
    pacing rule.id symbol (seconds cooldown)
      (fun b w' => w'.Fit rule.id symbol (seconds cooldown) (b = false))
      (fun w' => w'.Fit rule.id symbol (seconds cooldown) False)
      (isInCooldown rule symbol) w := by
  unfold isInCooldown
  rw [if_neg (by rw [hcool]; simp; omega), hupper]
  intro s₁ hs inp r w₁ _ hperf
  subst hs
  have hread := World.perform_harmless hperf trivial
  have hfit := h.reads hread (World.perform_kept hperf).clock
  refine ⟨hfit.paced, ?_⟩
  cases r with
  | error e => exact hfit
  | ok last =>
      obtain ⟨hw, hlatest⟩ := last_alert h hperf
      have hsame : w₁.ruleAlerts rule.id = w.ruleAlerts rule.id := by rw [hw]; rfl
      cases last with
      | none =>
          refine ⟨hfit.paced, hfit.atRest, fun _ a ha => ?_⟩
          rw [hsame] at ha
          obtain ⟨b, hb, -⟩ := hlatest a ha
          exact absurd hb (by simp)
      | some last =>
          rw [hcool]
          intro s₂ hs inp' now w₂ htimely hperf'
          subst hs
          obtain ⟨rfl, rfl⟩ := World.answer_inj hperf'
          have hfit' : (w₁.tick inp'.elapsed).Fit _ _ _ _ :=
            hfit.reads ⟨rfl, rfl, id⟩ (by simp [World.tick])
          refine ⟨hfit'.paced, hfit'.paced, hfit'.atRest, fun hb a ha => ?_⟩
          have hlate : ¬ (w₁.tick inp'.elapsed).clock
              < last.triggeredAt + seconds cooldown := by simpa using hb
          have hev : w₁.evaluating = some rule.id := by rw [hw]; exact hnow
          -- no alert's `triggered_at` is within the cooldown, so no alert is
          rcases htimely hev with ⟨b, hbm, hlt⟩ | hall
          · rw [hsame] at hbm
            obtain ⟨b', hb', hle⟩ := hlatest b hbm
            obtain rfl := Option.some.inj hb'
            exact absurd (lt_of_lt_of_le hlt (Int.add_le_add_right hle _)) hlate
          · exact hall a ha

/-! ### The alert. -/

/-- After the insert: the alert is in, or nothing has changed. -/
def PacedAfter (ruleId : RuleId) (symbol : String) (gap : Int) :
    Option AlertId → World Unit → Prop
  | none, w => w.Fit ruleId symbol gap False
  | some _, w => w.Paced ruleId symbol gap

/-- A fit worker's insert. -/
theorem pacing_insertInSavepoint {alert : Alert} (h : w.Fit ruleId symbol gap P)
    (hP : alert.ruleId = ruleId → P) (hsymbol : alert.ruleId = ruleId → alert.symbol = symbol) :
    pacing ruleId symbol gap (PacedAfter ruleId symbol gap)
      (fun w' => w'.Fit ruleId symbol gap False) (insertInSavepoint alert) w := by
  have hcatch : ∀ {e : PyErr} {v : World Unit}, v.Fit ruleId symbol gap P →
      pacing ruleId symbol gap (PacedAfter ruleId symbol gap)
        (fun w' => w'.Fit ruleId symbol gap False)
        (if e.cls = .integrityError then pure none else throw e) v := by
    intro e v hv
    split
    next => exact hv.mono False.elim
    next => exact hv.mono False.elim
  unfold insertInSavepoint
  refine Coro.wp_tryCatch (Coro.wp_bind ?_)
  intro s₁ hs inp r w₁ _ hperf
  subst hs
  have hfit := h.reads (.of_tick (World.statement_reads hperf
    fun hb => (World.answer_inj hb).2.symm)) (World.perform_kept hperf).clock
  refine ⟨hfit.paced, ?_⟩
  cases r with
  | error e => exact hcatch hfit
  | ok _ =>
      refine Coro.wp_bind ?_
      intro s₂ hs inp' r w₂ _ hperf'
      subst hs
      have hclock := (World.perform_kept hperf').clock
      -- a failed insert changes nothing; one that succeeds adds the alert
      suffices hins : (∃ e, r = .error e) ∧ w₂.Fit ruleId symbol gap P ∨
          (∃ id, r = .ok id) ∧ w₂.Paced ruleId symbol gap by
        rcases hins with ⟨⟨e, rfl⟩, hfit'⟩ | ⟨⟨id, rfl⟩, hpaced⟩
        · exact ⟨hfit'.paced, hcatch hfit'⟩
        · exact ⟨hpaced, hpaced⟩
      obtain ⟨⟨e, rfl⟩, rfl | rfl⟩ | ⟨-, rfl, rfl, -⟩ := World.insertAlert_cases hperf'
      · exact Or.inl ⟨⟨_, rfl⟩, hfit.reads ⟨rfl, rfl, id⟩ hclock⟩
      · exact Or.inl ⟨⟨_, rfl⟩, hfit.reads ⟨rfl, rfl, id⟩ hclock⟩
      · have hfit' : (w₁.tick inp'.elapsed).Fit _ _ _ _ :=
          hfit.reads ⟨rfl, rfl, id⟩ (by simp [World.tick])
        refine Or.inr ⟨⟨_, rfl⟩, hfit'.paced.insert (fun hid => ?_) hsymbol rfl⟩
        exact hfit'.clear (hP hid)

/-- The commit leaves no insert open; if it fails the transaction has failed. -/
theorem pacing_commitNewAlert {inserted : Option AlertId}
    (h : PacedAfter ruleId symbol gap inserted w) :
    pacing ruleId symbol gap (fun _ w' => w'.Fit ruleId symbol gap False)
      (fun w' => w'.Fit ruleId symbol gap False) (commitNewAlert inserted) w := by
  unfold commitNewAlert
  cases inserted with
  | none => exact h
  | some id =>
      have h : w.Paced ruleId symbol gap := h
      intro s₁ hs inp r w₁ _ hperf
      subst hs
      have hclock := (World.perform_kept hperf).clock
      have hfit : w₁.Fit ruleId symbol gap False := by
        obtain ⟨hf, rfl, -⟩ | ⟨-, rfl, -⟩ | ⟨-, -, hb⟩ := World.statement_cases hperf
        · exact ⟨h.of_sublist (List.Sublist.refl _) hclock, Or.inr hf, False.elim⟩
        · exact ⟨h.of_sublist (List.Sublist.refl _) hclock, Or.inr (by simp [World.fail]),
            False.elim⟩
        · obtain ⟨-, rfl⟩ := World.answer_inj hb
          refine ⟨h.of_sublist ?_ hclock, Or.inl ?_, False.elim⟩
          · exact World.commitRows_sublist _
          · show List.filter _ _ = []
            rw [List.filter_eq_nil_iff]
            simp
      refine ⟨hfit.paced, ?_⟩
      cases r with
      | error e => exact hfit
      | ok _ =>
          intro s₂ hs inp' r w₂ _ hperf'
          subst hs
          -- the refresh only reads
          have hfit' := hfit.reads (.of_tick (World.statement_reads hperf'
            fun hb => (World.answer_inj hb).2.symm)) (World.perform_kept hperf').clock
          refine ⟨hfit'.paced, ?_⟩
          cases r with
          | error e => exact hfit'
          | ok row => exact hfit'

/-- **`_create_alert` for a rule that is out of its cooldown.** -/
theorem pacing_createAlert {rule : Rule} {candle : Candle} {windowStart windowEnd : Time}
    {triggerValue : Rat} (h : w.Fit ruleId symbol gap P) (hP : rule.id = ruleId → P)
    (hsymbol : rule.id = ruleId → candle.symbol = symbol) :
    pacing ruleId symbol gap (fun _ w' => w'.Fit ruleId symbol gap False)
      (fun w' => w'.Fit ruleId symbol gap False)
      (createAlert rule candle windowStart windowEnd triggerValue) w := by
  unfold createAlert
  refine Coro.wp_bind ?_
  intro s₁ hs inp r w₁ _ hperf
  subst hs
  have hread : World.Reads () w w₁ := by
    obtain ⟨-, rfl⟩ := World.answer_inj hperf
    exact ⟨rfl, rfl, id⟩
  have hfit := h.reads hread (World.perform_kept hperf).clock
  refine ⟨hfit.paced, Coro.wp_bind ?_⟩
  refine Coro.wp_mono (fun inserted v hv => pacing_commitNewAlert hv) (fun _ _ hv => hv) ?_
  exact pacing_insertInSavepoint hfit hP hsymbol

/-! ### The whole call. -/

/-- **A call of `evaluate` keeps the alerts paced**, on the rule itself and on any
other. -/
theorem pacing_evaluate {ruleClasses : RuleClasses} {rule rule' : Rule} {cooldown : Int}
    {candle : Candle} (hcool : rule.cooldownSeconds = some cooldown) (hpos : 0 < cooldown)
    (hsame : rule'.id = rule.id → rule'.cooldownSeconds = rule.cooldownSeconds ∧
      candle.symbol = symbol ∧ upper symbol = symbol)
    (h : w.Fit rule.id symbol (seconds cooldown) False) :
    pacing rule.id symbol (seconds cooldown)
      (fun _ w' => w'.Fit rule.id symbol (seconds cooldown) False)
      (fun w' => w'.Fit rule.id symbol (seconds cooldown) False)
      (evaluate ruleClasses rule' candle) w := by
  unfold evaluate
  refine Coro.wp_bind ?_
  intro s₁ hs inp r w₁ _ hperf
  subst hs
  -- the call is noted: from now on the rule is under evaluation
  have hfit := h.reads (World.perform_harmless hperf trivial) (World.perform_kept hperf).clock
  have hnow : w₁.evaluating = some rule'.id := by
    obtain ⟨-, rfl⟩ := World.answer_inj hperf
    simp [World.evaluating]
  refine ⟨hfit.paced, Coro.wp_bind ?_⟩
  refine Coro.wp_mono (Q := fun b v => v.Fit rule.id symbol (seconds cooldown)
    (b = false ∧ rule'.id = rule.id)) ?_ (fun _ _ hv => hv) ?_
  · intro inCooldown v hv
    split
    next => exact hv.mono False.elim
    next hout =>
      -- not in cooldown: if it is the rule itself, an alert fits now
      have hv : v.Fit rule.id symbol (seconds cooldown) (rule'.id = rule.id) :=
        hv.mono fun hid => ⟨by simpa using hout, hid⟩
      split
      next => exact hv.mono False.elim
      next cls _ =>
        refine Coro.wp_tryCatch ?_
        unfold evaluateClass
        refine Coro.wp_bind (Coro.wp_mono ?_ (fun _ _ hv => hv.mono False.elim)
          (pacing_reads ((cls.reads rule'.config candle).mono ?_ (fun _ h => h)) hv))
        · intro value v hv
          split
          next => exact hv.2.mono False.elim
          next triggerValue =>
            exact pacing_createAlert hv.2 id (fun hid => (hsame hid).2.1)
        · intro o ho
          cases o <;> first | exact ho | trivial
  · by_cases hid : rule'.id = rule.id
    · -- the rule itself: its check answers for the cooldown
      obtain ⟨hcool', hsym, hupper⟩ := hsame hid
      rw [hsym]
      rw [← hid] at hfit ⊢
      exact Coro.wp_mono (fun b v hv => hv.mono fun hb => hb.1) (fun _ _ hv => hv)
        (pacing_isInCooldown (hcool'.trans hcool) hpos hupper hfit hnow)
    · -- another rule: whatever its check says
      refine Coro.wp_mono (fun b v hv => hv.2.mono fun hb => hid hb.2)
        (fun _ _ hv => hv) (pacing_reads (uses_isInCooldown (fun _ => trivial) trivial) hfit)

end Call

namespace Workers

variable {ruleClasses : RuleClasses} {rule : Rule} {cooldown : Int} {c c' : Workers Unit}

/-! ## §3. Whole runs. -/

/-- The rule is evaluated with its cooldown, on candles of its symbol, which are
upper-case; other rules on anything. -/
def OnRule (rule : Rule) : Action Unit → Prop
  | .evaluate _ rule' candle => rule'.id = rule.id →
      rule'.cooldownSeconds = rule.cooldownSeconds ∧
        candle.symbol = rule.symbol ∧ upper rule.symbol = rule.symbol
  | _ => True

/-- The operation that is answered is timely. -/
def AnswersInTime (rule : Rule) (cooldown : Int) (c : Workers Unit) : Action Unit → Prop
  | .answer _ inp =>
      match c.task () with
      | .await o _ => Timely rule.id (seconds cooldown) o inp c.world
      | _ => True
  | _ => True

/-- And every clock reading of its check is timely. -/
def OnTime (rule : Rule) (cooldown : Int) (c : Workers Unit) (a : Action Unit) : Prop :=
  OnRule rule a ∧ AnswersInTime rule cooldown c a

/-- The worker is idle and the rule has no alerts yet. -/
structure Fresh (rule : Rule) (c : Workers Unit) : Prop where
  idle : (c.task ()).finished = true
  inflight : c.world.inflight = []
  unborn : ∀ a ∈ c.world.alerts.rows, a.ruleId ≠ rule.id

/-- The alerts are paced, and so they stay while the rest of the call runs. -/
structure Steady (rule : Rule) (cooldown : Int) (c : Workers Unit) : Prop where
  paced : c.world.Paced rule.id rule.symbol (seconds cooldown)
  rest : pacing rule.id rule.symbol (seconds cooldown)
    (fun _ w => w.Fit rule.id rule.symbol (seconds cooldown) False)
    (fun w => w.Fit rule.id rule.symbol (seconds cooldown) False) (c.task ()) c.world

theorem Steady.fit (h : Steady rule cooldown c) (hf : (c.task ()).finished = true) :
    c.world.Fit rule.id rule.symbol (seconds cooldown) False := by
  have hrest := h.rest
  cases ht : c.task () with
  | pure a => rw [ht] at hrest; exact hrest
  | raise e => rw [ht] at hrest; exact hrest
  | await o k => rw [ht] at hf; exact absurd hf (by simp [Coro.finished])

theorem Steady.init (h : Fresh rule c) : Steady rule cooldown c := by
  have hnone : c.world.ruleAlerts rule.id = [] := by
    rw [World.ruleAlerts, World.allAlerts, h.inflight, List.map_nil, List.append_nil,
      List.filter_eq_nil_iff]
    intro a ha
    simpa using h.unborn a ha
  have hpaced : c.world.Paced rule.id rule.symbol (seconds cooldown) :=
    ⟨by rw [hnone]; exact .nil, by rw [hnone]; simp, by rw [hnone]; simp⟩
  have hfit : c.world.Fit rule.id rule.symbol (seconds cooldown) False :=
    ⟨hpaced, Or.inl h.inflight, False.elim⟩
  refine ⟨hpaced, ?_⟩
  have hidle := h.idle
  cases ht : c.task () with
  | pure a => exact hfit
  | raise e => exact hfit
  | await o k => rw [ht] at hidle; exact absurd hidle (by simp [Coro.finished])

theorem Steady.step {a : Action Unit} (hcool : rule.cooldownSeconds = some cooldown)
    (hpos : 0 < cooldown) (h : Steady rule cooldown c) (hok : OnTime rule cooldown c a)
    (hstep : Workers.step ruleClasses c a = some c') : Steady rule cooldown c' := by
  cases a with
  | evaluate i rule' candle =>
      simp only [Workers.step] at hstep
      split at hstep
      next hguard =>
        simp only [Option.some.injEq] at hstep
        subst hstep
        rw [Bool.and_eq_true] at hguard
        have hfit := h.fit hguard.1
        refine ⟨h.paced, ?_⟩
        show pacing _ _ _ _ _ (Function.update c.pool.task () _ ()) c.world
        rw [Function.update_self]
        exact pacing_evaluate hcool hpos hok.1 hfit
      next => exact absurd hstep (by simp)
  | answer i inp =>
      simp only [Workers.step, Option.map_eq_some_iff] at hstep
      obtain ⟨pool, hpool, rfl⟩ := hstep
      obtain ⟨o, k, r, ht, hperf, htask, -⟩ := Pool.answer_cases hpool
      have hrest := h.rest
      have htimely := hok.2
      rw [show c.task () = .await o k from ht] at hrest
      rw [AnswersInTime, show c.task () = .await o k from ht] at htimely
      obtain ⟨hpaced, hrest⟩ := hrest c.world rfl inp r pool.world htimely hperf
      have hproceed : (c.proceed i pool).world = pool.world ∧
          (c.proceed i pool).task () = k r := by
        unfold proceed
        split <;> exact ⟨rfl, htask⟩
      exact ⟨by rw [hproceed.1]; exact hpaced, by rw [hproceed.1, hproceed.2]; exact hrest⟩
  | crash i =>
      -- the open insert is rolled back, and the next call begins afresh
      simp only [Workers.step, Option.some.injEq] at hstep
      subst hstep
      have hfit := World.Fit.abort h.paced
      refine ⟨hfit.paced, ?_⟩
      show pacing _ _ _ _ _ (Function.update c.pool.task () _ ()) _
      rw [Function.update_self]
      exact hfit

/-- Any two committed alerts of the rule are created at least the cooldown apart. -/
def Cooled (ruleId : RuleId) (cooldown : Int) (c : Workers Unit) : Prop :=
  ∀ a ∈ c.world.alerts.rows, ∀ b ∈ c.world.alerts.rows,
    a.ruleId = ruleId → b.ruleId = ruleId → a ≠ b → a.Apart (seconds cooldown) b

/-- **The cooldown is honoured on a timely clock.** -/
theorem cooldown_honoured (hcool : rule.cooldownSeconds = some cooldown) (hpos : 0 < cooldown)
    {c₀ : Workers Unit} (h₀ : Fresh rule c₀)
    (hrun : Reaches (Workers.step ruleClasses) (OnTime rule cooldown) c₀ c) :
    Cooled rule.id cooldown c := by
  have h : Steady rule cooldown c :=
    hrun.invariant (fun _ _ _ hI hok hs => hI.step hcool hpos hok hs) (.init h₀)
  intro a ha b hb hida hidb hab
  have hmem : ∀ {x : Alert}, x ∈ c.world.alerts.rows → x.ruleId = rule.id →
      x ∈ c.world.ruleAlerts rule.id := fun hx hid =>
    List.mem_filter.mpr ⟨List.mem_append_left _ hx, by simpa using hid⟩
  have hapart : (c.world.ruleAlerts rule.id).Pairwise (Alert.Apart (seconds cooldown)) :=
    h.paced.spaced.imp Or.inl
  exact hapart.forall (hmem ha hida) (hmem hb hidb) hab

/-! ### Two alerts of a rule with a cooldown of twenty minutes. -/

/-- The sample rule with a cooldown. -/
def coolRule : Rule := { sampleRule with cooldownSeconds := some 1200 }

/-- The rule table with that rule alone. -/
def coolRules : Table Rule.id := Table.empty.insertNew coolRule

/-- The bar that opens `n` seconds after the epoch. -/
def barAt (n : Int) : Candle := { sampleCandle with timestamp := seconds n }

/-- The alert of the first bar, created when the bar closes. -/
def firstAlert : Alert :=
  { newAlert coolRule (barAt 0) 0 minute 1 with id := 1, createdAt := seconds 900 }

/-- The first bar comes when it closes, the bar that opens after `n` seconds when
that one closes. -/
def twoBars (n : Nat) : List (Action Unit) :=
  [.evaluate () coolRule (barAt 0),
   .answer () {}, .answer () { elapsed := 900000000 }, .answer () {}, .answer () {},
   .answer () { uuid := 1 }, .answer () {}, .answer () {},
   .evaluate () coolRule (barAt n),
   .answer () {}, .answer () { elapsed := n * 1000000, rows := [firstAlert] },
   .answer () {}, .answer () {}, .answer () {}, .answer () { uuid := 2 },
   .answer () {}]

instance (rule : Rule) : (a : Action Unit) → Decidable (OnRule rule a)
  | .evaluate _ rule' candle => inferInstanceAs (Decidable (rule'.id = rule.id →
      rule'.cooldownSeconds = rule.cooldownSeconds ∧
        candle.symbol = rule.symbol ∧ upper rule.symbol = rule.symbol))
  | .answer _ _ | .crash _ => inferInstanceAs (Decidable True)

instance (ruleId : RuleId) (gap : Int) (o : Op) (inp : Input) (w : World Unit) :
    Decidable (Timely ruleId gap o inp w) := by
  unfold Timely
  split <;> infer_instance

instance (rule : Rule) (cooldown : Int) (c : Workers Unit) (a : Action Unit) :
    Decidable (AnswersInTime rule cooldown c a) := by
  unfold AnswersInTime
  repeat' split
  all_goals infer_instance

instance (rule : Rule) (cooldown : Int) (c : Workers Unit) (a : Action Unit) :
    Decidable (OnTime rule cooldown c a) :=
  inferInstanceAs (Decidable (_ ∧ _))

instance (ruleId : RuleId) (cooldown : Int) (c : Workers Unit) :
    Decidable (Cooled ruleId cooldown c) :=
  inferInstanceAs (Decidable (∀ a ∈ c.world.alerts.rows, ∀ b ∈ c.world.alerts.rows,
    a.ruleId = ruleId → b.ruleId = ruleId → a ≠ b → a.Apart (seconds cooldown) b))

theorem fresh_initial (rule : Rule) (rules : Table Rule.id) : Fresh rule (initial rules) :=
  ⟨rfl, rfl, by simp [initial, World.initial, Table.empty]⟩

/-- The bar after the next raises the second alert. -/
theorem cooldown_honoured_later : ∃ c : Workers Unit, c.world.alerts.rows.length = 2 ∧
    Cooled 1 1200 c := by
  have hend : (runs (fun c a => if OnTime coolRule 1200 c a then step alwaysMatches c a
      else none) (twoBars 1800) (initial coolRules)).map
        (fun c => c.world.alerts.rows.length) = some 2 := by decide
  obtain ⟨c, hc, hlength⟩ := Option.map_eq_some_iff.mp hend
  exact ⟨c, hlength, cooldown_honoured rfl (by decide) (fresh_initial coolRule coolRules)
    (Reaches.of_runs hc)⟩

/-- **The very next bar raises the second alert**, a quarter of an hour after the first:
twenty minutes after the first bar's open time the cooldown is over. -/
theorem cooldown_fails : ¬ ∀ c : Workers Unit,
    Reaches (step alwaysMatches) (fun _ a => OnRule coolRule a) (initial coolRules) c →
      Cooled 1 1200 c := by
  intro h
  have hend : (runs (fun c a => if OnRule coolRule a then step alwaysMatches c a else none)
      (twoBars 900) (initial coolRules)).map (fun c => decide (Cooled 1 1200 c))
        = some false := by decide
  obtain ⟨c, hc, hnot⟩ := Option.map_eq_some_iff.mp hend
  exact of_decide_eq_false hnot (h c (Reaches.of_runs hc))

end Workers

end Pulse
