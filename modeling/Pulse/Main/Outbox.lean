/-
  Pulse.Main.Outbox
  ─────────────────
  **WHAT THE RECEIVERS ARE TOLD.**

  `worker/dispatch/{discord,webhook}.py` build their payloads from an alert and its rule
  that some session has loaded.  An alert is delivered at least once, by the main loop or
  by retries, and a receiver has only the payload to tell a repeated delivery by.

    • `genericPayload`, `discordEmbed` — the payloads,
    • `Outbox.perform` — the handler of the operations, keeping the messages sent,
    • `Outbox.Extends` — what the sessions rely on and guarantee,
    • `outbox_faithful` — a message tells of a committed alert as it was raised, and
                          two messages agree if and only if they tell of the same alert.
-/
import Pulse.Main.Processes

namespace Pulse

open Pulse.Async Pulse.Store

/-! ## §1. The payloads. -/

/-- `str`, `float` and `isoformat` of what goes into a payload. -/
structure Rendering (F : Type) where
  decimal : Rat → String
  float : Rat → F
  isoformat : Time → String
  ruleType : RuleType → String

/-- The JSON object of `send_generic_webhook`. -/
structure GenericPayload (F : Type) where
  alertId : AlertId
  ruleId : RuleId
  ruleName : String
  symbol : String
  ruleType : String
  triggerValue : Option F
  triggeredAt : String

/-- The payload of `send_generic_webhook`; `if alert.trigger_value` takes zero for none. -/
def genericPayload {F : Type} (r : Rendering F) (ruleName : String) (alert : Alert)
    (rule : Rule) : GenericPayload F where
  alertId := alert.id
  ruleId := rule.id
  ruleName := ruleName
  symbol := alert.symbol
  ruleType := r.ruleType alert.ruleType
  triggerValue := if alert.triggerValue = 0 then none else some (r.float alert.triggerValue)
  triggeredAt := r.isoformat alert.triggeredAt ++ "Z"

structure EmbedField where
  name : String
  value : String
  inline : Bool
  deriving DecidableEq

structure Embed where
  title : String
  description : String
  color : Nat
  fields : List EmbedField
  deriving DecidableEq

/-- The one embed of `send_discord_webhook`. -/
def discordEmbed {F : Type} (r : Rendering F) (ruleName : String) (alert : Alert) : Embed where
  title := "Alert: " ++ ruleName
  description := alert.symbol ++ " triggered at " ++ r.decimal alert.triggerValue
  color := 0x00FF00
  fields :=
    [⟨"Symbol", alert.symbol, true⟩,
     ⟨"Trigger Value", r.decimal alert.triggerValue, true⟩,
     ⟨"Rule Type", r.ruleType alert.ruleType, true⟩,
     ⟨"Time", r.isoformat alert.triggeredAt ++ "Z", false⟩]

variable {F : Type} {r : Rendering F} {ruleName : String} {a b : Alert} {rule rule' : Rule}

/-- Neither payload shows how far the delivery has come. -/
theorem genericPayload_of_asRaised (h : a.asRaised = b.asRaised) (hrule : rule.id = rule'.id) :
    genericPayload r ruleName a rule = genericPayload r ruleName b rule' := by
  have ha : genericPayload r ruleName a rule = genericPayload r ruleName a.asRaised rule := rfl
  rw [ha, h]
  show genericPayload r ruleName b rule = _
  simp only [genericPayload, hrule]

theorem discordEmbed_of_asRaised (h : a.asRaised = b.asRaised) :
    discordEmbed r ruleName a = discordEmbed r ruleName b := by
  have ha : discordEmbed r ruleName a = discordEmbed r ruleName a.asRaised := rfl
  rw [ha, h]
  rfl

/-! ## §2. The messages. -/

/-- What a request was built from. -/
structure Message where
  channel : Channel
  alert : Alert
  rule : Rule

/-- Where a request went, and what about. -/
def Message.key (m : Message) : AlertId × Channel := (m.alert.id, m.channel)

def Request.key (q : Request) : AlertId × Channel := (q.alertId, q.channel)

/-- The message that an operation sends. -/
def Op.messages : Op → List Message
  | .post ch alert rule => [⟨ch, alert, rule⟩]
  | _ => []

/-- Nothing is sent. -/
def Op.silent : Op → Prop
  | .post _ _ _ => False
  | _ => True

theorem Op.silent.messages {o : Op} (h : o.silent) : o.messages = [] := by
  cases o <;> first | exact h.elim | rfl

/-- What is sent tells of `loaded`, as it was raised, and of `rule`. -/
def Op.tells (loaded : Alert) (rule : Rule) : Op → Prop
  | .post _ alert r => alert.asRaised = loaded.asRaised ∧ r = rule
  | _ => True

theorem Op.tells.message {loaded : Alert} {rule : Rule} {o : Op} {m : Message}
    (h : o.tells loaded rule) (hm : m ∈ o.messages) :
    m.alert.asRaised = loaded.asRaised ∧ m.rule = rule := by
  cases o with
  | post ch alert r =>
      rw [List.mem_singleton.mp hm]
      exact h
  | _ => exact absurd hm (by simp [Op.messages])

theorem silent_insertInSavepoint {alert : Alert} :
    (insertInSavepoint alert).Uses Op.silent (fun _ => True) := by
  unfold insertInSavepoint
  refine Coro.Uses.tryCatch ?_ fun e => by split <;> trivial
  refine Coro.Uses.bind (ρ := fun _ => True) ⟨trivial, fun _ => .ofExcept _⟩ fun _ _ => ?_
  exact Coro.Uses.bind (ρ := fun _ => True) ⟨trivial, fun _ => .ofExcept _⟩ fun _ _ => trivial

section Tells

variable {loaded : Alert} {rule : Rule}

theorem tells_sendWebhook {ch : Channel} {alert : Alert} (h : alert.asRaised = loaded.asRaised) :
    (sendWebhook ch alert rule).Uses (Op.tells loaded rule) (fun _ => True) := by
  unfold sendWebhook
  split
  next =>
    refine Coro.Uses.bind (ρ := fun _ => True) ⟨trivial, fun _ => .ofExcept _⟩ fun _ _ => ?_
    refine Coro.Uses.tryCatch ?_ fun _ => trivial
    refine Coro.Uses.bind (ρ := fun _ => True) ⟨⟨h, rfl⟩, ?_⟩ fun c _ => ?_
    · intro r
      cases r <;> trivial
    · unfold raiseForStatus
      split <;> trivial
  next => trivial

/-- One half of `dispatch`. -/
theorem tells_dispatchChannel {ch : Channel} {alert : AlertObj} {n : Nat} {t : Time}
    {records : List AlertDeliveryAttempt} (h : alert.row.asRaised = loaded.asRaised) :
    (dispatchChannel ch (sendWebhook ch) alert rule n t records).Uses (Op.tells loaded rule)
      (fun _ => True) := by
  unfold dispatchChannel
  split
  next =>
    refine Coro.Uses.tryCatch ?_ fun _ =>
      Coro.Uses.bind (ρ := fun _ => True) ⟨trivial, fun _ => trivial⟩ fun _ _ => trivial
    refine Coro.Uses.bind (tells_sendWebhook h) fun success _ => ?_
    refine Coro.Uses.bind (ρ := fun _ => True) ⟨trivial, fun _ => trivial⟩ fun _ _ => ?_
    split
    next =>
      exact Coro.Uses.bind (ρ := fun _ => True) ⟨trivial, fun _ => .ofExcept _⟩
        fun _ _ => trivial
    next => trivial
  next => trivial

theorem tells_retrySend {alert : Alert} (h : alert.asRaised = loaded.asRaised) :
    (retrySend alert rule).Uses (Op.tells loaded rule) (fun _ => True) := by
  unfold retrySend
  refine Coro.Uses.tryCatch ?_ fun _ => trivial
  refine Coro.Uses.bind (ρ := fun _ => True) ?_ fun discord _ => ?_
  · split
    next => exact tells_sendWebhook h
    next => trivial
  · refine Coro.Uses.bind (ρ := fun _ => True) ?_ fun _ _ => trivial
    split
    next => exact tells_sendWebhook h
    next => trivial

/-- A delivery round of a retry. -/
theorem tells_retryRound {M : Nat} {now : Time} :
    (retryRound M (AlertObj.ofRow loaded) rule now).Uses (Op.tells loaded rule)
      (fun _ => True) := by
  unfold retryRound
  refine Coro.Uses.bind (ρ := fun _ => True) ⟨trivial, fun _ => trivial⟩ fun t _ => ?_
  refine Coro.Uses.bind (tells_retrySend rfl) fun outcome _ => ?_
  refine Coro.Uses.bind (ρ := fun _ => True) ⟨trivial, fun _ => trivial⟩ fun t' _ => ?_
  exact ⟨trivial, fun _ => .ofExcept _⟩

end Tells

/-- The world, and every message sent, in order. -/
structure Outbox (ι : Type) where
  world : World ι
  sent : List Message

namespace Outbox

variable {ι : Type} [DecidableEq ι]

/-- Answer operation `o` of session `i`. -/
def perform (i : ι) (o : Op) (inp : Input) (s : Outbox ι) : Option (Resp o × Outbox ι) :=
  (World.perform i o inp s.world).map fun out => (out.1, ⟨out.2, s.sent ++ o.messages⟩)

/-- The alert is committed; its deliveries may have gone on since it was loaded. -/
def Committed (alert : Alert) (s : Outbox ι) : Prop :=
  ∃ row, s.world.alerts.get alert.id = some row ∧ row.asRaised = alert.asRaised

/-- The message tells of a committed alert, and of its rule. -/
def Tells (m : Message) (s : Outbox ι) : Prop :=
  Committed m.alert s ∧ m.rule.id = m.alert.ruleId

/-- What every session relies on and guarantees. -/
structure Extends (s s' : Outbox ι) : Prop where
  kept : ∀ alert, Committed alert s → Committed alert s'
  sent : ∃ new, s'.sent = s.sent ++ new ∧ (∀ m ∈ new, Tells m s') ∧
    s'.world.requests.map Request.key = s.world.requests.map Request.key ++ new.map Message.key

omit [DecidableEq ι] in
theorem Extends.of_eq {s s' : Outbox ι} (halerts : s'.world.alerts = s.world.alerts)
    (hrequests : s'.world.requests = s.world.requests) (hsent : s'.sent = s.sent) :
    Extends s s' where
  kept := fun alert h => by
    obtain ⟨row, hrow, hraised⟩ := h
    exact ⟨row, by rw [halerts]; exact hrow, hraised⟩
  sent := ⟨[], by rw [hsent, List.append_nil], fun m hm => absurd hm (by simp), by
    rw [hrequests, List.map_nil, List.append_nil]⟩

omit [DecidableEq ι] in
theorem Extends.refl (s : Outbox ι) : Extends s s := .of_eq rfl rfl rfl

omit [DecidableEq ι] in
theorem Extends.trans (s s' s'' : Outbox ι) (h : Extends s s') (h' : Extends s' s'') :
    Extends s s'' := by
  obtain ⟨new, hsent, htells, hrequests⟩ := h.sent
  obtain ⟨new', hsent', htells', hrequests'⟩ := h'.sent
  refine ⟨fun alert ha => h'.kept alert (h.kept alert ha), new ++ new', ?_, fun m hm => ?_, ?_⟩
  · rw [hsent', hsent, List.append_assoc]
  · rcases List.mem_append.mp hm with hold | hnew
    · exact ⟨h'.kept _ (htells m hold).1, (htells m hold).2⟩
    · exact htells' m hnew
  · rw [hrequests', hrequests, List.map_append, List.append_assoc]

/-- The record of requests grows by the messages of the operation. -/
theorem perform_messages {i : ι} {o : Op} {inp : Input} {w w' : World ι} {r : Resp o}
    (h : World.perform i o inp w = some (r, w')) :
    w'.requests.map Request.key = w.requests.map Request.key ++ o.messages.map Message.key := by
  by_cases hpost : ∃ ch alert rule, o = .post ch alert rule
  · obtain ⟨ch, alert, rule, rfl⟩ := hpost
    obtain ⟨-, rfl⟩ := World.answer_inj h
    show List.map Request.key (w.requests ++ [⟨alert.id, ch, inp.reply⟩]) = _
    rw [List.map_append]
    rfl
  · have hnone : o.messages = [] := by
      cases o with
      | post ch alert rule => exact absurd ⟨ch, alert, rule, rfl⟩ hpost
      | _ => rfl
    rw [hnone, List.map_nil, List.append_nil]
    show _ = (w.tick inp.elapsed).requests.map _
    have heffect := World.perform_effect h
    generalize w.tick inp.elapsed = w₁ at heffect ⊢
    cases heffect with
    | nothing | abort | call | fault | undone | refused | insert | commit | candle | cursor => rfl
    | post ch alert rule => exact absurd ⟨_, _, _, rfl⟩ hpost
    | delivery alert records => rw [(World.storeDelivery_apart w₁ i alert records).requests]

/-- **One operation** whose messages tell of committed alerts. -/
theorem perform_onward {i : ι} {o : Op} {inp : Input} {s s' : Outbox ι} {r : Resp o}
    (ho : ∀ m ∈ o.messages, Tells m s) (h : perform i o inp s = some (r, s')) : Extends s s' := by
  simp only [perform, Option.map_eq_some_iff, Prod.mk.injEq] at h
  obtain ⟨⟨r₀, w⟩, hperf, rfl, rfl⟩ := h
  have hkept : ∀ alert, Committed alert s →
      Committed alert (Outbox.mk w (s.sent ++ o.messages)) := by
    intro alert ⟨row, hrow, hraised⟩
    obtain ⟨row', hrow', hraised'⟩ := (World.perform_written hperf).kept _ row hrow
    exact ⟨row', hrow', hraised'.trans hraised⟩
  exact ⟨hkept, o.messages, rfl, fun m hm => ⟨hkept _ (ho m hm).1, (ho m hm).2⟩,
    perform_messages hperf⟩

/-! ## §3. The sessions. -/

section Sessions

variable {i : ι} {s : Outbox ι} {loaded : Alert}

variable (i) in
/-- Session `i` runs `p`, and all its messages tell of committed alerts. -/
abbrev telling {α : Type} (Q : α → Outbox ι → Prop) (p : Prog α) (s : Outbox ι) : Prop :=
  Coro.wp (perform i) (fun _ _ _ => True) Extends Extends Q (fun _ _ => True) p s

/-- What the text can send, and what is true wherever it does. -/
theorem telling_of_uses {α : Type} {φ : Op → Prop} {ρ : α → Prop} {I : Outbox ι → Prop}
    {p : Prog α} (hI : ∀ s s', Extends s s' → I s → I s')
    (hφ : ∀ o, φ o → ∀ s, I s → ∀ m ∈ o.messages, Tells m s) (hp : p.Uses φ ρ) (h : I s) :
    telling i (fun a s' => ρ a ∧ I s') p s := by
  refine Coro.wp_mono (fun _ _ hQ => hQ) (fun _ _ _ => trivial)
    (Coro.wp_of_uses hI (fun o inp s r s' ho _ hperf hIs => ?_) hp h)
  have hmove : Extends s s' := perform_onward (hφ o ho s hIs) hperf
  exact ⟨hmove, hI s s' hmove hIs⟩

/-- Nothing is sent. -/
theorem telling_silent {α : Type} {ρ : α → Prop} {p : Prog α} (hp : p.Uses Op.silent ρ) :
    telling i (fun a _ => ρ a) p s :=
  Coro.wp_mono (fun _ _ hQ => hQ.1) (fun _ _ _ => trivial)
    (telling_of_uses (I := fun _ => True) (fun _ _ _ _ => trivial)
      (fun o ho _ _ m hm => absurd hm (by rw [ho.messages]; simp)) hp trivial)

omit [DecidableEq ι] in
theorem Committed.onward {s s' : Outbox ι} (h : Extends s s') (ha : Committed loaded s) :
    Committed loaded s' := h.kept loaded ha

/-- A session that holds a committed alert and its rule tells of that alert. -/
theorem telling_of {α : Type} {ρ : α → Prop} {rule : Rule} {p : Prog α}
    (hp : p.Uses (Op.tells loaded rule) ρ) (hrule : rule.id = loaded.ruleId)
    (h : Committed loaded s) : telling i (fun _ _ => True) p s := by
  refine Coro.wp_mono (fun _ _ _ => trivial) (fun _ _ _ => trivial)
    (telling_of_uses (I := Committed loaded) (fun _ _ => Committed.onward) ?_ hp h)
  intro o ho s hs m hm
  obtain ⟨hraised, hr⟩ := ho.message hm
  obtain ⟨row, hrow, hrr⟩ := hs
  have hid : m.alert.asRaised.id = loaded.asRaised.id := by rw [hraised]
  have hruleId : m.alert.asRaised.ruleId = loaded.asRaised.ruleId := by rw [hraised]
  refine ⟨⟨row, ?_, hrr.trans hraised.symm⟩, ?_⟩
  · show s.world.alerts.get m.alert.asRaised.id = _
    rw [hid]
    exact hrow
  · rw [hr, hrule]
    exact hruleId.symm

/-- What the session has loaded stays committed. -/
theorem telling_frame {α : Type} {Q : α → Outbox ι → Prop} {p : Prog α}
    (hp : telling i Q p s) (h : Committed loaded s) :
    telling i (fun a s' => Q a s' ∧ Committed loaded s') p s :=
  Coro.wp_mono (fun _ _ hQ => hQ) (fun _ _ _ => trivial)
    (Coro.wp_frame (J := Committed loaded) (fun _ _ => Committed.onward)
      (fun _ _ => Committed.onward) hp h)

/-! ### What the database answers. -/

/-- The rule that is read is the alert's. -/
theorem telling_selectRule {alert : Alert} :
    telling i (fun out _ => ∀ rule, out = some rule → rule.id = alert.ruleId)
      (selectRule alert) s := by
  intro s₁ _ inp r s₂ _ hperf
  refine ⟨perform_onward (fun m hm => absurd hm (by simp [Op.messages])) hperf, ?_⟩
  obtain ⟨out, hout, hr⟩ := Option.map_eq_some_iff.mp hperf
  obtain ⟨rfl, -⟩ := Prod.mk.inj hr
  obtain ⟨-, -, e, he⟩ | ⟨-, -, e, -, he⟩ | ⟨-, -, hbody⟩ := World.statement_cases hout
  · rw [he]
    trivial
  · rw [he]
    trivial
  · obtain ⟨hrule, -⟩ := World.answer_inj hbody
    rw [← hrule]
    intro rule hget
    exact Table.get_key hget

/-- A pass loads committed alerts. -/
theorem telling_selectPending {M : Nat} :
    telling i (fun alerts s' => ∀ row ∈ alerts, Committed row s') (selectPending M) s := by
  intro s₁ _ inp r s₂ _ hperf
  refine ⟨perform_onward (fun m hm => absurd hm (by simp [Op.messages])) hperf, ?_⟩
  obtain ⟨⟨out, w⟩, hout, hr⟩ := Option.map_eq_some_iff.mp hperf
  obtain ⟨rfl, rfl⟩ := Prod.mk.inj hr
  obtain ⟨-, -, e, rfl⟩ | ⟨-, -, e, -, rfl⟩ | ⟨-, -, hbody⟩ := World.statement_cases hout
  · trivial
  · trivial
  · split at hbody
    next hpage =>
      obtain ⟨rfl, rfl⟩ := World.answer_inj hbody
      intro row hrow
      exact ⟨row, (World.stored_of_page hpage hrow).1, rfl⟩
    next => exact absurd hbody (by simp)

/-- A refresh reads a committed alert. -/
theorem telling_refreshAlert {id : AlertId} :
    telling i (fun row s' => Committed { row with id := id } s') (refreshAlert id) s := by
  intro s₁ _ inp r s₂ _ hperf
  refine ⟨perform_onward (fun m hm => absurd hm (by simp [Op.messages])) hperf, ?_⟩
  obtain ⟨⟨out, w⟩, hout, hr⟩ := Option.map_eq_some_iff.mp hperf
  obtain ⟨rfl, rfl⟩ := Prod.mk.inj hr
  obtain ⟨-, -, e, rfl⟩ | ⟨-, -, e, -, rfl⟩ | ⟨-, -, hbody⟩ := World.statement_cases hout
  · trivial
  · trivial
  · obtain ⟨hrow, rfl⟩ := World.answer_inj hbody
    rw [← hrow]
    split
    next row hget =>
      refine ⟨row, hget, ?_⟩
      have hid : row.id = id := Table.get_key hget
      subst hid
      rfl
    next => trivial

/-! ### The functions. -/

variable {ruleClasses : RuleClasses} {candle : Candle} {rule : Rule} {M : Nat}

/-- What `evaluate` returns is a committed alert, freshly loaded. -/
theorem telling_evaluate :
    telling i (fun out s' => ∀ alert, out = some alert →
      ∃ loaded, alert = AlertObj.ofRow loaded ∧ Committed loaded s')
      (evaluate ruleClasses rule candle) s := by
  have hnone : ∀ s' : Outbox ι, ∀ alert : AlertObj, (none : Option AlertObj) = some alert →
      ∃ loaded, alert = AlertObj.ofRow loaded ∧ Committed loaded s' :=
    fun _ _ h => absurd h (by simp)
  unfold evaluate
  refine Coro.wp_bind (Coro.wp_mono (fun _ s₁ _ => ?_) (fun _ _ he => he)
    (telling_silent (ρ := fun _ => True) ⟨trivial, fun _ => trivial⟩))
  -- nothing is sent before `dispatch`: the parts are silent, one after the other
  refine Coro.wp_bind (Coro.wp_mono (fun inCooldown s₂ _ => ?_) (fun _ _ he => he)
    (telling_silent (uses_isInCooldown (fun _ => trivial) trivial)))
  split
  next => exact hnone s₂
  next =>
    split
    next => exact hnone s₂
    next cls _ =>
      refine Coro.wp_tryCatch (Coro.wp_bind (Coro.wp_mono (fun value s₃ _ => ?_)
        (fun _ s₃ _ => hnone s₃) (telling_silent ((cls.reads rule.config candle).mono
          (fun o ho => ?_) fun _ h => h))))
      · cases value with
        | none => exact hnone s₃
        | some triggerValue =>
            show Coro.wp _ _ _ _ _ _ (createAlert _ _ _ _ _) s₃
            unfold createAlert
            refine Coro.wp_bind (Coro.wp_mono (fun _ s₄ _ => ?_) (fun _ s₄ _ => hnone s₄)
              (telling_silent (ρ := fun _ => True) ⟨trivial, fun _ => trivial⟩))
            refine Coro.wp_bind (Coro.wp_mono (fun inserted s₅ _ => ?_) (fun _ s₅ _ => hnone s₅)
              (telling_silent silent_insertInSavepoint))
            cases inserted with
            | none => exact hnone s₅
            | some id =>
                show Coro.wp _ _ _ _ _ _ (commitNewAlert (some id)) s₅
                refine Coro.wp_bind (Coro.wp_mono (fun _ s₆ _ => ?_) (fun _ s₆ _ => hnone s₆)
                  (telling_silent (p := commitAlert) (ρ := fun _ => True)
                    ⟨trivial, fun _ => .ofExcept _⟩))
                refine Coro.wp_bind (Coro.wp_mono (fun row s₇ hrow => ?_)
                  (fun _ s₇ _ => hnone s₇) telling_refreshAlert)
                -- the refresh has loaded a committed row
                intro alert halert
                exact ⟨_, (Option.some.inj halert).symm, hrow⟩
      · cases o <;> first | exact ho.elim | trivial

/-- **`dispatch`** of a committed alert. -/
theorem telling_dispatch (h : Committed loaded s) :
    telling i (fun _ _ => True) (dispatch (AlertObj.ofRow loaded)) s := by
  unfold dispatch
  refine Coro.wp_bind (Coro.wp_mono (fun out s₁ hs => ?_) (fun _ _ _ => trivial)
    (telling_frame telling_selectRule h))
  cases out with
  | none => trivial
  | some rule =>
      have hrule : rule.id = (AlertObj.ofRow loaded).row.ruleId := hs.1 rule rfl
      refine telling_of (ρ := fun _ => True) ?_ hrule hs.2
      refine Coro.Uses.bind (ρ := fun _ => True) ⟨trivial, fun _ => trivial⟩ fun t _ => ?_
      refine Coro.Uses.bind (tells_dispatchChannel rfl) fun ⟨delivered, records⟩ _ => ?_
      dsimp only
      split
      next => trivial
      next =>
        refine Coro.Uses.bind (tells_dispatchChannel rfl) fun ⟨delivered, records⟩ _ => ?_
        dsimp only
        split
        next => trivial
        next => exact ⟨trivial, fun _ => .ofExcept _⟩

/-- One iteration of a pass over the pending alerts. -/
theorem telling_retryAlert (h : Committed loaded s) :
    telling i (fun _ _ => True) (retryAlert M loaded) s := by
  have hdue : ∀ now s, Committed loaded s →
      telling i (fun _ _ => True) (retryDue M (AlertObj.ofRow loaded) now) s := by
    intro now s h
    unfold retryDue
    refine Coro.wp_bind (Coro.wp_mono (fun out s₁ hs => ?_) (fun _ _ _ => trivial)
      (telling_frame telling_selectRule h))
    cases out with
    | none =>
        exact Coro.wp_mono (fun _ _ _ => trivial) (fun _ _ he => he)
          (telling_silent (p := commitDelivery _ _) (ρ := fun _ => True)
            ⟨trivial, fun _ => .ofExcept _⟩)
    | some rule => exact telling_of tells_retryRound (hs.1 rule rfl) hs.2
  unfold retryAlert
  refine Coro.wp_bind (Coro.wp_mono (fun now s₁ hs => ?_) (fun _ _ _ => trivial)
    (telling_frame (telling_silent (p := utcnow) (ρ := fun _ => True) ⟨trivial, fun _ => trivial⟩) h))
  split
  next last _ =>
    refine Coro.wp_bind (Coro.wp_mono (fun backoff s₂ hs => ?_) (fun _ _ _ => trivial)
      (telling_frame (telling_silent (p := calculateBackoff _) (ρ := fun _ => True)
          ⟨trivial, fun _ => trivial⟩) hs.2))
    split
    next => trivial
    next => exact hdue now s₂ hs.2
  next => exact hdue now s₁ hs.2

/-- **`process_pending_alerts`.** -/
theorem telling_processPendingAlerts :
    telling i (fun _ _ => True) (processPendingAlerts M) s := by
  unfold processPendingAlerts
  refine Coro.wp_bind (Coro.wp_mono (fun _ s₁ _ => ?_) (fun _ _ he => he)
    (telling_silent (p := openSession) (ρ := fun _ => True) ⟨trivial, fun _ => trivial⟩))
  refine Coro.wp_bind (Coro.wp_mono (fun alerts s₂ hs => ?_) (fun _ _ he => he)
    telling_selectPending)
  -- what is still to be done stays committed
  have hstays : ∀ rows : List Alert, ∀ t t' : Outbox ι, Extends t t' →
      (∀ row ∈ rows, Committed row t) → ∀ row ∈ rows, Committed row t' :=
    fun rows t t' hmove ht row hrow => (ht row hrow).onward hmove
  refine Coro.wp_mono (fun _ _ _ => trivial) (fun _ _ he => he)
    (Coro.wp_forEach (I := fun rows t => ∀ row ∈ rows, Committed row t) ?_ alerts s₂ hs)
  intro row rows t ht
  refine Coro.wp_mono (fun _ _ hQ => hQ.2) (fun _ _ _ => trivial)
    (Coro.wp_frame (hstays rows) (hstays rows) (telling_retryAlert (ht row List.mem_cons_self)) ?_)
  exact fun row' hrow' => ht row' (List.mem_cons_of_mem _ hrow')

/-- **One round of the main loop.** -/
theorem telling_processCandle {rules : List Rule} :
    telling i (fun _ _ => True) (processCandle ruleClasses rules candle) s := by
  unfold processCandle
  refine Coro.wp_bind (Coro.wp_mono (fun _ s₁ _ => ?_) (fun _ _ he => he)
    (telling_silent (uses_recordCandle.mono (fun o ho => ?_) fun _ h => h)))
  · refine Coro.wp_forEach (I := fun _ _ => True) (fun rule rules t _ => ?_) _ s₁ trivial
    unfold processRule
    refine Coro.wp_tryCatch (Coro.wp_bind (Coro.wp_mono (fun out s₂ hs => ?_) (fun e s₂ _ => ?_)
      telling_evaluate))
    · cases out with
      | none => trivial
      | some alert =>
          obtain ⟨loaded, rfl, hcommitted⟩ := hs alert rfl
          refine Coro.wp_mono (fun _ _ _ => trivial) (fun e s₃ _ => ?_)
            (telling_dispatch hcommitted)
          exact Coro.wp_mono (fun _ _ _ => trivial) (fun _ _ he => he)
            (telling_silent (p := rollback) (ρ := fun _ => True) ⟨trivial, fun _ => trivial⟩)
    · exact Coro.wp_mono (fun _ _ _ => trivial) (fun _ _ he => he)
        (telling_silent (p := rollback) (ρ := fun _ => True) ⟨trivial, fun _ => trivial⟩)
  · cases o <;> first | exact ho.elim | trivial

end Sessions

/-! ## §4. The system. -/

/-- The process of session `i` ends. -/
def drop (i : ι) (s : Outbox ι) : Outbox ι := { s with world := s.world.abort i }

omit [DecidableEq ι] in
def editRules (rules : Table Rule.id) (s : Outbox ι) : Outbox ι :=
  { s with world := s.world.editRules rules }

/-- Processes that share a database, and their messages. -/
abbrev system (ruleClasses : RuleClasses) :
    Pool ι Resp PyErr Unit (Outbox ι) → SystemAction ι →
      Option (Pool ι Resp PyErr Unit (Outbox ι)) :=
  Crew.step perform (Job.prog ruleClasses) drop editRules

theorem onward_drop (i : ι) (s : Outbox ι) : Extends s (drop i s) := .of_eq rfl rfl rfl

omit [DecidableEq ι] in
theorem onward_editRules (rules : Table Rule.id) (s : Outbox ι) : Extends s (editRules rules s) :=
  .of_eq rfl rfl rfl

variable {ruleClasses : RuleClasses} {p₀ p : Pool ι Resp PyErr Unit (Outbox ι)}

/-- Every run moves the outbox onward. -/
theorem onward_of_run (hidle : Idle p₀)
    (hrun : Reaches (system ruleClasses) (fun _ _ => True) p₀ p) : Extends p₀.world p.world := by
  refine Crew.sound Extends.refl Extends.trans (fun i job s => ?_) onward_drop onward_editRules
    hidle hrun
  cases job with
  | candle rules candle => exact telling_processCandle
  | retries M => exact telling_processPendingAlerts

/-- **The outbox is faithful.**  In every state of every run, each request sent so far told
of an alert that is committed, as it was raised, and of its rule; and two messages have the
same payload if and only if they are about the same alert, however often and by whichever
session it was sent, and whatever became of its delivery in between. -/
theorem outbox_faithful (hidle : Idle p₀) (hempty : p₀.world.sent = [])
    (hrun : Reaches (system ruleClasses) (fun _ _ => True) p₀ p) :
    p.world.world.requests.map Request.key
      = p₀.world.world.requests.map Request.key ++ p.world.sent.map Message.key ∧
    (∀ m ∈ p.world.sent, ∃ row, p.world.world.alerts.get m.alert.id = some row ∧
      row.asRaised = m.alert.asRaised ∧ m.rule.id = row.ruleId) ∧
    ∀ m ∈ p.world.sent, ∀ m' ∈ p.world.sent,
      ∀ (F : Type) (r : Rendering F) (ruleName : String),
        (genericPayload r ruleName m.alert m.rule = genericPayload r ruleName m'.alert m'.rule ↔
          m.alert.id = m'.alert.id) ∧
        (m.alert.id = m'.alert.id →
          discordEmbed r ruleName m.alert = discordEmbed r ruleName m'.alert) := by
  obtain ⟨new, hsent, htells, hrequests⟩ := (onward_of_run hidle hrun).sent
  rw [hempty, List.nil_append] at hsent
  rw [hsent]
  have hrows : ∀ m ∈ new, ∃ row, p.world.world.alerts.get m.alert.id = some row ∧
      row.asRaised = m.alert.asRaised ∧ m.rule.id = row.ruleId := by
    intro m hm
    obtain ⟨⟨row, hrow, hraised⟩, hrule⟩ := htells m hm
    have hruleId : row.asRaised.ruleId = m.alert.asRaised.ruleId := by rw [hraised]
    exact ⟨row, hrow, hraised, hrule.trans hruleId.symm⟩
  refine ⟨hrequests, hrows, fun m hm m' hm' F r ruleName => ?_⟩
  -- two messages about one alert tell of the same row
  have hsame : m.alert.id = m'.alert.id →
      m.alert.asRaised = m'.alert.asRaised ∧ m.rule.id = m'.rule.id := by
    intro hid
    obtain ⟨row, hrow, hraised, hrule⟩ := hrows m hm
    obtain ⟨row', hrow', hraised', hrule'⟩ := hrows m' hm'
    rw [← hid, hrow] at hrow'
    obtain rfl := Option.some.inj hrow'
    exact ⟨hraised.symm.trans hraised', hrule.trans hrule'.symm⟩
  refine ⟨⟨fun h => congrArg GenericPayload.alertId h, fun h => ?_⟩, fun h => ?_⟩
  · exact genericPayload_of_asRaised (hsame h).1 (hsame h).2
  · exact discordEmbed_of_asRaised (hsame h).1

/-! ### An alert that is sent twice. -/

/-- The sample processes, and no message. -/
def unsent : Pool Bool Resp PyErr Unit (Outbox Bool) :=
  ⟨⟨.initial sampleRules, []⟩, fun _ => .pure ()⟩

theorem outbox_faithful_twice : ∃ p : Pool Bool Resp PyErr Unit (Outbox Bool),
    p.world.sent.map Message.key = [(7, .discord), (7, .discord)] ∧
    ∀ m ∈ p.world.sent, ∀ m' ∈ p.world.sent, ∀ (F : Type) (r : Rendering F) (ruleName : String),
      discordEmbed r ruleName m.alert = discordEmbed r ruleName m'.alert := by
  have hend : (runs (fun p a => if True then system alwaysMatches p a else none) twice
      unsent).any (fun p => p.world.sent.map Message.key = [(7, .discord), (7, .discord)])
      = true := by decide
  obtain ⟨p, hp, htest⟩ := Reaches.exists_of_runs hend
  have hkeys := of_decide_eq_true htest
  have hid : ∀ m ∈ p.world.sent, m.alert.id = 7 := by
    intro m hm
    have hkey : m.key ∈ p.world.sent.map Message.key := List.mem_map_of_mem hm
    rw [hkeys] at hkey
    have hseven : m.key = (7, .discord) := by simpa using hkey
    exact congrArg Prod.fst hseven
  obtain ⟨-, -, hsame⟩ := outbox_faithful (fun _ => rfl) rfl hp
  refine ⟨p, hkeys, fun m hm m' hm' F r ruleName => ?_⟩
  exact (hsame m hm m' hm' F r ruleName).2 ((hid m hm).trans (hid m' hm').symm)

end Outbox

end Pulse
