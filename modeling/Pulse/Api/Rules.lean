/-
  Pulse.Api.Rules
  ───────────────
  **THE RULES API.**

  `api/models/rule.py` and `api/routes/rules.py`: rules are created from bodies
  that `validate_config` has checked, and then updated field by field.  An update
  body carries any subset of its fields, explicit nulls included, and its
  configuration is checked against nothing.

    • `validateConfig`      — the check,
    • `createRule`, `updateRule`, `deleteRule` — the routes,
    • `stored_rules_valid`  — what keeps the stored rules valid.
-/
import Pulse.Async.Pool
import Pulse.Core.Float
import Pulse.Db.Models

namespace Pulse

open Pulse.Async Pulse.Store

/-! ## §1. The models. -/

/-- A `ValueError` of a validator. -/
def invalid (msg : String) : Except PyErr Unit := .error ⟨.valueError, msg⟩

/-- `key not in v` for one of `keys`: the error. -/
def requireKeys (v : Config) (keys : List String) (msg : String) : Except PyErr Unit :=
  if keys.all fun k => Json.has v k then .ok () else invalid msg

/-- `v[key] not in choices`: the error. -/
def requireChoice (v : Config) (key : String) (choices : List String) (msg : String) :
    Except PyErr Unit := do
  let x ← Json.item v key
  if choices.any fun s => x.isStr s then return else invalid msg

/-- The checks of `validate_config`. -/
def checkConfig (ruleType : RuleType) (v : Config) : Except PyErr Unit :=
  match ruleType with
  | .priceThreshold => do
      requireKeys v ["threshold", "operator"] "price_threshold requires 'threshold' and 'operator'"
      requireChoice v "operator" [">=", "<="] "operator must be '>=' or '<='"
  | .percentMove =>
      requireKeys v ["percent_threshold", "window_seconds"]
        "percent_move requires 'percent_threshold' and 'window_seconds'"
  | .candleClose => do
      requireKeys v ["value", "operator"] "candle_close requires 'value' and 'operator'"
      requireChoice v "operator" [">=", "<="] "operator must be '>=' or '<='"
  | .macdCross => do
      requireKeys v ["fast_period", "slow_period", "signal_period"]
        "macd_cross requires 'fast_period', 'slow_period', and 'signal_period'"
      requireKeys v ["crossover_type"] "macd_cross requires 'crossover_type'"
      requireChoice v "crossover_type" ["bullish", "bearish"]
        "crossover_type must be 'bullish' or 'bearish'"
  | .rsi => do
      requireKeys v ["direction"] "rsi requires 'direction' ('overbought' or 'oversold')"
      requireChoice v "direction" ["overbought", "oversold"]
        "direction must be 'overbought' or 'oversold'"
  | .bollingerBands => do
      requireKeys v ["band", "event"] "bollinger_bands requires 'band' and 'event'"
      requireChoice v "band" ["upper", "lower"] "band must be 'upper' or 'lower'"
      requireChoice v "event" ["touch", "break"] "event must be 'touch' or 'break'"

/-- `RuleCreate.validate_config`. -/
def validateConfig (ruleType : RuleType) (v : Config) : Except PyErr Config := do
  checkConfig ruleType v
  return v

/-- The check accepts the configuration. -/
def Accepted (ruleType : RuleType) (v : Config) : Prop := validateConfig ruleType v = .ok v

theorem requireChoice_ok {v : Config} {key : String} {choices : List String} {msg : String}
    (h : requireChoice v key choices msg = .ok ()) :
    ∃ x, Json.item v key = .ok x ∧ ∃ s ∈ choices, x.isStr s = true := by
  obtain ⟨x, hx, h⟩ := bind_ok h
  refine ⟨x, hx, ?_⟩
  split at h
  next hany => exact List.any_eq_true.mp hany
  next => exact absurd h (by simp [invalid])

/-- What the check of one type leaves certain about the keys that are read later. -/
theorem accepted_items {ruleType : RuleType} {v : Config} (h : Accepted ruleType v) :
    match ruleType with
    | .priceThreshold | .candleClose => ∃ x, Json.item v "operator" = .ok x
    | .percentMove => True
    | .macdCross => ∃ x, Json.item v "crossover_type" = .ok x ∧
        (x.isStr "bullish" = true ∨ x.isStr "bearish" = true)
    | .rsi => ∃ x, Json.item v "direction" = .ok x ∧
        (x.isStr "overbought" = true ∨ x.isStr "oversold" = true)
    | .bollingerBands => (∃ x, Json.item v "band" = .ok x ∧
          (x.isStr "upper" = true ∨ x.isStr "lower" = true)) ∧
        ∃ x, Json.item v "event" = .ok x ∧ (x.isStr "touch" = true ∨ x.isStr "break" = true) := by
  have hpair : ∀ {key a b msg}, requireChoice v key [a, b] msg = .ok () →
      ∃ x, Json.item v key = .ok x ∧ (x.isStr a = true ∨ x.isStr b = true) := by
    intro key a b msg hchoice
    obtain ⟨x, hx, s, hs, hxs⟩ := requireChoice_ok hchoice
    rcases List.mem_pair.mp hs with rfl | rfl
    · exact ⟨x, hx, Or.inl hxs⟩
    · exact ⟨x, hx, Or.inr hxs⟩
  -- each check is reached only if those before it passed
  obtain ⟨_, hcheck, -⟩ := bind_ok h
  cases ruleType with
  | percentMove => trivial
  | priceThreshold | candleClose =>
      obtain ⟨_, -, hchoice⟩ := bind_ok hcheck
      obtain ⟨x, hx, -⟩ := hpair hchoice
      exact ⟨x, hx⟩
  | macdCross =>
      obtain ⟨_, -, hcheck⟩ := bind_ok hcheck
      obtain ⟨_, -, hchoice⟩ := bind_ok hcheck
      exact hpair hchoice
  | rsi =>
      obtain ⟨_, -, hchoice⟩ := bind_ok hcheck
      exact hpair hchoice
  | bollingerBands =>
      obtain ⟨_, -, hcheck⟩ := bind_ok hcheck
      obtain ⟨_, hband, hevent⟩ := bind_ok hcheck
      exact ⟨hpair hband, hpair hevent⟩

/-- `max_length` of an optional text. -/
def AtMost (n : Nat) (s : Option String) : Prop := ∀ t, s = some t → t.length ≤ n

/-- `RuleCreate`: a body that passed its validation. -/
structure RuleCreate where
  name : String
  ruleType : RuleType
  symbol : String
  config : Config
  cooldownSeconds : Int := 0
  discordWebhookUrl : Option String := none
  genericWebhookUrl : Option String := none
  isActive : Bool := true
  nameLength : 1 ≤ name.length ∧ name.length ≤ 200
  symbolLength : 1 ≤ symbol.length ∧ symbol.length ≤ 20
  configAccepted : Accepted ruleType config
  cooldownNonneg : 0 ≤ cooldownSeconds
  urlLength : AtMost 500 discordWebhookUrl ∧ AtMost 500 genericWebhookUrl

/-- A field of an update body. -/
inductive Sent (α : Type) where
  | unset
  | null
  | value (a : α)

/-- What is left of a nullable attribute. -/
def Sent.onto {α : Type} (old : Option α) : Sent α → Option α
  | .unset => old
  | .null => none
  | .value a => some a

/-- A bound of a field, where it has a value. -/
def Sent.Bounded {α : Type} (P : α → Prop) : Sent α → Prop
  | .value a => P a
  | _ => True

/-- `RuleUpdate`: a body that passed its validation. -/
structure RuleUpdate where
  name : Sent String := .unset
  config : Sent Config := .unset
  cooldownSeconds : Sent Int := .unset
  discordWebhookUrl : Sent String := .unset
  genericWebhookUrl : Sent String := .unset
  isActive : Sent Bool := .unset
  nameLength : name.Bounded fun s => 1 ≤ s.length ∧ s.length ≤ 200
  cooldownNonneg : cooldownSeconds.Bounded fun n => 0 ≤ n
  urlLength : discordWebhookUrl.Bounded (fun s => s.length ≤ 500) ∧
    genericWebhookUrl.Bounded fun s => s.length ≤ 500

/-! ## §2. The rows. -/

/-- `rules`, with all its columns that a request sets.  A JSON column that is set to
`None` holds the JSON null. -/
structure RuleRow where
  id : RuleId
  name : String
  ruleType : RuleType
  symbol : String
  config : Json
  cooldownSeconds : Option Int
  discordWebhookUrl : Option String
  genericWebhookUrl : Option String
  isActive : Option Bool

/-- The rule table. -/
abbrev RuleRows := Table RuleRow.id

/-- Values of an `INTEGER` column. -/
def fitsInteger (n : Int) : Bool := -2147483648 ≤ n && n ≤ 2147483647

/-- The row that `create_rule` adds. -/
def RuleCreate.row (body : RuleCreate) (id : RuleId) : RuleRow where
  id := id
  name := body.name
  ruleType := body.ruleType
  symbol := upper body.symbol
  config := .obj body.config
  cooldownSeconds := some body.cooldownSeconds
  discordWebhookUrl := body.discordWebhookUrl
  genericWebhookUrl := body.genericWebhookUrl
  isActive := some body.isActive

/-- `setattr` for every field that was sent.  The name has no null to hold. -/
def RuleUpdate.setattrs (body : RuleUpdate) (row : RuleRow) : RuleRow where
  id := row.id
  name := (body.name.onto (some row.name)).getD row.name
  ruleType := row.ruleType
  symbol := row.symbol
  config :=
    match body.config with
    | .unset => row.config
    | .null => .null
    | .value v => .obj v
  cooldownSeconds := body.cooldownSeconds.onto row.cooldownSeconds
  discordWebhookUrl := body.discordWebhookUrl.onto row.discordWebhookUrl
  genericWebhookUrl := body.genericWebhookUrl.onto row.genericWebhookUrl
  isActive := body.isActive.onto row.isActive

theorem RuleUpdate.setattrs_id (body : RuleUpdate) (row : RuleRow) :
    (body.setattrs row).id = row.id := rfl

/-- What the database has against the update: a name of null, a cooldown out of
range. -/
def RuleUpdate.refused (body : RuleUpdate) : Option PyErr :=
  match body.name, body.cooldownSeconds with
  | .null, _ => some ⟨.integrityError, "null value in column \"name\" of relation \"rules\""⟩
  | _, .value n => if fitsInteger n then none else some ⟨.other, "value out of int32 range"⟩
  | _, _ => none

/-! ## §3. The routes. -/

inductive Response where
  | rule (statusCode : Nat) (row : RuleRow)
  | noContent
  | notFound (detail : String)
  | serverError

/-- `RuleResponse.model_validate`: three columns must not be null. -/
def respond (statusCode : Nat) (row : RuleRow) : Response :=
  match row.config, row.cooldownSeconds, row.isActive with
  | .obj _, some _, some _ => .rule statusCode row
  | _, _, _ => .serverError

/-- `create_rule`; `id` is the new UUID, `fault` what the commit runs into. -/
def createRule (rules : RuleRows) (body : RuleCreate) (id : RuleId) (fault : Option PyErr) :
    Response × RuleRows :=
  if fault.isSome || !fitsInteger body.cooldownSeconds || (rules.get id).isSome then
    (.serverError, rules)
  else (respond 201 (body.row id), rules.insertNew (body.row id))

/-- `update_rule`.  The response is validated after the commit. -/
def updateRule (rules : RuleRows) (id : RuleId) (body : RuleUpdate) (fault : Option PyErr) :
    Response × RuleRows :=
  match rules.get id with
  | none => (.notFound "Rule not found", rules)
  | some row =>
      if fault.isSome || body.refused.isSome then (.serverError, rules)
      else (respond 200 (body.setattrs row), rules.modify id body.setattrs body.setattrs_id)

/-- `delete_rule`. -/
def deleteRule (rules : RuleRows) (id : RuleId) (fault : Option PyErr) : Response × RuleRows :=
  match rules.get id with
  | none => (.notFound "Rule not found", rules)
  | some _ =>
      if fault.isSome then (.serverError, rules)
      else (.noContent, rules.delete id)

/-- An accepted call. -/
inductive ApiCall where
  | create (body : RuleCreate) (id : RuleId) (fault : Option PyErr := none)
  | update (id : RuleId) (body : RuleUpdate) (fault : Option PyErr := none)
  | delete (id : RuleId) (fault : Option PyErr := none)

/-- The answer to a call, and the rules after it. -/
def serve (rules : RuleRows) : ApiCall → Response × RuleRows
  | .create body id fault => createRule rules body id fault
  | .update id body fault => updateRule rules id body fault
  | .delete id fault => deleteRule rules id fault

/-- One call. -/
def ApiCall.step (rules : RuleRows) (call : ApiCall) : Option RuleRows :=
  some (serve rules call).2

/-! ## §4. What is asked. -/

/-- The row's configuration passes the check for its type, and its cooldown is a
non-negative integer. -/
def RuleRow.Valid (row : RuleRow) : Prop :=
  (∃ v, row.config = .obj v ∧ Accepted row.ruleType v) ∧
    ∃ n, row.cooldownSeconds = some n ∧ 0 ≤ n

/-- Every stored rule is valid. -/
def RulesValid (rules : RuleRows) : Prop := ∀ row ∈ rules.rows, row.Valid

/-- A configuration that is sent is not null and passes the check for the rule it is
sent to, and no null is sent for the cooldown. -/
def RuleUpdate.Careful (body : RuleUpdate) (row : RuleRow) : Prop :=
  (match body.config with
    | .unset => True
    | .null => False
    | .value v => Accepted row.ruleType v) ∧
  match body.cooldownSeconds with
  | .null => False
  | _ => True

/-- An update that reaches a row and is committed is careful. -/
def ApiCall.Careful (rules : RuleRows) : ApiCall → Prop
  | .update id body fault => ∀ row, rules.get id = some row →
      fault = none → body.refused = none → body.Careful row
  | _ => True

/-! ## §5. One call. -/

variable {rules rules' : RuleRows} {call : ApiCall}

/-- What `create_rule` adds is valid: the body was checked. -/
theorem RuleCreate.valid (body : RuleCreate) (id : RuleId) : (body.row id).Valid :=
  ⟨⟨body.config, rfl, body.configAccepted⟩, body.cooldownSeconds, rfl, body.cooldownNonneg⟩

/-- **An update of a valid row** leaves it valid exactly if it is careful. -/
theorem RuleUpdate.valid_iff {body : RuleUpdate} {row : RuleRow} (h : row.Valid) :
    (body.setattrs row).Valid ↔ body.Careful row := by
  obtain ⟨hconfig, n, hn, hpos⟩ := h
  apply and_congr
  · show (∃ v, (match body.config with
      | .unset => row.config
      | .null => .null
      | .value v => .obj v) = Json.obj v ∧ Accepted row.ruleType v) ↔ _
    cases body.config with
    | unset => exact iff_of_true hconfig trivial
    | null => simp
    | value v => simp
  · show (∃ m, body.cooldownSeconds.onto row.cooldownSeconds = some m ∧ 0 ≤ m) ↔ _
    have hbound := body.cooldownNonneg
    cases hsent : body.cooldownSeconds with
    | unset => exact iff_of_true ⟨n, hn, hpos⟩ trivial
    | null => simp [Sent.onto]
    | value m =>
        rw [hsent] at hbound
        exact iff_of_true ⟨m, rfl, hbound⟩ trivial

/-- **An update of one row** of a valid table. -/
theorem modify_valid_iff {id : RuleId} {row : RuleRow} {body : RuleUpdate}
    (h : RulesValid rules) (hrow : rules.get id = some row) :
    RulesValid (rules.modify id body.setattrs body.setattrs_id) ↔ body.Careful row := by
  obtain ⟨hmem, hid⟩ := Table.get_eq_some.mp hrow
  rw [← RuleUpdate.valid_iff (h row hmem)]
  constructor
  · intro hall
    have hget := Table.get_modify_self rules id body.setattrs body.setattrs_id
    rw [hrow] at hget
    exact hall _ (Table.get_eq_some.mp hget).1
  · intro hvalid row' hrow'
    obtain ⟨old, hold, rfl⟩ := Table.mem_modify hrow'
    split
    next hkey =>
      -- the row of that identifier is the one that was loaded
      have hsame : old = row := by
        have := Table.get_of_mem hold
        rw [hkey, hrow] at this
        exact (Option.some.inj this).symm
      rw [hsame]
      exact hvalid
    next => exact h old hold

/-- **One call** on valid rules leaves them valid exactly if it is careful. -/
theorem serve_valid_iff (h : RulesValid rules) :
    RulesValid (serve rules call).2 ↔ call.Careful rules := by
  cases call with
  | create body id fault =>
      refine iff_of_true ?_ trivial
      simp only [serve, createRule]
      split
      next => exact h
      next =>
        intro row hrow
        rcases Table.mem_insertNew hrow with hrow | rfl
        · exact h row hrow
        · exact body.valid id
  | delete id fault =>
      refine iff_of_true ?_ trivial
      simp only [serve, deleteRule]
      split
      next => exact h
      next =>
        split
        next => exact h
        next => exact fun row hrow => h row (List.mem_filter.mp hrow).1
  | update id body fault =>
      show RulesValid (updateRule rules id body fault).2 ↔ ∀ row, rules.get id = some row →
        fault = none → body.refused = none → body.Careful row
      unfold updateRule
      split
      next hnone => exact iff_of_true h fun row hrow => absurd hrow (by simp [hnone])
      next row hrow =>
        split
        next hfails =>
          refine iff_of_true h fun row' _ hfault hrefused => ?_
          simp [hfault, hrefused] at hfails
        next hcommits =>
          -- the attributes are set without a look at the rule's type
          simp only [Bool.or_eq_true, not_or, Bool.not_eq_true, Option.isSome_eq_false_iff,
            Option.isNone_iff_eq_none] at hcommits
          show RulesValid (rules.modify id body.setattrs body.setattrs_id) ↔ _
          rw [modify_valid_iff h hrow]
          refine ⟨fun hcareful row' hrow' _ _ => ?_, fun hall => hall row hrow hcommits.1 hcommits.2⟩
          rw [← Option.some.inj (hrow.symm.trans hrow')]
          exact hcareful

/-! ## §6. Whole histories. -/

/-- **Stored rules stay valid** in every history of careful calls, and one more call keeps
them valid exactly if it is careful. -/
theorem stored_rules_valid {rules : RuleRows}
    (hrun : Reaches ApiCall.step ApiCall.Careful .empty rules) :
    RulesValid rules ∧
      ∀ call : ApiCall, RulesValid (serve rules call).2 ↔ call.Careful rules := by
  have hvalid : RulesValid rules := by
    refine hrun.invariant (I := RulesValid) ?_ fun row hrow => absurd hrow (by simp [Table.empty])
    intro r call r' hr hok hstep
    obtain rfl := Option.some.inj hstep
    exact (serve_valid_iff hr).mpr hok
  exact ⟨hvalid, fun call => serve_valid_iff hvalid⟩

/-! ### A cooldown of null. -/

/-- A price rule as a request creates it. -/
def sampleBody : RuleCreate where
  name := "BTC"
  ruleType := .priceThreshold
  symbol := "btc"
  config := [("threshold", .int 50000), ("operator", .str ">=")]
  nameLength := by decide
  symbolLength := by decide
  configAccepted := rfl
  cooldownNonneg := by decide
  urlLength := ⟨fun _ h => absurd h (by simp), fun _ h => absurd h (by simp)⟩

/-- A body without URLs. -/
theorem unset_urlLength : (Sent.unset.Bounded fun s : String => s.length ≤ 500) ∧
    Sent.unset.Bounded fun s : String => s.length ≤ 500 := ⟨trivial, trivial⟩

/-- `{"cooldown_seconds": 60}`. -/
def coolerBody : RuleUpdate where
  cooldownSeconds := .value 60
  nameLength := by trivial
  cooldownNonneg := show (0 : Int) ≤ 60 by decide
  urlLength := unset_urlLength

/-- `{"cooldown_seconds": null}`. -/
def nullBody : RuleUpdate where
  cooldownSeconds := .null
  nameLength := by trivial
  cooldownNonneg := by trivial
  urlLength := unset_urlLength

/-- The rule of that body. -/
def sampleRows : RuleRows := Table.empty.insertNew (sampleBody.row 1)

theorem stored_rules_valid_update :
    RulesValid (serve sampleRows (.update 1 coolerBody)).2 ∧
      ¬ RulesValid (serve sampleRows (.update 1 nullBody)).2 := by
  have hcreate : Reaches ApiCall.step ApiCall.Careful .empty sampleRows :=
    .step .refl (a := .create sampleBody 1) trivial rfl
  have hnext := (stored_rules_valid hcreate).2
  constructor
  · refine (hnext (.update 1 coolerBody)).mpr ?_
    exact fun row _ _ _ => ⟨trivial, trivial⟩
  · intro hvalid
    have hcareful := (hnext (.update 1 nullBody)).mp hvalid
    exact (hcareful (sampleBody.row 1) rfl rfl rfl).2

/-- **An update may set the cooldown to null.** -/
theorem stored_rules_valid_fails : ¬ ∀ rules : RuleRows,
    Reaches ApiCall.step (fun _ _ => True) .empty rules → RulesValid rules := by
  intro h
  have hrun : Reaches ApiCall.step (fun _ _ => True) .empty
      (serve sampleRows (.update 1 nullBody)).2 :=
    (Reaches.step .refl (a := .create sampleBody 1) trivial rfl).step
      (a := .update 1 nullBody) trivial rfl
  obtain ⟨-, n, hn, -⟩ := h _ hrun (nullBody.setattrs (sampleBody.row 1)) (by
    exact List.mem_singleton_self _)
  exact absurd hn (by simp [RuleUpdate.setattrs, nullBody, Sent.onto])

end Pulse
