/-
  Pulse.Api.Alerts
  ────────────────
  **LISTING ALERTS PAGE BY PAGE.**

  `list_alerts` of `api/routes/alerts.py` orders by `triggered_at` alone.  Rules that
  fire on one candle share it, and a tie may come out differently in each query.

    • `listAlerts`      — the route,
    • `ListedOnce`      — what a reader collects until a page is empty,
    • `listed_once_iff` — it is every alert once, if no tie crosses a page boundary.
-/
import Pulse.Db.Models
import Pulse.Store.Paging

namespace Pulse

open Pulse.Store

/-! ## §1. The route. -/

/-- `AlertResponse`. -/
structure AlertResponse where
  id : AlertId
  ruleId : RuleId
  symbol : String
  ruleType : RuleType
  triggeredAt : Time
  triggerValue : Rat
  deliveryStatus : DeliveryStatus
  deliveryAttempts : Nat
  createdAt : Time
  deriving DecidableEq, Repr

/-- `AlertResponse.model_validate`. -/
def AlertResponse.ofAlert (a : Alert) : AlertResponse where
  id := a.id
  ruleId := a.ruleId
  symbol := a.symbol
  ruleType := a.ruleType
  triggeredAt := a.triggeredAt
  triggerValue := a.triggerValue
  deliveryStatus := a.deliveryStatus
  deliveryAttempts := a.deliveryAttempts
  createdAt := a.createdAt

/-- `AlertListResponse`. -/
structure AlertListResponse where
  alerts : List AlertResponse
  total : Nat
  deriving DecidableEq, Repr

/-- `limit: int = Query(50, ge=1, le=100)`. -/
structure Limit where
  value : Nat
  ge : 1 ≤ value
  le : value ≤ 100

/-- The rows of the query before it is ordered. -/
def matchingAlerts (ruleId : Option RuleId) (symbol : Option String) (rows : List Alert) :
    List Alert :=
  let query := match ruleId with
    | some ruleId => rows.filter fun a => a.ruleId = ruleId
    | none => rows
  match symbol with
  | some symbol =>
      if isSet (some symbol) then query.filter fun a => a.symbol = upper symbol else query
  | none => query

/-- `list_alerts`; the database chooses `order`. -/
def listAlerts (order : Arrangement Alert.triggeredAt) (table : Table Alert.id)
    (ruleId : Option RuleId) (symbol : Option String) (limit : Limit) (offset : Nat) :
    AlertListResponse :=
  let query := matchingAlerts ruleId symbol table.rows
  { alerts := (slice offset limit.value (order.arrange query)).map AlertResponse.ofAlert
    total := query.length }

/-! ## §2. A reader of all pages. -/

section Reader

variable (table : Table Alert.id) (ruleId : Option RuleId) (symbol : Option String) (limit : Limit)

/-- The page at offset `k * limit`, in the order of its own query. -/
def alertsPage (order : ℕ → Arrangement Alert.triggeredAt) (k : ℕ) : AlertListResponse :=
  listAlerts (order k) table ruleId symbol limit (k * limit.value)

/-- The pages up to the first empty one hold every matching alert once, and as many as every
page reports. -/
def ListedOnce (order : ℕ → Arrangement Alert.triggeredAt) : Prop :=
  ∃ m, (∀ k < m, (alertsPage table ruleId symbol limit order k).alerts ≠ []) ∧
    (alertsPage table ruleId symbol limit order m).alerts = [] ∧
    ((List.range m).flatMap fun k => (alertsPage table ruleId symbol limit order k).alerts).Perm
      ((matchingAlerts ruleId symbol table.rows).map AlertResponse.ofAlert) ∧
    ∀ k, (alertsPage table ruleId symbol limit order k).total
      = ((List.range m).flatMap fun k =>
          (alertsPage table ruleId symbol limit order k).alerts).length

variable {table ruleId symbol limit}

theorem matchingAlerts_sublist (ruleId : Option RuleId) (symbol : Option String)
    (rows : List Alert) : (matchingAlerts ruleId symbol rows).Sublist rows := by
  unfold matchingAlerts
  -- a filter is applied if it is given, and an empty symbol counts as none
  cases ruleId with
  | none =>
      cases symbol with
      | none => exact .refl _
      | some symbol =>
          dsimp only
          split
          next => exact List.filter_sublist
          next => exact .refl _
  | some ruleId =>
      cases symbol with
      | none => exact List.filter_sublist
      | some symbol =>
          dsimp only
          split
          next => exact List.filter_sublist.trans List.filter_sublist
          next => exact List.filter_sublist

/-- No alert matches twice. -/
theorem matching_responses_nodup :
    ((matchingAlerts ruleId symbol table.rows).map AlertResponse.ofAlert).Nodup := by
  have hids : ((matchingAlerts ruleId symbol table.rows).map Alert.id).Nodup :=
    table.nodup.sublist ((matchingAlerts_sublist ruleId symbol table.rows).map Alert.id)
  have hmap : ((matchingAlerts ruleId symbol table.rows).map AlertResponse.ofAlert).map
      AlertResponse.id = (matchingAlerts ruleId symbol table.rows).map Alert.id := by
    rw [List.map_map]
    rfl
  exact List.Nodup.of_map AlertResponse.id (hmap ▸ hids)

variable {order : ℕ → Arrangement Alert.triggeredAt}

theorem alertsPage_alerts (k : ℕ) : (alertsPage table ruleId symbol limit order k).alerts
    = (pageOf order limit.value (matchingAlerts ruleId symbol table.rows) k).map
        AlertResponse.ofAlert := rfl

theorem alertsPage_eq_nil_iff {k : ℕ} :
    (alertsPage table ruleId symbol limit order k).alerts = [] ↔
      (matchingAlerts ruleId symbol table.rows).length ≤ k * limit.value := by
  rw [alertsPage_alerts, List.map_eq_nil_iff, pageOf_eq_nil_iff limit.ge]

/-- The collected pages. -/
theorem collected_eq (m : ℕ) :
    ((List.range m).flatMap fun k => (alertsPage table ruleId symbol limit order k).alerts)
      = ((List.range m).flatMap
          (pageOf order limit.value (matchingAlerts ruleId symbol table.rows))).map
            AlertResponse.ofAlert := by
  rw [List.map_flatMap]
  rfl

/-- Across a tie some order of the queries repeats an alert. -/
theorem not_listed_once {k : ℕ} (h : Straddled Alert.triggeredAt (k * limit.value)
    (matchingAlerts ruleId symbol table.rows)) :
    ∃ order, ¬ ListedOnce table ruleId symbol limit order := by
  obtain ⟨order, hrepeats⟩ := not_nodup_of_straddled limit.ge h
  refine ⟨order, ?_⟩
  rintro ⟨m, -, hempty, hperm, -⟩
  have hpage : pageOf order limit.value (matchingAlerts ruleId symbol table.rows) m = [] :=
    (pageOf_eq_nil_iff limit.ge).mpr (alertsPage_eq_nil_iff.mp hempty)
  rw [collected_eq] at hperm
  exact hrepeats m hpage (List.Nodup.of_map _ (hperm.nodup_iff.mpr matching_responses_nodup))

/-- **Every alert is listed once**, however the database orders ties, exactly if no alerts with
the same `triggered_at` lie on both sides of a page boundary. -/
theorem listed_once_iff (table : Table Alert.id) (ruleId : Option RuleId) (symbol : Option String)
    (limit : Limit) :
    (∀ order, ListedOnce table ruleId symbol limit order) ↔
      ∀ k, ¬ Straddled Alert.triggeredAt (k * limit.value)
        (matchingAlerts ruleId symbol table.rows) := by
  constructor
  · intro h k hstraddled
    obtain ⟨order, hfails⟩ := not_listed_once hstraddled
    exact hfails (h order)
  · intro h order
    obtain ⟨query, hquery⟩ : ∃ query, matchingAlerts ruleId symbol table.rows = query := ⟨_, rfl⟩
    -- a reader stops at the first empty page, which is the one after the last
    have hcollected := covered_of_not_straddled h order (pageCount limit.value query)
    rw [hquery, List.take_of_length_le] at hcollected
    · have hperm := (hcollected.trans ((order 0).perm query)).map AlertResponse.ofAlert
      rw [← hquery, ← collected_eq, hquery] at hperm
      refine ⟨pageCount limit.value query, fun k hk hempty => ?_, ?_, ?_, fun k => ?_⟩
      · have hlong := lt_length_of_lt_pageCount limit.ge hk
        rw [alertsPage_eq_nil_iff, hquery] at hempty
        omega
      · rw [alertsPage_eq_nil_iff, hquery]
        exact length_le_pageCount limit.ge query
      · rw [hquery]
        exact hperm
      · rw [hperm.length_eq, List.length_map]
        exact congrArg List.length hquery
    · rw [((order 0).perm query).length_eq]
      exact length_le_pageCount limit.ge query

end Reader

/-! ### Two alerts of one candle, one on a page. -/

/-- An alert that a candle at 900 seconds raised. -/
def pageAlert (id : AlertId) : Alert where
  id := id
  ruleId := id
  symbol := "BTC"
  ruleType := .rsi
  triggeredAt := seconds 900
  triggerValue := 70
  windowStart := seconds 900
  windowEnd := seconds 960
  deliveryStatus := .delivered
  deliveryAttempts := 1
  lastDeliveryAttempt := none
  createdAt := seconds 1801

/-- **One of two alerts can come twice, and the other never.** -/
theorem listed_once_fails : ¬ ∀ (table : Table Alert.id) (ruleId : Option RuleId)
    (symbol : Option String) (limit : Limit) (order : ℕ → Arrangement Alert.triggeredAt),
      ListedOnce table ruleId symbol limit order := by
  intro h
  obtain ⟨table, htable⟩ : ∃ table : Table Alert.id, table.rows = [pageAlert 1, pageAlert 2] :=
    ⟨⟨[pageAlert 1, pageAlert 2], by decide⟩, rfl⟩
  have hstraddled : Straddled Alert.triggeredAt (1 * 1) (matchingAlerts none none table.rows) := by
    rw [htable]
    exact ⟨seconds 900, by decide, by decide⟩
  obtain ⟨order, hfails⟩ := @not_listed_once table none none ⟨1, by decide, by decide⟩ 1 hstraddled
  exact hfails (h table none none _ order)

end Pulse
