/-
  Pulse.Dispatch.Ledger
  ─────────────────────
  **THE LIFE OF ONE ALERT.**

  What deliveries leave of an alert, apart from how the code does it: its stored
  row, its attempt records, the requests sent for it and the versions of the row
  that deliveries committed.

    • `IsRound`         — what a delivery round commits,
    • `Accounted`       — the books of an alert,
    • `Accounted.round` — one more round keeps them.
-/
import Mathlib.Algebra.Order.Ring.Int
import Mathlib.Data.Nat.Cast.Order.Ring
import Pulse.Worker.World
import Pulse.Dispatch.Retry

namespace Pulse

/-! ## §1. Ledgers and rounds. -/

/-- Everything stored and sent for one alert. -/
structure Ledger where
  row : Option Alert
  records : List AlertDeliveryAttempt
  requests : List Request
  commits : List Alert

namespace Ledger

/-- The ledger of an alert that does not exist. -/
def empty : Ledger := ⟨none, [], [], []⟩

/-- The ledger of an alert that was just stored. -/
def fresh (row : Alert) : Ledger := ⟨some row, [], [], []⟩

/-- A request goes out. -/
def post (l : Ledger) (q : Request) : Ledger := { l with requests := l.requests ++ [q] }

/-- A delivery commit stores `row` and adds `records`. -/
def commit (l : Ledger) (row : Alert) (records : List AlertDeliveryAttempt) : Ledger where
  row := some row
  records := l.records ++ records
  requests := l.requests
  commits := l.commits ++ [row]

end Ledger

/-- A record of a successful attempt. -/
def AlertDeliveryAttempt.succeeded (r : AlertDeliveryAttempt) : Bool :=
  r.status = .success

/-- The row after a delivery round at time `t` that ends in status `s`. -/
def Alert.afterRound (row : Alert) (s : DeliveryStatus) (t : Time) : Alert :=
  { row with
    deliveryStatus := s
    deliveryAttempts := row.deliveryAttempts + 1
    lastDeliveryAttempt := some t }

/-- A round that brings a pending `row` to status `s` at time `t`, leaving
`records`, when the attempt limit is `M`; `sent` tells whether one of its requests
got through. -/
structure IsRound (M : Nat) (sent : Bool) (row : Alert) (s : DeliveryStatus) (t : Time)
    (records : List AlertDeliveryAttempt) : Prop where
  pending : row.deliveryStatus = .pending
  below : row.deliveryAttempts < M
  delivered_iff : s = .delivered ↔ sent = true
  failed_last : s = .failed → row.deliveryAttempts + 1 = M
  due : ∀ last, row.lastDeliveryAttempt = some last →
    last + backoffBase row.deliveryAttempts ≤ t
  attempt_no : ∀ r ∈ records, r.attemptNo = row.deliveryAttempts + 1
  successes : records.countP AlertDeliveryAttempt.succeeded =
    if s = .delivered then 1 else 0

/-! ## §2. The books. -/

/-- The bookkeeping of an alert whose row is `row`. -/
structure Accounted (M : Nat) (row : Alert) (l : Ledger) : Prop where
  /-- Each round committed the row once. -/
  commits : row.deliveryAttempts = l.commits.length
  bound : row.deliveryAttempts ≤ M
  delivered_iff : row.deliveryStatus = .delivered ↔
    ∃ r ∈ l.records, r.status = .success
  success_once : l.records.countP AlertDeliveryAttempt.succeeded ≤ 1
  failed_last : row.deliveryStatus = .failed → row.deliveryAttempts = M
  attempt_no : ∀ r ∈ l.records, 1 ≤ r.attemptNo ∧ r.attemptNo ≤ row.deliveryAttempts
  /-- Rounds `k + 1` and `k + 2` are `min(2 ** k, 32)` seconds apart. -/
  spaced : ∀ k a b, l.commits[k]? = some a → l.commits[k + 1]? = some b →
    ∃ t t', a.lastDeliveryAttempt = some t ∧ b.lastDeliveryAttempt = some t' ∧
      t + seconds (min (2 ^ k) 32) ≤ t'
  /-- The stored row is the one the last round committed. -/
  current : ∀ c, l.commits.getLast? = some c → c = row
  stamped : ∀ c ∈ l.commits, c.lastDeliveryAttempt.isSome

theorem Accounted.fresh {M : Nat} {row : Alert} (hp : row.deliveryStatus = .pending)
    (hn : row.deliveryAttempts = 0) : Accounted M row (Ledger.fresh row) where
  commits := hn
  bound := by omega
  delivered_iff := by simp [hp, Ledger.fresh]
  success_once := by simp [Ledger.fresh]
  failed_last := fun h => by simp [hp] at h
  attempt_no := fun _ h => by simp [Ledger.fresh] at h
  spaced := fun _ _ _ h => by simp [Ledger.fresh] at h
  current := fun _ h => by simp [Ledger.fresh] at h
  stamped := fun _ h => by simp [Ledger.fresh] at h

/-- The base of the backoff after `k + 1` attempts. -/
theorem backoffBase_succ (k : Nat) :
    (backoffBase (k + 1) : Int) = seconds (min (2 ^ k) 32) := by
  simp only [backoffBase, seconds, second]
  rw [Nat.cast_mul, Nat.cast_min, Nat.cast_pow]
  rfl

/-- A pending alert has no record of a success. -/
theorem Accounted.no_success {M : Nat} {row : Alert} {l : Ledger}
    (h : Accounted M row l) (hp : row.deliveryStatus = .pending) :
    l.records.countP AlertDeliveryAttempt.succeeded = 0 := by
  rw [List.countP_eq_zero]
  intro r hr hs
  have hd : row.deliveryStatus = .delivered :=
    h.delivered_iff.mpr ⟨r, hr, by simpa [AlertDeliveryAttempt.succeeded] using hs⟩
  rw [hp] at hd
  exact absurd hd (by simp)

/-- The spacing of the rounds after one more. -/
theorem Accounted.spaced_round {M : Nat} {row : Alert} {l : Ledger} {s : DeliveryStatus}
    {t : Time} {records : List AlertDeliveryAttempt} {sent : Bool} (h : Accounted M row l)
    (hround : IsRound M sent row s t records) (k : Nat) (a b : Alert)
    (ha : (l.commits ++ [row.afterRound s t])[k]? = some a)
    (hb : (l.commits ++ [row.afterRound s t])[k + 1]? = some b) :
    ∃ t₁ t₂, a.lastDeliveryAttempt = some t₁ ∧ b.lastDeliveryAttempt = some t₂ ∧
      t₁ + seconds (min (2 ^ k) 32) ≤ t₂ := by
  have hk : k + 1 < l.commits.length + 1 := by
    have := (List.getElem?_eq_some_iff.mp hb).1
    simpa using this
  rw [List.getElem?_append_left (by omega)] at ha
  by_cases hlast : k + 1 < l.commits.length
  · rw [List.getElem?_append_left hlast] at hb
    exact h.spaced k a b ha hb
  · -- `a` is the row as the previous round left it
    have hlen : k + 1 = l.commits.length := by omega
    have hget : l.commits.getLast? = some a := by
      rw [List.getLast?_eq_getElem?, ← hlen]
      exact ha
    obtain rfl := h.current a hget
    obtain ⟨t₁, ht₁⟩ := Option.isSome_iff_exists.mp
      (h.stamped a (List.mem_of_getLast? hget))
    have hdue := hround.due t₁ ht₁
    rw [h.commits, ← hlen, backoffBase_succ] at hdue
    rw [List.getElem?_append_right (by omega), ← hlen, Nat.sub_self] at hb
    simp only [List.getElem?_cons_zero, Option.some.injEq] at hb
    subst hb
    exact ⟨t₁, t, ht₁, rfl, hdue⟩

/-- The books after one more round. -/
theorem Accounted.round {M : Nat} {row : Alert} {l : Ledger} {s : DeliveryStatus}
    {t : Time} {records : List AlertDeliveryAttempt} {sent : Bool} (h : Accounted M row l)
    (hround : IsRound M sent row s t records) :
    Accounted M (row.afterRound s t) (l.commit (row.afterRound s t) records) where
  commits := by simp [Ledger.commit, Alert.afterRound, h.commits]
  bound := hround.below
  delivered_iff := by
    -- the row was pending, so no record of success is older than this round
    have hold := h.no_success hround.pending
    have hnew := hround.successes
    show s = .delivered ↔ ∃ r ∈ l.records ++ records, r.status = .success
    have hcount : (∃ r ∈ l.records ++ records, r.status = .success) ↔
        0 < (l.records ++ records).countP AlertDeliveryAttempt.succeeded := by
      rw [List.countP_pos_iff]
      simp [AlertDeliveryAttempt.succeeded]
    rw [hcount, List.countP_append, hold, hnew]
    split
    next hs => simp [hs]
    next hs => simp [hs]
  success_once := by
    show (l.records ++ records).countP AlertDeliveryAttempt.succeeded ≤ 1
    rw [List.countP_append, h.no_success hround.pending, hround.successes]
    split <;> omega
  failed_last := hround.failed_last
  attempt_no := by
    intro r hr
    show 1 ≤ r.attemptNo ∧ r.attemptNo ≤ row.deliveryAttempts + 1
    -- older records have lower numbers, those of this round its own
    rcases List.mem_append.mp hr with hr | hr
    · have := h.attempt_no r hr
      omega
    · have := hround.attempt_no r hr
      omega
  spaced := h.spaced_round hround
  current := by
    intro c hc
    simp only [Ledger.commit, List.getLast?_append, List.getLast?_singleton,
      Option.some_or, Option.some.injEq] at hc
    exact hc.symm
  stamped := by
    intro c hc
    rcases List.mem_append.mp hc with hc | hc
    · exact h.stamped c hc
    · rw [List.mem_singleton] at hc
      subst hc
      rfl

/-- The books do not mention the requests. -/
theorem Accounted.post {M : Nat} {row : Alert} {l : Ledger} (h : Accounted M row l)
    (q : Request) : Accounted M row (l.post q) := by
  obtain ⟨h₁, h₂, h₃, h₄, h₅, h₆, h₇, h₈, h₉⟩ := h
  exact ⟨h₁, h₂, h₃, h₄, h₅, h₆, h₇, h₈, h₉⟩

/-! ## §3. Successful requests. -/

/-- The requests the client saw succeed. -/
def Ledger.successes (l : Ledger) : Nat := l.requests.countP (fun q => q.reply.ok)

@[simp] theorem Ledger.successes_commit (l : Ledger) (row : Alert)
    (records : List AlertDeliveryAttempt) : (l.commit row records).successes = l.successes := rfl

@[simp] theorem Ledger.successes_post (l : Ledger) (q : Request) :
    (l.post q).successes = l.successes + if q.reply.ok then 1 else 0 := by
  simp [successes, post]

end Pulse
