/-
  Pulse.Api.Agreement
  ───────────────────
  **DO THE TWO LAYERS AGREE?**

  The middleware admits the admin key and every active database key; the
  dependency of the writing routes admits the admin key alone.

    • `wp_dispatch`       — what the middleware lets through, whatever it is put
                            in front of,
    • `layers_agree`      — a write is handled iff its key is authenticated, iff
                            the key is no database key,
    • `layers_agree_fails` — an active database key.
-/
import Pulse.Api.Middleware

namespace Pulse.Api

open Pulse.Async Pulse.Store

/-! ## §1. What is asked. -/

/-- The hash of the key is that of an active row. -/
def IsActiveKey (sha256 : String → String) (s : Server) (rawKey : String) : Prop :=
  ∃ k ∈ s.apiKeys.rows, k.keyHash = sha256 rawKey ∧ k.isActive = true

/-- The header is the admin key or an active key of the database. -/
def Authenticated (sha256 : String → String) (settings : Settings) (s : Server)
    (apiKey : Option String) : Prop :=
  apiKey = some settings.apiKey ∨
    ∃ rawKey, apiKey = some rawKey ∧ IsActiveKey sha256 s rawKey

/-- The body of a handler ran. -/
def Ran (s s' : Server) : Prop := s.handled.length < s'.handled.length

/-- The lookup succeeds and the limiter allows. -/
def Input.Allows (inp : Input) : Prop := inp.fault = none ∧ inp.allowed = true

variable {sha256 : String → String} {settings : Settings}

/-! ## §2. The middleware. -/

/-- A request alone, whose lookup succeeds and that the limiter allows; nothing is
raised. -/
abbrev admitting {α : Type} (Q : α → Server → Prop) (p : ApiProg α) (s : Server) : Prop :=
  Coro.wp Server.perform (fun _ inp _ => inp.Allows) Eq (fun _ _ => True) Q
    (fun _ _ => False) p s

/-- `key_hash` is unique, so the lookup finds one row or none. -/
theorem lookup_cases (s : Server) (keyHash : String) :
    (∃ k, (s.apiKeys.rows.filter fun k => k.keyHash = keyHash && k.isActive) = [k] ∧
        k ∈ s.apiKeys.rows ∧ k.keyHash = keyHash ∧ k.isActive = true) ∨
      (s.apiKeys.rows.filter fun k => k.keyHash = keyHash && k.isActive) = [] := by
  have hnodup := (List.filter_sublist (l := s.apiKeys.rows)
    (p := fun k => k.keyHash = keyHash && k.isActive)).map ApiKey.keyHash
      |>.nodup s.apiKeys.nodup
  have hmem : ∀ k ∈ s.apiKeys.rows.filter fun k => k.keyHash = keyHash && k.isActive,
      k ∈ s.apiKeys.rows ∧ k.keyHash = keyHash ∧ k.isActive = true := by
    intro k hk
    rw [List.mem_filter, Bool.and_eq_true, decide_eq_true_iff] at hk
    exact hk
  generalize s.apiKeys.rows.filter (fun k => k.keyHash = keyHash && k.isActive) = rows at *
  match rows with
  | [] => exact Or.inr rfl
  | [k] => exact Or.inl ⟨k, rfl, hmem k (by simp)⟩
  | k :: k' :: rest =>
      -- two rows with one hash
      have hk := (hmem k (by simp)).2.1
      have hk' := (hmem k' (by simp)).2.1
      simp [hk, hk'] at hnodup

/-- The lookup accepts the active keys. -/
theorem wp_lookupKey {rawKey : String} {s : Server} :
    admitting (fun out s' => s'.handled = s.handled ∧
      (out.toBool = true ↔ IsActiveKey sha256 s rawKey)) (lookupKey (sha256 rawKey)) s := by
  intro s₁ hs inp rows s₂ hallow hperf
  subst hs
  refine ⟨trivial, ?_⟩
  simp only [Server.perform, statement, hallow.1, Option.some.injEq, Prod.mk.injEq] at hperf
  obtain ⟨rfl, rfl⟩ := hperf
  rcases lookup_cases s (sha256 rawKey) with ⟨k, hrows, hk, hhash, hactive⟩ | hnone
  · rw [hrows]
    -- the row is stamped
    intro s₁ hs inp₁ now s₂ _ hperf
    subst hs
    simp only [Server.perform, Option.some.injEq, Prod.mk.injEq] at hperf
    obtain ⟨rfl, rfl⟩ := hperf
    refine ⟨trivial, fun s₁ hs inp₂ r s₂ hallow hperf => ⟨trivial, ?_⟩⟩
    subst hs
    simp only [Server.perform, statement, hallow.1, Option.some.injEq, Prod.mk.injEq] at hperf
    obtain ⟨rfl, rfl⟩ := hperf
    exact ⟨rfl, fun _ => ⟨k, hk, hhash, hactive⟩, fun _ => rfl⟩
  · rw [hnone]
    refine ⟨rfl, fun hout => absurd hout (by simp [Except.toBool]), ?_⟩
    rintro ⟨k, hk, hhash, hactive⟩
    have hin : k ∈ s.apiKeys.rows.filter fun k => k.keyHash = sha256 rawKey && k.isActive := by
      rw [List.mem_filter]
      exact ⟨hk, by simp [hhash, hactive]⟩
    rw [hnone] at hin
    exact absurd hin (by simp)

/-- So the middleware knows the authenticated keys. -/
theorem wp_identify {rawKey : String} {s : Server} :
    admitting (fun out s' => s'.handled = s.handled ∧
      (out.toBool = true ↔ Authenticated sha256 settings s (some rawKey)))
      (identify sha256 settings rawKey) s := by
  have hauth : Authenticated sha256 settings s (some rawKey) ↔
      rawKey = settings.apiKey ∨ IsActiveKey sha256 s rawKey := by
    simp [Authenticated]
  unfold identify
  split
  next hadmin => exact ⟨rfl, fun _ => hauth.mpr (Or.inl hadmin), fun _ => rfl⟩
  next hadmin =>
    refine Coro.wp_tryCatch (Coro.wp_mono (fun out s' h => ?_) (fun _ _ h => h.elim)
      wp_lookupKey)
    refine ⟨h.1, h.2.trans ?_⟩
    rw [hauth]
    exact (or_iff_right hadmin).symm

/-- **What the middleware lets through**: a request that is not exempt runs what
comes next iff it has a non-empty, authenticated key. -/
theorem wp_dispatch {request : Request} {callNext : Request → ApiProg Response} {s : Server}
    {A : Prop} (hpath : request.path ∉ publicPaths) (hmethod : request.method ∉ readMethods)
    (hnext : ∀ u, u.handled = s.handled →
      admitting (fun _ s' => Ran s s' ↔ A) (callNext request) u) :
    admitting (fun _ s' => Ran s s' ↔
        A ∧ request.apiKey ≠ some "" ∧ Authenticated sha256 settings s request.apiKey)
      (dispatch sha256 settings request callNext) s := by
  have hidle : ∀ u : Server, u.handled = s.handled → ¬ Ran s u := by
    intro u hu hran
    rw [Ran, hu] at hran
    exact lt_irrefl _ hran
  unfold dispatch
  rw [if_neg hpath, if_neg hmethod]
  cases hkey : request.apiKey with
  | none =>
      refine ⟨fun hran => absurd hran (hidle s rfl), fun h => ?_⟩
      rcases h.2.2 with hadmin | ⟨_, hactive, -⟩
      · exact absurd hadmin (by simp)
      · exact absurd hactive (by simp)
  | some rawKey =>
      show admitting _ (if rawKey = "" then _ else _) s
      split
      next hempty =>
        -- `if not api_key`
        subst hempty
        exact ⟨fun hran => absurd hran (hidle s rfl), fun h => absurd rfl h.2.1⟩
      next hsent =>
        refine Coro.wp_bind (Coro.wp_mono (fun out u hu => ?_) (fun _ _ h => h)
          (@wp_identify sha256 settings rawKey s))
        obtain ⟨hhandled, hout⟩ := hu
        cases out with
        | error response =>
            refine ⟨fun hran => absurd hran (hidle u hhandled), fun h => ?_⟩
            exact absurd (hout.mpr h.2.2) (by simp [Except.toBool])
        | ok bucket =>
            -- the key is good, and the rate limit is not reached
            have hauth := hout.mp rfl
            intro u₁ hu inp rl u₂ hallow hperf
            subst hu
            refine ⟨trivial, ?_⟩
            simp only [Server.perform, Option.some.injEq, Prod.mk.injEq] at hperf
            obtain ⟨rfl, rfl⟩ := hperf
            simp only [hallow.2]
            show admitting _ (callNext request >>= _) u
            refine Coro.wp_bind (Coro.wp_mono (fun response v hv => ?_) (fun _ _ h => h)
              (hnext u hhandled))
            show Ran s v ↔ _
            rw [hv]
            exact ⟨fun hA => ⟨hA, by simpa using hsent, hauth⟩, fun h => h.1⟩

/-! ## §3. Both layers. -/

/-- No write of rules is exempt. -/
theorem request_path (write : RuleWrite) (apiKey : Option String) :
    (write.request apiKey).path ∉ publicPaths := by
  -- the second letter tells
  have hfirst : ∀ rest : String, ("/api/v1/rules" ++ rest) ∉ publicPaths := by
    intro rest hmem
    simp only [publicPaths, List.mem_cons, List.not_mem_nil, or_false] at hmem
    rcases hmem with h | h | h | h | h
    all_goals
      have hchars := congrArg String.toList h
      simp at hchars
  cases write with
  | createRule => exact hfirst ""
  | updateRule ruleId => exact hfirst ("/" ++ ruleId)
  | deleteRule ruleId => exact hfirst ("/" ++ ruleId)

theorem request_method (write : RuleWrite) (apiKey : Option String) :
    (write.request apiKey).method ∉ readMethods := by
  cases write <;> simp [RuleWrite.request, RuleWrite.method, readMethods]

/-- The dependency accepts the admin key, unless it is empty. -/
theorem verifyApiKey_ok {apiKey : Option String} :
    (verifyApiKey settings apiKey).toBool = true ↔
      apiKey = some settings.apiKey ∧ settings.apiKey ≠ "" := by
  unfold verifyApiKey
  cases apiKey with
  | none => simp [isSet, Except.toBool]
  | some key =>
      split
      next hrefused =>
        refine ⟨fun h => absurd h (by simp [Except.toBool]), ?_⟩
        rintro ⟨hadmin, hne⟩
        rw [Option.some.injEq] at hadmin
        subst hadmin
        simp [isSet, hne] at hrefused
      next haccepted =>
        simp [isSet] at haccepted
        refine ⟨fun _ => ⟨congrArg some haccepted.2, ?_⟩, fun _ => rfl⟩
        rw [← haccepted.2]
        exact haccepted.1

/-- A writing route runs its handler for those. -/
theorem wp_writeRoute {request : Request} {s u : Server} (hu : u.handled = s.handled) :
    admitting (fun _ s' => Ran s s' ↔
        request.apiKey = some settings.apiKey ∧ settings.apiKey ≠ "")
      (writeRoute settings request) u := by
  rw [← verifyApiKey_ok]
  unfold writeRoute
  cases verifyApiKey settings request.apiKey with
  | error e =>
      refine ⟨fun hran => ?_, fun h => absurd h (by simp [Except.toBool])⟩
      rw [Ran, hu] at hran
      exact absurd hran (lt_irrefl _)
  | ok _ =>
      intro u₁ hs inp r u₂ _ hperf
      subst hs
      simp only [Server.perform, Option.some.injEq, Prod.mk.injEq] at hperf
      obtain ⟨rfl, rfl⟩ := hperf
      refine ⟨trivial, fun _ => rfl, fun _ => ?_⟩
      simp [Ran, hu]

/-- Through both layers, the admin key remains. -/
theorem wp_handleWrite {write : RuleWrite} {apiKey : Option String} {s : Server} :
    admitting (fun _ s' => Ran s s' ↔
        apiKey = some settings.apiKey ∧ settings.apiKey ≠ "")
      (handleWrite sha256 settings write apiKey) s := by
  refine Coro.wp_mono (fun _ s' h => h.trans ?_) (fun _ _ h => h)
    (wp_dispatch (request_path write apiKey) (request_method write apiKey)
      fun u hu => wp_writeRoute hu)
  show (apiKey = some settings.apiKey ∧ settings.apiKey ≠ "") ∧ apiKey ≠ some "" ∧
    Authenticated sha256 settings s apiKey ↔ _
  refine ⟨fun h => h.1, fun h => ⟨h, ?_, Or.inl h.1⟩⟩
  rw [h.1]
  simpa using h.2

/-- Every write is answered, if the lookup succeeds and the limiter allows. -/
theorem handleWrite_answers (write : RuleWrite) (apiKey : Option String) (s : Server) :
    ∃ inputs response s', (∀ inp ∈ inputs, Input.Allows inp) ∧
      Coro.run Server.perform inputs (handleWrite sha256 settings write apiKey) s
        = some (.pure response, s') := by
  have hanswers : ∀ (o : Op) (u : Server), (Server.perform o {} u).isSome := by
    intro o u
    cases o <;> rfl
  obtain ⟨n, p, s', hend, hrun⟩ := Coro.run_completes Server.perform hanswers
    (handleWrite sha256 settings write apiKey) s
  have hallow : ∀ inp ∈ List.replicate n ({} : Input), inp.Allows := by
    intro inp hinp
    rw [List.eq_of_mem_replicate hinp]
    exact ⟨rfl, rfl⟩
  have hwp := Coro.wp_run (fun inp hinp _ _ => hallow inp hinp)
    (@wp_handleWrite sha256 settings write apiKey s) hrun
  cases p with
  | pure response => exact ⟨_, response, s', hallow, hrun⟩
  | raise e => exact hwp.elim
  | await o k => exact absurd hend (by simp [Coro.finished])

/-- **The layers agree on a write iff** its header is the admin key and not empty, or
is neither the admin key nor an active key of the database. -/
theorem layers_agree {write : RuleWrite} {apiKey : Option String} {s s' : Server}
    {inputs : List Input} {response : Response}
    (hallow : ∀ inp ∈ inputs, inp.Allows)
    (hrun : Coro.run Server.perform inputs (handleWrite sha256 settings write apiKey) s
      = some (.pure response, s')) :
    (Ran s s' ↔ Authenticated sha256 settings s apiKey) ↔
      (apiKey = some settings.apiKey ∧ settings.apiKey ≠ "") ∨
        (apiKey ≠ some settings.apiKey ∧
          ¬ ∃ rawKey, apiKey = some rawKey ∧ IsActiveKey sha256 s rawKey) := by
  have hran : Ran s s' ↔ apiKey = some settings.apiKey ∧ settings.apiKey ≠ "" :=
    Coro.wp_run (fun inp hinp _ _ => hallow inp hinp) wp_handleWrite hrun
  rw [hran]
  by_cases hadmin : apiKey = some settings.apiKey
  · have hauth : Authenticated sha256 settings s apiKey := Or.inl hadmin
    simp only [hadmin, true_and, ne_eq, not_true, false_and, or_false]
    rw [hadmin] at hauth
    exact ⟨fun h => h.mpr hauth, fun h => ⟨fun _ => hauth, fun _ => h⟩⟩
  · -- refused by the dependency
    simp [Authenticated, hadmin]

/-! ### Two requests. -/

/-- A server with one active key. -/
def sampleServer : Server where
  apiKeys := Table.empty.insertNew ⟨"3c1f", "pk_live", 120, true, none⟩
  clock := 0
  handled := []

def sampleSettings : Settings := ⟨"admin-key", 1000, ""⟩

theorem allows_default {inputs : List Input} (h : ∀ inp ∈ inputs, inp = {}) :
    ∀ inp ∈ inputs, inp.Allows := by
  intro inp hinp
  rw [h inp hinp]
  exact ⟨rfl, rfl⟩

/-- The admin key writes a rule. -/
theorem layers_agree_admin : ∃ response s',
    Coro.run Server.perform [{}, {}]
      (handleWrite id sampleSettings .createRule (some "admin-key")) sampleServer
        = some (.pure response, s') ∧
    (Ran sampleServer s' ↔
      Authenticated id sampleSettings sampleServer (some "admin-key")) := by
  have hrun : Coro.run Server.perform [{}, {}]
      (handleWrite id sampleSettings .createRule (some "admin-key")) sampleServer
        = some (.pure _, _) := rfl
  exact ⟨_, _, hrun, (layers_agree (allows_default (by simp)) hrun).mpr
    (Or.inl ⟨rfl, by decide⟩)⟩

/-- **An active key of the database passes the middleware and is refused by the
route.** -/
theorem layers_agree_fails : ¬ ∀ (sha256 : String → String) (settings : Settings)
    (write : RuleWrite) (apiKey : Option String) (s s' : Server) (inputs : List Input)
    (response : Response), Function.Injective sha256 → (∀ inp ∈ inputs, inp.Allows) →
    Coro.run Server.perform inputs (handleWrite sha256 settings write apiKey) s
      = some (.pure response, s') →
    (Ran s s' ↔ Authenticated sha256 settings s apiKey) := by
  intro h
  have hagree := h id sampleSettings .createRule (some "pk_live") sampleServer _
    [{}, {}, {}, {}] _ Function.injective_id (allows_default (by simp)) rfl
  have hauth : Authenticated id sampleSettings sampleServer (some "pk_live") :=
    Or.inr ⟨_, rfl, _, List.mem_singleton_self _, rfl, rfl⟩
  exact absurd (hagree.mpr hauth) (lt_irrefl 0)

end Pulse.Api
