/-
  Pulse.Api.Gate
  ──────────────
  **THE API FROM THE OUTSIDE.**

  Any number of requests are in the middleware at once.  A request that was authenticated
  calls the limiter, whose commands interleave with those of all others, and waits for it to
  return.  Statements and commands fail, and the key table is edited.

    • `Gate.step`      — the middleware and the limiter together,
    • `gated_dispatch` — one request: it calls the limiter for a bucket that its key opens, is
                         passed on when the limiter allows, and refused for a reason.
-/
import Pulse.Api.Window

namespace Pulse.Api

open Pulse.Async Pulse.Store

/-! ## §1. The system. -/

/-- The requests `ι` in the middleware, the limiter that they call, and what is recorded of
each: the limiter's answer, and whether `call_next` was reached. -/
structure Gate (ι : Type) where
  front : Pool ι Resp PyErr Response Server
  limits : RateLimit.System ι
  asked : ι → Option Request
  told : ι → Option RateLimitResult
  passed : ι → Bool

/-- An await of the limiter. -/
def Op.isCall : Op → Bool
  | .checkRateLimit _ _ _ => true
  | _ => false

/-- An await of `call_next`. -/
def Op.isHandler : Op → Bool
  | .handler _ => true
  | _ => false

namespace Gate

inductive Action (ι : Type) where
  /-- Request `i` comes in. -/
  | request (i : ι) (r : Request)
  /-- What request `i` awaits in the middleware is answered. -/
  | answer (i : ι) (inp : Input)
  /-- Request `i` calls the limiter. -/
  | call (i : ι)
  /-- What request `i` awaits in the limiter is answered. -/
  | limiter (i : ι) (inp : RateLimit.Limiter.Input)
  /-- The limiter returns to request `i`. -/
  | result (i : ι)
  /-- Time passes. -/
  | tick (n : Nat)
  /-- Redis drops a key whose TTL is over. -/
  | drop (key : String)
  /-- The key table is edited. -/
  | edit (apiKeys : Table ApiKey.keyHash)

variable {ι : Type} [DecidableEq ι]

abbrev task (c : Gate ι) (i : ι) : ApiProg Response := c.front.task i

/-- The key table. -/
abbrev table (c : Gate ι) : Table ApiKey.keyHash := c.front.world.apiKeys

/-- The database or the clock of the application becomes `s`. -/
def env (c : Gate ι) (s : Server) : Gate ι :=
  { c with front := { c.front with world := s } }

/-- A step of the limiter. -/
def limit (c : Gate ι) (a : RateLimit.System.Action ι) : Option (Gate ι) :=
  (c.limits.step a).map fun limits => { c with limits := limits }

/-- One action.  Time passes by `tick` alone. -/
def step (sha256 : String → String) (settings : Settings) (c : Gate ι) :
    Action ι → Option (Gate ι)
  | .request i r =>
      if (c.asked i).isNone then
        some { c with
          front := c.front.assign i (dispatch sha256 settings r runHandler)
          asked := Function.update c.asked i (some r) }
      else none
  | .answer i inp =>
      match c.task i with
      | .await o k =>
          if o.isCall then none
          else (Server.perform o { inp with elapsed := 0 } c.front.world).map fun out =>
            { c with
              front := ⟨out.2, Function.update c.front.task i (k out.1)⟩
              passed := Function.update c.passed i (c.passed i || o.isHandler) }
      | _ => none
  | .call i =>
      match c.task i with
      | .await (.checkRateLimit redisUrl bucketId limitPerMinute) _ =>
          c.limit (.request i ⟨some redisUrl, bucketId, limitPerMinute⟩)
      | _ => none
  | .limiter i inp => c.limit (.answer i inp)
  | .result i =>
      match c.task i, c.limits.asked i, c.told i, c.limits.task i with
      | .await (.checkRateLimit _ _ _) k, some _, none, .pure rl =>
          some { c with
            front := c.front.assign i (k rl)
            told := Function.update c.told i (some rl) }
      | _, _, _, _ => none
  | .tick n =>
      (c.limit (.tick n)).map fun d =>
        d.env { d.front.world with clock := d.front.world.clock + n }
  | .drop key => c.limit (.drop key)
  | .edit apiKeys => some (c.env { c.front.world with apiKeys := apiKeys })

/-- No request yet, neither here nor in the limiter. -/
structure Start (c : Gate ι) : Prop where
  limits : RateLimit.System.Start c.limits
  asked : ∀ i, c.asked i = none
  idle : ∀ i, (c.task i).finished = true
  told : ∀ i, c.told i = none
  passed : ∀ i, c.passed i = false

end Gate

/-! ## §2. One request. -/

/-- A request that the middleware passes on unseen. -/
def Request.Exempt (r : Request) : Prop := r.path ∈ publicPaths ∨ r.method ∈ readMethods

instance (r : Request) : Decidable r.Exempt :=
  inferInstanceAs (Decidable (r.path ∈ publicPaths ∨ r.method ∈ readMethods))

section Request

variable (sha256 : String → String) (settings : Settings)

/-- The key opens a bucket with a limit: the admin key its own, an active key of the table
that of its row. -/
def Opens (apiKeys : Table ApiKey.keyHash) (rawKey bucketId : String) (limit : Int) : Prop :=
  (rawKey = settings.apiKey ∧ bucketId = "admin" ∧ limit = settings.adminRateLimitPerMinute) ∨
    (rawKey ≠ settings.apiKey ∧ ∃ k ∈ apiKeys.rows, k.keyHash = sha256 rawKey ∧
      k.isActive = true ∧ k.id = bucketId ∧ k.requestsPerMinute = limit)

/-- The table opens nothing but what `V` permits. -/
def Lawful (V : String → String → Int → Prop) (apiKeys : Table ApiKey.keyHash) : Prop :=
  ∀ rawKey bucketId limit, Opens sha256 settings apiKeys rawKey bucketId limit →
    V rawKey bucketId limit

/-- What one request sees: the database, its query to the limiter and the answer, and whether
it was passed on. -/
structure View where
  server : Server
  told : Option (RateLimit.Query × RateLimitResult)
  passed : Bool

/-- The operations as one request sees them; the limiter may answer anything. -/
def View.perform : (o : Op) → Input × RateLimitResult → View → Option (Resp o × View)
  | .checkRateLimit redisUrl bucketId limitPerMinute, l, v =>
      some (l.2, { v with told := some (⟨some redisUrl, bucketId, limitPerMinute⟩, l.2) })
  | o, l, v =>
      (Server.perform o l.1 v.server).map fun out =>
        (out.1, { v with server := out.2, passed := v.passed || o.isHandler })

variable {sha256 settings} {V : String → String → Int → Prop}

/-- The `X-API-Key` header, with `""` for none. -/
abbrev Request.rawKey (r : Request) : String := r.apiKey.getD ""

variable (settings) in
/-- The request asks the limiter for a bucket that its key opens. -/
structure Permits (V : String → String → Int → Prop) (r : Request) (q : RateLimit.Query) :
    Prop where
  write : ¬ r.Exempt
  key : r.rawKey ≠ ""
  redis : q.redisUrl = some settings.redisUrl
  bucket : V r.rawKey q.bucketId q.limitPerMinute

variable (settings) in
/-- What is true of a request at any time: it asks for a bucket that its key opens, and it is
passed on when the limiter allows. -/
structure Gated (V : String → String → Int → Prop) (r : Request) (v : View) : Prop where
  query : ∀ q rl, v.told = some (q, rl) → Permits settings V r q
  passed : v.passed = true → r.Exempt ∨ ∃ q rl, v.told = some (q, rl) ∧ rl.allowed = true

variable (settings) in
/-- The reason why a request was refused. -/
inductive Refused (r : Request) (v : View) : Response → Prop
  | missing : r.rawKey = "" → Refused r v (detailResponse 401 "Missing X-API-Key header")
  | inactive : r.rawKey ≠ settings.apiKey →
      Refused r v (detailResponse 401 "Invalid or inactive API key")
  | unavailable : r.rawKey ≠ settings.apiKey →
      Refused r v (detailResponse 503 "Auth backend unavailable")
  | limited (q : RateLimit.Query) (rl : RateLimitResult) : v.told = some (q, rl) →
      rl.allowed = false → Refused r v (tooManyRequests rl)

variable (sha256 settings V) in
/-- The RELY of a request: others edit the table, within `V`. -/
structure Beside (v v' : View) : Prop where
  told : v'.told = v.told
  passed : v'.passed = v.passed
  lawful : Lawful sha256 settings V v'.server.apiKeys

variable (sha256 settings V) in
/-- `p` as request `r` among others. -/
abbrev gated {α : Type} (r : Request) (Q : α → View → Prop) (E : PyErr → View → Prop)
    (p : ApiProg α) (v : View) : Prop :=
  Coro.wp View.perform (fun _ _ _ => True) (Beside sha256 settings V)
    (fun _ v' => Gated settings V r v') Q E p v

/-- Nothing was asked of the limiter, and nothing passed on. -/
def View.Waits (v : View) : Prop := v.told = none ∧ v.passed = false

variable {r : Request} {v v' : View}

theorem View.Waits.gated (h : v.Waits) : Gated settings V r v := by
  refine ⟨?_, ?_⟩
  · intro q rl htold
    rw [h.1] at htold
    exact absurd htold (by simp)
  · intro hpassed
    rw [h.2] at hpassed
    exact absurd hpassed (by simp)

theorem View.Waits.beside (h : v.Waits) (hv : Beside sha256 settings V v v') : v'.Waits :=
  ⟨hv.told.trans h.1, hv.passed.trans h.2⟩

/-- A stamped row opens what it did before. -/
theorem Lawful.stamped {apiKeys : Table ApiKey.keyHash} (h : Lawful sha256 settings V apiKeys)
    (keyHash : String) (now : Time) :
    Lawful sha256 settings V (apiKeys.modify keyHash
      (fun k => { k with lastUsedAt := some now }) (fun _ => rfl)) := by
  intro rawKey bucketId limit hopen
  refine h rawKey bucketId limit ?_
  rcases hopen with hadmin | ⟨hne, k, hk, hhash, hactive, hid, hlimit⟩
  · exact Or.inl hadmin
  · obtain ⟨k₀, hk₀, rfl⟩ := Table.mem_modify hk
    refine Or.inr ⟨hne, k₀, hk₀, ?_⟩
    split at hhash
    next hstamped =>
      rw [if_pos hstamped] at hactive hid hlimit
      exact ⟨hhash, hactive, hid, hlimit⟩
    next hother =>
      rw [if_neg hother] at hactive hid hlimit
      exact ⟨hhash, hactive, hid, hlimit⟩

/-- No operation opens a bucket. -/
theorem Lawful.perform {o : Op} {l : Input} {out : Resp o} {w w' : Server}
    (h : Lawful sha256 settings V w.apiKeys) (hperf : Server.perform o l w = some (out, w')) :
    Lawful sha256 settings V w'.apiKeys := by
  cases o with
  | commitLastUsed keyHash now =>
      simp only [Server.perform, statement, Option.some.injEq] at hperf
      split at hperf
      next => exact (Prod.mk.inj hperf).2 ▸ h
      next => exact (Prod.mk.inj hperf).2 ▸ h.stamped keyHash now
  | selectApiKey _ =>
      simp only [Server.perform, statement, Option.some.injEq] at hperf
      split at hperf <;> exact (Prod.mk.inj hperf).2 ▸ h
  | utcnow | checkRateLimit _ _ _ | handler _ =>
      obtain ⟨-, rfl⟩ := Prod.mk.inj (Option.some.inj hperf)
      exact h

theorem View.perform_eq {o : Op} {l : Input × RateLimitResult} (hcall : o.isCall = false) :
    View.perform o l v = (Server.perform o l.1 v.server).map fun out =>
      (out.1, { v with server := out.2, passed := v.passed || o.isHandler }) := by
  cases o with
  | checkRateLimit _ _ _ => exact absurd hcall (by simp [Op.isCall])
  | selectApiKey _ | utcnow | commitLastUsed _ _ | handler _ => rfl

/-- An operation that is no call goes to the server. -/
theorem View.perform_server {o : Op} {l : Input × RateLimitResult} {out : Resp o}
    (hcall : o.isCall = false) (h : View.perform o l v = some (out, v')) :
    ∃ s, Server.perform o l.1 v.server = some (out, s) ∧
      v' = { v with server := s, passed := v.passed || o.isHandler } := by
  rw [View.perform_eq hcall] at h
  obtain ⟨⟨out₀, s⟩, hserver, hout⟩ := Option.map_eq_some_iff.mp h
  obtain ⟨rfl, rfl⟩ := Prod.mk.inj hout
  exact ⟨s, hserver, rfl⟩

/-- An operation before the limiter is called. -/
theorem gated_op {α : Type} {Q : α → View → Prop} {E : PyErr → View → Prop} {o : Op}
    {f : Resp o → ApiProg α} (hcall : o.isCall = false) (hhandler : o.isHandler = false)
    (h : v.Waits) (hf : ∀ (l : Input) (out : Resp o) (u u' : View), u'.Waits →
      Lawful sha256 settings V u.server.apiKeys →
      Server.perform o l u.server = some (out, u'.server) →
      gated sha256 settings V r Q E (f out) u') :
    gated sha256 settings V r Q E (.await o f) v := by
  intro u hu l out u' _ hperf
  have hwaits := h.beside hu
  obtain ⟨s, hserver, rfl⟩ := View.perform_server hcall hperf
  have hwaits' : View.Waits { u with server := s, passed := u.passed || o.isHandler } := by
    refine ⟨hwaits.1, ?_⟩
    show (u.passed || o.isHandler) = false
    rw [hwaits.2, hhandler]
    rfl
  exact ⟨hwaits'.gated, hf l.1 out u _ hwaits' hu.lawful hserver⟩

variable (settings V) in
/-- What the middleware found out about a key, while the request waits: a bucket that the key
opens, or why the request is refused. -/
structure Known (r : Request) (out : Except Response (String × Int)) (v : View) : Prop where
  waits : v.Waits
  bucket : ∀ bucketId limit, out = .ok (bucketId, limit) → V r.rawKey bucketId limit
  refused : ∀ response, out = .error response → Refused settings r v response

/-- **The lookup.** -/
theorem gated_lookupKey (hraw : r.rawKey ≠ settings.apiKey) (h : v.Waits) :
    gated sha256 settings V r (Known settings V r) (fun _ v' => v'.Waits)
      (lookupKey (sha256 r.rawKey)) v := by
  unfold lookupKey
  refine gated_op rfl rfl h fun l rows u u' hu' hlawful hserver => ?_
  simp only [Server.perform, statement, Option.some.injEq] at hserver
  cases hfault : l.fault with
  | some msg =>
      rw [hfault] at hserver
      obtain ⟨rfl, -⟩ := Prod.mk.inj hserver
      exact hu'
  | none =>
      rw [hfault] at hserver
      obtain ⟨rfl, -⟩ := Prod.mk.inj hserver
      have hopens : ∀ k ∈ u.server.apiKeys.rows.filter fun k =>
          k.keyHash = sha256 r.rawKey && k.isActive, V r.rawKey k.id k.requestsPerMinute := by
        intro k hk
        rw [List.mem_filter, Bool.and_eq_true, decide_eq_true_iff] at hk
        exact hlawful _ _ _ (Or.inr ⟨hraw, k, hk.1, hk.2.1, hk.2.2, rfl, rfl⟩)
      generalize u.server.apiKeys.rows.filter (fun k =>
        k.keyHash = sha256 r.rawKey && k.isActive) = rows at hopens
      match rows, hopens with
      | [], _ =>
          refine ⟨hu', fun _ _ hout => absurd hout (by simp), fun response hout => ?_⟩
          obtain rfl := Except.error.inj hout
          exact .inactive hraw
      | _ :: _ :: _, _ => exact hu'
      | [k], hopens =>
          -- the row is stamped
          refine gated_op (o := .utcnow) rfl rfl hu' fun _ now _ w hw _ _ => ?_
          refine gated_op (o := .commitLastUsed k.keyHash now) rfl rfl hw
            fun _ done _ x hx _ _ => ?_
          cases done with
          | error e => exact hx
          | ok _ =>
              refine ⟨hx, fun bucketId limit hout => ?_, fun _ hout => absurd hout (by simp)⟩
              obtain ⟨rfl, rfl⟩ := Prod.mk.inj (Except.ok.inj hout)
              exact hopens k (by simp)

/-- **The key**, whatever the statements answer; nothing is raised. -/
theorem gated_identify (hlawful : Lawful sha256 settings V v.server.apiKeys) (h : v.Waits) :
    gated sha256 settings V r (Known settings V r) (fun _ _ => False)
      (identify sha256 settings r.rawKey) v := by
  unfold identify
  split
  next hadmin =>
    refine ⟨h, fun bucketId limit hout => ?_, fun _ hout => absurd hout (by simp)⟩
    obtain ⟨rfl, rfl⟩ := Prod.mk.inj (Except.ok.inj hout)
    exact hlawful _ _ _ (Or.inl ⟨hadmin, rfl, rfl⟩)
  next hraw =>
    refine Coro.wp_tryCatch (Coro.wp_mono (fun _ _ hq => hq) (fun _ u hu => ?_)
      (gated_lookupKey hraw h))
    refine ⟨hu, fun _ _ hout => absurd hout (by simp), fun response hout => ?_⟩
    obtain rfl := Except.error.inj hout
    exact .unavailable hraw

variable (settings) in
/-- The request was passed on, or there is a reason why not. -/
def Served (r : Request) (response : Response) (v : View) : Prop :=
  v.passed = true ∨ (¬ r.Exempt ∧ Refused settings r v response)

theorem Beside.trans {v v' v'' : View} (h : Beside sha256 settings V v v')
    (h' : Beside sha256 settings V v' v'') : Beside sha256 settings V v v'' :=
  ⟨h'.told.trans h.told, h'.passed.trans h.passed, h'.lawful⟩

theorem Served.beside {r : Request} {response : Response} {v v' : View}
    (h : Served settings r response v) (hv : Beside sha256 settings V v v') :
    Served settings r response v' := by
  rcases h with hpassed | ⟨hwrite, hrefused⟩
  · exact Or.inl (hv.passed.trans hpassed)
  · refine Or.inr ⟨hwrite, ?_⟩
    cases hrefused with
    | missing hraw => exact .missing hraw
    | inactive hraw => exact .inactive hraw
    | unavailable hraw => exact .unavailable hraw
    | limited q rl htold hnot => exact .limited q rl (hv.told.trans htold) hnot

theorem Gated.beside {r : Request} {v v' : View} (h : Gated settings V r v)
    (hv : Beside sha256 settings V v v') : Gated settings V r v' := by
  refine ⟨fun q rl htold => h.query q rl (hv.told ▸ htold), fun hpassed => ?_⟩
  rw [hv.told]
  exact h.passed (hv.passed ▸ hpassed)

/-- The request is passed on. -/
theorem gated_runHandler (h : Gated settings V r v) (hpassed : r.Exempt ∨
      ∃ q rl, v.told = some (q, rl) ∧ rl.allowed = true) :
    gated sha256 settings V r (fun _ v' => v'.passed = true) (fun _ _ => False)
      (runHandler r) v := by
  intro u hu l out u' _ hperf
  obtain ⟨s, hserver, rfl⟩ := View.perform_server rfl hperf
  obtain ⟨-, rfl⟩ := Prod.mk.inj (Option.some.inj hserver)
  have htold : u.told = v.told := hu.told
  refine ⟨⟨fun q rl hq => h.query q rl (htold ▸ hq), fun _ => ?_⟩, ?_⟩
  · show r.Exempt ∨ ∃ q rl, u.told = some (q, rl) ∧ rl.allowed = true
    rw [htold]
    exact hpassed
  · show (u.passed || true) = true
    exact Bool.or_true _

/-- **The middleware.**  It raises nothing. -/
theorem gated_dispatch (hlawful : Lawful sha256 settings V v.server.apiKeys) (h : v.Waits) :
    gated sha256 settings V r (Served settings r) (fun _ _ => False)
      (dispatch sha256 settings r runHandler) v := by
  unfold dispatch
  have hexempt : r.Exempt → gated sha256 settings V r (Served settings r) (fun _ _ => False)
      (runHandler r >>= fun response => pure response) v := by
    intro he
    exact Coro.wp_bind (Coro.wp_mono (fun _ _ hq => Or.inl hq) (fun _ _ hf => hf)
      (gated_runHandler h.gated (Or.inl he)))
  by_cases hpath : r.path ∈ publicPaths
  · rw [if_pos hpath]
    exact hexempt (Or.inl hpath)
  rw [if_neg hpath]
  by_cases hmethod : r.method ∈ readMethods
  · rw [if_pos hmethod]
    exact hexempt (Or.inr hmethod)
  rw [if_neg hmethod]
  have hwrite : ¬ r.Exempt := by
    intro he
    exact he.elim hpath hmethod
  by_cases hraw : r.rawKey = ""
  · show gated sha256 settings V r _ _ (if r.rawKey = "" then _ else _) v
    rw [if_pos hraw]
    exact Or.inr ⟨hwrite, .missing hraw⟩
  show gated sha256 settings V r _ _ (if r.rawKey = "" then _ else _) v
  rw [if_neg hraw]
  refine Coro.wp_bind (Coro.wp_mono (fun out u hu => ?_) (fun _ _ hf => hf)
    (gated_identify hlawful h))
  cases out with
  | error response => exact Or.inr ⟨hwrite, hu.refused response rfl⟩
  | ok bucket =>
      -- the call of the limiter
      intro u₁ hbeside l rl u₂ _ hperf
      have hwaits := hu.waits.beside hbeside
      obtain ⟨rfl, rfl⟩ := Prod.mk.inj (Option.some.inj hperf)
      have hgated : Gated settings V r { u₁ with
          told := some (⟨some settings.redisUrl, bucket.1, bucket.2⟩, l.2) } := by
        refine ⟨fun q rl htold => ?_, fun hpassed => ?_⟩
        · obtain ⟨rfl, rfl⟩ := Prod.mk.inj (Option.some.inj htold)
          exact ⟨hwrite, hraw, rfl, hu.bucket _ _ rfl⟩
        · have hpassed : u₁.passed = true := hpassed
          rw [hwaits.2] at hpassed
          exact absurd hpassed (by simp)
      refine ⟨hgated, ?_⟩
      show gated sha256 settings V r _ _ (if (!l.2.allowed) = true then _ else _) _
      split
      next hrefused => exact Or.inr ⟨hwrite, .limited _ l.2 rfl (by simpa using hrefused)⟩
      next hallowed =>
        exact Coro.wp_bind (Coro.wp_mono (fun _ _ hq => Or.inl hq) (fun _ _ hf => hf)
          (gated_runHandler hgated (Or.inr ⟨_, l.2, rfl, by simpa using hallowed⟩)))

end Request

end Pulse.Api
