/-
  Pulse.Api.Middleware
  ────────────────────
  **WHO MAY WRITE RULES.**

  A write request passes two layers, `api/middleware/auth.py` and the
  `verify_api_key` dependency that each writing route of `api/routes/rules.py`
  declares.

    • `dispatch`     — the middleware, around `call_next`,
    • `writeRoute`   — a writing route: the dependency, then the handler body,
    • `handleWrite`  — both.

  The digest is a parameter; Redis and what a handler body answers are choices
  of the run.
-/
import Pulse.Async.Coro
import Pulse.Core.Time
import Pulse.Store.Table

namespace Pulse.Api

open Pulse.Async Pulse.Store

/-! ## §1. Requests, responses and keys. -/

inductive Method where
  | get
  | head
  | options
  | post
  | put
  | delete
  | other (name : String)
  deriving DecidableEq, Repr

structure Request where
  method : Method
  path : String
  /-- The `X-API-Key` header. -/
  apiKey : Option String
  deriving DecidableEq, Repr

structure Response where
  statusCode : Nat
  content : Json
  headers : List (String × String)

/-- `JSONResponse(status_code, {"detail": detail})`. -/
def detailResponse (statusCode : Nat) (detail : String) : Response where
  statusCode := statusCode
  content := .obj [("detail", .str detail)]
  headers := []

/-- `fastapi.HTTPException`. -/
structure HTTPException where
  statusCode : Nat
  detail : String

/-- The columns of `api_keys` that the middleware reads and writes; its primary key
is what `str(api_key.id)` shows. -/
structure ApiKey where
  id : String
  keyHash : String
  requestsPerMinute : Int
  isActive : Bool
  lastUsedAt : Option Time
  deriving DecidableEq, Repr

/-- The fields of `api/config.py` that are read here. -/
structure Settings where
  apiKey : String
  adminRateLimitPerMinute : Int
  redisUrl : String

structure RateLimitResult where
  allowed : Bool
  limit : Int
  remaining : Int
  resetIn : Int

/-! ## §2. The operations and their effect. -/

inductive Op where
  /-- The active keys with this hash. -/
  | selectApiKey (keyHash : String)
  | utcnow
  /-- `commit` with a new `last_used_at` of the key with this hash. -/
  | commitLastUsed (keyHash : String) (lastUsedAt : Time)
  | checkRateLimit (redisUrl : String) (bucketId : String) (limitPerMinute : Int)
  /-- The body of the handler the request is routed to. -/
  | handler (request : Request)

abbrev Resp : Op → Type
  | .selectApiKey _ => Except PyErr (List ApiKey)
  | .utcnow => Time
  | .commitLastUsed _ _ => Except PyErr Unit
  | .checkRateLimit _ _ _ => RateLimitResult
  | .handler _ => Response

abbrev ApiProg := Coro Resp PyErr

def selectApiKey (keyHash : String) : ApiProg (List ApiKey) :=
  .await (.selectApiKey keyHash) Coro.ofExcept

def utcnow : ApiProg Time := .await .utcnow .pure

def commitLastUsed (keyHash : String) (lastUsedAt : Time) : ApiProg Unit :=
  .await (.commitLastUsed keyHash lastUsedAt) Coro.ofExcept

def checkRateLimit (redisUrl bucketId : String) (limitPerMinute : Int) :
    ApiProg RateLimitResult :=
  .await (.checkRateLimit redisUrl bucketId limitPerMinute) .pure

def runHandler (request : Request) : ApiProg Response := .await (.handler request) .pure

/-- The key table (`key_hash` is unique in it), the clock, and the requests whose
handler body ran. -/
structure Server where
  apiKeys : Table ApiKey.keyHash
  clock : Time
  handled : List Request

/-- The choices of one operation. -/
structure Input where
  elapsed : Nat := 0
  /-- The statement fails with this text. -/
  fault : Option String := none
  /-- What the limiter decides, and the counters it shows. -/
  allowed : Bool := true
  remaining : Int := 0
  resetIn : Int := 60
  /-- What the handler body answers. -/
  statusCode : Nat := 200
  content : Json := .null

/-- A statement, which may fail and then has no effect. -/
def statement {α : Type} (inp : Input) (s : Server) (r : α) (s' : Server) :
    Except PyErr α × Server :=
  match inp.fault with
  | some msg => (.error ⟨.operationalError, msg⟩, s)
  | none => (.ok r, s')

/-- Every operation can be answered. -/
def Server.perform : (o : Op) → Input → Server → Option (Resp o × Server)
  | .selectApiKey keyHash, inp, s =>
      some (statement inp s (s.apiKeys.rows.filter fun k => k.keyHash = keyHash && k.isActive) s)
  | .utcnow, inp, s =>
      some (s.clock + inp.elapsed, { s with clock := s.clock + inp.elapsed })
  | .commitLastUsed keyHash lastUsedAt, inp, s =>
      some (statement inp s () { s with
        apiKeys := s.apiKeys.modify keyHash
          (fun k => { k with lastUsedAt := some lastUsedAt }) (fun _ => rfl) })
  | .checkRateLimit _ _ limitPerMinute, inp, s =>
      some (⟨inp.allowed, limitPerMinute, inp.remaining, inp.resetIn⟩, s)
  | .handler request, inp, s =>
      some (⟨inp.statusCode, inp.content, []⟩, { s with handled := s.handled ++ [request] })

/-! ## §3. The middleware. -/

def publicPaths : List String := ["/health", "/metrics", "/docs", "/openapi.json", "/redoc"]

def readMethods : List Method := [.get, .head, .options]

/-- `scalar_one_or_none`. -/
def scalarOneOrNone {α : Type} : List α → Except PyErr (Option α)
  | [] => .ok none
  | [x] => .ok (some x)
  | _ => .error ⟨.other, "Multiple rows were found when one or none was required"⟩

/-- The key lookup: the bucket and limit of the key, or the response that refuses
it. -/
def lookupKey (keyHash : String) : ApiProg (Except Response (String × Int)) := do
  let rows ← selectApiKey keyHash
  match ← Coro.ofExcept (scalarOneOrNone rows) with
  | none => return .error (detailResponse 401 "Invalid or inactive API key")
  | some apiKey =>
      commitLastUsed apiKey.keyHash (← utcnow)
      return .ok (apiKey.id, apiKey.requestsPerMinute)

/-- Which bucket a key that was sent is counted in, and with which limit. -/
def identify (sha256 : String → String) (settings : Settings) (rawKey : String) :
    ApiProg (Except Response (String × Int)) :=
  if rawKey = settings.apiKey then
    return .ok ("admin", settings.adminRateLimitPerMinute)
  else
    tryCatch (lookupKey (sha256 rawKey)) fun _ =>
      return .error (detailResponse 503 "Auth backend unavailable")

/-- The response to a request over the limit. -/
def tooManyRequests (rl : RateLimitResult) : Response where
  statusCode := 429
  content := .obj [("detail", .str "Rate limit exceeded")]
  headers :=
    [("Retry-After", toString rl.resetIn),
     ("X-RateLimit-Limit", toString rl.limit),
     ("X-RateLimit-Remaining", "0"),
     ("X-RateLimit-Reset", toString rl.resetIn)]

/-- `APIKeyMiddleware.dispatch`. -/
def dispatch (sha256 : String → String) (settings : Settings) (request : Request)
    (callNext : Request → ApiProg Response) : ApiProg Response := do
  if request.path ∈ publicPaths then
    return (← callNext request)
  if request.method ∈ readMethods then
    return (← callNext request)
  let rawKey := request.apiKey.getD ""
  if rawKey = "" then
    return detailResponse 401 "Missing X-API-Key header"
  match ← identify sha256 settings rawKey with
  | .error response => return response
  | .ok (bucketId, limit) =>
      let rl ← checkRateLimit settings.redisUrl bucketId limit
      if !rl.allowed then
        return tooManyRequests rl
      let response ← callNext request
      return { response with headers := response.headers ++
        [("X-RateLimit-Limit", toString rl.limit),
         ("X-RateLimit-Remaining", toString rl.remaining),
         ("X-RateLimit-Reset", toString rl.resetIn)] }

/-! ## §4. The routes. -/

/-- `verify_api_key`. -/
def verifyApiKey (settings : Settings) (xApiKey : Option String) :
    Except HTTPException Bool :=
  if !isSet xApiKey || xApiKey ≠ some settings.apiKey then
    .error ⟨401, "Invalid or missing API key"⟩
  else .ok true

/-- A route that depends on `verify_api_key`; the framework answers its
`HTTPException`. -/
def writeRoute (settings : Settings) (request : Request) : ApiProg Response :=
  match verifyApiKey settings request.apiKey with
  | .error e => return detailResponse e.statusCode e.detail
  | .ok _ => runHandler request

/-- The writing routes of `/api/v1/rules`. -/
inductive RuleWrite where
  | createRule
  | updateRule (ruleId : String)
  | deleteRule (ruleId : String)
  deriving DecidableEq, Repr

def RuleWrite.method : RuleWrite → Method
  | .createRule => .post
  | .updateRule _ => .put
  | .deleteRule _ => .delete

def RuleWrite.path : RuleWrite → String
  | .createRule => "/api/v1/rules"
  | .updateRule ruleId | .deleteRule ruleId => "/api/v1/rules" ++ ("/" ++ ruleId)

/-- The request for a write, with the given `X-API-Key` header. -/
def RuleWrite.request (write : RuleWrite) (apiKey : Option String) : Request :=
  ⟨write.method, write.path, apiKey⟩

/-- A write request, through both layers. -/
def handleWrite (sha256 : String → String) (settings : Settings) (write : RuleWrite)
    (apiKey : Option String) : ApiProg Response :=
  dispatch sha256 settings (write.request apiKey) (writeRoute settings)

end Pulse.Api
