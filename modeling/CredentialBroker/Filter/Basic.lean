import CredentialBroker.Http
import CredentialBroker.Oidc.Keys
import CredentialBroker.Operators
import CredentialBroker.Runs.Basic
import CredentialBroker.Usage.Basic

/-!
# The `run_token` filter

`filter.rs`: per-run bearer tokens, and the credential mode of each route. On its chain the filter
answers the run endpoints and the usage endpoints itself, and admits every other request by the mode
of the cluster the router picked:

* *injected*: the broker supplies the upstream credential, so the request must carry an operator's
  or a run's token in the first of `tokenHeaders` it has;
* *pass-through*: the caller's own `Authorization` goes upstream.

`World` is what the filter shares with other requests, `Outside` what one request draws from outside
it. A request that asks the registry twice does so in two critical sections, so `Outside.between` is
whatever other requests have the registry do in between.
-/

namespace CredentialBroker

/-- A request as the chain receives it. The path is the raw one, without the query. -/
structure Request where
  method : Bytes
  path : Bytes
  query : Option Bytes
  headers : HeaderMap
  deriving DecidableEq

/-- `to_ascii_lowercase`. -/
def toAsciiLowercase (bs : Bytes) : Bytes := bs.map Numeral.toLower

/-- Visible ASCII as a string. -/
def asString (bs : Bytes) : String := String.ofList (bs.map (fun b => Char.ofNat b.toNat))

/-! ## What the filter answers -/

/-- A refusal, with its body. -/
structure Rejection where
  status : Nat
  contentType : String
  body : String
  deriving DecidableEq, Repr

/-- The JSON bodies the filter answers with, as the values they are of. -/
inductive Body where
  /-- The usage snapshot, which leaves the private consumer out if grants exist. -/
  | usage (granted : Bool)
  | grant (grant : Grant)
  | record (record : RunRecord)
  | registration (token : Bytes) (usage : RunRecord)

/-- A response of the filter's own. -/
structure TerminalResponse where
  status : Nat
  headers : HeaderMap
  body : Option Body

/-- What a request filter decides; `Continue` is a keyword here. -/
inductive FilterAction where
  | proceed
  | reject (rejection : Rejection)
  | terminalResponse (response : TerminalResponse)

/-- `reject`: a refusal in plain text. -/
def reject (status : Nat) (message : String) : FilterAction :=
  .reject ⟨status, "text/plain", message⟩

/-- `json_with`: a JSON response with `headers` besides its content type. None of the values it is
given fails to serialize. -/
def jsonWith (status : Nat) (body : Body) (headers : HeaderMap) : FilterAction :=
  .terminalResponse ⟨status, headers ++ [("content-type", ascii "application/json")], some body⟩

/-- `json`. -/
def json (status : Nat) (body : Body) : FilterAction := jsonWith status body []

/-! ## Configuration -/

/-- Whose credential a route sends upstream. -/
inductive CredentialMode where
  /-- The broker's own; only for requests of a registered run or an operator. -/
  | injected
  /-- The caller's own, forwarded and never stored. -/
  | passThrough
  deriving DecidableEq, Repr

/-- The verifier of OIDC tokens, as what it answers for each token at the time it is asked. -/
structure GithubOidc where
  verify : Bytes → Except OidcError RunIdentity

/-- Verifies registrations against the policy. -/
structure Registrar where
  /-- None if the policy names no workflow: only `unproven` registers. -/
  oidc : Option GithubOidc
  /-- The quota of registrations without proof, if the policy admits them. -/
  unproven : Option Quota
  limits : Limits

/-- The run endpoints of a chain. -/
inductive RunEndpoints where
  /-- Not served on this chain. -/
  | absent
  /-- Served, but with no policy file nothing may register. -/
  | unconfigured
  | serving (registrar : Registrar)

/-- The filter's configuration. -/
structure RunTokenFilter where
  tokenHeaders : List String
  publicPaths : List Bytes
  usageFreePaths : List Bytes
  credentials : Assoc String CredentialMode
  usageCorsOrigins : List Bytes
  endpoints : RunEndpoints
  /-- The deployment's budget, if it has one. -/
  budget : Option Budget

/-! ## State and context -/

/-- Who an injected request was admitted for. -/
inductive Caller where
  | run (admission : Runs.Admission)
  | operator (slot : Operator.Slot)
  deriving DecidableEq, Repr

/-- The caller of a request that does or does not use tokens. -/
def Caller.setUsageFree (usageFree : Bool) : Caller → Caller
  | run admission => .run { admission with usageFree := usageFree }
  | operator slot => .operator { slot with usageFree := usageFree }

/-- What a request was admitted as, for its usage once the response ends. -/
structure Metered where
  mode : CredentialMode
  provider : Option Provider
  success : Bool
  /-- Whose request it is, unless it is pass-through. -/
  caller : Option Caller
  deriving DecidableEq, Repr

/-- What the filter writes to the request's context. -/
structure Context where
  headersToRemove : List String := []
  /-- The subject of the `AuthenticatedIdentity`. -/
  identity : Option String := none
  metered : Option Metered := none
  deriving DecidableEq, Repr

/-- What the filter shares with other requests. -/
structure World (H : Type) [DecidableEq H] where
  runs : Runs.State H
  operators : Operators H
  usage : BrokerUsage

/-- What one request draws from outside the filter. -/
structure Outside where
  now : Instant
  /-- A second reading of the clock, once an OIDC token is verified. -/
  later : Instant
  unix : UInt64
  random : Vector UInt8 32
  /-- A permit to verify a registration is free. -/
  permit : Bool
  /-- What other requests have the registry do between two operations of this one. -/
  between : List Runs.Call

/-- The first header of `names` a request has, with its first value. -/
def firstHeader (names : List String) (headers : HeaderMap) : Option (String × Bytes) :=
  names.findSome? (fun name => (headers.get name).map (name, ·))

/-- The token in a header's value: bare, or a bearer token in `authorization`. -/
def tokenIn (name : String) (value : Bytes) : Option Bytes :=
  if name = "authorization" then (ascii "Bearer ").isPrefixOf? value else some value

namespace RunTokenFilter

variable (filter : RunTokenFilter)

/-- `RunTokenFilter::token`: the run token a request carries, if any, and its header. -/
def token (headers : HeaderMap) : Option (String × Bytes) := do
  let (name, value) ← firstHeader filter.tokenHeaders headers
  let value ← HeaderMap.toStr value
  let token ← tokenIn name value
  return (name, token)

/-! ## The usage endpoints -/

def usagePath : Bytes := ascii "/usage"

def grantPath : Bytes := ascii "/usage/grant"

/-- The origin a usage answer is for, if it is one that may read it. -/
def allowedOrigin (request : Request) : Option Bytes :=
  (request.headers.get "origin").filter fun origin =>
    (HeaderMap.toStr origin).any (fun origin => decide (origin ∈ filter.usageCorsOrigins))

/-- `RunTokenFilter::serve_usage`: what `get` answers, or the preflight a browser sends before it
lets a page read it. -/
def serveUsage (request : Request) (get : HeaderMap → FilterAction) : FilterAction :=
  let origin := filter.allowedOrigin request
  let headers := [("vary", ascii "origin")] ++
    (origin.toList.map fun origin => ("access-control-allow-origin", origin))
  if request.method = ascii "GET" then get headers
  else if request.method = ascii "OPTIONS" then
    if origin.isSome then
      let headers := headers ++ [("access-control-allow-methods", ascii "GET, OPTIONS"),
        ("access-control-max-age", ascii "600")]
      let headers :=
        if request.headers.containsKey "access-control-request-private-network" then
          headers ++ [("access-control-allow-private-network", ascii "true")]
        else headers
      .terminalResponse ⟨204, headers, none⟩
    else reject 403 "origin not allowed\n"
  else reject 405 "method not allowed\n"

/-- The pairs of a query. -/
def queryPairs (request : Request) : List Bytes := (request.query.getD []).splitOn 38

/-- `RunTokenFilter::serve_grant`: the grant of the consumer `?consumer=` names. -/
def serveGrant (usage : BrokerUsage) (now : UInt64) (request : Request) (headers : HeaderMap) :
    FilterAction :=
  match filter.budget with
  | none => reject 404 "no budget is configured\n"
  | some budget =>
    match (queryPairs request).filterMap (fun pair => (ascii "consumer=").isPrefixOf? pair) with
    | [name] =>
      match Consumer.parse (asString name) with
      | some consumer => jsonWith 200 (.grant (usage.grantAt budget consumer now)) headers
      | none => reject 400 "consumer must be public or private\n"
    | _ => reject 400 "one consumer parameter required\n"

/-! ## The run endpoints -/

section Serving

variable {H : Type} [DecidableEq H] (hash : Bytes → H)

def runsPath : Bytes := ascii "/v1/runs"

def runSelfPath : Bytes := ascii "/v1/runs/self"

/-- What a browser adds to a page's request, and a page cannot remove. -/
def browserHeaders : List String := ["origin", "sec-fetch-site"]

def unauthenticated : FilterAction := reject 401 "client authentication required\n"

/-- `RunTokenFilter::run_of`: the run whose token a request carries. -/
def runOf (runs : Runs.State H) (headers : HeaderMap) (now : Instant) :
    Runs.State H × Option RunKey :=
  match filter.token headers with
  | none => (runs, none)
  | some (_, token) => Runs.authenticate hash runs token now

/-- `RunTokenFilter::register_unproven`: register the run `x-run-id` names, on the caller's word
alone. -/
def registerUnproven (runs : Runs.State H) (quota : Quota) (limits : Limits) (out : Outside)
    (headers : HeaderMap) : Runs.State H × FilterAction :=
  if browserHeaders.any headers.containsKey then
    (runs, reject 403 "a web page may not register a run\n")
  else match headers.getAll "x-run-id" with
    | [name] =>
      match (HeaderMap.toStr name).bind (fun name => RunName.new (asString name)) with
      | none => (runs, reject 400 "invalid x-run-id\n")
      | some name =>
        (Runs.registerUnproven hash runs name limits quota out.random out.unix out.now).map id
          fun
          | .ok (token, usage) => json 201 (.registration token usage)
          | .error .alreadyRegistered => reject 409 "run already registered\n"
          | .error .overQuota => reject 429 "too many unproven registrations\n"
          | .error .full => reject 503 "too many runs\n"
    | _ => (runs, reject 400 "one x-run-id header required\n")

/-- `RunTokenFilter::register`: register the run of a verified OIDC token. Anything in
`Authorization` is a claim of proof, checked as one. -/
def register (registrar : Registrar) (runs : Runs.State H) (out : Outside) (headers : HeaderMap) :
    Runs.State H × FilterAction :=
  match registrar.unproven, headers.containsKey "authorization" with
  | some quota, false => registerUnproven hash runs quota registrar.limits out headers
  | _, _ =>
    match registrar.oidc with
    | none => (runs, reject 403 "workflow may not register runs\n")
    | some oidc =>
      if !out.permit then (runs, reject 429 "too many registrations\n")
      else match ((headers.get "authorization").bind HeaderMap.toStr).bind
          (ascii "Bearer ").isPrefixOf? with
        | none => (runs, reject 401 "OIDC token required\n")
        | some jwt =>
          match oidc.verify jwt with
          | .error .unavailable => (runs, reject 503 "OIDC keys unavailable\n")
          | .error .workflowNotAllowed => (runs, reject 403 "workflow may not register runs\n")
          | .error .malformed | .error .invalid => (runs, reject 401 "invalid OIDC token\n")
          | .ok identity =>
            (Runs.register hash runs identity registrar.limits out.random out.unix out.later).map id
              fun
              | .ok (token, usage) => json 201 (.registration token usage)
              | .error .alreadyRegistered => reject 409 "run already registered\n"
              | .error .full | .error .overQuota => reject 503 "too many runs\n"

/-- What an operation on the calling run answers: its record, or a refusal if there is none. The
other requests' calls come between authenticating the run and the operation. -/
def serveSelf (runs : Runs.State H) (out : Outside) (headers : HeaderMap)
    (operation : Runs.State H → RunKey → Runs.State H × Option RunRecord) :
    Runs.State H × FilterAction :=
  match filter.runOf hash runs headers out.now with
  | (runs, none) => (runs, unauthenticated)
  | (runs, some key) =>
    (operation ((Runs.machine hash).runFrom runs out.between) key).map id
      fun
      | some record => json 200 (.record record)
      | none => unauthenticated

/-- `RunTokenFilter::serve_runs`. -/
def serveRuns (registrar : Option Registrar) (runs : Runs.State H) (out : Outside)
    (request : Request) : Runs.State H × FilterAction :=
  if request.path = runsPath then
    if request.method = ascii "POST" then
      match registrar with
      | some registrar => register hash registrar runs out request.headers
      | none => (runs, reject 503 "run registration is not configured\n")
    else (runs, reject 405 "method not allowed\n")
  else if request.path = runSelfPath then
    if request.method = ascii "GET" then
      filter.serveSelf hash runs out request.headers fun runs key => Runs.record runs key out.now
    else if request.method = ascii "DELETE" then
      filter.serveSelf hash runs out request.headers
        fun runs key => Runs.finish runs key out.unix out.now
    else (runs, reject 405 "method not allowed\n")
  else (runs, reject 404 "not found\n")

/-! ## Admission -/

/-- `RunTokenFilter::admit`: admit an injected request for `cluster` by the token it carries: an
operator's, or else an active run's. The subject is who it is for. -/
def admitRequest (world : World H) (out : Outside) (headers : HeaderMap) (cluster : String) :
    World H × Except FilterAction (String × Caller) :=
  match filter.token headers with
  | none => (world, .error unauthenticated)
  | some (_, token) =>
    match world.operators.authenticate hash token with
    | some operator =>
      match operator.admitRequest cluster with
      | (admitted, .ok slot) =>
        ({ world with operators := world.operators.insert (hash token) admitted },
          .ok (operator.subject, .operator slot))
      | (_, .error .forbidden) =>
        (world, .error (reject 403 "this operator token is not for this route\n"))
      | (_, .error .busy) =>
        (world, .error (reject 429 "too many requests in flight for this operator\n"))
    | none =>
      match Runs.authenticate hash world.runs token out.now with
      | (runs, none) => ({ world with runs := runs }, .error unauthenticated)
      | (runs, some key) =>
        match Runs.admitRequest ((Runs.machine hash).runFrom runs out.between) key out.now with
        | (runs, .ok admission) =>
          ({ world with runs := runs }, .ok (key.subject, .run admission))
        | (runs, .error .closed) => ({ world with runs := runs }, .error unauthenticated)
        | (runs, .error .busy) =>
          ({ world with runs := runs },
            .error (reject 429 "too many requests in flight for this run\n"))

/-- What a request gets: the world after it, what the filter wrote to its context, and the action,
or an error of the filter's own. -/
abbrev Handled (H : Type) [DecidableEq H] := World H × Context × Except String FilterAction

/-- The token headers that do not go upstream: all, but for a pass-through caller's `Authorization`,
which is its upstream credential. -/
def removed (mode : CredentialMode) : List String :=
  filter.tokenHeaders.filter (fun name => !(mode = .passThrough && name = "authorization"))

/-- A pass-through request: its `Authorization` holds no token of the gateway's, in any spelling of
the scheme. -/
def passThrough (world : World H) (request : Request) : Handled H :=
  let context : Context := { headersToRemove := filter.removed .passThrough }
  let authorization := toAsciiLowercase ((request.headers.get "authorization").getD [])
  if Runs.tokenPrefix <:+: authorization then
    (world, context, .ok (reject 400 "a run token belongs in x-run-token here\n"))
  else if Operators.tokenPrefix <:+: authorization then
    (world, context, .ok (reject 400 "an operator token is not a provider credential\n"))
  else (world, { context with metered := some ⟨.passThrough, none, false, none⟩ }, .ok .proceed)

/-- An injected request for `cluster`. -/
def injected (world : World H) (out : Outside) (request : Request) (cluster : String) : Handled H :=
  let context : Context := { headersToRemove := filter.removed .injected }
  let usageFree := decide (request.path ∈ filter.usageFreePaths)
  match filter.admitRequest hash world out request.headers cluster with
  | (world, .error refusal) => (world, context, .ok refusal)
  | (world, .ok (subject, caller)) =>
    -- an identity needs a subject, and every caller's starts with the kind it is of
    if subject.isEmpty then (world, context, .error "run_token: empty subject")
    else
      let provider := if usageFree then none else Provider.forCluster (some cluster)
      (world,
        { context with
          identity := some subject
          metered := some ⟨.injected, provider, false, some (caller.setUsageFree usageFree)⟩ },
        .ok .proceed)

/-- `RunTokenFilter::on_request`, for a request the router sent to `cluster`. -/
def onRequest (world : World H) (out : Outside) (request : Request) (cluster : Option String) :
    Handled H :=
  if request.path = usagePath then
    (world, {}, .ok (filter.serveUsage request (jsonWith 200 (.usage filter.budget.isSome))))
  else if request.path = grantPath then
    (world, {}, .ok (filter.serveUsage request (filter.serveGrant world.usage out.unix request)))
  else if request.path = runsPath ∨ ascii "/v1/runs/" <+: request.path then
    let (runs, action) := match filter.endpoints with
      | .absent => (world.runs, reject 404 "not found\n")
      | .unconfigured => filter.serveRuns hash none world.runs out request
      | .serving registrar => filter.serveRuns hash (some registrar) world.runs out request
    ({ world with runs := runs }, {}, .ok action)
  else if 1 < (request.headers.getAll "authorization").length then
    (world, {}, .ok (reject 400 "more than one Authorization header\n"))
  else if request.path ∈ filter.publicPaths then
    (world, { headersToRemove := filter.tokenHeaders }, .ok .proceed)
  else
    match cluster.bind (fun cluster => (filter.credentials.lookup cluster).map (cluster, ·)) with
    | none => (world, {}, .ok (reject 500 "internal error\n"))
    | some (_, .passThrough) => filter.passThrough world request
    | some (cluster, .injected) => filter.injected hash world out request cluster

end Serving

/-! ## The shipped configuration -/

/-- The filter as `praxis.yaml` configures it. The registration policy and the budget are files of
the deployment. -/
def praxis (endpoints : RunEndpoints) (budget : Option Budget) : RunTokenFilter where
  tokenHeaders := ["x-run-token", "authorization"]
  publicPaths := [ascii "/healthz"]
  usageFreePaths := [ascii "/anthropic/v1/messages/count_tokens"]
  credentials := [⟨"inference-backend", .injected⟩, ⟨"anthropic", .injected⟩,
    ⟨"anthropic-pass-through", .passThrough⟩, ⟨"mistral", .injected⟩].toAList
  usageCorsOrigins := [ascii "https://cgwalters-forge.github.io"]
  endpoints := endpoints
  budget := budget

/-- The `Authorization` that asks for the broker's Claude token. -/
def placeholder : Bytes := ascii "Bearer praxis-substitute:anthropic"

end RunTokenFilter

end CredentialBroker
