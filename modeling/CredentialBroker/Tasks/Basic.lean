import CredentialBroker.Filter.Metering
import CredentialBroker.Filter.Registrar
import CredentialBroker.Util.Semaphore

/-!
# Requests at the gateway, one critical section at a time

`on_request` is not one step. A request for its own run authenticates and then comes back to the
registry; one that is to be admitted does the same; a registration holds a permit, waits for the
lock of the key cache, may wait for GitHub's key set with that lock, and comes to the registry with
what the token says. Other requests go on at each of these places.

`Gateway` is the filter with every request under way as a `Task`, of which an act moves one by one
critical section, so a list of acts is any interleaving of any number of requests. A task may be
dropped where it waits. Once `on_request` lets a request go on it is a context of `FilterState`,
whose callbacks are acts as well.

`calls` and `keyCalls` put on record what was asked of the registry and of the key cache, in order.
-/

namespace CredentialBroker

open Oidc

/-- The library for signed tokens. What is wrong with claims depends on when they are looked at. -/
structure JwtLibrary (K : Type) where
  header : Bytes → Option (Bool × Option String)
  decode : UInt64 → Bytes → K → String → Except Bool Claims

/-- The library at a Unix time. -/
def JwtLibrary.seenAt {K : Type} (jwt : JwtLibrary K) (unix : UInt64) : Jwt K :=
  ⟨jwt.header, jwt.decode unix⟩

/-- The run endpoints of a chain, as they are loaded. -/
inductive LoadedEndpoints where
  | absent
  | unconfigured
  | serving (loaded : LoadedRegistrar)

/-- A filter as it is built, with what it verifies tokens by. -/
structure Deployed (K : Type) where
  /-- But for the run endpoints. -/
  base : RunTokenFilter
  endpoints : LoadedEndpoints
  jwt : JwtLibrary K
  issuedAfter : UInt64

namespace Deployed

variable {K : Type} (d : Deployed K)

/-- A registrar, with the keys as they are answered at the time. -/
def registrar (unix : UInt64) (keys : String → Except OidcError K) (loaded : LoadedRegistrar) :
    Registrar :=
  loaded.registrar (d.jwt.seenAt unix) keys d.issuedAfter

/-- The filter, with the keys as they are answered at the time. -/
def filter (unix : UInt64) (keys : String → Except OidcError K) : RunTokenFilter :=
  { d.base with
    endpoints :=
      match d.endpoints with
      | .absent => .absent
      | .unconfigured => .unconfigured
      | .serving loaded => .serving (d.registrar unix keys loaded) }

/-- `GithubOidc::verify`, up to where it needs a key. -/
def keyId (token : Bytes) : Except OidcError String :=
  if maxJwtBytes < token.length then .error .malformed
  else match d.jwt.header token with
    | none => .error .malformed
    | some (false, _) => .error .invalid
    | some (true, none) => .error .malformed
    | some (true, some kid) => .ok kid

/-- `GithubOidc::verify`, once it has the key. -/
def identity (policy : Policy) (unix : UInt64) (token : Bytes) (found : K) :
    Except OidcError RunIdentity :=
  match d.jwt.decode unix token found policy.audience with
  | .error true => .error .malformed
  | .error false => .error .invalid
  | .ok claims => identify policy d.issuedAfter claims

/-- Verifying a token is the one and then the other. -/
theorem verify_eq (keys : String → Except OidcError K) (policy : Policy) (unix : UInt64)
    (token : Bytes) :
    verify (d.jwt.seenAt unix) keys policy d.issuedAfter token =
      (d.keyId token >>= keys >>= d.identity policy unix token) := by
  unfold verify keyId
  split
  · rfl
  · show (match d.jwt.header token with
      | none => _
      | some (false, _) => _
      | some (true, none) => _
      | some (true, some kid) => _) = _
    split <;> rfl

end Deployed

namespace Tasks

open RunTokenFilter

-- by name, so that the membership of a path is decided by one term wherever this is read
local instance : LawfulBEq Bytes := inferInstance

/-- How many registrations are verified at once. -/
def registrationConcurrency : Nat := 4

/-! ## Where a request is -/

inductive Stage (K : Type) where
  /-- `run_of` has come to a key, and the operation on that run is next. -/
  | self (key : RunKey) (now : Instant)
  /-- A run's token has authenticated, and `Runs::admit` is next. -/
  | authenticated (cluster : String) (key : RunKey) (now : Instant)
  /-- An operator's request was counted as one too many, which it is to take back. -/
  | returning (name : String)
  /-- A registration without proof is yet to be counted. -/
  | counting (admitted : Bool) (action : FilterAction)
  /-- Waits for the lock of the key cache. -/
  | locking (policy : Policy) (token : Bytes) (kid : String)
  /-- Has that lock, and waits for the key set. -/
  | fetching (policy : Policy) (token : Bytes) (kid : String) (start : Instant)
  | decoding (policy : Policy) (token : Bytes) (found : K)
  | registering (identity : RunIdentity)
  /-- About to drop its permit. -/
  | answering (action : FilterAction)

/-- It holds a permit to verify a registration. -/
def Stage.verifying {K : Type} : Stage K → Bool
  | self _ _ | authenticated _ _ _ | returning _ | counting _ _ => false
  | locking _ _ _ | fetching _ _ _ _ | decoding _ _ _ | registering _ | answering _ => true

/-- A request that `on_request` has not answered yet. -/
structure Task (K : Type) where
  request : Request
  cluster : Option String
  stage : Stage K

/-- The filter with every request under way. -/
structure Gateway (H K : Type) [DecidableEq H] where
  shared : FilterState H
  permits : Semaphore := ⟨registrationConcurrency⟩
  cache : KeyCache K := .empty
  /-- The task that has the lock of the cache while it waits for the key set. -/
  locked : Option Nat := none
  /-- By number of the request. -/
  tasks : Assoc Nat (Task K) := ∅
  /-- What was asked of the registry so far; nothing reads it. -/
  calls : List Runs.Call := []
  /-- What was asked of the key cache so far; nothing reads it. -/
  keyCalls : List (KeyCall K) := []

/-- What a step draws from outside. Where the source reads the clock more than once within a step, as
the key cache does for its age and for the attempt it notes, all are `now`. -/
structure Draw where
  now : Instant
  unix : UInt64
  random : Vector UInt8 32

/-- What a request draws from outside as one step, if what comes after its arrival draws `later`. -/
def Draw.outside (draw later : Draw) (permit : Bool) (between : List Runs.Call) : Outside where
  now := draw.now
  later := later.now
  unix := later.unix
  random := later.random
  permit := permit
  between := between

/-- What it draws if nothing comes after. -/
abbrev Draw.alone (draw : Draw) : Outside := draw.outside draw true []

/-- What `on_request` returns, with what it left in the context. -/
abbrev Reply := Context × Except String FilterAction

/-- An answer that leaves nothing in the context. -/
def answer (action : FilterAction) : Reply := ({}, .ok action)

/-- What a critical section leads to. -/
inductive Next (K : Type) where
  | wait (stage : Stage K)
  | reply (reply : Reply)

/-! ## The critical sections of `on_request` -/

/-- What a token that does not verify is answered. -/
def refusal : OidcError → FilterAction
  | .unavailable => reject 503 "OIDC keys unavailable\n"
  | .workflowNotAllowed => reject 403 "workflow may not register runs\n"
  | .malformed | .invalid => reject 401 "invalid OIDC token\n"

/-- The token a registration presents. -/
def bearer (headers : HeaderMap) : Option Bytes :=
  ((headers.get "authorization").bind HeaderMap.toStr).bind (ascii "Bearer ").isPrefixOf?

/-- What the filter writes to the context of an injected request in any case. -/
def injectedContext {K : Type} (d : Deployed K) : Context :=
  { headersToRemove := d.base.removed .injected }

/-- What an operator's request is answered that was one too many. -/
def busy {K : Type} (d : Deployed K) : Reply :=
  (injectedContext d, .ok (reject 429 "too many requests in flight for this operator\n"))

/-- What a key leads to, or the want of it. -/
def keyed {K : Type} (policy : Policy) (token : Bytes) : Except OidcError K → Stage K
  | .ok found => .decoding policy token found
  | .error error => .answering (refusal error)

/-- What an operation on the calling run is answered. -/
def recorded : Option RunRecord → FilterAction
  | some record => json 200 (.record record)
  | none => unauthenticated

section Sections

variable {H K : Type} [DecidableEq H] (hash : Bytes → H)

namespace Gateway

/-- A call on the registry is made. -/
def made (g : Gateway H K) (call : Runs.Call) : Gateway H K :=
  { g with
    shared := { g.shared with runs := (Runs.machine hash).next g.shared.runs call }
    calls := g.calls ++ [call] }

/-- A request is given its number. -/
def arrive (g : Gateway H K) : Gateway H K :=
  { g with shared := { g.shared with arrived := g.shared.arrived + 1 } }

/-- `register_unproven`, up to where it counts. -/
def registerUnproven (g : Gateway H K) (draw : Draw) (quota : Quota) (limits : Limits)
    (headers : HeaderMap) : Gateway H K × Next K :=
  if browserHeaders.any headers.containsKey then
    (g, .reply (answer (reject 403 "a web page may not register a run\n")))
  else match headers.getAll "x-run-id" with
    | [name] =>
      match (HeaderMap.toStr name).bind (fun name => RunName.new (asString name)) with
      | none => (g, .reply (answer (reject 400 "invalid x-run-id\n")))
      | some name =>
        (g.made hash ⟨draw.now, .registerUnproven name limits quota draw.random draw.unix⟩,
          match (Runs.registerUnproven hash g.shared.runs name limits quota draw.random draw.unix
            draw.now).2 with
          | .ok (token, usage) => .wait (.counting true (json 201 (.registration token usage)))
          | .error .alreadyRegistered => .reply (answer (reject 409 "run already registered\n"))
          | .error .overQuota =>
              .wait (.counting false (reject 429 "too many unproven registrations\n"))
          | .error .full => .reply (answer (reject 503 "too many runs\n")))
    | _ => (g, .reply (answer (reject 400 "one x-run-id header required\n")))

/-- `register`, up to where it waits for the key cache. -/
def register (d : Deployed K) (g : Gateway H K) (draw : Draw) (loaded : LoadedRegistrar)
    (headers : HeaderMap) : Gateway H K × Next K :=
  match loaded.unproven, headers.containsKey "authorization" with
  | some quota, false => g.registerUnproven hash draw quota loaded.limits headers
  | _, _ =>
    match loaded.oidc with
    | none => (g, .reply (answer (reject 403 "workflow may not register runs\n")))
    | some verifier =>
      match g.permits.tryAcquire with
      | none => (g, .reply (answer (reject 429 "too many registrations\n")))
      | some permits =>
        ({ g with permits := permits },
          .wait <|
            match bearer headers with
            | none => .answering (reject 401 "OIDC token required\n")
            | some token =>
              match d.keyId token with
              | .error error => .answering (refusal error)
              | .ok kid => .locking verifier.policy token kid)

/-- `run_of`, for an operation on the calling run. -/
def serveSelf (d : Deployed K) (g : Gateway H K) (draw : Draw) (headers : HeaderMap) :
    Gateway H K × Next K :=
  match d.base.token headers with
  | none => (g, .reply (answer unauthenticated))
  | some (_, token) =>
    (g.made hash ⟨draw.now, .authenticate token⟩,
      match (Runs.authenticate hash g.shared.runs token draw.now).2 with
      | none => .reply (answer unauthenticated)
      | some key => .wait (.self key draw.now))

/-- `serve_runs`. -/
def serveRuns (d : Deployed K) (g : Gateway H K) (draw : Draw) (loaded : Option LoadedRegistrar)
    (request : Request) : Gateway H K × Next K :=
  if request.path = runsPath then
    if request.method = ascii "POST" then
      match loaded with
      | some loaded => g.register hash d draw loaded request.headers
      | none => (g, .reply (answer (reject 503 "run registration is not configured\n")))
    else (g, .reply (answer (reject 405 "method not allowed\n")))
  else if request.path = runSelfPath then
    if request.method = ascii "GET" ∨ request.method = ascii "DELETE" then
      g.serveSelf hash d draw request.headers
    else (g, .reply (answer (reject 405 "method not allowed\n")))
  else (g, .reply (answer (reject 404 "not found\n")))

/-- An injected request for `cluster`, up to where a run is admitted. An operator is at once, or is
not; in `Operator::admit` one too many is counted by `fetch_add` all the same, until the `fetch_sub`
that comes next. -/
def injected (d : Deployed K) (g : Gateway H K) (draw : Draw) (request : Request)
    (cluster : String) : Gateway H K × Next K :=
  match d.base.token request.headers with
  | none => (g, .reply (injectedContext d, .ok unauthenticated))
  | some (_, token) =>
    match g.shared.operators.authenticate hash token with
    | some operator =>
      if cluster ∈ operator.clusters ∧ operator.concurrency ≤ operator.inFlight then
        ({ g with
            shared := { g.shared with
              operators := g.shared.operators.insert (hash token)
                { operator with inFlight := operator.inFlight + 1 } } },
          .wait (.returning operator.name))
      else
        let (world, reply) := d.base.injected hash g.shared.world draw.alone request cluster
        ({ g with shared := { g.shared with operators := world.operators } }, .reply reply)
    | none =>
      (g.made hash ⟨draw.now, .authenticate token⟩,
        match (Runs.authenticate hash g.shared.runs token draw.now).2 with
        | none => .reply (injectedContext d, .ok unauthenticated)
        | some key => .wait (.authenticated cluster key draw.now))

/-- `on_request`, up to its first wait or its end. -/
def onRequest (d : Deployed K) (g : Gateway H K) (draw : Draw) (request : Request)
    (cluster : Option String) : Gateway H K × Next K :=
  if request.path = usagePath then
    (g, .reply (answer
      (d.base.serveUsage request (jsonWith 200 (.usage d.base.budget.isSome)))))
  else if request.path = grantPath then
    (g, .reply (answer (d.base.serveUsage request
      (d.base.serveGrant g.shared.usage.forGrants draw.unix request))))
  else if request.path = runsPath ∨ ascii "/v1/runs/" <+: request.path then
    match d.endpoints with
    | .absent => (g, .reply (answer (reject 404 "not found\n")))
    | .unconfigured => g.serveRuns hash d draw none request
    | .serving loaded => g.serveRuns hash d draw (some loaded) request
  else if 1 < (request.headers.getAll "authorization").length then
    (g, .reply (answer (reject 400 "more than one Authorization header\n")))
  else if request.path ∈ d.base.publicPaths then
    (g, .reply ({ headersToRemove := d.base.tokenHeaders }, .ok .proceed))
  else
    match cluster.bind
      (fun cluster => (d.base.credentials.lookup cluster).map (cluster, ·)) with
    | none => (g, .reply (answer (reject 500 "internal error\n")))
    | some (_, .passThrough) => (g, .reply (d.base.passThrough g.shared.world request).2)
    | some (cluster, .injected) => g.injected hash d draw request cluster

/-- The operation on the calling run. -/
def operate (g : Gateway H K) (draw : Draw) (request : Request) (key : RunKey) (now : Instant) :
    Gateway H K × Next K :=
  if request.method = ascii "GET" then
    (g.made hash ⟨now, .record key⟩,
      .reply (answer (recorded (Runs.record g.shared.runs key now).2)))
  else
    (g.made hash ⟨now, .finish key draw.unix⟩,
      .reply (answer (recorded (Runs.finish g.shared.runs key draw.unix now).2)))

/-- `Runs::admit`, and the rest of an injected request. -/
def admitRun (d : Deployed K) (g : Gateway H K) (request : Request) (cluster : String)
    (key : RunKey) (now : Instant) : Gateway H K × Next K :=
  let usageFree := decide (request.path ∈ d.base.usageFreePaths)
  (g.made hash ⟨now, .admitRequest key⟩,
    .reply <|
      match (Runs.admitRequest g.shared.runs key now).2 with
      | .error .closed => (injectedContext d, .ok unauthenticated)
      | .error .busy =>
          (injectedContext d, .ok (reject 429 "too many requests in flight for this run\n"))
      | .ok admission =>
        -- an identity needs a subject, and every run's starts with the kind it is of
        if key.subject.isEmpty then (injectedContext d, .error "run_token: empty subject")
        else
          let provider := if usageFree then none else Provider.forCluster (some cluster)
          ({ injectedContext d with
              identity := some key.subject
              metered := some ⟨.injected, provider, false,
                some (.run { admission with usageFree := usageFree })⟩ },
            .ok .proceed))

/-- `GithubOidc::key`, up to its end or to where it waits for the key set, once the lock is free. -/
def lookUp (g : Gateway H K) (id : Nat) (draw : Draw) (policy : Policy) (token : Bytes)
    (kid : String) : Gateway H K × Next K :=
  if g.locked.isSome then (g, .wait (.locking policy token kid))
  else
    let found := { g with keyCalls := g.keyCalls ++ [⟨kid, draw.now, .failed, draw.now⟩] }
    match g.cache.freshKey kid draw.now with
    | some key => (found, .wait (.decoding policy token key))
    | none =>
      if g.cache.due draw.now then
        ({ g with cache := { g.cache with attempted := some draw.now }, locked := some id },
          .wait (.fetching policy token kid draw.now))
      else (found, .wait (keyed policy token (g.cache.answer kid draw.now)))

/-- `Runs::register`, for what a token was verified as. -/
def registerIdentity (d : Deployed K) (g : Gateway H K) (draw : Draw) (identity : RunIdentity) :
    Gateway H K × Next K :=
  match d.endpoints with
  | .serving loaded =>
    (g.made hash ⟨draw.now, .register identity loaded.limits draw.random draw.unix⟩,
      .wait <| .answering <|
        match (Runs.register hash g.shared.runs identity loaded.limits draw.random draw.unix
          draw.now).2 with
        | .ok (token, usage) => json 201 (.registration token usage)
        | .error .alreadyRegistered => reject 409 "run already registered\n"
        | .error .full | .error .overQuota => reject 503 "too many runs\n")
  -- it is only under way if the endpoints are served
  | .absent | .unconfigured => (g, .wait (.registering identity))

/-- The next critical section of a task. -/
def advance (d : Deployed K) (g : Gateway H K) (id : Nat) (draw : Draw) (task : Task K) :
    Gateway H K × Next K :=
  match task.stage with
  | .self key now => g.operate hash draw task.request key now
  | .authenticated cluster key now => g.admitRun hash d task.request cluster key now
  | .returning name =>
    ({ g with shared := { g.shared with operators := g.shared.operators.release name } },
      .reply (busy d))
  | .counting admitted action =>
    ({ g with
        shared := { g.shared with usage := g.shared.usage.unprovenRegistration admitted } },
      .reply (answer action))
  | .locking policy token kid => g.lookUp id draw policy token kid
  | .fetching policy token kid start => (g, .wait (.fetching policy token kid start))
  | .decoding policy token found =>
    (g, .wait <|
      match d.identity policy draw.unix token found with
      | .ok identity => .registering identity
      | .error error => .answering (refusal error))
  | .registering identity => g.registerIdentity hash d draw identity
  | .answering action => ({ g with permits := g.permits.release }, .reply (answer action))

/-! ## Interleavings -/

/-- A task waits, or is over; what `on_request` left in its context stays. -/
def settled (g : Gateway H K) (id : Nat) (request : Request) (cluster : Option String) :
    Next K → Gateway H K × Option Reply
  | .wait stage => ({ g with tasks := g.tasks.insert id ⟨request, cluster, stage⟩ }, none)
  | .reply reply =>
    ({ g with
        tasks := g.tasks.erase id
        shared := { g.shared with
          contexts :=
            match reply.1.metered with
            | some metered => g.shared.contexts.insert id metered
            | none => g.shared.contexts } },
      some reply)

/-- The fetch of a task is over. -/
def fetched (g : Gateway H K) (id : Nat) (task : Task K) (keys : Option (Assoc String K))
    (draw : Draw) : Gateway H K :=
  match task.stage with
  | .fetching policy token kid start =>
    let cache :=
      match keys with
      | some set => { g.cache with keys := set, fetched := some draw.now }
      | none => g.cache
    let fetch : Fetch K :=
      match keys with
      | some set => .keys set
      | none => .failed
    { g with
      cache := cache
      locked := none
      keyCalls := g.keyCalls ++ [⟨kid, start, fetch, draw.now⟩]
      tasks := g.tasks.insert id
        { task with stage := keyed policy token (cache.answer kid draw.now) } }
  | _ => g

/-- A task is dropped where it waits, and with it the permit and the lock it has. -/
def cancelled (g : Gateway H K) (id : Nat) (task : Task K) (draw : Draw) : Gateway H K :=
  match task.stage with
  | .locking _ _ _ => { g with permits := g.permits.release, tasks := g.tasks.erase id }
  | .fetching _ _ kid start =>
    { g with
      permits := g.permits.release
      locked := none
      keyCalls := g.keyCalls ++ [⟨kid, start, .cancelled, draw.now⟩]
      tasks := g.tasks.erase id }
  | _ => g

/-- The settling of a request that was admitted for a run, which reads no clock. -/
def settling (g : Gateway H K) (id : Nat) (outcome : Runs.Admission → Runs.Outcome)
    (draw : Draw) : List Runs.Call :=
  match (g.shared.contexts.lookup id).bind Metered.caller with
  | some (.run admission) => [⟨draw.now, .settle admission.key (outcome admission)⟩]
  | some (.operator _) | none => []

end Gateway

inductive Act (K : Type) where
  | request (draw : Draw) (request : Request) (cluster : Option String)
  /-- The next critical section of a task. -/
  | resume (id : Nat) (draw : Draw)
  /-- The fetch of a task is over, with a key set or without. -/
  | fetched (id : Nat) (keys : Option (Assoc String K)) (draw : Draw)
  /-- A task is dropped. -/
  | cancel (id : Nat) (draw : Draw)
  | response (id : Nat) (head : Option ResponseHead) (draw : Draw)
  | body (id : Nat) (endOfStream : Bool) (metadata : TokenMetadata) (draw : Draw)
  | drop (id : Nat) (draw : Draw)

/-- What an act draws from outside. -/
def Act.draw {K : Type} : Act K → Draw
  | request draw _ _ | resume _ draw | fetched _ _ draw | cancel _ draw | response _ _ draw
  | body _ _ _ draw | drop _ draw => draw

namespace Gateway

/-- One act, and what `on_request` returns if it does. -/
def step (d : Deployed K) (g : Gateway H K) : Act K → Gateway H K × Option Reply
  | .request draw request cluster =>
    let id := g.shared.arrived
    let (g, next) := g.arrive.onRequest hash d draw request cluster
    g.settled id request cluster next
  | .resume id draw =>
    match g.tasks.lookup id with
    | none => (g, none)
    | some task =>
      let (g, next) := g.advance hash d id draw task
      g.settled id task.request task.cluster next
  | .fetched id keys draw =>
    match g.tasks.lookup id with
    | none => (g, none)
    | some task => (g.fetched id task keys draw, none)
  | .cancel id draw =>
    match g.tasks.lookup id with
    | none => (g, none)
    | some task => (g.cancelled id task draw, none)
  | .response id head draw =>
    ({ g with shared := g.shared.onResponse id head draw.unix }, none)
  | .body id endOfStream metadata draw =>
    ({ g with
        shared := g.shared.onResponseBody id endOfStream metadata draw.unix
        calls := g.calls ++
          if endOfStream then
            g.settling id (fun admission => admission.settled (reportedUsage metadata)) draw
          else [] },
      none)
  | .drop id draw =>
    ({ g with
        shared := g.shared.onDrop id
        calls := g.calls ++ g.settling id Runs.Admission.dropped draw },
      none)

end Gateway

/-- The gateway of a process, from its start. -/
def gateway (d : Deployed K) (operators : Operators H) (usage : UsageRegistry) :
    Mealy (Gateway H K) (Act K) (Option Reply) where
  init := { shared := { runs := .empty, operators := operators, usage := usage } }
  step := Gateway.step hash d

end Sections

end Tasks

end CredentialBroker
