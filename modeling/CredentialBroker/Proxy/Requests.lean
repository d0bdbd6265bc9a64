import CredentialBroker.Protocol.Basic
import CredentialBroker.Proxy.Normalize
import CredentialBroker.Util.Mealy
import CredentialBroker.Util.Semaphore

/-!
# Requests at the credential proxy

`route` takes a client's request through the gate, a permit, its body, the agent and upstream, and
streams the response back. It may be dropped wherever it waits, as when the client leaves. Each
thing it waits for is an `Input`, and `App.advance` is what the handler does from one wait to the
next: where it waits then, if it goes on, and what happened meanwhile, in order.

`/healthz` is answered elsewhere: it pings the agent, sends nothing upstream and takes no permit, and
is not among the requests here.

`Serving` is all requests under way with the permits that are left. An `Act` is a new request or an
input to one, so a list of acts is any interleaving of any number of requests, each cut short
anywhere. `happenings` is what happened to one of them in a run.
-/

namespace CredentialBroker.Proxy

/-! ## What a handler works on -/

/-- What the agent grants. It names no header but those it may inject, which is checked when it is
received. -/
structure Credentials where
  headers : List (String × String)
  names : ∀ credential ∈ headers, credential.1 ∈ injected

/-- What is sent upstream, always by POST to the one URL: one call of the HTTP client, which follows
redirects, if there are any, within it. -/
structure UpstreamRequest where
  headers : HeaderMap
  body : Bytes
  deriving DecidableEq

/-- The head of an upstream response. -/
structure UpstreamResponse where
  status : Nat
  headers : HeaderMap
  deriving DecidableEq

/-- What is logged of an upstream request once its response is over. -/
structure UsageLine where
  trace : Trace
  status : Nat
  usage : Option Tokens
  deriving DecidableEq

/-- A request whose body was read: what goes upstream but for the credentials. -/
structure Job where
  headers : HeaderMap
  body : Bytes
  trace : Trace
  deriving DecidableEq

/-- A response being forwarded. -/
structure Relay where
  status : Nat
  trace : Trace
  /-- How many bytes have come. -/
  total : Nat
  tap : UsageTap

/-- How the proxy is configured, and the libraries it uses. -/
structure App where
  http : HeaderParsers
  json : Json
  sha256 : Bytes → Bytes
  clientAuth : ClientAuth
  /-- The most bytes of a response. -/
  maxBytes : Nat
  concurrency : Nat

/-! ## What it waits for, and what happens -/

/-- How reading a body goes. -/
inductive BodyOutcome where
  | read (body : Bytes)
  /-- It is over the limit, or breaks off. -/
  | failed
  | timeout

/-- What comes of an upstream body next. -/
inductive StreamEvent where
  | chunk (bytes : Bytes)
  | failed
  | ended
  /-- Nothing, for too long. -/
  | idle
  deriving DecidableEq

/-- What a handler waits for. -/
inductive Input where
  | body (outcome : BodyOutcome)
  /-- What `agent` returns. -/
  | agent (answer : Option Credentials)
  /-- The head of the upstream response, unless it fails or takes too long. -/
  | upstream (response : Option UpstreamResponse)
  | stream (event : StreamEvent)
  /-- The client asks for more after an error. -/
  | resume
  /-- The client is gone, and the handler is dropped. -/
  | left

/-- Where a handler waits. -/
inductive Phase where
  | readingBody (request : Request)
  | acquiring (job : Job) (recovered : Bool)
  | sending (job : Job) (recovered : Bool)
  | recovering (job : Job)
  | forwarding (relay : Relay)
  /-- An error was the last of the response. -/
  | broken (relay : Relay)

/-- What happens to one request. -/
inductive Happening where
  | received (request : Request)
  /-- It has a permit. -/
  | admitted
  /-- A response of the proxy's own. -/
  | answered (status : Nat) (text : String)
  /-- Its body was read, and is one to forward. -/
  | read (body : Bytes)
  | asked (operation : Protocol.Operation)
  | granted (credentials : Credentials)
  /-- The agent has recovered from an unauthorized response. -/
  | recovered
  | sent (upstream : UpstreamRequest)
  | headed (response : UpstreamResponse)
  /-- The head of the response goes to the client. -/
  | forwarded (status : Nat) (headers : HeaderMap)
  /-- What came of the body, and the item of the response it made, if any. -/
  | streamed (event : StreamEvent) (item : Option (Except String Bytes))
  | logged (line : UsageLine)
  | left

namespace App

variable (app : App)

/-! ## One request -/

/-- What a request is turned away with, before it asks for a permit. -/
def turnsAway (request : Request) : Option (Nat × String) :=
  if request.method ≠ ascii "POST" ∨ request.path ≠ ascii "/v1/responses" ∨
      request.query.isSome then
    some (404, "not found\n")
  else if !app.clientAuth.accepts app.sha256 (request.headers.get "authorization") then
    some (401, "client authentication required\n")
  else none

def job (request : Request) (codex : CodexRequest) : Job where
  headers := backstopCacheRouting app.http request.headers codex
  body := codex.body
  trace := Trace.new app.sha256 request.path request.headers codex

/-- The response is an event stream. -/
def isEvents (headers : HeaderMap) : Bool :=
  ((headers.get "content-type").bind HeaderMap.toStr).any unnamedResponseType.isPrefixOf

/-- `forward`, of a response that begins. -/
def relay (trace : Trace) (response : UpstreamResponse) : Relay where
  status := response.status
  trace := trace
  total := 0
  tap := .new (isEvents (responseHeaders response.status response.headers))

/-- What is logged of a response when its tap is dropped. -/
def line (relay : Relay) : UsageLine :=
  ⟨relay.trace, relay.status, (relay.tap.scan app.json.fromSlice).usage⟩

/-- What a relay makes of what comes next of the body. -/
def advanceStream (relay : Relay) (event : StreamEvent) : Option Phase × List Happening :=
  let broken (relay : Relay) (error : String) : Option Phase × List Happening :=
    (some (.broken relay), [.streamed event (some (.error error))])
  match event with
  | .chunk bytes =>
    let relay := { relay with total := relay.total + bytes.length }
    if app.maxBytes < relay.total then broken relay "response limit exceeded"
    else
      (some (.forwarding { relay with tap := relay.tap.feed app.json.fromSlice bytes }),
        [.streamed event (some (.ok bytes))])
  | .failed => broken relay "upstream stream failed"
  | .idle => broken relay "upstream idle timeout"
  | .ended => (none, [.streamed event none, .logged (app.line relay)])

/-- What a handler that is dropped leaves in the log. -/
def dropped : Phase → List Happening
  | .forwarding relay | .broken relay => [.logged (app.line relay)]
  | _ => []

/-- One step of `route`. An input it does not wait for leaves it where it is. -/
def advance : Phase → Input → Option Phase × List Happening
  | phase, .left => (none, .left :: app.dropped phase)
  | .readingBody request, .body outcome =>
    match outcome with
    | .failed => (none, [.answered 413 "request too large\n"])
    | .timeout => (none, [.answered 408 "request body timeout\n"])
    | .read body =>
      match normalizeCodexRequest app.json body with
      | .error error => (none, [.answered 400 error.message])
      | .ok codex =>
          (some (.acquiring (app.job request codex) false), [.read body, .asked .acquire])
  | .acquiring job recovered, .agent answer =>
    match answer with
    | none => (none, [.answered 503 "credential agent unavailable\n"])
    | some credentials =>
      match upstreamHeaders app.http job.headers credentials.headers with
      | none => (none, [.granted credentials, .answered 502 "upstream unavailable\n"])
      | some headers =>
          (some (.sending job recovered), [.granted credentials, .sent ⟨headers, job.body⟩])
  | .sending job recovered, .upstream response =>
    match response with
    | none => (none, [.answered 502 "upstream unavailable\n"])
    | some response =>
      if response.status = 401 && !recovered then
        (some (.recovering job),
          [.headed response, .logged ⟨job.trace, response.status, none⟩,
            .asked .unauthorizedRecovery])
      else
        (some (.forwarding (relay job.trace response)),
          [.headed response,
            .forwarded response.status (responseHeaders response.status response.headers)])
  | .recovering job, .agent answer =>
    match answer with
    | none => (none, [.answered 503 "credential recovery unavailable\n"])
    | some _ => (some (.acquiring job true), [.recovered, .asked .acquire])
  | .forwarding relay, .stream event => app.advanceStream relay event
  | .broken relay, .resume => (none, [.logged (app.line relay)])
  | phase, _ => (some phase, [])

end App

/-! ## All requests -/

/-- The requests under way, by number, each with its permit. -/
structure Serving where
  permits : Semaphore
  requests : Assoc Nat Phase
  /-- Requests so far: the number of the next. -/
  count : Nat

inductive Act where
  | request (request : Request)
  | input (id : Nat) (input : Input)

namespace Serving

variable (app : App)

/-- A new request: it is turned away, or takes a permit if one is left. -/
def arrive (s : Serving) (request : Request) : Serving × List Happening :=
  let s' := { s with count := s.count + 1 }
  match app.turnsAway request with
  | some (status, text) => (s', [.received request, .answered status text])
  | none =>
    match s.permits.tryAcquire with
    | none => (s', [.received request, .answered 429 "proxy busy\n"])
    | some permits =>
        ({ s' with permits := permits, requests := s.requests.insert s.count (.readingBody request) },
          [.received request, .admitted])

/-- A step of a request under way. One that is over drops its permit. -/
def proceed (s : Serving) (id : Nat) (phase : Phase) (input : Input) : Serving × List Happening :=
  match app.advance phase input with
  | (some phase, more) => ({ s with requests := s.requests.insert id phase }, more)
  | (none, more) =>
      ({ s with permits := s.permits.release, requests := s.requests.erase id }, more)

def step (s : Serving) : Act → Serving × List Happening
  | .request request => s.arrive app request
  | .input id input =>
    match s.requests.lookup id with
    | some phase => s.proceed app id phase input
    | none => (s, [])

/-- The number of the request an act is of. -/
def idOf (s : Serving) : Act → Nat
  | .request _ => s.count
  | .input id _ => id

theorem count_arrive (s : Serving) (request : Request) :
    (s.arrive app request).1.count = s.count + 1 := by
  unfold Serving.arrive
  dsimp only
  split
  · rfl
  · split <;> rfl

theorem count_input (s : Serving) (id : Nat) (input : Input) :
    (s.step app (.input id input)).1.count = s.count := by
  unfold Serving.step Serving.proceed
  dsimp only
  split
  · split <;> rfl
  · rfl

variable {app} in
/-- A request stays as it is while others move. -/
theorem lookup_step_of_ne {s : Serving} {act : Act} {id : Nat} (h : s.idOf act ≠ id) :
    (s.step app act).1.requests.lookup id = s.requests.lookup id := by
  cases act with
  | request request =>
      show (s.arrive app request).1.requests.lookup id = _
      unfold Serving.arrive
      dsimp only
      split
      · rfl
      · split
        · rfl
        · exact AList.lookup_insert_ne (Ne.symm h)
  | input other input =>
      unfold Serving.step
      dsimp only
      split
      · unfold Serving.proceed
        split
        · exact AList.lookup_insert_ne (Ne.symm h)
        · exact AList.lookup_erase_ne (Ne.symm h)
      · rfl

end Serving

section Runs

variable (app : App)

/-- The proxy, from when it starts. -/
def proxy : Mealy Serving Act (List Happening) :=
  ⟨⟨⟨app.concurrency⟩, ∅, 0⟩, Serving.step app⟩

/-- What an event of a run is to one request. -/
def happened (id : Nat) (event : Serving × Act) : List Happening :=
  if event.1.idOf event.2 = id then (event.1.step app event.2).2 else []

/-- What happened to one request, in order. -/
def happenings (id : Nat) (acts : List Act) : List Happening :=
  ((proxy app).trace acts).flatMap (happened app id)

end Runs

/-! ## Permits -/

/-- What holds of the permits: each is left, or with a request under way. -/
structure Serving.Accounted (app : App) (s : Serving) : Prop where
  accounts : s.permits.Accounts app.concurrency (fun _ => true) s.requests
  fresh : ∀ id, s.count ≤ id → s.requests.lookup id = none

namespace Serving

variable {app : App} {s : Serving}

theorem Accounted.arrive (h : s.Accounted app) (request : Request) :
    (s.arrive app request).1.Accounted app := by
  have hfresh : ∀ id, s.count + 1 ≤ id → s.requests.lookup id = none :=
    fun id hid => h.fresh id (Nat.le_of_succ_le hid)
  unfold Serving.arrive
  dsimp only
  split
  · exact ⟨h.accounts, hfresh⟩
  · split
    · exact ⟨h.accounts, hfresh⟩
    · next permits hpermits =>
        refine ⟨h.accounts.acquire hpermits (h.fresh s.count (Nat.le_refl _)) rfl, ?_⟩
        intro id hid
        have hne : id ≠ s.count := Nat.ne_of_gt hid
        exact (AList.lookup_insert_ne hne).trans (hfresh id hid)

theorem Accounted.proceed (h : s.Accounted app) {id : Nat} {phase : Phase}
    (hphase : s.requests.lookup id = some phase) (input : Input) :
    (s.proceed app id phase input).1.Accounted app := by
  unfold Serving.proceed
  split
  · next next more _ =>
      refine ⟨h.accounts.keep hphase rfl, ?_⟩
      intro other hother
      have hne : other ≠ id := by
        rintro rfl
        rw [h.fresh other hother] at hphase
        cases hphase
      exact (AList.lookup_insert_ne hne).trans (h.fresh other hother)
  · refine ⟨h.accounts.drop hphase rfl, ?_⟩
    intro other hother
    show (s.requests.erase id).lookup other = none
    rw [Assoc.lookup_erase_eq]
    split
    · rfl
    · exact h.fresh other hother

/-- **Step.** An act leaves each permit free or with one request. -/
theorem Accounted.step (h : s.Accounted app) (act : Act) : (s.step app act).1.Accounted app := by
  cases act with
  | request request => exact h.arrive request
  | input id input =>
      unfold Serving.step
      dsimp only
      split
      · next phase hphase => exact h.proceed hphase input
      · exact h

end Serving

/-- **Run.** There they are in every interleaving. -/
theorem accounted_run (app : App) (acts : List Act) : ((proxy app).run acts).Accounted app := by
  induction acts using List.reverseRecOn with
  | nil => exact ⟨Semaphore.accounts_empty _ _, fun _ _ => rfl⟩
  | append_singleton acts act ih =>
      rw [Mealy.run_concat]
      exact ih.step act

/-- What is promised of the permits. -/
structure PermitsExact (app : App) (s : Serving) : Prop where
  /-- None is lost and none made, whatever was cut short. -/
  conserved : s.permits.available + s.requests.size = app.concurrency
  /-- A request that passes the gate is turned away exactly if all permits are held. -/
  busy : ∀ request, app.turnsAway request = none →
    ((s.step app (.request request)).2 = [.received request, .answered 429 "proxy busy\n"] ↔
      s.requests.size = app.concurrency)
  /-- Else it has the permit, and no other request is in its place. -/
  admitted : ∀ request, app.turnsAway request = none → s.requests.size < app.concurrency →
    s.requests.lookup s.count = none ∧
      (s.step app (.request request)).1.requests.lookup s.count = some (.readingBody request)

/-- **Permits are exact**, in every run of any number of requests, each cut short anywhere. -/
theorem permits_exact (app : App) (acts : List Act) :
    PermitsExact app ((proxy app).run acts) := by
  obtain ⟨haccounts, hfresh⟩ := accounted_run app acts
  generalize (proxy app).run acts = s at haccounts hfresh
  have hsize : s.requests.countVals (fun _ => true) = s.requests.size := by
    unfold Assoc.countVals
    rw [List.countP_true]
    exact List.length_map _
  have hbusy := haccounts.tryAcquire_eq_none_iff
  rw [hsize] at hbusy
  refine ⟨hsize ▸ haccounts, ?_, ?_⟩
  · intro request hpasses
    rw [← hbusy]
    show (s.arrive app request).2 = _ ↔ _
    unfold Serving.arrive
    rw [hpasses]
    dsimp only
    cases s.permits.tryAcquire with
    | none => simp
    | some permits => simp
  · intro request hpasses hfree
    refine ⟨hfresh s.count (Nat.le_refl _), ?_⟩
    show (s.arrive app request).1.requests.lookup s.count = _
    unfold Serving.arrive
    rw [hpasses]
    dsimp only
    cases hpermits : s.permits.tryAcquire with
    | none => exact absurd (hbusy.mp hpermits) (Nat.ne_of_lt hfree)
    | some permits => exact AList.lookup_insert _

end CredentialBroker.Proxy
