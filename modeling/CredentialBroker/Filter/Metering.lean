import CredentialBroker.Filter.Gate
import CredentialBroker.Runs.Totals
import CredentialBroker.Usage.Registry

/-!
# Metering of requests

What `run_token` does with a request it lets on. `on_request` puts a `Metered` into the request's
context, `on_response` notes there whether upstream succeeded, and `on_response_body` takes it out
at the end of the stream and settles the response in every ledger that counts it. A context dropped
before that gives the caller's slot back.

`FilterState` is what the filter shares with all its requests and each request's context, `Callback`
is one callback of one request, and `metering` runs lists of them, so any interleaving of any number
of requests is a list of callbacks. Requests are numbered in the order they arrive.
-/

namespace CredentialBroker

/-! ## Reported usage -/

/-- The metadata `token_count` leaves in a context; each count is text. -/
structure TokenMetadata where
  status : Option Bytes := none
  input : Option Bytes := none
  output : Option Bytes := none
  cacheRead : Option Bytes := none
  cacheWrite : Option Bytes := none
  reasoning : Option Bytes := none
  total : Option Bytes := none
  model : Option String := none
  deriving DecidableEq, Repr

/-- `reported_usage`: the usage `token_count` recorded for a response, if it did. -/
def reportedUsage (metadata : TokenMetadata) : Option Usage :=
  -- usage was there but too large to capture
  if metadata.status.isSome then none
  else do
    let input ← metadata.input.bind Numeral.parseU64
    let output ← metadata.output.bind Numeral.parseU64
    let cacheRead := min ((metadata.cacheRead.bind Numeral.parseU64).getD 0) input
    return {
      tokens := {
        input := input - cacheRead
        cacheRead := cacheRead
        output := output
        reasoning := (metadata.reasoning.bind Numeral.parseU64).getD 0
        total := max ((metadata.total.bind Numeral.parseU64).getD 0) (input.satAdd output) }
      model := metadata.model
      cacheWrite := (metadata.cacheWrite.bind Numeral.parseU64).getD 0 }

/-- The head of an upstream response. -/
structure ResponseHead where
  status : Nat
  headers : HeaderMap
  deriving DecidableEq, Repr

/-- `StatusCode::is_success`. -/
def ResponseHead.isSuccess (head : ResponseHead) : Bool :=
  decide (200 ≤ head.status) && decide (head.status < 300)

/-! ## Callers and contexts -/

/-- `Caller::consumer`. -/
def Caller.consumer : Caller → Consumer
  | run admission => admission.consumer
  | operator slot => slot.consumer

/-- A caller whose response has a head; only an admission keeps whether it is a success. -/
def Caller.answered (success : Bool) : Caller → Caller
  | run admission => .run { admission with success := success }
  | operator slot => .operator slot

/-- A metered request whose response has a head. -/
def Metered.answered (success : Bool) (metered : Metered) : Metered :=
  { metered with success := success, caller := metered.caller.map (Caller.answered success) }

/-- Dropping a slot of the operator's: it has one request less in flight. -/
def Operators.release {H : Type} [DecidableEq H] (operators : Operators H) (name : String) :
    Operators H :=
  operators.mapVals fun _ operator =>
    if operator.name = name then { operator with inFlight := operator.inFlight - 1 } else operator

/-- The filter between two callbacks. -/
structure FilterState (H : Type) [DecidableEq H] where
  runs : Runs.State H
  operators : Operators H
  usage : UsageRegistry
  /-- By number of the request. -/
  contexts : Assoc Nat Metered := ∅
  /-- How many requests have arrived. -/
  arrived : Nat := 0

/-! ## The callbacks -/

/-- What a request draws from outside if every settling is a callback of its own, so that none comes
between two operations of this one. -/
def Outside.unsettled (out : Outside) : Outside :=
  { out with between := out.between.filter (fun call => !call.settles) }

section Callbacks

variable {H : Type} [DecidableEq H] (hash : Bytes → H) (filter : RunTokenFilter)

/-- What `register_unproven` counts: a registration it admits, or one it refuses for quota. -/
def RunTokenFilter.countUnproven (runs : Runs.State H) (quota : Quota) (limits : Limits)
    (out : Outside) (headers : HeaderMap) : Option Bool :=
  if browserHeaders.any headers.containsKey then none
  else match headers.getAll "x-run-id" with
    | [name] =>
      match (HeaderMap.toStr name).bind (fun name => RunName.new (asString name)) with
      | none => none
      | some name =>
        match (Runs.registerUnproven hash runs name limits quota out.random out.unix out.now).2 with
        | .ok _ => some true
        | .error .overQuota => some false
        | .error .alreadyRegistered | .error .full => none
    | _ => none

/-- What a request counts as a registration without proof, if it comes to `register_unproven`. -/
def RunTokenFilter.countRegistration (runs : Runs.State H) (out : Outside) (request : Request) :
    Option Bool :=
  if request.path = runsPath ∧ request.method = ascii "POST" then
    match filter.endpoints with
    | .serving registrar =>
      match registrar.unproven, request.headers.containsKey "authorization" with
      | some quota, false =>
          countUnproven hash runs quota registrar.limits out request.headers
      | _, _ => none
    | .absent | .unconfigured => none
  else none

namespace FilterState

/-- What a request sees of the filter. -/
def world (s : FilterState H) : World H := ⟨s.runs, s.operators, s.usage.forGrants⟩

/-- `on_request`, of a request the router sent to `cluster`. -/
def onRequest (s : FilterState H) (out : Outside) (request : Request) (cluster : Option String) :
    FilterState H :=
  let (world, context, _) := filter.onRequest hash s.world out.unsettled request cluster
  { runs := world.runs
    operators := world.operators
    usage :=
      match filter.countRegistration hash s.runs out request with
      | some admitted => s.usage.unprovenRegistration admitted
      | none => s.usage
    contexts :=
      match context.metered with
      | some metered => s.contexts.insert s.arrived metered
      | none => s.contexts
    arrived := s.arrived + 1 }

/-- `on_response`, whose head is there unless upstream gave none. -/
def onResponse (s : FilterState H) (id : Nat) (head : Option ResponseHead) (unix : UInt64) :
    FilterState H :=
  match s.contexts.lookup id with
  | none => s
  | some metered =>
    let metered := metered.answered (head.any ResponseHead.isSuccess)
    { s with
      contexts := s.contexts.insert id metered
      usage :=
        match metered.provider, metered.caller, head with
        | some provider, some caller, some head =>
            s.usage.captureAt ⟨provider, caller.consumer, head.headers, unix⟩
        | _, _, _ => s.usage }

/-- Settle a response in the ledgers, at its end of stream. -/
def settle (s : FilterState H) (metered : Metered) (reported : Option Usage) (unix : UInt64) :
    FilterState H :=
  let usage :=
    match metered.provider with
    | some provider => s.usage.settle provider reported metered.success
    | none => s.usage
  let consumer := metered.caller.map Caller.consumer
  let payer (operator : Option String) : Payer :=
    ⟨operator, consumer.getD .priv, metered.provider⟩
  match metered.caller with
  | some (.run admission) =>
    let usage :=
      if admission.usageFree then usage
      else
        let usage :=
          if admission.key.isUnproven then usage.settleUnproven reported metered.success else usage
        usage.settleSpendAt (payer none) reported metered.success unix
    { s with
      usage := usage
      runs := Runs.settle s.runs admission.key (admission.settled reported) }
  | some (.operator slot) =>
    let usage :=
      if slot.usageFree then usage
      else
        (usage.settleOperator slot.name reported metered.success).settleSpendAt
          (payer (some slot.name)) reported metered.success unix
    { s with usage := usage, operators := s.operators.release slot.name }
  | none => { s with usage := usage }

/-- `on_response_body`, with the metadata `token_count` has left by then. -/
def onResponseBody (s : FilterState H) (id : Nat) (endOfStream : Bool) (metadata : TokenMetadata)
    (unix : UInt64) : FilterState H :=
  match s.contexts.lookup id with
  | none => s
  | some metered =>
    if endOfStream then
      { s with contexts := s.contexts.erase id }.settle metered (reportedUsage metadata) unix
    else s

/-- The context is dropped, and the caller in it unsettled. -/
def onDrop (s : FilterState H) (id : Nat) : FilterState H :=
  match s.contexts.lookup id with
  | none => s
  | some metered =>
    let s := { s with contexts := s.contexts.erase id }
    match metered.caller with
    | some (.run admission) =>
        { s with runs := Runs.settle s.runs admission.key admission.dropped }
    | some (.operator slot) => { s with operators := s.operators.release slot.name }
    | none => s

end FilterState

/-- One callback, with what it draws from outside. -/
inductive Callback where
  | request (out : Outside) (request : Request) (cluster : Option String)
  | response (id : Nat) (head : Option ResponseHead) (unix : UInt64)
  | body (id : Nat) (endOfStream : Bool) (metadata : TokenMetadata) (unix : UInt64)
  | drop (id : Nat)

/-- One callback. -/
def FilterState.step (s : FilterState H) : Callback → FilterState H
  | .request out request cluster => s.onRequest hash filter out request cluster
  | .response id head unix => s.onResponse id head unix
  | .body id endOfStream metadata unix => s.onResponseBody id endOfStream metadata unix
  | .drop id => s.onDrop id

/-- The filter, from when it is built: of the runs, the operators and the usage there are, and
before any request. -/
def RunTokenFilter.metering (runs : Runs.State H) (operators : Operators H)
    (usage : UsageRegistry) : Mealy (FilterState H) Callback Unit where
  init := { runs := runs, operators := operators, usage := usage }
  step s callback := (s.step hash filter callback, ())

end Callbacks

end CredentialBroker
