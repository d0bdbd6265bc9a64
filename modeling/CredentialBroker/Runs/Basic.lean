import CredentialBroker.Basic
import CredentialBroker.Util.Mealy

/-!
# The run registry

Registered runs: their bearer tokens, lifetimes, concurrency and usage records, as `runs.rs` keeps
them. `State` is what the registry's mutex guards, and each operation below is one critical section
of the source, as a function from the state to the next state and the answer. `Call` is one such
operation with the time it is made at, and `machine` runs lists of them, so "any sequence of
operations" is a list of calls.

What comes from outside is an argument: the instant `now`, the Unix time `unix` that stamps records,
the 32 random bytes of a new token, and SHA-256, a function `hash` into any type `H` of digests
with decidable equality.
-/

namespace CredentialBroker

/-! ## Usage -/

/-- Token counts: `input` is the uncached part, `reasoning` is included in `output`, and `total` is
what caps are charged. -/
structure Tokens where
  input : UInt64 := 0
  cacheRead : UInt64 := 0
  output : UInt64 := 0
  reasoning : UInt64 := 0
  total : UInt64 := 0
  deriving DecidableEq, Repr

/-- `Tokens::add`. -/
def Tokens.add (a b : Tokens) : Tokens where
  input := a.input.satAdd b.input
  cacheRead := a.cacheRead.satAdd b.cacheRead
  output := a.output.satAdd b.output
  reasoning := a.reasoning.satAdd b.reasoning
  total := a.total.satAdd b.total

/-- What one response used, as `token_count` reported it. -/
structure Usage where
  tokens : Tokens
  model : Option String
  cacheWrite : UInt64
  deriving DecidableEq, Repr

/-! ## Who a run is -/

/-- The limits a run is registered with. -/
structure Limits where
  ttl : Duration
  concurrency : Nat
  deriving DecidableEq, Repr

/-- The form of policy entry that admitted a run's OIDC token. -/
inductive Admitted where
  | workflows
  | calledWorkflows
  | anyWorkflow
  deriving DecidableEq, Repr

def maxRunName : Nat := 128

/-- What `RunName::new` accepts: short, not empty, and of letters, digits, `.`, `_` and `-` only. -/
def isRunName (name : String) : Bool :=
  !name.toList.isEmpty && decide (name.utf8ByteSize ≤ maxRunName) &&
    name.toList.all (fun c => c.isAlphanum || c == '.' || c == '_' || c == '-')

/-- The identifier a run registered without proof chose for itself. -/
structure RunName where
  name : String
  valid : isRunName name = true
  deriving DecidableEq, Repr

/-- `RunName::new`. -/
def RunName.new (name : String) : Option RunName :=
  if h : isRunName name = true then some ⟨name, h⟩ else none

/-- The key a run is registered under. -/
inductive RunKey where
  /-- A job its GitHub Actions OIDC token named. -/
  | github (repositoryId runId runAttempt : UInt64) (checkRunId : Option UInt64)
  /-- A run registered without proof, by the name its caller chose. -/
  | unproven (name : RunName)
  deriving DecidableEq, Repr

namespace RunKey

/-- The run as an authenticated subject, which budgets are keyed on. -/
def subject : RunKey → String
  | github repositoryId runId runAttempt (some checkRunId) =>
      "github-run:" ++ repositoryId.toNat.repr ++ "/" ++ runId.toNat.repr ++ "/" ++
        runAttempt.toNat.repr ++ "/" ++ checkRunId.toNat.repr
  | github repositoryId runId runAttempt none =>
      "github-run:" ++ repositoryId.toNat.repr ++ "/" ++ runId.toNat.repr ++ "/" ++
        runAttempt.toNat.repr
  | unproven name => "unproven-run:" ++ name.name

def isUnproven : RunKey → Bool
  | github .. => false
  | unproven _ => true

end RunKey

/-- A GitHub Actions job in a run attempt, as its verified OIDC token names it, and that token's
unique id. -/
structure RunIdentity where
  repository : String
  repositoryId : UInt64
  runId : UInt64
  runAttempt : UInt64
  checkRunId : Option UInt64
  jti : String
  workflowRef : String
  workflowSha : Option String
  entryWorkflowRef : String
  repositoryOwnerId : UInt64
  eventName : String
  actor : Option String
  admittedBy : Admitted
  consumer : Consumer
  deriving DecidableEq, Repr

def RunIdentity.key (identity : RunIdentity) : RunKey :=
  .github identity.repositoryId identity.runId identity.runAttempt identity.checkRunId

/-- What a run registered with, and so which run a record is of. -/
inductive Proof where
  | githubOidc (repository : String) (repositoryId runId runAttempt : UInt64)
      (checkRunId : Option UInt64) (workflowRef : String) (workflowSha : Option String)
      (entryWorkflowRef : String) (repositoryOwnerId : UInt64) (eventName : String)
      (actor : Option String) (admittedBy : Admitted)
  | unproven (run : RunName)
  deriving DecidableEq, Repr

/-- The proof `register` records for a verified token. -/
def RunIdentity.proof (identity : RunIdentity) : Proof :=
  .githubOidc identity.repository identity.repositoryId identity.runId identity.runAttempt
    identity.checkRunId identity.workflowRef identity.workflowSha identity.entryWorkflowRef
    identity.repositoryOwnerId identity.eventName identity.actor identity.admittedBy

/-! ## Records and the registry's state -/

inductive RunState where
  | active
  | finished
  | expired
  deriving DecidableEq, Repr

inductive Refusal where
  /-- The run finished or expired since the token was presented. -/
  | closed
  | busy
  deriving DecidableEq, Repr

inductive RegisterError where
  | alreadyRegistered
  | full
  /-- The quota of registrations without proof is used up for now. -/
  | overQuota
  deriving DecidableEq, Repr

/-- A run's usage record, returned to its job. `requests` and `unmetered` go up by at most one for each
response, so that the source's `u64` cannot wrap. -/
structure RunRecord where
  proof : Proof
  state : RunState
  registeredAtUnix : UInt64
  expiresAtUnix : UInt64
  finishedAtUnix : Option UInt64
  requests : Nat
  unmetered : Nat
  tokens : Tokens
  models : Assoc String Tokens
  deriving DecidableEq

def maxModels : Nat := 16

/-- `RunRecord::add`. -/
def RunRecord.add (record : RunRecord) (usage : Usage) : RunRecord :=
  let record := { record with
    requests := record.requests + 1
    tokens := record.tokens.add usage.tokens }
  match usage.model with
  | none => record
  | some model =>
    match record.models.lookup model with
    | some tokens => { record with models := record.models.insert model (tokens.add usage.tokens) }
    | none =>
      if record.models.size < maxModels then
        { record with models := record.models.insert model usage.tokens }
      else record

/-- A registered run. -/
structure Run (H : Type) where
  record : RunRecord
  tokenHash : H
  /-- The id of the OIDC token that registered the run; none without proof. -/
  jti : Option String
  consumer : Consumer
  concurrency : Nat
  expires : Instant
  retainUntil : Instant
  inFlight : Nat
  deriving DecidableEq

/-- How many runs may register without proof: `max` in any `window`. -/
structure Quota where
  max : Nat
  window : Duration
  deriving DecidableEq, Repr

/-- Registrations kept at once, finished and expired ones included. -/
def maxRuns : Nat := 4096

/-- How long a run is remembered after it expires. -/
def retention : Duration := Duration.fromSecs (24 * 3600)

def maxUnprovenRuns : Nat := maxRuns / 4

def usizeMax : Nat := UInt64.size - 1

/-- `Quota::most_remembered`: the most runs of the quota remembered at once, each lasting `ttl`. -/
def Quota.mostRemembered (quota : Quota) (ttl : Duration) : Nat :=
  let remembered := ttl + retention
  let windows := (remembered + (Nat.max quota.window 1 - 1)) / Nat.max quota.window 1
  min ((if windows ≤ usizeMax then windows else usizeMax) * quota.max) usizeMax

namespace Runs

/-- What the registry's mutex guards. -/
structure State (H : Type) where
  runs : Assoc RunKey (Run H)
  tokens : Assoc H RunKey
  /-- When each registration without proof still inside its quota's window was admitted, oldest
  first. -/
  unproven : List Instant

/-- A registry nothing was registered with. -/
def State.empty {H : Type} : State H := ⟨∅, ∅, []⟩

/-- A run about to be registered: who it is and how it authenticates. -/
structure NewRun (H : Type) where
  key : RunKey
  proof : Proof
  jti : Option String
  consumer : Consumer
  tokenHash : H

/-- The record of a run that starts now. -/
def newRecord (proof : Proof) (limits : Limits) (unix : UInt64) : RunRecord where
  proof := proof
  state := .active
  registeredAtUnix := unix
  expiresAtUnix := unix.satAdd (.ofNat (Duration.asSecs limits.ttl))
  finishedAtUnix := none
  requests := 0
  unmetered := 0
  tokens := {}
  models := ∅

section Operations

variable {H : Type} [DecidableEq H]

/-- The run `State::insert` adds for `new`. -/
def NewRun.start (new : NewRun H) (limits : Limits) (unix : UInt64) (now : Instant) : Run H where
  record := newRecord new.proof limits unix
  tokenHash := new.tokenHash
  jti := new.jti
  consumer := new.consumer
  concurrency := limits.concurrency
  expires := now + limits.ttl
  retainUntil := now + limits.ttl + retention
  inFlight := 0

/-- `State::insert`: add a run that starts now. -/
def State.insert (s : State H) (new : NewRun H) (limits : Limits) (unix : UInt64)
    (now : Instant) : State H :=
  { s with
    tokens := s.tokens.insert new.tokenHash new.key
    runs := s.runs.insert new.key (new.start limits unix now) }

/-- An active run past its deadline is expired. -/
def expire (now : Instant) (run : Run H) : Run H :=
  if run.record.state = .active ∧ run.expires ≤ now then
    { run with record := { run.record with state := .expired } }
  else run

/-- `State::prune`: expire runs past their deadline and forget old ones, with their tokens. -/
def State.prune (s : State H) (now : Instant) : State H :=
  let runs := s.runs.mapVals (fun _ run => expire now run)
  let forgotten := runs.retain (fun _ run => !decide (now < run.retainUntil))
  { s with
    runs := runs.retain (fun _ run => decide (now < run.retainUntil))
    tokens := s.tokens.eraseAll (forgotten.values.map Run.tokenHash) }

/-! ## Tokens -/

/-- What every run token starts with. -/
def tokenPrefix : Bytes := ascii "praxis-run-"

def hexDigit (n : Nat) : UInt8 := if n < 10 then .ofNat (48 + n) else .ofNat (87 + n)

/-- `hex::encode`. -/
def hexEncode (bs : Bytes) : Bytes :=
  bs.flatMap (fun b => [hexDigit (b.toNat / 16), hexDigit (b.toNat % 16)])

/-- The token of a draw of 32 random bytes. -/
def newToken (random : Vector UInt8 32) : Bytes := tokenPrefix ++ hexEncode random.toList

variable (hash : Bytes → H)

/-! ## The operations -/

/-- A run that authenticates by another token. -/
def setHash (hash : H) (run : Run H) : Run H := { run with tokenHash := hash }

/-- `Runs::register`: register a job's run, or replace the token of an active run whose own OIDC
token registers it again. -/
def register (s : State H) (identity : RunIdentity) (limits : Limits) (random : Vector UInt8 32)
    (unix : UInt64) (now : Instant) : State H × Except RegisterError (Bytes × RunRecord) :=
  let s := s.prune now
  let key := identity.key
  let token := newToken random
  match s.runs.lookup key with
  | some run =>
    if run.jti ≠ some identity.jti ∨ run.record.state ≠ .active then
      (s, .error .alreadyRegistered)
    else
      ({ s with
          runs := s.runs.modify key (setHash (hash token))
          tokens := (s.tokens.erase run.tokenHash).insert (hash token) key },
        .ok (token, run.record))
  | none =>
    if maxRuns ≤ s.runs.size then (s, .error .full)
    else
      let new : NewRun H := ⟨key, identity.proof, some identity.jti, identity.consumer, hash token⟩
      (s.insert new limits unix now, .ok (token, newRecord new.proof limits unix))

/-- The registrations without proof still inside the quota's window at `now`. -/
def inWindow (quota : Quota) (now : Instant) (times : List Instant) : List Instant :=
  times.dropWhile (fun oldest => decide (quota.window ≤ now - oldest))

/-- `Runs::register_unproven`: register a run nothing vouches for, within `quota`. -/
def registerUnproven (s : State H) (name : RunName) (limits : Limits) (quota : Quota)
    (random : Vector UInt8 32) (unix : UInt64) (now : Instant) :
    State H × Except RegisterError (Bytes × RunRecord) :=
  let s := s.prune now
  let key := RunKey.unproven name
  if (s.runs.lookup key).isSome then (s, .error .alreadyRegistered)
  else
    let s := { s with unproven := inWindow quota now s.unproven }
    if quota.max ≤ s.unproven.length then (s, .error .overQuota)
    else
      let kept := s.runs.countKeys RunKey.isUnproven
      if maxUnprovenRuns ≤ kept ∨ maxRuns ≤ s.runs.size then (s, .error .full)
      else
        let s := { s with unproven := s.unproven ++ [now] }
        let token := newToken random
        let new : NewRun H := ⟨key, .unproven name, none, .priv, hash token⟩
        (s.insert new limits unix now, .ok (token, newRecord new.proof limits unix))

/-- `Runs::authenticate`: the run a bearer token belongs to. -/
def authenticate (s : State H) (token : Bytes) (now : Instant) : State H × Option RunKey :=
  let s := s.prune now
  (s, s.tokens.lookup (hash token))

/-- `Runs::record`. -/
def record (s : State H) (key : RunKey) (now : Instant) : State H × Option RunRecord :=
  let s := s.prune now
  (s, (s.runs.lookup key).map Run.record)

/-- A run that ends at `unix`, unless it ended before. -/
def endRun (unix : UInt64) (run : Run H) : Run H :=
  if run.record.state = .active then
    { run with record := { run.record with state := .finished, finishedAtUnix := some unix } }
  else run

/-- `Runs::finish`: end a run. -/
def finish (s : State H) (key : RunKey) (unix : UInt64) (now : Instant) :
    State H × Option RunRecord :=
  let s := s.prune now
  let runs := s.runs.modify key (endRun unix)
  ({ s with runs := runs }, (runs.lookup key).map Run.record)

/-- A request admitted for its run, holding one of its concurrency slots until it is settled or
dropped. -/
structure Admission where
  key : RunKey
  consumer : Consumer
  /-- Upstream answered with a success status. -/
  success : Bool
  /-- The request uses no tokens, whatever upstream reports. -/
  usageFree : Bool
  deriving DecidableEq, Repr

/-- A run with one more request in flight. -/
def takeSlot (run : Run H) : Run H := { run with inFlight := run.inFlight + 1 }

/-- `Runs::admit`: admit a request of an active run within its concurrency. -/
def admitRequest (s : State H) (key : RunKey) (now : Instant) :
    State H × Except Refusal Admission :=
  let s := s.prune now
  match s.runs.lookup key with
  | none => (s, .error .closed)
  | some run =>
    if run.record.state ≠ .active then (s, .error .closed)
    else if run.concurrency ≤ run.inFlight then (s, .error .busy)
    else
      ({ s with runs := s.runs.modify key takeSlot }, .ok ⟨key, run.consumer, false, false⟩)

inductive Outcome where
  | metered (usage : Usage)
  | unmetered
  /-- No tokens used: upstream answered with an error, or the request uses none. -/
  | failed
  deriving DecidableEq, Repr

/-- What an outcome adds to a run's record. -/
def Outcome.record : Outcome → RunRecord → RunRecord
  | metered usage, record => record.add usage
  | unmetered, record => { record with unmetered := record.unmetered + 1 }
  | failed, record => record

/-- A run that lost a request in flight, which ended with `outcome`. -/
def release (outcome : Outcome) (run : Run H) : Run H :=
  { run with inFlight := run.inFlight - 1, record := outcome.record run.record }

/-- `Runs::settle`: release a slot and record an outcome. It takes the lock without pruning. -/
def settle (s : State H) (key : RunKey) (outcome : Outcome) : State H :=
  { s with runs := s.runs.modify key (release outcome) }

/-- The outcome of `Admission::settle`. -/
def Admission.settled (admission : Admission) (reported : Option Usage) : Outcome :=
  if admission.usageFree then .failed
  else match reported with
    | some usage => .metered usage
    | none => if admission.success then .unmetered else .failed

/-- The outcome of dropping an `Admission` unsettled. -/
def Admission.dropped (admission : Admission) : Outcome :=
  if admission.success && !admission.usageFree then .unmetered else .failed

end Operations

/-! ## Sequences of calls -/

/-- One operation on the registry, with what it draws from outside. -/
inductive Op where
  | register (identity : RunIdentity) (limits : Limits) (random : Vector UInt8 32) (unix : UInt64)
  | registerUnproven (name : RunName) (limits : Limits) (quota : Quota)
      (random : Vector UInt8 32) (unix : UInt64)
  | authenticate (token : Bytes)
  | record (key : RunKey)
  | finish (key : RunKey) (unix : UInt64)
  | admitRequest (key : RunKey)
  /-- The settling or dropping of an admission of `key`. -/
  | settle (key : RunKey) (outcome : Outcome)

/-- An operation and when it is made. -/
structure Call where
  now : Instant
  op : Op

/-- What an operation answers. -/
inductive Answer where
  | registered (result : Except RegisterError (Bytes × RunRecord))
  | authenticated (key : Option RunKey)
  | record (record : Option RunRecord)
  | admitted (result : Except Refusal Admission)
  | settled

variable {H : Type} [DecidableEq H]

/-- One call. -/
def step (hash : Bytes → H) (s : State H) (call : Call) : State H × Answer :=
  match call.op with
  | .register identity limits random unix =>
      (register hash s identity limits random unix call.now).map id .registered
  | .registerUnproven name limits quota random unix =>
      (registerUnproven hash s name limits quota random unix call.now).map id .registered
  | .authenticate token => (authenticate hash s token call.now).map id .authenticated
  | .record key => (record s key call.now).map id .record
  | .finish key unix => (finish s key unix call.now).map id .record
  | .admitRequest key => (admitRequest s key call.now).map id .admitted
  | .settle key outcome => (settle s key outcome, .settled)

/-- The registry, from empty. -/
def machine (hash : Bytes → H) : Mealy (State H) Call Answer := ⟨.empty, step hash⟩

/-! ## A sample history -/

/-- A job, as its OIDC token names it. -/
def sampleJob : RunIdentity where
  repository := "owner/repo"
  repositoryId := 1
  runId := 7
  runAttempt := 1
  checkRunId := none
  jti := "jti-7"
  workflowRef := "owner/repo/.github/workflows/agent.yml@refs/heads/main"
  workflowSha := none
  entryWorkflowRef := "owner/repo/.github/workflows/agent.yml@refs/heads/main"
  repositoryOwnerId := 2
  eventName := "issues"
  actor := none
  admittedBy := .workflows
  consumer := .priv

/-- A draw of random bytes. -/
def sampleDraw (b : UInt8) : Vector UInt8 32 := .replicate 32 b

/-- A job that registers, and retries with other limits because the answer was lost. -/
def retryCalls : List Call :=
  [⟨0, .register sampleJob ⟨600, 2⟩ (sampleDraw 0) 0⟩,
    ⟨1, .register sampleJob ⟨1, 5⟩ (sampleDraw 1) 0⟩]

end Runs

end CredentialBroker
