import CredentialBroker.Oidc.Keys
import CredentialBroker.Runs.Basic
import CredentialBroker.Util.Checked
import CredentialBroker.Util.Numeral

/-!
# The registration policy

`oidc.rs`: which verified GitHub Actions OIDC tokens register a run. A policy has three forms of
entry, and a token registers if any one of them admits it:

* `workflows`, with the ids, events and entry workflows beside it, names workflows that run in their
  own repository;
* `calledWorkflows` names workflow files that other repositories may call;
* `anyWorkflow` admits every workflow of some repositories.

An entry's empty list of ids means *any* to the code that admits, so what keeps a token from being
admitted by names alone is the validation a policy passed when it was loaded. Sets are lists here:
only membership and emptiness are ever asked.
-/

namespace CredentialBroker.Oidc

/-! ## Text -/

/-- `str::splitn`: at most `n` pieces, the last with the separators left in it. -/
def splitn (sep : Char) : Nat → List Char → List (List Char)
  | 0, _ => []
  | 1, cs => [cs]
  | n + 2, cs =>
    if sep ∈ cs then
      cs.takeWhile (· != sep) :: splitn sep (n + 1) (cs.dropWhile (· != sep)).tail
    else [cs]

/-- The first two pieces of a `job_workflow_ref`: the repository that holds the workflow. -/
def workflowRepository (jobWorkflowRef : String) : String :=
  String.ofList (List.intercalate ['/'] ((splitn '/' 3 jobWorkflowRef.toList).take 2))

private theorem takeWhile_of_notMem {sep : Char} {cs : List Char} (h : sep ∉ cs)
    (rest : List Char) : (cs ++ sep :: rest).takeWhile (· != sep) = cs := by
  have hall : ∀ c ∈ cs, (c != sep) = true := by
    intro c hc
    rw [bne_iff_ne]
    rintro rfl
    exact h hc
  rw [List.takeWhile_append_of_pos hall]
  simp

private theorem dropWhile_of_notMem {sep : Char} {cs : List Char} (h : sep ∉ cs)
    (rest : List Char) : (cs ++ sep :: rest).dropWhile (· != sep) = sep :: rest := by
  have hall : ∀ c ∈ cs, (c != sep) = true := by
    intro c hc
    rw [bne_iff_ne]
    rintro rfl
    exact h hc
  rw [List.dropWhile_append_of_pos hall]
  simp

/-- A `job_workflow_ref` says its repository in front. -/
theorem workflowRepository_eq {jobWorkflowRef : String} {owner repo path : List Char}
    (href : jobWorkflowRef.toList = owner ++ '/' :: (repo ++ '/' :: path)) (howner : '/' ∉ owner)
    (hrepo : '/' ∉ repo) :
    workflowRepository jobWorkflowRef = String.ofList (owner ++ '/' :: repo) := by
  have hsplit : splitn '/' 3 jobWorkflowRef.toList = [owner, repo, path] := by
    rw [href]
    unfold splitn
    rw [if_pos (by simp), takeWhile_of_notMem howner, dropWhile_of_notMem howner, List.tail_cons]
    unfold splitn
    rw [if_pos (by simp), takeWhile_of_notMem hrepo, dropWhile_of_notMem hrepo, List.tail_cons]
    rfl
  unfold workflowRepository
  rw [hsplit]
  simp [List.intercalate]

/-! ## The claims of a token -/

/-- What a verified token says of its job. Its numbers are strings. -/
structure Claims where
  iat : UInt64
  jti : String
  repository : String
  repositoryId : String
  repositoryOwnerId : String
  runId : String
  runAttempt : String
  checkRunId : Option String
  /-- The workflow that runs the job, reusable or not. -/
  jobWorkflowRef : String
  /-- The commit that workflow's file was read at. -/
  jobWorkflowSha : Option String
  /-- The workflow the run started from, which calls a reusable one. -/
  workflowRef : String
  eventName : String
  actor : Option String
  deriving DecidableEq, Repr

/-! ## Entries -/

/-- The repositories a run may be in. -/
structure Repositories where
  /-- Every repository on GitHub. Said outright, never implied by an empty list. -/
  any : Bool := false
  ownerIds : List UInt64 := []
  repositoryIds : List UInt64 := []
  deriving DecidableEq, Repr

namespace Repositories

def validate (repositories : Repositories) (field : String) : Except String Unit :=
  let listed := !(repositories.ownerIds.isEmpty && repositories.repositoryIds.isEmpty)
  match repositories.any, listed with
  | true, true =>
      .error (field ++ ": `any: true` admits every repository; remove it or the ids")
  | false, false =>
      .error (field ++ " needs owner_ids or repository_ids, or `any: true` for every repository " ++
        "on GitHub")
  | _, _ => .ok ()

def contains (repositories : Repositories) (repositoryId ownerId : UInt64) : Bool :=
  repositories.any || repositories.ownerIds.contains ownerId ||
    repositories.repositoryIds.contains repositoryId

/-- What it takes to be in: to be listed, unless everybody is. -/
theorem contains_iff {repositories : Repositories} {repositoryId ownerId : UInt64} :
    repositories.contains repositoryId ownerId = true ↔
      repositories.any = true ∨ repositoryId ∈ repositories.repositoryIds ∨
        ownerId ∈ repositories.ownerIds := by
  unfold contains
  simp only [Bool.or_eq_true, List.contains_iff_mem]
  tauto

end Repositories

/-- The events an entry admits; none admits any. -/
abbrev Events := Option (List String)

def validateEvents (events : Events) (field : String) : Except String Unit :=
  if events.any List.isEmpty then
    .error (field ++ ".events must name at least one event; leave it out for any")
  else .ok ()

def eventAllowed (events : Events) (event : String) : Bool :=
  events.all (fun events => events.contains event)

/-- An accepted set of events that allows an event has it. -/
theorem mem_of_eventAllowed {events : Events} {field event : String}
    (hvalid : validateEvents events field = .ok ()) (h : eventAllowed events event = true)
    {set : List String} (hset : events = some set) : set ≠ [] ∧ event ∈ set := by
  subst hset
  unfold validateEvents at hvalid
  rw [Checked.refuse_eq_ok] at hvalid
  refine ⟨?_, by simpa [eventAllowed] using h⟩
  rintro rfl
  exact hvalid.1 rfl

/-- Admits every workflow of `repositories`. -/
structure AnyWorkflow where
  repositories : Repositories
  events : Events := none
  consumer : Consumer := .priv
  deriving DecidableEq, Repr

namespace AnyWorkflow

def validate (entry : AnyWorkflow) : Except String Unit := do
  entry.repositories.validate "any_workflow.repositories"
  validateEvents entry.events "any_workflow"

def allows (entry : AnyWorkflow) (claims : Claims) (repositoryId ownerId : UInt64) : Bool :=
  entry.repositories.contains repositoryId ownerId && eventAllowed entry.events claims.eventName

end AnyWorkflow

/-- Admits the jobs of one workflow file whatever repository of `callers` runs them. -/
structure CalledWorkflow where
  /-- `OWNER/REPO/PATH`, the part of `job_workflow_ref` before its `@`. -/
  workflow : String
  /-- The ref after that `@`. -/
  gitRef : Option String := none
  /-- The exact commit of the workflow. -/
  sha : Option String := none
  callers : Repositories
  events : Events := none
  consumer : Consumer := .priv
  deriving DecidableEq, Repr

namespace CalledWorkflow

/-- What a `ref` of the policy starts with. -/
def refStart : String := "refs/"

/-- The length of a commit id. -/
def shaHexLen : Nat := 40

/-- A full commit id, in lower case. -/
def isSha (sha : String) : Bool :=
  decide (sha.utf8ByteSize = shaHexLen) &&
    sha.toList.all (fun c => ('0' ≤ c && c ≤ '9') || ('a' ≤ c && c ≤ 'f'))

def startsWith (s start : String) : Bool := start.toList.isPrefixOf s.toList

def validate (entry : CalledWorkflow) : Except String Unit :=
  let field := "called_workflows: " ++ entry.workflow
  let plain := decide (((splitn '/' 3 entry.workflow.toList).filter (!·.isEmpty)).length = 3) &&
    !entry.workflow.toList.contains '@'
  if !plain then .error (field ++ ": workflow must be OWNER/REPO/PATH, without the @ref")
  else if entry.gitRef.isNone && entry.sha.isNone then .error (field ++ " needs a ref or a sha")
  else if entry.gitRef.any (fun gitRef => !startsWith gitRef refStart) then
    .error (field ++
      ": ref must be a full ref such as refs/heads/main; pin a commit with sha")
  else if entry.sha.any (fun sha => !isSha sha) then
    .error (field ++ ": sha must be a full commit id, " ++ toString shaHexLen ++
      " lowercase hex digits")
  else do
    entry.callers.validate (field ++ ": callers")
    validateEvents entry.events field

/-- The ref a job called the workflow at, if it is the entry's. -/
def calledRef (entry : CalledWorkflow) (claims : Claims) : Option (List Char) :=
  match entry.workflow.toList.isPrefixOf? claims.jobWorkflowRef.toList with
  | some ('@' :: called) => some called
  | _ => none

/-- The ref is the one the entry pins, or else any that resolved to the commit it pins. -/
def refAllowed (entry : CalledWorkflow) (called : List Char) : Bool :=
  match entry.gitRef, entry.sha with
  | some gitRef, _ => called == gitRef.toList
  | none, some sha => called == sha.toList || refStart.toList.isPrefixOf called
  | none, none => false

def allows (entry : CalledWorkflow) (claims : Claims) (repositoryId ownerId : UInt64) : Bool :=
  match entry.calledRef claims with
  | none => false
  | some called =>
      entry.refAllowed called &&
        entry.sha.all (fun sha => claims.jobWorkflowSha == some sha) &&
        entry.callers.contains repositoryId ownerId &&
        eventAllowed entry.events claims.eventName

end CalledWorkflow

/-! ## Policies -/

/-- Which jobs may register runs: those any one of three forms of entry admits. -/
structure Policy where
  audience : String
  /-- Exact `job_workflow_ref` claims. -/
  workflows : List String := []
  /-- `repository_id` claims; empty means any. -/
  repositoryIds : List UInt64 := []
  /-- `repository_owner_id` claims; empty means any. -/
  ownerIds : List UInt64 := []
  /-- `workflow_ref` claims of the entry workflow; none allows only the job's own workflow. -/
  entryWorkflows : Option (List String) := none
  events : List String := []
  consumer : Consumer := .priv
  calledWorkflows : List CalledWorkflow := []
  anyWorkflow : Option AnyWorkflow := none
  deriving DecidableEq, Repr

namespace Policy

/-- Whether `workflows` or one of the ids that narrow it is set. -/
def namesWorkflows (policy : Policy) : Bool :=
  !(policy.workflows.isEmpty && policy.repositoryIds.isEmpty && policy.ownerIds.isEmpty)

/-- Whether any entry could admit an OIDC token. -/
def proves (policy : Policy) : Bool :=
  policy.namesWorkflows || policy.anyWorkflow.isSome || !policy.calledWorkflows.isEmpty

/-- What `validate` asks of the `workflows` entry, when it asks it. -/
def validateWorkflows (policy : Policy) : Except String Unit :=
  if policy.workflows.isEmpty then .error "the policy needs workflows"
  else if policy.repositoryIds.isEmpty && policy.ownerIds.isEmpty then
    .error "the policy needs repository_ids or owner_ids"
  else if policy.events.isEmpty then
    .error "the policy's events must name at least one event"
  else .ok ()

/-- `Policy::validate`: refuse a policy that admits nothing, would trust repositories by name only,
or has an entry that does not say what it admits. -/
def validate (policy : Policy) : Except String Unit := do
  (if policy.namesWorkflows || !policy.proves then policy.validateWorkflows else .ok ())
  policy.calledWorkflows.forM CalledWorkflow.validate
  match policy.anyWorkflow with
  | none => .ok ()
  | some entry => entry.validate

/-- The `workflows` entry: a workflow in its own repository. -/
def workflowsAllow (policy : Policy) (claims : Claims) (repositoryId ownerId : UInt64) : Bool :=
  let entryAllowed := match policy.entryWorkflows with
    | some allowed => allowed.contains claims.workflowRef
    | none => claims.workflowRef == claims.jobWorkflowRef
  policy.workflows.contains claims.jobWorkflowRef &&
    claims.repository == workflowRepository claims.jobWorkflowRef &&
    (policy.repositoryIds.isEmpty || policy.repositoryIds.contains repositoryId) &&
    (policy.ownerIds.isEmpty || policy.ownerIds.contains ownerId) &&
    entryAllowed &&
    policy.events.contains claims.eventName

/-- `Policy::admits`: the entry that admits the token, the narrowest first, and its consumer. -/
def admits (policy : Policy) (claims : Claims) (repositoryId ownerId : UInt64) :
    Option (Admitted × Consumer) :=
  if policy.workflowsAllow claims repositoryId ownerId then some (.workflows, policy.consumer)
  else match policy.calledWorkflows.find? (·.allows claims repositoryId ownerId) with
    | some called => some (.calledWorkflows, called.consumer)
    | none =>
      (policy.anyWorkflow.filter (·.allows claims repositoryId ownerId)).map
        (fun entry => (.anyWorkflow, entry.consumer))

/-- What a policy that passed validation, and has an entry at all, says of its entries. -/
theorem validate_ok {policy : Policy} (h : policy.validate = .ok ()) :
    (policy.namesWorkflows = true → policy.validateWorkflows = .ok ()) ∧
      (∀ called ∈ policy.calledWorkflows, called.validate = .ok ()) ∧
      ∀ entry, policy.anyWorkflow = some entry → entry.validate = .ok () := by
  unfold validate at h
  rw [Checked.then_eq_ok, Checked.then_eq_ok, Checked.forM_eq_ok] at h
  obtain ⟨hworkflows, hcalled, hany⟩ := h
  refine ⟨?_, hcalled, ?_⟩
  · intro hnames
    rwa [hnames, Bool.true_or, if_pos rfl] at hworkflows
  · intro entry hentry
    rwa [hentry] at hany

end Policy

/-! ## Verification -/

/-- An integer in a claim. -/
def number (s : String) : Except OidcError UInt64 :=
  match Numeral.parseU64 s.toUTF8.toList with
  | some n => .ok n
  | none => .error .malformed

def maxJti : Nat := 128

/-- What `GithubOidc::verify` makes of the claims of a token whose signature, audience, issuer and
times are good: the run it names, if the policy lets it register. -/
def identify (policy : Policy) (issuedAfter : UInt64) (claims : Claims) :
    Except OidcError RunIdentity := do
  if claims.iat < issuedAfter then .error .invalid
  else
    let repositoryId ← number claims.repositoryId
    let ownerId ← number claims.repositoryOwnerId
    match policy.admits claims repositoryId ownerId with
    | none => .error .workflowNotAllowed
    | some (admittedBy, consumer) =>
      if claims.jti.isEmpty ∨ maxJti < claims.jti.utf8ByteSize then .error .malformed
      else do
        let runId ← number claims.runId
        let runAttempt ← number claims.runAttempt
        let checkRunId ← claims.checkRunId.mapM number
        .ok {
          repository := claims.repository
          repositoryId := repositoryId
          runId := runId
          runAttempt := runAttempt
          checkRunId := checkRunId
          jti := claims.jti
          workflowRef := claims.jobWorkflowRef
          workflowSha := claims.jobWorkflowSha
          entryWorkflowRef := claims.workflowRef
          repositoryOwnerId := ownerId
          eventName := claims.eventName
          actor := claims.actor
          admittedBy := admittedBy
          consumer := consumer }

/-- A run is named only if an entry admits its token. -/
theorem admits_of_identify {policy : Policy} {issuedAfter : UInt64} {claims : Claims}
    {identity : RunIdentity} (h : identify policy issuedAfter claims = .ok identity) :
    policy.admits claims identity.repositoryId identity.repositoryOwnerId =
      some (identity.admittedBy, identity.consumer) := by
  unfold identify at h
  rw [Checked.refuse_eq_ok] at h
  obtain ⟨-, h⟩ := h
  obtain ⟨repositoryId, -, h⟩ := Checked.bind_eq_ok.mp h
  obtain ⟨ownerId, -, h⟩ := Checked.bind_eq_ok.mp h
  split at h
  · cases h
  · next admittedBy consumer hadm =>
      rw [Checked.refuse_eq_ok] at h
      obtain ⟨-, h⟩ := h
      obtain ⟨runId, -, h⟩ := Checked.bind_eq_ok.mp h
      obtain ⟨runAttempt, -, h⟩ := Checked.bind_eq_ok.mp h
      obtain ⟨checkRunId, -, h⟩ := Checked.bind_eq_ok.mp h
      cases h
      exact hadm

/-- What the library for signed tokens makes of one: its header, whether it names the one algorithm
accepted, and its claims once the signature is checked against a key. -/
structure Jwt (K : Type) where
  /-- The algorithm is RS256, and the key id. -/
  header : Bytes → Option (Bool × Option String)
  /-- The claims, for this audience, or whether it is their JSON that is wrong. -/
  decode : Bytes → K → String → Except Bool Claims

def maxJwtBytes : Nat := 8 * 1024

/-- `GithubOidc::verify`, with the keys as `key` answers at the time. -/
def verify {K : Type} (jwt : Jwt K) (keys : String → Except OidcError K) (policy : Policy)
    (issuedAfter : UInt64) (token : Bytes) : Except OidcError RunIdentity :=
  if maxJwtBytes < token.length then .error .malformed
  else match jwt.header token with
    | none => .error .malformed
    | some (false, _) => .error .invalid
    | some (true, none) => .error .malformed
    | some (true, some kid) => do
      let found ← keys kid
      match jwt.decode token found policy.audience with
      | .error true => .error .malformed
      | .error false => .error .invalid
      | .ok claims => identify policy issuedAfter claims

/-- A token verifies only as one the policy admits. -/
theorem admits_of_verify {K : Type} {jwt : Jwt K} {keys : String → Except OidcError K}
    {policy : Policy} {issuedAfter : UInt64} {token : Bytes} {identity : RunIdentity}
    (h : verify jwt keys policy issuedAfter token = .ok identity) :
    ∃ claims, policy.admits claims identity.repositoryId identity.repositoryOwnerId =
      some (identity.admittedBy, identity.consumer) := by
  unfold verify at h
  rw [Checked.refuse_eq_ok] at h
  obtain ⟨-, h⟩ := h
  split at h
  · cases h
  · cases h
  · cases h
  · obtain ⟨found, -, h⟩ := Checked.bind_eq_ok.mp h
    split at h
    · cases h
    · cases h
    · next claims _ => exact ⟨claims, admits_of_identify h⟩

end CredentialBroker.Oidc
