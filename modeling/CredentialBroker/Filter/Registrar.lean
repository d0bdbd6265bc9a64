import CredentialBroker.Filter.Basic
import CredentialBroker.Oidc.Policy
import CredentialBroker.Runs.Capacity

/-!
# Loading the registration policy

`Registrar::load` reads a policy file and decides whether the gateway starts with it. Validation is
conditional: a policy that only registers runs without proof has no entry to validate, and one that
has only the newer forms of entry has no `workflows` to ask for. Admission on the other hand takes
an empty list of ids for *any*. `not_by_name_alone` is what the two come to together: whatever was
accepted, a token is admitted only by an id that is written in the entry that admits it, or by an
entry that says `any: true`.
-/

namespace CredentialBroker

open Oidc

def filterName : String := "run_token"

def defaultAudience : String := "praxis-credential-broker"

def githubJwks : String := "https://token.actions.githubusercontent.com/.well-known/jwks"

/-- The only event that may register runs unless `events` says otherwise. -/
def defaultEvent : String := "workflow_dispatch"

def defaultEvents : List String := [defaultEvent]

def defaultMaxSecs : UInt64 := 6 * 3600

def defaultConcurrency : Nat := 4

/-- The registration policy, as decoded from its file. -/
structure PolicyFile where
  audience : String := defaultAudience
  jwksUrl : String := githubJwks
  workflows : List String := []
  repositoryIds : List UInt64 := []
  ownerIds : List UInt64 := []
  entryWorkflows : Option (List String) := none
  events : Option (List String) := none
  consumer : Option Consumer := none
  calledWorkflows : List CalledWorkflow := []
  anyWorkflow : Option AnyWorkflow := none
  maxSecs : UInt64 := defaultMaxSecs
  concurrency : Nat := defaultConcurrency
  unproven : Option UnprovenConfig := none

/-- A verifier of OIDC tokens, as it is made from a policy. -/
structure Verifier where
  jwksUrl : String
  policy : Policy

/-- A registrar, as it is loaded. -/
structure LoadedRegistrar where
  oidc : Option Verifier
  unproven : Option Quota
  limits : Limits

/-- The registrar the filter asks, with the keys as they are answered at the time. -/
def LoadedRegistrar.registrar {K : Type} (jwt : Jwt K) (keys : String → Except OidcError K)
    (issuedAfter : UInt64) (loaded : LoadedRegistrar) : Registrar where
  oidc := loaded.oidc.map (fun verifier => ⟨verify jwt keys verifier.policy issuedAfter⟩)
  unproven := loaded.unproven
  limits := loaded.limits

namespace PolicyFile

/-- The policy a file asks for. -/
def policy (file : PolicyFile) : Policy where
  audience := file.audience
  workflows := file.workflows
  repositoryIds := file.repositoryIds
  ownerIds := file.ownerIds
  entryWorkflows := file.entryWorkflows
  events := file.events.getD defaultEvents
  consumer := file.consumer.getD .priv
  calledWorkflows := file.calledWorkflows
  anyWorkflow := file.anyWorkflow

/-- A setting that is of `workflows` and no other entry is there. -/
def narrowsWorkflows (file : PolicyFile) : Bool :=
  file.events.isSome || file.entryWorkflows.isSome || file.consumer.isSome

def limits (file : PolicyFile) : Limits :=
  ⟨Duration.fromSecs file.maxSecs.toNat, file.concurrency⟩

/-- The quota of registrations without proof, if the file has one. -/
def quota (file : PolicyFile) : Except String (Option Quota) :=
  match file.unproven with
  | none => .ok none
  | some unproven => (unproven.quota file.limits.ttl).map some

/-- The checks of a policy file, and the registrar it makes. -/
def registrar (file : PolicyFile) : Except String LoadedRegistrar := do
  (if file.policy.proves || file.unproven.isNone then file.policy.validate else .ok ())
  (if file.policy.proves && !file.policy.namesWorkflows && file.narrowsWorkflows then
    .error ("events, entry_workflows and consumer apply to `workflows` only; give " ++
      "called_workflows and any_workflow their own")
  else .ok ())
  (if file.maxSecs = 0 ∨ file.concurrency = 0 then
    .error "max_secs and concurrency must be positive"
  else .ok ())
  (if CredentialBroker.maxSecs < file.maxSecs.toNat then
    .error ("max_secs may be at most " ++ toString CredentialBroker.maxSecs)
  else .ok ())
  let unproven ← file.quota
  .ok {
    oidc := if file.policy.proves then some ⟨file.jwksUrl, file.policy⟩ else none
    unproven := unproven
    limits := file.limits }

/-- What an accepted file says: its policy was validated if it proves anything, and only then is
there a verifier, with that policy. -/
theorem registrar_ok {file : PolicyFile} {loaded : LoadedRegistrar}
    (h : file.registrar = .ok loaded) :
    (file.policy.proves = true → file.policy.validate = .ok ()) ∧
      (file.unproven = none → file.policy.validate = .ok ()) ∧
      loaded.oidc =
        if file.policy.proves then some ⟨file.jwksUrl, file.policy⟩ else none := by
  unfold registrar at h
  rw [Checked.then_eq_ok, Checked.then_eq_ok, Checked.then_eq_ok, Checked.then_eq_ok] at h
  obtain ⟨hvalid, -, -, -, h⟩ := h
  obtain ⟨unproven, -, h⟩ := Checked.bind_eq_ok.mp h
  cases h
  refine ⟨?_, ?_, rfl⟩
  · intro hproves
    rwa [hproves, Bool.true_or, if_pos rfl] at hvalid
  · intro hnone
    rwa [hnone, Option.isNone_none, Bool.or_true, if_pos rfl] at hvalid

end PolicyFile

/-- What reading the policy file gives. -/
inductive Contents where
  | text (text : String)
  | notFound
  | failed (message : String)

/-- `Registrar::load`: the registrar for the policy in `path`, or none if there is no such file. The
YAML decoder, and how making the HTTP client goes, come from outside. -/
def Registrar.load (fromYaml : String → Except String PolicyFile) (path : String)
    (contents : Contents) (client : Except String Unit) :
    Except String (Option LoadedRegistrar) :=
  match contents with
  | .notFound => .ok none
  | .failed message => .error (filterName ++ ": " ++ path ++ ": " ++ message)
  | .text text => do
    let loaded ← (fromYaml text >>= PolicyFile.registrar).mapError
      (fun e => filterName ++ ": " ++ path ++ ": " ++ e)
    client.mapError (fun e => filterName ++ ": HTTP client: " ++ e)
    .ok (some loaded)

/-- A registrar is loaded only from a file that was read, decoded and accepted. -/
theorem Registrar.load_ok {fromYaml : String → Except String PolicyFile} {path : String}
    {contents : Contents} {client : Except String Unit} {loaded : LoadedRegistrar}
    (h : Registrar.load fromYaml path contents client = .ok (some loaded)) :
    ∃ text file, contents = .text text ∧ fromYaml text = .ok file ∧
      file.registrar = .ok loaded := by
  unfold Registrar.load at h
  split at h
  · cases h
  · cases h
  · next text =>
      obtain ⟨loaded', hloaded, h⟩ := Checked.bind_eq_ok.mp h
      rw [Checked.then_eq_ok] at h
      obtain ⟨-, h⟩ := h
      cases h
      rw [Checked.mapError_eq_ok] at hloaded
      obtain ⟨file, hfile, hregistrar⟩ := Checked.bind_eq_ok.mp hloaded
      exact ⟨text, file, rfl, hfile, hregistrar⟩

/-! ## What admits a token -/

/-- How a policy file admits a token: by the first form of entry that does, and by something that is
written in that entry. -/
inductive Pinned (file : PolicyFile) (claims : Claims) (repositoryId ownerId : UInt64) :
    Admitted → Consumer → Prop where
  | workflows (hlisted : claims.jobWorkflowRef ∈ file.workflows)
      (hids : repositoryId ∈ file.repositoryIds ∨ ownerId ∈ file.ownerIds)
      (hevents : file.events.getD defaultEvents ≠ [] ∧
        claims.eventName ∈ file.events.getD defaultEvents)
      (hrepository : claims.repository = workflowRepository claims.jobWorkflowRef)
      (hown : ∀ owner repo path, '/' ∉ owner → '/' ∉ repo →
        claims.jobWorkflowRef.toList = owner ++ '/' :: (repo ++ '/' :: path) →
          claims.repository = String.ofList (owner ++ '/' :: repo)) :
      Pinned file claims repositoryId ownerId .workflows (file.consumer.getD .priv)
  | calledWorkflows (before after : List CalledWorkflow) (called : CalledWorkflow)
      (hworkflows : file.policy.workflowsAllow claims repositoryId ownerId = false)
      (hcalled : file.calledWorkflows = before ++ called :: after)
      (hbefore : ∀ entry ∈ before, entry.allows claims repositoryId ownerId = false)
      (hallows : called.allows claims repositoryId ownerId = true)
      (hids : called.callers.any = true ∨ repositoryId ∈ called.callers.repositoryIds ∨
        ownerId ∈ called.callers.ownerIds)
      (hevents : ∀ events, called.events = some events →
        events ≠ [] ∧ claims.eventName ∈ events) :
      Pinned file claims repositoryId ownerId .calledWorkflows called.consumer
  | anyWorkflow (entry : AnyWorkflow)
      (hworkflows : file.policy.workflowsAllow claims repositoryId ownerId = false)
      (hcalled : ∀ called ∈ file.calledWorkflows,
        called.allows claims repositoryId ownerId = false)
      (hentry : file.anyWorkflow = some entry)
      (hids : entry.repositories.any = true ∨ repositoryId ∈ entry.repositories.repositoryIds ∨
        ownerId ∈ entry.repositories.ownerIds)
      (hevents : ∀ events, entry.events = some events →
        events ≠ [] ∧ claims.eventName ∈ events) :
      Pinned file claims repositoryId ownerId .anyWorkflow entry.consumer

/-- The `workflows` entry of a validated policy pins the repository by an id. -/
private theorem pinned_of_workflowsAllow {file : PolicyFile} {claims : Claims}
    {repositoryId ownerId : UInt64} (hvalid : file.policy.validate = .ok ())
    (h : file.policy.workflowsAllow claims repositoryId ownerId = true) :
    Pinned file claims repositoryId ownerId .workflows (file.consumer.getD .priv) := by
  unfold Policy.workflowsAllow at h
  simp only [Bool.and_eq_true, List.contains_iff_mem, Bool.or_eq_true, beq_iff_eq] at h
  obtain ⟨⟨⟨⟨⟨hlisted, hrepository⟩, hrepositoryId⟩, hownerId⟩, -⟩, hevent⟩ := h
  have hnames : file.policy.namesWorkflows = true := by
    have hne : file.policy.workflows.isEmpty = false := by
      rw [List.isEmpty_eq_false_iff]
      exact List.ne_nil_of_mem hlisted
    simp [Policy.namesWorkflows, hne]
  have hworkflows := (Policy.validate_ok hvalid).1 hnames
  unfold Policy.validateWorkflows at hworkflows
  rw [Checked.refuse_eq_ok, Checked.refuse_eq_ok, Checked.refuse_eq_ok] at hworkflows
  obtain ⟨-, hids, hevents, -⟩ := hworkflows
  refine .workflows hlisted ?_ ⟨?_, hevent⟩ hrepository ?_
  · -- one of the two lists is not empty, and that one has the id
    rcases hrepositoryId with hempty | hmem
    · rcases hownerId with hempty' | hmem
      · exact absurd (by rw [hempty, hempty']; rfl) hids
      · exact Or.inr hmem
    · exact Or.inl hmem
  · intro hnil
    exact hevents (List.isEmpty_iff.mpr hnil)
  · intro owner repo path howner hrepo href
    rw [hrepository]
    exact workflowRepository_eq href howner hrepo

/-- An entry for called workflows that allows a token lists one of its ids, or says `any`; it has
the token's event if it has events. -/
private theorem CalledWorkflow.of_allows {called : CalledWorkflow} {claims : Claims}
    {repositoryId ownerId : UInt64} (hvalid : called.validate = .ok ())
    (h : called.allows claims repositoryId ownerId = true) :
    (called.callers.any = true ∨ repositoryId ∈ called.callers.repositoryIds ∨
      ownerId ∈ called.callers.ownerIds) ∧
      ∀ events, called.events = some events → events ≠ [] ∧ claims.eventName ∈ events := by
  unfold CalledWorkflow.validate at hvalid
  simp only [Checked.refuse_eq_ok, Checked.then_eq_ok] at hvalid
  obtain ⟨-, -, -, -, -, hevents⟩ := hvalid
  unfold CalledWorkflow.allows at h
  split at h
  · -- the token is of another workflow
    cases h
  · simp only [Bool.and_eq_true] at h
    refine ⟨Repositories.contains_iff.mp h.1.2, ?_⟩
    intro events hset
    exact mem_of_eventAllowed hevents h.2 hset

/-- The entry for any workflow, likewise. -/
private theorem AnyWorkflow.of_allows {entry : AnyWorkflow} {claims : Claims}
    {repositoryId ownerId : UInt64} (hvalid : entry.validate = .ok ())
    (h : entry.allows claims repositoryId ownerId = true) :
    (entry.repositories.any = true ∨ repositoryId ∈ entry.repositories.repositoryIds ∨
      ownerId ∈ entry.repositories.ownerIds) ∧
      ∀ events, entry.events = some events → events ≠ [] ∧ claims.eventName ∈ events := by
  unfold AnyWorkflow.validate at hvalid
  rw [Checked.then_eq_ok] at hvalid
  simp only [AnyWorkflow.allows, Bool.and_eq_true] at h
  refine ⟨Repositories.contains_iff.mp h.1, ?_⟩
  intro events hset
  exact mem_of_eventAllowed hvalid.2 h.2 hset

/-- **Whatever a validated policy admits is pinned.** -/
theorem pinned_of_admits {file : PolicyFile} {claims : Claims} {repositoryId ownerId : UInt64}
    {form : Admitted} {consumer : Consumer} (hvalid : file.policy.validate = .ok ())
    (h : file.policy.admits claims repositoryId ownerId = some (form, consumer)) :
    Pinned file claims repositoryId ownerId form consumer := by
  obtain ⟨-, hcalled, hany⟩ := Policy.validate_ok hvalid
  unfold Policy.admits at h
  split at h
  · next hworkflows =>
      cases h
      exact pinned_of_workflowsAllow hvalid hworkflows
  · next hworkflows =>
      rw [Bool.not_eq_true] at hworkflows
      split at h
      · next called hfind =>
          cases h
          -- the first entry that allows the token, so none before it does
          obtain ⟨hallows, before, after, hsplit, hbefore⟩ :=
            List.find?_eq_some_iff_append.mp hfind
          obtain ⟨hids, hevents⟩ :=
            CalledWorkflow.of_allows (hcalled called (List.mem_of_find?_eq_some hfind)) hallows
          exact .calledWorkflows before after called hworkflows hsplit (by simpa using hbefore)
            hallows hids hevents
      · next hfind =>
          obtain ⟨entry, hentry, heq⟩ := Option.map_eq_some_iff.mp h
          cases heq
          rw [Option.filter_eq_some_iff] at hentry
          obtain ⟨hentry, hallows⟩ := hentry
          have hnone : ∀ called ∈ file.calledWorkflows,
              called.allows claims repositoryId ownerId = false := by
            intro called hmem
            simpa using List.find?_eq_none.mp hfind called hmem
          obtain ⟨hids, hevents⟩ := AnyWorkflow.of_allows (hany entry hentry) hallows
          exact .anyWorkflow entry hworkflows hnone hentry hids hevents

/-- What a registrar that was loaded from a policy file owes it. -/
structure NotByNameAlone (file : PolicyFile) (loaded : LoadedRegistrar) : Prop where
  /-- A token is admitted only by what is written in an entry. -/
  pinned : ∀ verifier, loaded.oidc = some verifier →
    ∀ claims repositoryId ownerId form consumer,
      verifier.policy.admits claims repositoryId ownerId = some (form, consumer) →
        Pinned file claims repositoryId ownerId form consumer
  /-- A file without an entry makes no verifier. -/
  none_without_entry : file.workflows = [] → file.calledWorkflows = [] →
    file.anyWorkflow = none → loaded.oidc = none
  /-- A file whose entries admit no token makes a registrar that verifies none. -/
  none_verified : (∀ claims repositoryId ownerId,
      file.policy.admits claims repositoryId ownerId = none) →
    ∀ (K : Type) (jwt : Jwt K) (keys : String → Except OidcError K) (issuedAfter : UInt64)
      (oidc : GithubOidc), (loaded.registrar jwt keys issuedAfter).oidc = some oidc →
        ∀ token identity, oidc.verify token ≠ .ok identity

/-- **No token registers by name alone.** -/
theorem not_by_name_alone (fromYaml : String → Except String PolicyFile) (path text : String)
    (client : Except String Unit) (file : PolicyFile) (loaded : LoadedRegistrar)
    (hfile : fromYaml text = .ok file)
    (hload : Registrar.load fromYaml path (.text text) client = .ok (some loaded)) :
    NotByNameAlone file loaded := by
  obtain ⟨_, file', htext, hfile', hregistrar⟩ := Registrar.load_ok hload
  cases htext
  rw [hfile] at hfile'
  cases hfile'
  obtain ⟨hvalid, hvalid', hoidc⟩ := PolicyFile.registrar_ok hregistrar
  have hpolicy : ∀ verifier, loaded.oidc = some verifier →
      file.policy.proves = true ∧ verifier.policy = file.policy := by
    intro verifier hverifier
    rw [hoidc] at hverifier
    split at hverifier
    · next hproves =>
        cases hverifier
        exact ⟨hproves, rfl⟩
    · cases hverifier
  refine ⟨?_, ?_, ?_⟩
  · intro verifier hverifier claims repositoryId ownerId form consumer hadm
    obtain ⟨hproves, heq⟩ := hpolicy verifier hverifier
    rw [heq] at hadm
    exact pinned_of_admits (hvalid hproves) hadm
  · intro hworkflows hcalled hany
    have hproves : file.policy.proves = false := by
      by_contra hproves
      rw [Bool.not_eq_false] at hproves
      -- ids alone would have been refused: they narrow workflows that are not there
      have hnames : file.policy.namesWorkflows = true := by
        simpa [Policy.proves, PolicyFile.policy, hany, hcalled] using hproves
      have hneeds := (Policy.validate_ok (hvalid hproves)).1 hnames
      unfold Policy.validateWorkflows at hneeds
      rw [Checked.refuse_eq_ok] at hneeds
      exact hneeds.1 (by rw [List.isEmpty_iff]; exact hworkflows)
    rw [hoidc, hproves]
    rfl
  · intro hnone K jwt keys issuedAfter oidc hsome token identity hverify
    obtain ⟨verifier, hverifier, rfl⟩ := Option.map_eq_some_iff.mp hsome
    obtain ⟨claims, hadm⟩ := admits_of_verify hverify
    rw [(hpolicy verifier hverifier).2, hnone] at hadm
    cases hadm

/-- A policy file that names one workflow, in the repository with one id, -/
def namedPolicy : PolicyFile where
  workflows := ["o/r/.github/workflows/a.yml@refs/heads/main"]
  repositoryIds := [7]

/-- its text, -/
def namedText : String :=
  "workflows:\n- o/r/.github/workflows/a.yml@refs/heads/main\nrepository_ids: [7]\n"

/-- and a reader of that text. -/
def namedYaml (text : String) : Except String PolicyFile :=
  if text = namedText then .ok namedPolicy else .error "invalid type"

/-- A token of that workflow, run in its own repository. -/
def namedClaims : Claims where
  iat := 0
  jti := "jti"
  repository := "o/r"
  repositoryId := "7"
  repositoryOwnerId := "70"
  runId := "1"
  runAttempt := "1"
  checkRunId := none
  jobWorkflowRef := "o/r/.github/workflows/a.yml@refs/heads/main"
  jobWorkflowSha := none
  workflowRef := "o/r/.github/workflows/a.yml@refs/heads/main"
  eventName := "workflow_dispatch"
  actor := none

/-- The file is accepted, and admits the token by the repository's id. -/
theorem not_by_name_alone_named :
    ∃ loaded, Registrar.load namedYaml "policy.yaml" (.text namedText) (.ok ()) =
        .ok (some loaded) ∧ NotByNameAlone namedPolicy loaded ∧
      Pinned namedPolicy namedClaims 7 70 .workflows .priv := by
  have hyaml : namedYaml namedText = .ok namedPolicy := if_pos rfl
  have hload : Registrar.load namedYaml "policy.yaml" (.text namedText) (.ok ()) =
      .ok (some ⟨some ⟨githubJwks, namedPolicy.policy⟩, none, namedPolicy.limits⟩) := by
    unfold Registrar.load
    dsimp only
    rw [hyaml]
    rfl
  have hnamed := not_by_name_alone namedYaml "policy.yaml" namedText (.ok ()) namedPolicy _ hyaml
    hload
  exact ⟨_, hload, hnamed,
    hnamed.pinned _ rfl namedClaims 7 70 .workflows .priv (by decide +kernel)⟩

end CredentialBroker
