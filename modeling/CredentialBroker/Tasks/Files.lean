import CredentialBroker.Tasks.Authority
import CredentialBroker.Tasks.Config

/-!
# From the files of a deployment to its requests

What the gateway is configured with is a few files: who holds an operator's token, and which jobs
may register runs. Here these are what a request goes on by, through `from_config`, the checks of the
files, the verification of a token, the registry, and every interleaving of the requests.
-/

namespace CredentialBroker

open Oidc

/-- What a registrar has of its policy file. -/
theorem PolicyFile.registrar_fields {file : PolicyFile} {loaded : LoadedRegistrar}
    (h : file.registrar = .ok loaded) :
    loaded.limits = file.limits ∧ file.quota = .ok loaded.unproven := by
  unfold PolicyFile.registrar at h
  rw [Checked.then_eq_ok, Checked.then_eq_ok, Checked.then_eq_ok, Checked.then_eq_ok] at h
  obtain ⟨-, -, -, -, h⟩ := h
  obtain ⟨unproven, hquota, h⟩ := Checked.bind_eq_ok.mp h
  cases h
  exact ⟨rfl, hquota⟩

/-- A quota is of a file that lets runs register without proof. -/
theorem PolicyFile.quota_some {file : PolicyFile} {quota : Quota}
    (h : file.quota = .ok (some quota)) :
    ∃ unproven, file.unproven = some unproven ∧ unproven.quota file.limits.ttl = .ok quota := by
  unfold PolicyFile.quota at h
  split at h
  · cases h
  · next unproven hunproven =>
      cases hquota : unproven.quota file.limits.ttl with
      | error e =>
          rw [hquota] at h
          cases h
      | ok quota' =>
          rw [hquota] at h
          cases h
          exact ⟨unproven, hunproven, hquota⟩

namespace Tasks

open RunTokenFilter

variable {H K : Type} [DecidableEq H] {hash : Bytes → H}

/-- A job that a policy file lets register, by the token it presents at `unix`. -/
structure Job (file : PolicyFile) (jwt : JwtLibrary K) (issuedAfter unix : UInt64) (token : Bytes)
    (found : K) (identity : RunIdentity) : Prop where
  claims : ∃ claims, jwt.decode unix token found file.audience = .ok claims ∧
    identify file.policy issuedAfter claims = .ok identity ∧
    Pinned file claims identity.repositoryId identity.repositoryOwnerId identity.admittedBy
      identity.consumer

/-- Whom the policy file lets register a run. -/
inductive MayRegister (file : PolicyFile) (jwt : JwtLibrary K) (issuedAfter : UInt64) :
    RunKey → Prop where
  /-- A job of an entry of the file, with an id that is written there. -/
  | job (unix : UInt64) (token : Bytes) (found : K) (identity : RunIdentity)
      (hjob : Job file jwt issuedAfter unix token found identity) :
      MayRegister file jwt issuedAfter identity.key
  /-- Anyone, under a name, within the quota of the file. -/
  | unproven (config : UnprovenConfig) (quota : Quota) (name : RunName)
      (hunproven : file.unproven = some config) (hquota : config.quota file.limits.ttl = .ok quota) :
      MayRegister file jwt issuedAfter (.unproven name)

/-- What is asked of the registry is what the policy file lets register. -/
theorem mayRegister_of_entitled {outer : Outer H} {config : Config} {built : Built H}
    (hbuilt : BuiltFrom outer config built) (jwt : JwtLibrary K) (issuedAfter : UInt64)
    {operators : Operators H} {usage : UsageRegistry} {acts : List (Act K)} {reg : Registration}
    (h : Entitled hash (built.deployed jwt issuedAfter) operators usage acts reg) :
    ∃ file, config.Registers outer file ∧ MayRegister file jwt issuedAfter reg.key ∧
      reg.limits = file.limits := by
  cases h with
  | verified arrival before draw request cluster loaded verifier token found unix identity later
      harrival hregisters hbearer hkeyed hunix hidentity hstage hlater =>
      obtain ⟨file, hfile, hregistrar⟩ := hbuilt.serving loaded hregisters.endpoints
      refine ⟨file, hfile, ?_, (PolicyFile.registrar_fields hregistrar).1⟩
      obtain ⟨hvalid, -, hoidc⟩ := PolicyFile.registrar_ok hregistrar
      -- there is a verifier, so the file proves something and was validated
      rw [hregisters.oidc] at hoidc
      split at hoidc
      · next hproves =>
          cases hoidc
          apply MayRegister.job unix token found identity
          unfold Deployed.identity at hidentity
          split at hidentity
          · cases hidentity
          · cases hidentity
          · next claims hclaims =>
              exact ⟨claims, hclaims, hidentity,
                pinned_of_admits (hvalid hproves) (admits_of_identify hidentity)⟩
      · cases hoidc
  | unproven arrival draw request cluster loaded quota name harrival hunproven =>
      obtain ⟨file, hfile, hregistrar⟩ := hbuilt.serving loaded hunproven.endpoints
      obtain ⟨hlimits, hquota⟩ := PolicyFile.registrar_fields hregistrar
      rw [hunproven.quota] at hquota
      obtain ⟨unproven, hfile', hquota⟩ := PolicyFile.quota_some hquota
      exact ⟨file, hfile, .unproven unproven quota name hfile' hquota, hlimits⟩

/-- Whom the files of a deployment let a request to `cluster` go on for that drew `draw` when it
arrived after `arrival`, by the end of `acts`. -/
inductive Allowed (hash : Bytes → H) (outer : Outer H) (config : Config) (built : Built H)
    (jwt : JwtLibrary K) (issuedAfter : UInt64) (usage : UsageRegistry)
    (acts arrival : List (Act K)) (draw : Draw) (request : Request) (cluster : String) :
    String → Prop where
  /-- The holder of a token that the tokens file has for the cluster. -/
  | operator (name : String) (token : Bytes) (entry : Operators.Entry)
      (hcarries : Carries built.base.tokenHeaders request.headers name token)
      (hstarts : Operators.tokenPrefix <+: token) (hnames : config.Names outer (hash token) entry)
      (hcluster : cluster ∈ entry.clusters) :
      Allowed hash outer config built jwt issuedAfter usage acts arrival draw request cluster
        ("operator:" ++ entry.name)
  /-- A run that the policy file let register, since it registered no longer than the file lets it
  last. -/
  | run (name : String) (token : Bytes) (file : PolicyFile) (reg current : Registration)
      (hcarries : Carries built.base.tokenHeaders request.headers name token)
      (hrun : OfRun hash (built.deployed jwt issuedAfter) built.operators usage acts arrival draw
        token reg current)
      (hfile : config.Registers outer file) (hmay : MayRegister file jwt issuedAfter reg.key)
      (htime : draw.now < current.time + Duration.fromSecs file.maxSecs.toNat) :
      Allowed hash outer config built jwt issuedAfter usage acts arrival draw request cluster
        reg.key.subject

/-- What is promised of the requests of a deployment that go on. -/
structure ByItsFiles (hash : Bytes → H) (outer : Outer H) (config : Config) (built : Built H)
    (jwt : JwtLibrary K) (issuedAfter : UInt64) (usage : UsageRegistry) (acts : List (Act K)) :
    Prop where
  proceeds : ∀ before act context, before ++ [act] <+: acts →
    (((gateway hash (built.deployed jwt issuedAfter) built.operators usage).run before).step hash
      (built.deployed jwt issuedAfter) act).2 = some (context, .ok .proceed) →
    ∃ arrival draw request cluster,
      arrival ++ [.request draw request cluster] <+: before ++ [act] ∧
      ((gateway hash (built.deployed jwt issuedAfter) built.operators usage).run
        arrival).shared.arrived = act.about
          ((gateway hash (built.deployed jwt issuedAfter) built.operators usage).run before) ∧
      Forwardable request ∧
      (request.path ∈ config.publicPaths.map utf8 ∨
        (∃ name, cluster = some name ∧ config.credentials.lookup name = some .passThrough) ∨
        ∃ name subject, cluster = some name ∧ name ∈ config.injected ∧
          Allowed hash outer config built jwt issuedAfter usage (before ++ [act]) arrival draw
            request name subject ∧
          context.identity = some subject)

/-- **From the files.** Whatever the requests of a gateway and however they interleave, one that goes
on has a public path, or its own credential, or goes on for whom the files of the deployment let it:
an operator the tokens file has for the cluster, or a run of a job that an entry of the policy file
pins by an id, or of anyone if the file has a quota for those, no longer than the file lets runs
last. -/
theorem by_its_files (hash : Bytes → H) (outer : Outer H) (config : Config) (built : Built H)
    (hbuilt : fromConfig outer config = .ok built) (jwt : JwtLibrary K) (issuedAfter : UInt64)
    (usage : UsageRegistry) (acts : List (Act K)) :
    ByItsFiles hash outer config built jwt issuedAfter usage acts := by
  have hfrom := builtFrom_of_fromConfig hbuilt
  constructor
  intro before act context _ hreply
  obtain ⟨arrival, draw, request, cluster, harrival, habout, hforward, hreason⟩ :=
    authority_of_proceed hreply
  refine ⟨arrival, draw, request, cluster, harrival, habout, hforward, ?_⟩
  have hpaths : (built.deployed jwt issuedAfter).base.publicPaths = config.publicPaths.map utf8 :=
    hfrom.publicPaths
  have hcredentials : (built.deployed jwt issuedAfter).base.credentials = config.credentials :=
    hfrom.credentials
  rw [hpaths, hcredentials] at hreason
  rcases hreason with hpublic | hown | ⟨name, subject, hcluster, hmode, hauthority, hidentity⟩
  · exact .inl hpublic
  · exact .inr (.inl hown)
  · refine .inr (.inr ⟨name, subject, hcluster, Config.mem_injected.mpr hmode, ?_, hidentity⟩)
    cases hauthority with
    | operator header token operator hcarries hoperator hlisted =>
        have hstarts := Operators.tokenPrefix_of_authenticate (Option.isSome_of_eq_some hoperator)
        unfold Operators.authenticate at hoperator
        rw [if_pos hstarts] at hoperator
        obtain ⟨entry, hnames, rfl⟩ := hfrom.operators _ _ hoperator
        exact .operator header token entry hcarries hstarts hnames hlisted
    | run header token reg current hcarries hrun =>
        have hcurrent : current.key = reg.key ∧ Entitled hash (built.deployed jwt issuedAfter)
            built.operators usage (before ++ [act]) current := by
          rcases hrun.run with rfl | ⟨hkey, hentitled, -⟩
          · exact ⟨rfl, hrun.entitled⟩
          · exact ⟨hkey, hentitled⟩
        obtain ⟨file, hfile, hmay, hlimits⟩ :=
          mayRegister_of_entitled hfrom jwt issuedAfter hcurrent.2
        have htime := hrun.time
        rw [hlimits] at htime
        exact .run header token file reg current hcarries hrun hfile (hcurrent.1 ▸ hmay) htime

/-! ## A deployment where runs register without proof -/

def sampleText : String := "unproven:\n  max_registrations: 10\n"

def sampleOuter : Outer Bytes where
  files := fun path => if path = "runs.yaml" then .text sampleText else .notFound
  headerName := .ok
  policyYaml := fun text =>
    if text = sampleText then .ok { unproven := some ⟨10, 3600⟩ } else .error "invalid type"
  tokensYaml := fun _ => .error "missing field"
  budgetYaml := fun _ => .error "missing field"
  decode := fun _ => none
  quoted := String.quote
  display := toString
  client := .ok ()

def sampleConfig : Config where
  tokenHeaders := ["x-run-token", "authorization"]
  credentials := [⟨"anthropic", .injected⟩].toAList
  registration := some "runs.yaml"

def sampleBuilt : Built Bytes where
  base :=
    { tokenHeaders := ["x-run-token", "authorization"]
      publicPaths := []
      usageFreePaths := []
      credentials := [⟨"anthropic", .injected⟩].toAList
      usageCorsOrigins := [utf8 defaultUsageOrigin]
      endpoints := .absent
      budget := none }
  endpoints := .serving ⟨none, some ⟨10, Duration.fromSecs 3600⟩,
    ⟨Duration.fromSecs (6 * 3600), defaultConcurrency⟩⟩
  operators := ∅
  registry := defaultRegistry
  spend := false

/-- The file is read. -/
private theorem sampleBuilt_eq : fromConfig sampleOuter sampleConfig = .ok sampleBuilt := by
  rfl

/-- No token is well formed. -/
def sampleJwt : JwtLibrary Unit := ⟨fun _ => none, fun _ _ _ _ => .error true⟩

def sampleDraw (now : Instant) : Draw := ⟨now, 0, Runs.sampleDraw 1⟩

/-- A client registers a run under a name, and uses its token. -/
def sampleActs : List (Act Unit) :=
  [.request (sampleDraw 1)
      ⟨ascii "POST", runsPath, none, [("x-run-id", ascii "job")]⟩ none,
    .resume 0 (sampleDraw 2), .request (sampleDraw 3) sampleRequest (some "anthropic")]

/-- The request goes on for the run. -/
theorem by_its_files_sample :
    ByItsFiles id sampleOuter sampleConfig sampleBuilt sampleJwt 0 (.new 0)
        (sampleActs ++ [.resume 1 (sampleDraw 4)]) ∧
      ∃ context,
        (((gateway id (sampleBuilt.deployed sampleJwt 0) sampleBuilt.operators (.new 0)).run
          sampleActs).step id (sampleBuilt.deployed sampleJwt 0) (.resume 1 (sampleDraw 4))).2 =
            some (context, .ok .proceed) ∧
        context.identity = some "unproven-run:job" :=
  ⟨by_its_files id sampleOuter sampleConfig sampleBuilt sampleBuilt_eq sampleJwt 0 (.new 0) _, _,
    rfl, rfl⟩

end Tasks

end CredentialBroker
