import CredentialBroker.Chain.Credentials
import CredentialBroker.Proxy.Faithful

/-!
# Behind the gateway

The gateway's chain and the credential proxy, one after the other: a client's request that reaches
the proxy's cluster is sent to it without a credential, and the proxy sends it on under the broker's.
`behind_gateway` is what is true of both together and of neither alone.
-/

namespace CredentialBroker.Proxy

open Chain (Environment Flow Passed Reached Secrets AdmittedFor UnderPrefix gateway reached_of_run
  responsesPath healthzPath fixedHeaders)

variable {H : Type} [DecidableEq H] {hash : Bytes → H} {env : Environment H} {secrets : Secrets}
  {endpoints : RunEndpoints} {budget : Option Budget} {world : World H} {request : Request}
  {flow : Flow H}

/-- The request as the gateway sends it. -/
def forwardedBy (request : Request) (flow : Flow H) : Request :=
  ⟨request.method, flow.path, request.query, flow.received request⟩

/-- It rewrites the path. -/
def rewrites : Chain.Filter → Bool
  | .pathRewrite _ => true
  | _ => false

/-- Only the APIs of other providers are rewritten. -/
theorem under_of_rewrites {filter : RunTokenFilter} {entry : Chain.Entry}
    (hentry : entry ∈ gateway secrets filter) (h : rewrites entry.filter = true) :
    entry = Chain.under "/anthropic" (.pathRewrite (ascii "/anthropic")) ∨
      entry = Chain.under "/mistral" (.pathRewrite (ascii "/mistral")) := by
  have hquiet : ∀ entry ∈ Chain.denials ++ Chain.protocols ++ Chain.metering,
      rewrites entry.filter = false := by decide
  have hrewriting : ∀ entry ∈ Chain.rewriting, rewrites entry.filter = true →
      entry = Chain.under "/anthropic" (.pathRewrite (ascii "/anthropic")) ∨
        entry = Chain.under "/mistral" (.pathRewrite (ascii "/mistral")) := by
    intro entry hentry h
    simp only [Chain.rewriting, List.mem_cons, List.not_mem_nil, or_false] at hentry
    rcases hentry with rfl | rfl | rfl | rfl | rfl | rfl
    · exact .inl rfl
    · exact .inr rfl
    all_goals cases h
  have hfalse : ∀ {p : Prop}, entry ∈ Chain.denials ++ Chain.protocols ++ Chain.metering → p := by
    intro p hmem
    rw [hquiet entry hmem] at h
    cases h
  simp only [gateway, List.mem_append, List.mem_cons, List.not_mem_nil, or_false] at hentry
  rcases hentry with (((hentry | hentry) | rfl | rfl) | hentry | hentry) | rfl | rfl
  · exact hfalse (by simp [hentry])
  · exact hfalse (by simp [hentry])
  · cases h
  · cases h
  · exact hfalse (by simp [hentry])
  · exact hrewriting entry hentry h
  · cases h
  · cases h

theorem path_of_run {filter : RunTokenFilter}
    (h : Chain.run hash env request (gateway secrets filter) world = .ok flow)
    (hanthropic : ¬ UnderPrefix (ascii "/anthropic") request.path)
    (hmistral : ¬ UnderPrefix (ascii "/mistral") request.path) : flow.path = request.path := by
  refine Chain.runFrom_invariant (P := fun flow => flow.path = request.path) ?_ h rfl
  intro entry hentry flow flow' hpassed hpath
  cases hpassed with
  | pathRewrite happlies stem hfilter =>
      have hrewrites : rewrites entry.filter = true := by rw [hfilter]; rfl
      rcases under_of_rewrites hentry hrewrites with rfl | rfl
      · exact absurd (Chain.applies_under.mp happlies) hanthropic
      · exact absurd (Chain.applies_under.mp happlies) hmistral
  | _ => exact hpath

/-- What goes up to the backend under `credentials` for a request of the gateway's client. -/
structure Brokered (hash : Bytes → H) (env : Environment H) (filter : RunTokenFilter)
    (world : World H) (request : Request) (flow : Flow H) (credentials : Credentials)
    (upstream : UpstreamRequest) : Prop where
  path : request.path = responsesPath
  /-- It was admitted for an operator or a run that may use the backend. -/
  admitted : AdmittedFor hash env filter world request flow "inference-backend"
  /-- The credentials are those granted, whatever the client sent under their names. -/
  credential : ∀ name ∈ injected, upstream.headers.getAll name =
    ((lastGiven credentials.headers name).map utf8).toList
  runToken : upstream.headers.getAll "x-run-token" = []
  /-- All else is the client's, or the same for every request, or routes its cache. -/
  other : ∀ field ∈ upstream.headers, field.1 ∉ injected →
    field ∈ request.headers ∨ field ∈ fixedHeaders ∨ field.1 = sessionId ∨
      field.1 = clientRequestId

theorem stem_of_under {stem path : Bytes} (h : UnderPrefix stem path) : stem <+: path := by
  rcases h with rfl | h
  · exact List.prefix_refl _
  · exact (List.prefix_append _ _).trans h

/-- A path under one stem is under no other of the same kind. -/
theorem not_under_of_under {stem other path : Bytes} (h : UnderPrefix stem path)
    (hlength : other.length ≤ stem.length) (hother : ¬ other <+: stem) :
    ¬ UnderPrefix other path :=
  fun h' => hother (List.prefix_of_prefix_length_le (stem_of_under h') (stem_of_under h) hlength)

/-- What reaches the proxy's cluster on the path that the proxy serves. -/
theorem sentWith_of_run
    (hrun : Chain.run hash env request (gateway secrets (.praxis endpoints budget)) world = .ok flow)
    (hcluster : flow.cluster = some "inference-backend") (hpath : flow.path = responsesPath) :
    request.path = responsesPath ∧
      AdmittedFor hash env (.praxis endpoints budget) world request flow "inference-backend" ∧
        Chain.SentWith request flow [] := by
  have hreached := reached_of_run hrun
  obtain ⟨route, hpick, hroute⟩ := hreached.route
  have hrouted := Chain.routed_of_pick hpick
  obtain ⟨world', hproceed⟩ := hreached.proceeds
  obtain ⟨-, hproceeds⟩ := proceeds_of_onRequest hproceed
  rw [hcluster] at hproceeds hroute
  rw [← Option.some.inj hroute] at hrouted
  have hkept : flow.path = request.path := by
    generalize hname : "inference-backend" = cluster at hrouted
    cases hrouted with
    | healthz h =>
        refine path_of_run hrun ?_ ?_ <;>
        · rw [h]
          decide
    | responses h =>
        exact path_of_run hrun (not_under_of_under h (by decide) (by decide))
          (not_under_of_under h (by decide) (by decide))
    | runs | usage | grant | injected | passThrough | mistral => simp at hname
  have hrequest : request.path = responsesPath := hkept.symm.trans hpath
  obtain ⟨hadmitted, hremoved⟩ := Chain.admittedFor_of_proceeds rfl hproceeds
  have hcredential : flow.credential = none := by
    rw [hreached.credential, hcluster]
    rfl
  refine ⟨hrequest, hadmitted.resolve_left ?_, hreached.sentWith_none hremoved hcredential⟩
  rw [hrequest]
  decide

theorem brokered_of_under {app : App}
    (hrun : Chain.run hash env request (gateway secrets (.praxis endpoints budget)) world = .ok flow)
    (hcluster : flow.cluster = some "inference-backend") (hhttp : app.http.Documented)
    (hgate : app.turnsAway (forwardedBy request flow) = none) {codex : CodexRequest}
    {credentials : Credentials} {upstream : UpstreamRequest}
    (hunder : Under app (app.job (forwardedBy request flow) codex) credentials upstream) :
    Brokered hash env (.praxis endpoints budget) world request flow credentials upstream := by
  have hpath : flow.path = responsesPath := by
    unfold App.turnsAway at hgate
    split at hgate
    · cases hgate
    · next hserved =>
        simp only [not_or, ne_eq, not_not] at hserved
        exact hserved.2.1
  obtain ⟨hrequest, hadmitted, hsent⟩ := sentWith_of_run hrun hcluster hpath
  have hall := getAll_inject hhttp credentials.names hunder.headers
  have hexactly := sentFor_of_under hhttp hunder
  -- what goes up under another name is what the gateway sends, or routes the cache
  have hother : ∀ name ∉ injected, ∀ value ∈ upstream.headers.getAll name,
      value ∈ (flow.sent request).getAll name ∨ name = sessionId ∨ name = clientRequestId := by
    intro name hname value hvalue
    rw [hall name, lastGiven_eq_none credentials.names hname] at hvalue
    dsimp only at hvalue
    rw [getAll_kept] at hvalue
    split at hvalue
    case isFalse => cases hvalue
    rw [show (app.job (forwardedBy request flow) codex).headers.getAll name = _ from
      getAll_backstop _ _ _ name] at hvalue
    split at hvalue
    · next hroutes => exact .inr hroutes.1
    · refine .inl ?_
      rw [show (forwardedBy request flow).headers.getAll name = _ from
        HeaderMap.getAll_removeAll _ _ name] at hvalue
      split at hvalue
      · cases hvalue
      · exact hvalue
  refine ⟨hrequest, hadmitted, ?_, ?_, ?_⟩
  · intro name hname
    cases hlast : lastGiven credentials.headers name with
    | some value => exact hexactly.credential name value hlast
    | none =>
        refine hexactly.withheld name hlast (.inl ?_)
        rwa [canonical_injected hname]
  · rw [List.eq_nil_iff_forall_not_mem]
    intro value hvalue
    rcases hother "x-run-token" (by decide) value hvalue with hvalue | hroutes
    · rw [hsent.runToken] at hvalue
      cases hvalue
    · exact absurd hroutes (by decide)
  · intro field hmem hname
    rcases hother field.1 hname field.2 (HeaderMap.mem_getAll.mpr hmem) with hvalue | hroutes
    · have hne : field.1 ≠ "authorization" := by
        intro heq
        rw [heq] at hname
        exact hname (by decide)
      rcases hsent.others field (HeaderMap.mem_getAll.mp hvalue) hne with hclient | hfixed
      · exact .inl hclient
      · exact .inr (.inl hfixed)
    · exact .inr (.inr hroutes)

/-- **Behind the gateway.** What the proxy sends for a request that the gateway let through was
admitted for the backend, and goes up under credentials granted just before and without the header
that carried its run token. -/
theorem behind_gateway (hash : Bytes → H) (secrets : Secrets) (endpoints : RunEndpoints)
    (budget : Option Budget) (world : World H) (env : Environment H) (request : Request)
    (flow : Flow H)
    (hrun : Chain.run hash env request (gateway secrets (.praxis endpoints budget)) world = .ok flow)
    (hcluster : flow.cluster = some "inference-backend")
    (app : App) (hhttp : app.http.Documented) (acts : List Act) (id : Nat)
    (hreceived : (happenings app id acts).head? = some (.received (forwardedBy request flow)))
    (upstream : UpstreamRequest) (before after : List Happening)
    (h : happenings app id acts = before ++ .sent upstream :: after) :
    ∃ credentials, [.asked .acquire, .granted credentials] <:+ before ∧
      Brokered hash env (.praxis endpoints budget) world request flow credentials upstream := by
  obtain ⟨stage, hpath, -⟩ := allowed_run app id acts
  obtain ⟨job, front, credentials, hbefore, hfrom, hunder⟩ :=
    (careful_of_path hpath fun h : stage.unlogged = 0 => h).anew upstream before after h
  obtain ⟨client, body, codex, rest, hfirst, hgate, hbody, rfl⟩ := hfrom
  obtain rfl : client = forwardedBy request flow := by
    rw [h, hfirst] at hreceived
    exact Happening.received.inj (Option.some.inj hreceived)
  exact ⟨credentials, ⟨front, hbefore.symm⟩, brokered_of_under hrun hcluster hhttp hgate hunder⟩

/-- A job's request for a response, and the same as the gateway sends it. -/
def sampleResponses : Request where
  method := ascii "POST"
  path := responsesPath
  query := none
  headers := [("x-run-token", Runs.newToken (Runs.sampleDraw 1)), ("accept", ascii "*/*")]

def sampleForwarded : Request := { sampleResponses with headers := [("accept", ascii "*/*")] }

def sampleGranted : List Act :=
  [.request sampleForwarded, .input 0 (.body (.read sampleBody)),
    .input 0 (.agent (some sampleGrant))]

/-- The job's request goes up under the credentials granted. -/
theorem behind_gateway_sample :
    ∃ flow upstream before credentials,
      Chain.run id Chain.sampleEnvironment sampleResponses
        (gateway Chain.sampleSecrets (.praxis .absent none)) sampleWorld = .ok flow ∧
      happenings sampleApp 0 sampleGranted = before ++ [.sent upstream] ∧
        Brokered id Chain.sampleEnvironment (.praxis .absent none) sampleWorld sampleResponses flow
          credentials upstream := by
  have hlast : ((happenings sampleApp 0 sampleGranted).getLast?.any Happening.isSent) = true := by
    decide +kernel
  have hfirst : (happenings sampleApp 0 sampleGranted).head? =
      some (.received sampleForwarded) := rfl
  obtain ⟨last, hlast, hsent⟩ := (Option.any_eq_true _ _).mp hlast
  obtain ⟨before, hbefore⟩ := List.getLast?_eq_some_iff.mp hlast
  cases last with
  | sent upstream =>
      obtain ⟨credentials, -, hbrokered⟩ := behind_gateway id Chain.sampleSecrets .absent none
        sampleWorld Chain.sampleEnvironment sampleResponses _ rfl rfl sampleApp
        documented_sampleParsers sampleGranted 0 hfirst upstream before [] hbefore
      exact ⟨_, upstream, before, credentials, rfl, hbefore, hbrokered⟩
  | _ => cases hsent

end CredentialBroker.Proxy
