import CredentialBroker.Filter.Gate
import CredentialBroker.Tasks.Serial

/-!
# The first critical section of a request

Of what `RunTokenFilter.onRequest` does in one step, the first critical section does all but what
comes after `run_of` and `Runs::authenticate`, or after a registration needs a key. `Began` says so,
case by case.
-/

namespace CredentialBroker.Tasks

open Oidc RunTokenFilter

variable {H K : Type} [DecidableEq H] {hash : Bytes → H} {d : Deployed K}

/-! ## One step and several -/

/-- A call on the key cache, after those of `since`, came to a result for the key of a token. -/
structure Keyed (d : Deployed K) (since keyCalls : List (KeyCall K)) (token : Bytes)
    (result : Except OidcError K) : Prop where
  called : ∃ before call, since <+: before ∧ before ++ [call] <+: keyCalls ∧
    d.keyId token = .ok call.kid ∧ (Oidc.key ((Oidc.machine K).run before) call).2 = some result

theorem Keyed.mono {since keyCalls more : List (KeyCall K)} {token : Bytes}
    {result : Except OidcError K} (h : Keyed d since keyCalls token result)
    (hpre : keyCalls <+: more) : Keyed d since more token result := by
  obtain ⟨before, call, hsince, hcall, hkid, hresult⟩ := h.called
  exact ⟨before, call, hsince, hcall.trans hpre, hkid, hresult⟩

/-- There is a permit for a registration that arrives. -/
def Gateway.permit (g : Gateway H K) : Bool := g.permits.tryAcquire.isSome

/-- What a request that arrived in state `start` asked of the registry from state `seen` to state
`now`: nothing, one thing, or, as it arrived, whose its token is and, after the calls `between` of
other requests, something of that run. -/
inductive Asked (d : Deployed K) (draw : Draw) (request : Request) (start seen now : Gateway H K) :
    List Runs.Call → Prop where
  | nothing (hcalls : now.calls = seen.calls) : Asked d draw request start seen now []
  | once (call : Runs.Call) (hcalls : now.calls = seen.calls ++ [call]) :
      Asked d draw request start seen now []
  | twice (between : List Runs.Call) (call : Runs.Call) (name : String) (token : Bytes)
      (hseen : seen = start) (hcarries : d.base.token request.headers = some (name, token))
      (hcalls : now.calls =
        seen.calls ++ [⟨draw.now, .authenticate token⟩] ++ between ++ [call]) :
      Asked d draw request start seen now between

/-- A request that arrived in state `start`, and drew `draw` then, is answered in state `seen`, with
what came of the registry by state `now`, of the key cache since it arrived, and from outside by
`draws`. -/
def AnsweredAt (hash : Bytes → H) (d : Deployed K) (start : Gateway H K) (draws : List Draw)
    (draw : Draw) (seen now : Gateway H K) (request : Request) (cluster : Option String)
    (reply : Reply) : Prop :=
  ∃ unix keys later between world, later ∈ draws ∧
    (d.filter unix keys).onRequest hash seen.shared.world
      (draw.outside later start.permit between) request cluster = (world, reply) ∧
    world.runs = now.shared.runs ∧
    Asked d draw request start seen now between ∧
    ((∃ token result, bearer request.headers = some token ∧
        Keyed d start.keyCalls now.keyCalls token result ∧ (keys = fun _ => result) ∧
        ∃ verified ∈ draws, unix = verified.unix) ∨
      ∀ unix' keys', (d.filter unix' keys').onRequest hash seen.shared.world
        (draw.outside later start.permit between) request cluster = (world, reply))

/-! ## What the first critical section does -/

/-- A request is answered by its first critical section, whatever the keys. -/
def AtOnce (hash : Bytes → H) (d : Deployed K) (g g' : Gateway H K) (draw : Draw)
    (request : Request) (cluster : Option String) (reply : Reply) : Prop :=
  ∃ world, world.runs = g'.shared.runs ∧
    ∀ unix keys, (d.filter unix keys).onRequest hash g.shared.world
      (draw.outside draw g.permit []) request cluster = (world, reply)

/-- A request authenticated as a run, and went away from the registry. -/
structure Authenticated (hash : Bytes → H) (d : Deployed K) (g g' : Gateway H K) (draw : Draw)
    (request : Request) (key : RunKey) (token : Bytes) : Prop where
  carries : ∃ name, d.base.token request.headers = some (name, token)
  found : (Runs.authenticate hash g.shared.runs token draw.now).2 = some key
  calls : g'.calls = g.calls ++ [⟨draw.now, .authenticate token⟩]

/-- A request for the calling run. -/
structure ForSelf (d : Deployed K) (request : Request) : Prop where
  served : d.endpoints ≠ .absent
  path : request.path = runSelfPath
  method : request.method = ascii "GET" ∨ request.method = ascii "DELETE"

/-- A request that goes up under the broker's credential for a cluster. -/
structure ForInjection (d : Deployed K) (request : Request) (cluster : Option String)
    (name : String) : Prop where
  forwardable : Forwardable request
  path : request.path ∉ d.base.publicPaths
  cluster : cluster = some name
  mode : d.base.credentials.lookup name = some .injected

/-- **What the first critical section leads to.** -/
inductive Began (hash : Bytes → H) (d : Deployed K) (g g' : Gateway H K) (draw : Draw)
    (request : Request) (cluster : Option String) : Next K → Prop where
  | replied (reply : Reply) (honce : AtOnce hash d g g' draw request cluster reply) :
      Began hash d g g' draw request cluster (.reply reply)
  | returning (name : String) (honce : AtOnce hash d g g' draw request cluster (busy d)) :
      Began hash d g g' draw request cluster (.wait (.returning name))
  | counting (admitted : Bool) (action : FilterAction)
      (honce : AtOnce hash d g g' draw request cluster (answer action)) :
      Began hash d g g' draw request cluster (.wait (.counting admitted action))
  | answering (action : FilterAction)
      (honce : AtOnce hash d g g' draw request cluster (answer action)) :
      Began hash d g g' draw request cluster (.wait (.answering action))
  | self (key : RunKey) (token : Bytes) (hself : ForSelf d request)
      (hauth : Authenticated hash d g g' draw request key token) :
      Began hash d g g' draw request cluster (.wait (.self key draw.now))
  | authenticated (name : String) (key : RunKey) (token : Bytes)
      (hinjection : ForInjection d request cluster name)
      (hoperator : g.shared.operators.authenticate hash token = none)
      (hauth : Authenticated hash d g g' draw request key token) :
      Began hash d g g' draw request cluster (.wait (.authenticated name key draw.now))
  | locking (loaded : LoadedRegistrar) (verifier : Verifier) (token : Bytes) (kid : String)
      (hregisters : Registers d request loaded verifier)
      (hbearer : bearer request.headers = some token) (hpermit : g.permit = true)
      (hkid : d.keyId token = .ok kid) :
      Began hash d g g' draw request cluster (.wait (.locking verifier.policy token kid))

/-- A request for a run endpoint. -/
theorem onRequest_runs {request : Request}
    (hpath : request.path = runsPath ∨ ascii "/v1/runs/" <+: request.path)
    (husage : request.path ≠ usagePath) (hgrant : request.path ≠ grantPath) (unix : UInt64)
    (keys : String → Except OidcError K) (world : World H) (out : Outside)
    (cluster : Option String) :
    (d.filter unix keys).onRequest hash world out request cluster =
      let (runs, action) :=
        match d.endpoints with
        | .absent => (world.runs, reject 404 "not found\n")
        | .unconfigured => d.base.serveRuns hash none world.runs out request
        | .serving loaded =>
            d.base.serveRuns hash (some (d.registrar unix keys loaded)) world.runs out request
      ({ world with runs := runs }, answer action) := by
  unfold RunTokenFilter.onRequest
  rw [if_neg husage, if_neg hgrant, if_pos hpath]
  unfold Deployed.filter
  cases d.endpoints <;> rfl

theorem runsPath_ne : runsPath ≠ usagePath ∧ runsPath ≠ grantPath := by decide

theorem runSelfPath_ne : runSelfPath ≠ usagePath ∧ runSelfPath ≠ grantPath := by decide

/-- A request to register a run. -/
theorem onRequest_register {request : Request} {loaded : LoadedRegistrar}
    (hserving : d.endpoints = .serving loaded) (hpath : request.path = runsPath)
    (hmethod : request.method = ascii "POST") (unix : UInt64)
    (keys : String → Except OidcError K) (world : World H) (out : Outside)
    (cluster : Option String) :
    (d.filter unix keys).onRequest hash world out request cluster =
      let (runs, action) := RunTokenFilter.register hash (d.registrar unix keys loaded) world.runs out
        request.headers
      ({ world with runs := runs }, answer action) := by
  rw [onRequest_runs (.inl hpath) (hpath ▸ runsPath_ne.1) (hpath ▸ runsPath_ne.2), hserving]
  dsimp only
  unfold RunTokenFilter.serveRuns
  rw [if_pos hpath, if_pos hmethod]

/-- What a registration gets at once, whatever the keys. -/
theorem atOnce_register {g g' : Gateway H K} {request : Request} {loaded : LoadedRegistrar}
    {action : FilterAction} (cluster : Option String) (hserving : d.endpoints = .serving loaded)
    (hpath : request.path = runsPath) (hmethod : request.method = ascii "POST") (draw : Draw)
    (hregister : ∀ unix keys, RunTokenFilter.register hash (d.registrar unix keys loaded)
      g.shared.runs (draw.outside draw g.permit []) request.headers = (g'.shared.runs, action)) :
    AtOnce hash d g g' draw request cluster (answer action) := by
  refine ⟨{ g.shared.world with runs := g'.shared.runs }, rfl, ?_⟩
  intro unix keys
  rw [onRequest_register hserving hpath hmethod, show g.shared.world.runs = g.shared.runs from rfl,
    hregister]

theorem begun_registerUnproven (g : Gateway H K) (draw : Draw) {request : Request}
    {loaded : LoadedRegistrar} {quota : Quota} (cluster : Option String)
    (hserving : d.endpoints = .serving loaded) (hpath : request.path = runsPath)
    (hmethod : request.method = ascii "POST") (hquota : loaded.unproven = some quota)
    (hproof : request.headers.containsKey "authorization" = false) :
    Began hash d g (g.registerUnproven hash draw quota loaded.limits request.headers).1 draw request
      cluster (g.registerUnproven hash draw quota loaded.limits request.headers).2 := by
  have hregister : ∀ (g' : Gateway H K) action,
      RunTokenFilter.registerUnproven hash g.shared.runs quota loaded.limits
          (draw.outside draw g.permit []) request.headers = (g'.shared.runs, action) →
        AtOnce hash d g g' draw request cluster (answer action) := by
    intro g' action heq
    apply atOnce_register cluster hserving hpath hmethod draw
    intro unix keys
    unfold RunTokenFilter.register
    rw [show (d.registrar unix keys loaded).unproven = some quota from hquota, hproof]
    exact heq
  unfold RunTokenFilter.registerUnproven at hregister
  unfold Gateway.registerUnproven
  split
  · next hbrowser =>
      rw [if_pos hbrowser] at hregister
      exact .replied _ (hregister g _ rfl)
  · next hbrowser =>
      rw [if_neg hbrowser] at hregister
      split
      · next name hname =>
          rw [hname] at hregister
          dsimp only at hregister
          split
          · next hnone =>
              rw [hnone] at hregister
              exact .replied _ (hregister g _ rfl)
          · next run hrun =>
              rw [hrun] at hregister
              dsimp only at hregister ⊢
              split
              · next token usage hanswer =>
                  apply Began.counting
                  apply hregister
                  exact Prod.ext rfl (by simp [hanswer, Draw.outside])
              · next hanswer =>
                  apply Began.replied
                  apply hregister
                  exact Prod.ext rfl (by simp [hanswer, Draw.outside])
              · next hanswer =>
                  apply Began.counting
                  apply hregister
                  exact Prod.ext rfl (by simp [hanswer, Draw.outside])
              · next hanswer =>
                  apply Began.replied
                  apply hregister
                  exact Prod.ext rfl (by simp [hanswer, Draw.outside])
      · next hnames =>
          apply Began.replied
          apply hregister
          split
          · next name hname => exact absurd hname (hnames name)
          · rfl

/-- A registration by a token, in one step. -/
theorem register_of_registers {request : Request} {loaded : LoadedRegistrar} {verifier : Verifier}
    (h : Registers d request loaded verifier) (unix : UInt64)
    (keys : String → Except OidcError K) (runs : Runs.State H) (out : Outside) :
    RunTokenFilter.register hash (d.registrar unix keys loaded) runs out request.headers =
      if !out.permit then (runs, reject 429 "too many registrations\n")
      else match bearer request.headers with
        | none => (runs, reject 401 "OIDC token required\n")
        | some token =>
          match d.keyId token >>= keys >>= d.identity verifier.policy unix token with
          | .error error => (runs, refusal error)
          | .ok identity =>
            (Runs.register hash runs identity loaded.limits out.random out.unix out.later).map id
              fun
              | .ok (token, usage) => json 201 (.registration token usage)
              | .error .alreadyRegistered => reject 409 "run already registered\n"
              | .error .full | .error .overQuota => reject 503 "too many runs\n" := by
  unfold RunTokenFilter.register
  split
  · next quota hquota hproof =>
      have hquota' : loaded.unproven = some quota := hquota
      rcases h.proof with hnone | htrue
      · rw [hnone] at hquota'
        cases hquota'
      · rw [htrue] at hproof
        cases hproof
  · have hoidc : (d.registrar unix keys loaded).oidc =
        some ⟨verify (d.jwt.seenAt unix) keys verifier.policy d.issuedAfter⟩ := by
      unfold Deployed.registrar LoadedRegistrar.registrar
      dsimp only
      rw [h.oidc]
      rfl
    rw [hoidc]
    dsimp only
    unfold bearer
    split
    · rfl
    · split
      · next hnone => rw [hnone]
      · next token htoken =>
          rw [htoken]
          dsimp only
          rw [d.verify_eq]
          generalize d.keyId token >>= keys >>= d.identity verifier.policy unix token = result
          cases result with
          | ok identity => rfl
          | error error => cases error <;> rfl

theorem begun_register (g : Gateway H K) (draw : Draw) {request : Request}
    {loaded : LoadedRegistrar} (cluster : Option String)
    (hserving : d.endpoints = .serving loaded) (hpath : request.path = runsPath)
    (hmethod : request.method = ascii "POST") :
    Began hash d g (g.register hash d draw loaded request.headers).1 draw request cluster
      (g.register hash d draw loaded request.headers).2 := by
  unfold Gateway.register
  split
  · next quota hquota hproof =>
      exact begun_registerUnproven g draw cluster hserving hpath hmethod hquota hproof
  · next hunproven =>
      have hproof : loaded.unproven = none ∨
          request.headers.containsKey "authorization" = true := by
        cases hquota : loaded.unproven with
        | none => exact .inl rfl
        | some quota =>
            right
            cases hkey : request.headers.containsKey "authorization" with
            | true => rfl
            | false => exact (hunproven quota hquota hkey).elim
      split
      · next hoidc =>
          apply Began.replied
          apply atOnce_register cluster hserving hpath hmethod draw
          intro unix keys
          unfold RunTokenFilter.register
          split
          · next quota hquota hfalse => exact absurd hfalse (hunproven quota hquota)
          · have hnone : (d.registrar unix keys loaded).oidc = none := by
              unfold Deployed.registrar LoadedRegistrar.registrar
              dsimp only
              rw [hoidc]
              rfl
            rw [hnone]
      · next verifier hoidc =>
          have hregisters : Registers d request loaded verifier :=
            ⟨hserving, hpath, hmethod, hoidc, hproof⟩
          split
          · next hnone =>
              apply Began.replied
              apply atOnce_register cluster hserving hpath hmethod draw
              intro unix keys
              have hpermit : g.permit = false := by
                unfold Gateway.permit
                rw [hnone]
                rfl
              rw [register_of_registers hregisters, hpermit]
              rfl
          · next permits hpermits =>
              have hpermit : g.permit = true := by
                unfold Gateway.permit
                rw [hpermits]
                rfl
              dsimp only
              split
              · next hbearer =>
                  apply Began.answering
                  apply atOnce_register cluster hserving hpath hmethod draw
                  intro unix keys
                  rw [register_of_registers hregisters, hbearer, hpermit]
                  rfl
              · next token hbearer =>
                  split
                  · next error hkid =>
                      apply Began.answering
                      apply atOnce_register cluster hserving hpath hmethod draw
                      intro unix keys
                      rw [register_of_registers hregisters, hbearer, hpermit]
                      simp only [hkid]
                      rfl
                  · next kid hkid =>
                      exact .locking loaded verifier token kid hregisters hbearer hpermit hkid

theorem begun_serveRuns (g : Gateway H K) (draw : Draw) {request : Request}
    (cluster : Option String) {loaded : Option LoadedRegistrar}
    (hpath : request.path = runsPath ∨ ascii "/v1/runs/" <+: request.path)
    (husage : request.path ≠ usagePath) (hgrant : request.path ≠ grantPath)
    (hendpoints : d.endpoints =
      match loaded with
      | none => .unconfigured
      | some loaded => .serving loaded) :
    Began hash d g (g.serveRuns hash d draw loaded request).1 draw request cluster
      (g.serveRuns hash d draw loaded request).2 := by
  -- what `serve_runs` refuses by itself
  have hrefuse : ∀ action, (∀ registrar, d.base.serveRuns hash registrar g.shared.runs
      (draw.outside draw g.permit []) request = (g.shared.runs, action)) →
        AtOnce hash d g g draw request cluster (answer action) := by
    intro action hserve
    refine ⟨g.shared.world, rfl, ?_⟩
    intro unix keys
    rw [onRequest_runs hpath husage hgrant, hendpoints]
    cases loaded with
    | none =>
        dsimp only
        rw [show g.shared.world.runs = g.shared.runs from rfl, hserve]
        rfl
    | some loaded =>
        dsimp only
        rw [show g.shared.world.runs = g.shared.runs from rfl, hserve]
        rfl
  unfold Gateway.serveRuns
  split
  · next hruns =>
      split
      · next hpost =>
          split
          · next loaded => exact begun_register g draw cluster hendpoints hruns hpost
          · apply Began.replied
            refine ⟨g.shared.world, rfl, ?_⟩
            intro unix keys
            rw [onRequest_runs hpath husage hgrant, hendpoints]
            dsimp only
            unfold RunTokenFilter.serveRuns
            rw [if_pos hruns, if_pos hpost]
      · next hpost =>
          apply Began.replied
          apply hrefuse
          intro registrar
          unfold RunTokenFilter.serveRuns
          rw [if_pos hruns, if_neg hpost]
  · next hruns =>
      split
      · next hself =>
          split
          · next hmethod =>
              have hserved : ForSelf d request := by
                refine ⟨?_, hself, hmethod⟩
                rw [hendpoints]
                cases loaded <;> exact LoadedEndpoints.noConfusion
              have hanswer : ∀ (g' : Gateway H K),
                  d.base.runOf hash g.shared.runs request.headers draw.now =
                    (g'.shared.runs, none) →
                  AtOnce hash d g g' draw request cluster (answer unauthenticated) := by
                intro g' hrunOf
                refine ⟨{ g.shared.world with runs := g'.shared.runs }, rfl, ?_⟩
                intro unix keys
                have hserve : ∀ registrar, d.base.serveRuns hash registrar g.shared.runs
                    (draw.outside draw g.permit []) request =
                      (g'.shared.runs, unauthenticated) := by
                  intro registrar
                  unfold RunTokenFilter.serveRuns
                  rw [if_neg hruns, if_pos hself]
                  unfold RunTokenFilter.serveSelf
                  rw [show (draw.outside draw g.permit []).now = draw.now from rfl, hrunOf]
                  rcases hmethod with hget | hdelete
                  · rw [if_pos hget]
                  · rw [if_pos hdelete]
                    split <;> rfl
                rw [onRequest_runs hpath husage hgrant, hendpoints]
                cases loaded with
                | none =>
                    dsimp only
                    rw [show g.shared.world.runs = g.shared.runs from rfl, hserve]
                | some loaded =>
                    dsimp only
                    rw [show g.shared.world.runs = g.shared.runs from rfl, hserve]
              unfold Gateway.serveSelf
              split
              · next hnone =>
                  apply Began.replied
                  apply hanswer
                  unfold RunTokenFilter.runOf
                  rw [hnone]
              · next name token htoken =>
                  dsimp only
                  split
                  · next hkey =>
                      apply Began.replied
                      apply hanswer
                      unfold RunTokenFilter.runOf
                      rw [htoken]
                      exact Prod.ext rfl hkey
                  · next key hkey => exact .self key token hserved ⟨⟨name, htoken⟩, hkey, rfl⟩
          · next hmethod =>
              apply Began.replied
              apply hrefuse
              intro registrar
              rw [not_or] at hmethod
              unfold RunTokenFilter.serveRuns
              rw [if_neg hruns, if_pos hself, if_neg hmethod.1, if_neg hmethod.2]
      · next hself =>
          apply Began.replied
          apply hrefuse
          intro registrar
          unfold RunTokenFilter.serveRuns
          rw [if_neg hruns, if_neg hself]

theorem onRequest_injected {request : Request} {cluster : Option String} {name : String}
    (h : ForInjection d request cluster name) (unix : UInt64)
    (keys : String → Except OidcError K) (world : World H) (out : Outside) :
    (d.filter unix keys).onRequest hash world out request cluster =
      d.base.injected hash world out request name := by
  unfold RunTokenFilter.onRequest
  rw [if_neg h.forwardable.usage, if_neg h.forwardable.grant,
    if_neg (not_or.mpr ⟨h.forwardable.runs, h.forwardable.underRuns⟩),
    if_neg (Nat.not_lt.mpr h.forwardable.single),
    if_neg (show request.path ∉ (d.filter unix keys).publicPaths from h.path), h.cluster]
  simp only [Option.bind_some, show (d.filter unix keys).credentials = d.base.credentials from rfl,
    h.mode, Option.map_some]
  rfl

/-- What is injected leaves the world as admission does. -/
theorem world_injected (filter : RunTokenFilter) (world : World H) (out : Outside)
    (request : Request) (cluster : String) :
    (filter.injected hash world out request cluster).1 =
      (filter.admitRequest hash world out request.headers cluster).1 := by
  unfold RunTokenFilter.injected
  dsimp only
  split
  · next heq => rw [heq]
  · next heq =>
      rw [heq]
      split <;> rfl

theorem begun_injected (g : Gateway H K) (draw : Draw) {request : Request}
    {cluster : Option String} {name : String} (h : ForInjection d request cluster name) :
    Began hash d g (g.injected hash d draw request name).1 draw request cluster
      (g.injected hash d draw request name).2 := by
  -- what a request without a token that authenticates gets
  have hanswer : ∀ (g' : Gateway H K),
      d.base.admitRequest hash g.shared.world (draw.outside draw g.permit []) request.headers
          name = ({ g.shared.world with runs := g'.shared.runs }, .error unauthenticated) →
      AtOnce hash d g g' draw request cluster (injectedContext d, .ok unauthenticated) := by
    intro g' hadm
    refine ⟨{ g.shared.world with runs := g'.shared.runs }, rfl, ?_⟩
    intro unix keys
    rw [onRequest_injected h]
    unfold RunTokenFilter.injected
    rw [hadm]
    rfl
  unfold Gateway.injected
  split
  · next hnone =>
      apply Began.replied
      apply hanswer
      unfold RunTokenFilter.admitRequest
      rw [hnone]
      rfl
  · next tokenName token htoken =>
      split
      · next operator hoperator =>
          split
          · next hfull =>
              apply Began.returning
              refine ⟨g.shared.world, rfl, ?_⟩
              intro unix keys
              rw [onRequest_injected h]
              unfold RunTokenFilter.injected RunTokenFilter.admitRequest
              rw [htoken]
              dsimp only
              rw [show g.shared.world.operators = g.shared.operators from rfl, hoperator]
              dsimp only
              unfold Operator.admitRequest
              rw [if_neg (not_not.mpr hfull.1), if_pos hfull.2]
              rfl
          · apply Began.replied
            refine ⟨(d.base.injected hash g.shared.world draw.alone request name).1, ?_, ?_⟩
            · rw [world_injected]
              unfold RunTokenFilter.admitRequest
              rw [htoken]
              dsimp only
              rw [show g.shared.world.operators = g.shared.operators from rfl, hoperator]
              dsimp only
              split <;> rfl
            · intro unix keys
              rw [onRequest_injected h]
              rfl
      · next hoperator =>
          dsimp only
          split
          · next hkey =>
              apply Began.replied
              apply hanswer
              unfold RunTokenFilter.admitRequest
              rw [htoken]
              dsimp only
              rw [show g.shared.world.operators = g.shared.operators from rfl, hoperator]
              dsimp only
              have hauth : Runs.authenticate hash g.shared.world.runs token
                  (draw.outside draw g.permit []).now =
                  ((g.made hash ⟨draw.now, .authenticate token⟩).shared.runs, none) :=
                Prod.ext rfl hkey
              rw [hauth]
          · next key hkey =>
              exact .authenticated name key token h hoperator ⟨⟨tokenName, htoken⟩, hkey, rfl⟩

variable (hash d) in
/-- The first critical section of a request. -/
theorem begun_onRequest (g : Gateway H K) (draw : Draw) (request : Request)
    (cluster : Option String) :
    Began hash d g (g.onRequest hash d draw request cluster).1 draw request cluster
      (g.onRequest hash d draw request cluster).2 := by
  -- what is answered without the registry
  have hanswer : ∀ reply, (∀ unix keys, (d.filter unix keys).onRequest hash g.shared.world
      (draw.outside draw g.permit []) request cluster = (g.shared.world, reply)) →
      AtOnce hash d g g draw request cluster reply :=
    fun reply h => ⟨g.shared.world, rfl, h⟩
  unfold Gateway.onRequest
  split
  · next husage =>
      apply Began.replied
      apply hanswer
      intro unix keys
      unfold RunTokenFilter.onRequest
      rw [if_pos husage]
      rfl
  next husage =>
  split
  · next hgrant =>
      apply Began.replied
      apply hanswer
      intro unix keys
      unfold RunTokenFilter.onRequest
      rw [if_neg husage, if_pos hgrant]
      rfl
  next hgrant =>
  split
  · next hruns =>
      split
      · next habsent =>
          apply Began.replied
          apply hanswer
          intro unix keys
          rw [onRequest_runs hruns husage hgrant, habsent]
      · next hendpoints => exact begun_serveRuns g draw cluster hruns husage hgrant hendpoints
      · next loaded hendpoints => exact begun_serveRuns g draw cluster hruns husage hgrant hendpoints
  next hruns =>
  split
  · next htwo =>
      apply Began.replied
      apply hanswer
      intro unix keys
      unfold RunTokenFilter.onRequest
      rw [if_neg husage, if_neg hgrant, if_neg hruns, if_pos htwo]
      rfl
  next hone =>
  split
  · next hpublic =>
      apply Began.replied
      apply hanswer
      intro unix keys
      unfold RunTokenFilter.onRequest
      rw [if_neg husage, if_neg hgrant, if_neg hruns, if_neg hone]
      exact if_pos hpublic
  next hpublic =>
  split
  · next hmode =>
      apply Began.replied
      apply hanswer
      intro unix keys
      unfold RunTokenFilter.onRequest
      rw [if_neg husage, if_neg hgrant, if_neg hruns, if_neg hone,
        if_neg (show request.path ∉ (d.filter unix keys).publicPaths from hpublic),
        show (d.filter unix keys).credentials = d.base.credentials from rfl, hmode]
      rfl
  · next name hmode =>
      apply Began.replied
      apply hanswer
      intro unix keys
      unfold RunTokenFilter.onRequest
      rw [if_neg husage, if_neg hgrant, if_neg hruns, if_neg hone,
        if_neg (show request.path ∉ (d.filter unix keys).publicPaths from hpublic),
        show (d.filter unix keys).credentials = d.base.credentials from rfl, hmode]
      show d.base.passThrough g.shared.world request = _
      unfold RunTokenFilter.passThrough
      dsimp only
      split
      · rfl
      · split <;> rfl
  · next name hmode =>
      obtain ⟨_, hcluster, hlookup⟩ := Option.bind_eq_some_iff.mp hmode
      obtain ⟨_, hfound, heq⟩ := Option.map_eq_some_iff.mp hlookup
      cases heq
      rw [not_or] at hruns
      exact begun_injected g draw
        ⟨⟨husage, hgrant, hruns.1, hruns.2, Nat.not_lt.mp hone⟩, hpublic, hcluster, hfound⟩

end CredentialBroker.Tasks
