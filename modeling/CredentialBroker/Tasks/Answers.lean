import CredentialBroker.Tasks.Began

/-!
# What the tasks answer

A request is answered as `RunTokenFilter.onRequest` answers it: from the registry as it was when the
request first came to it, with the calls of other requests where it comes back to a run it has
authenticated as, with the key that its own call on the cache came to, and with a permit if it found
one when it arrived. So what is shown of `onRequest`, whatever comes between, holds of requests that
interleave.

`Known` is what is known of a task by where it is, and `known_run` the induction.
-/

namespace CredentialBroker.Tasks

open Oidc RunTokenFilter

variable {H K : Type} [DecidableEq H] {hash : Bytes → H} {d : Deployed K}

/-! ## What the later ones do -/

section Later

variable {start : Gateway H K} {draws : List Draw} {draw later : Draw}

/-- A request that is answered at once is answered. -/
theorem AtOnce.answeredAt {g g' now : Gateway H K} {request : Request} {cluster : Option String}
    {reply : Reply} (h : AtOnce hash d g g' draw request cluster reply) (hdraw : draw ∈ draws)
    (hruns : now.shared.runs = g'.shared.runs) (hasked : Asked d draw request g g now []) :
    AnsweredAt hash d g draws draw g now request cluster reply := by
  obtain ⟨world, hworld, honce⟩ := h
  exact ⟨0, fun _ => .error .unavailable, draw, [], world, hdraw, honce _ _,
    hworld.trans hruns.symm, hasked, .inr honce⟩

/-- A registration by a token, in one step from the state it comes to the registry in. -/
theorem answeredAt_register {g now : Gateway H K} {request : Request} {cluster : Option String}
    {loaded : LoadedRegistrar} {verifier : Verifier} {token : Bytes}
    {result : Except OidcError K} {action : FilterAction} (h : Registers d request loaded verifier)
    (hbearer : bearer request.headers = some token) (hpermit : start.permit = true)
    (hkeyed : Keyed d start.keyCalls now.keyCalls token result) {unix : UInt64}
    (hunix : ∃ verified ∈ draws, unix = verified.unix) (hlater : later ∈ draws)
    (hregister :
      (match result >>= d.identity verifier.policy unix token with
        | .error error => (g.shared.runs, refusal error)
        | .ok identity =>
          (Runs.register hash g.shared.runs identity loaded.limits later.random later.unix
            later.now).map id
            fun
            | .ok (token, usage) => json 201 (.registration token usage)
            | .error .alreadyRegistered => reject 409 "run already registered\n"
            | .error .full | .error .overQuota => reject 503 "too many runs\n") =
        (now.shared.runs, action))
    (hasked : Asked d draw request start g now []) :
    AnsweredAt hash d start draws draw g now request cluster (answer action) := by
  refine ⟨unix, fun _ => result, later, [],
    { g.shared.world with runs := now.shared.runs }, hlater, ?_, rfl, hasked, ?_⟩
  · obtain ⟨_, _, -, -, hkid, -⟩ := hkeyed.called
    have hregistered : RunTokenFilter.register hash (d.registrar unix (fun _ => result) loaded)
        g.shared.runs (draw.outside later start.permit []) request.headers =
          (now.shared.runs, action) := by
      rw [register_of_registers h, hbearer, hpermit]
      simp only [hkid]
      exact hregister
    rw [onRequest_register h.endpoints h.path h.method,
      show g.shared.world.runs = g.shared.runs from rfl, hregistered]
  · left
    exact ⟨token, result, hbearer, hkeyed, rfl, hunix⟩

/-- One that has a token that does not verify. -/
theorem answeredAt_refused {g : Gateway H K} {request : Request} {cluster : Option String}
    {loaded : LoadedRegistrar} {verifier : Verifier} {token : Bytes}
    {result : Except OidcError K} (h : Registers d request loaded verifier)
    (hbearer : bearer request.headers = some token) (hpermit : start.permit = true)
    (hkeyed : Keyed d start.keyCalls g.keyCalls token result) (hlater : later ∈ draws)
    {error : OidcError}
    (hrefused : result >>= d.identity verifier.policy later.unix token = .error error) :
    AnsweredAt hash d start draws draw g g request cluster (answer (refusal error)) := by
  apply answeredAt_register h hbearer hpermit hkeyed ⟨later, hlater, rfl⟩ hlater
  · rw [hrefused]
  · exact .nothing rfl

/-- A request that authenticated as a run in state `seen` comes back to the registry in state `g`;
the calls `between` are others'. -/
structure CameBack (hash : Bytes → H) (d : Deployed K) (seen g : Gateway H K) (draw : Draw)
    (request : Request) (key : RunKey) (token : Bytes) (between : List Runs.Call) : Prop where
  carries : ∃ name, d.base.token request.headers = some (name, token)
  found : (Runs.authenticate hash seen.shared.runs token draw.now).2 = some key
  calls : g.calls = seen.calls ++ [⟨draw.now, .authenticate token⟩] ++ between
  runs : (Runs.machine hash).runFrom
    (Runs.authenticate hash seen.shared.runs token draw.now).1 between = g.shared.runs

section CameBack

variable {seen g now : Gateway H K} {request : Request} {key : RunKey} {token : Bytes}
  {between : List Runs.Call}

/-- It has found its run, as one step. -/
theorem CameBack.runOf (h : CameBack hash d seen g draw request key token between) :
    d.base.runOf hash seen.shared.runs request.headers draw.now =
      ((Runs.authenticate hash seen.shared.runs token draw.now).1, some key) := by
  obtain ⟨name, htoken⟩ := h.carries
  unfold RunTokenFilter.runOf
  rw [htoken]
  exact Prod.ext rfl h.found

/-- What it makes of the registry is that of the one step. -/
theorem CameBack.answeredAt (h : CameBack hash d seen g draw request key token between)
    {cluster : Option String} {reply : Reply} {call : Runs.Call}
    (hnow : now = g.made hash call) (hlater : later ∈ draws)
    (honce : ∀ unix keys, (d.filter unix keys).onRequest hash seen.shared.world
      (draw.outside later seen.permit between) request cluster =
        ({ seen.shared.world with runs := now.shared.runs }, reply)) :
    AnsweredAt hash d seen draws draw seen now request cluster reply := by
  obtain ⟨name, hcarries⟩ := h.carries
  refine ⟨0, fun _ => .error .unavailable, later, between,
    { seen.shared.world with runs := now.shared.runs }, hlater, honce _ _, rfl,
    .twice between call name token rfl hcarries ?_, .inr honce⟩
  rw [hnow, show (g.made hash call).calls = g.calls ++ [call] from rfl, h.calls]

/-- An operation on the calling run, as one step. -/
theorem CameBack.serveSelf (h : CameBack hash d seen g draw request key token between)
    (later : Draw) (permit : Bool)
    (operation : Runs.State H → RunKey → Runs.State H × Option RunRecord) :
    d.base.serveSelf hash seen.shared.runs (draw.outside later permit between) request.headers
        operation =
      (operation g.shared.runs key).map id recorded := by
  unfold RunTokenFilter.serveSelf
  rw [show (draw.outside later permit between).now = draw.now from rfl, h.runOf]
  dsimp only
  rw [show (draw.outside later permit between).between = between from rfl, h.runs]
  congr 1

/-- The operation on the calling run answers. -/
theorem answeredAt_operate (h : CameBack hash d seen g draw request key token between)
    (hself : ForSelf d request) (cluster : Option String) (hlater : later ∈ draws) {reply : Reply}
    (hnext : g.operate hash later request key draw.now = (now, .reply reply)) :
    AnsweredAt hash d seen draws draw seen now request cluster reply := by
  have hpath : request.path ≠ runsPath := by
    rw [hself.path]
    decide
  have hunder : ascii "/v1/runs/" <+: request.path := by
    rw [hself.path]
    decide
  -- whatever the registrar is, what `serve_runs` comes to is the answer
  have honce : ∀ action, (∀ registrar, d.base.serveRuns hash registrar seen.shared.runs
      (draw.outside later seen.permit between) request = (now.shared.runs, action)) →
      ∀ unix keys, (d.filter unix keys).onRequest hash seen.shared.world
        (draw.outside later seen.permit between) request cluster =
          ({ seen.shared.world with runs := now.shared.runs }, answer action) := by
    intro action hserve unix keys
    rw [onRequest_runs (.inr hunder) (hself.path ▸ runSelfPath_ne.1)
      (hself.path ▸ runSelfPath_ne.2), show seen.shared.world.runs = seen.shared.runs from rfl]
    cases hendpoints : d.endpoints with
    | absent => exact absurd hendpoints hself.served
    | unconfigured =>
        dsimp only
        rw [hserve]
    | serving loaded =>
        dsimp only
        rw [hserve]
  unfold Gateway.operate at hnext
  split at hnext
  · next hget =>
      simp only [Prod.mk.injEq, Next.reply.injEq] at hnext
      obtain ⟨rfl, rfl⟩ := hnext
      apply h.answeredAt rfl hlater
      apply honce
      intro registrar
      unfold RunTokenFilter.serveRuns
      rw [if_neg hpath, if_pos hself.path, if_pos hget, h.serveSelf]
      rfl
  · next hget =>
      have hdelete := hself.method.resolve_left hget
      simp only [Prod.mk.injEq, Next.reply.injEq] at hnext
      obtain ⟨rfl, rfl⟩ := hnext
      apply h.answeredAt rfl hlater
      apply honce
      intro registrar
      unfold RunTokenFilter.serveRuns
      rw [if_neg hpath, if_pos hself.path, if_neg hget, if_pos hdelete, h.serveSelf]
      rfl

/-- The admission of a run answers. -/
theorem answeredAt_admitRun (h : CameBack hash d seen g draw request key token between)
    {cluster : Option String} {name : String} (hinjection : ForInjection d request cluster name)
    (hoperator : seen.shared.operators.authenticate hash token = none) (hlater : later ∈ draws)
    {reply : Reply} (hnext : g.admitRun hash d request name key draw.now = (now, .reply reply)) :
    AnsweredAt hash d seen draws draw seen now request cluster reply := by
  obtain ⟨carrier, htoken⟩ := h.carries
  have hauth : Runs.authenticate hash seen.shared.world.runs token
      (draw.outside later seen.permit between).now =
        ((Runs.authenticate hash seen.shared.runs token draw.now).1, some key) :=
    Prod.ext rfl h.found
  unfold Gateway.admitRun at hnext
  dsimp only at hnext
  simp only [Prod.mk.injEq, Next.reply.injEq] at hnext
  obtain ⟨rfl, hreply⟩ := hnext
  apply h.answeredAt rfl hlater
  intro unix keys
  rw [onRequest_injected hinjection]
  unfold RunTokenFilter.injected RunTokenFilter.admitRequest
  rw [htoken]
  dsimp only
  rw [show seen.shared.world.operators = seen.shared.operators from rfl, hoperator]
  dsimp only
  rw [hauth]
  dsimp only
  rw [show (draw.outside later seen.permit between).between = between from rfl, h.runs]
  have hadm : Runs.admitRequest g.shared.runs key draw.now =
      ((g.made hash ⟨draw.now, .admitRequest key⟩).shared.runs,
        (Runs.admitRequest g.shared.runs key draw.now).2) := rfl
  rw [show (draw.outside later seen.permit between).now = draw.now from rfl, hadm]
  rw [← hreply]
  generalize (Runs.admitRequest g.shared.runs key draw.now).2 = result
  cases result with
  | error refusal => cases refusal <;> rfl
  | ok admission =>
      dsimp only
      split <;> rfl

end CameBack

end Later

/-! ## What is known of a task -/

section Known

variable {operators : Operators H} {usage : UsageRegistry}

/-- What the acts after `arrival` draw from outside. -/
def drawn (arrival acts : List (Act K)) : List Draw := (acts.drop arrival.length).map Act.draw

theorem mem_drawn {arrival acts : List (Act K)} (h : arrival <+: acts) (act : Act K) :
    act.draw ∈ drawn arrival (acts ++ [act]) := by
  obtain ⟨rest, rfl⟩ := h
  unfold drawn
  rw [List.append_assoc, List.drop_left, List.map_append]
  exact List.mem_append_right _ (List.mem_singleton.mpr rfl)

theorem drawn_subset (arrival : List (Act K)) {acts more : List (Act K)} (h : acts <+: more) :
    drawn arrival acts ⊆ drawn arrival more :=
  ((h.drop arrival.length).map Act.draw).subset

variable (hash d operators usage) in
/-- A request that arrived after `arrival`, and drew `draw` then, was answered by the end of
`acts`. -/
def Answered (acts arrival : List (Act K)) (draw : Draw) (request : Request)
    (cluster : Option String) (reply : Reply) : Prop :=
  ∃ seen now, arrival <+: seen ∧ seen <+: now ∧ now <+: acts ∧
    AnsweredAt hash d ((gateway hash d operators usage).run arrival) (drawn arrival now) draw
      ((gateway hash d operators usage).run seen) ((gateway hash d operators usage).run now)
      request cluster reply

variable (hash d operators usage) in
/-- What is known of a request that arrived after `arrival`, by where it is. -/
inductive StageKnown (acts arrival : List (Act K)) (draw : Draw) (request : Request)
    (cluster : Option String) : Stage K → Prop where
  | self (key : RunKey) (token : Bytes) (hself : ForSelf d request)
      (hauth : Authenticated hash d ((gateway hash d operators usage).run arrival)
        ((gateway hash d operators usage).run (arrival ++ [.request draw request cluster])) draw
        request key token) : StageKnown acts arrival draw request cluster (.self key draw.now)
  | authenticated (name : String) (key : RunKey) (token : Bytes)
      (hinjection : ForInjection d request cluster name)
      (hoperator : ((gateway hash d operators usage).run arrival).shared.operators.authenticate
        hash token = none)
      (hauth : Authenticated hash d ((gateway hash d operators usage).run arrival)
        ((gateway hash d operators usage).run (arrival ++ [.request draw request cluster])) draw
        request key token) :
      StageKnown acts arrival draw request cluster (.authenticated name key draw.now)
  | returning (name : String)
      (hanswered : Answered hash d operators usage acts arrival draw request cluster (busy d)) :
      StageKnown acts arrival draw request cluster (.returning name)
  | counting (admitted : Bool) (action : FilterAction)
      (hanswered : Answered hash d operators usage acts arrival draw request cluster
        (answer action)) :
      StageKnown acts arrival draw request cluster (.counting admitted action)
  | answering (action : FilterAction)
      (hanswered : Answered hash d operators usage acts arrival draw request cluster
        (answer action)) :
      StageKnown acts arrival draw request cluster (.answering action)
  | locking (loaded : LoadedRegistrar) (verifier : Verifier) (token : Bytes) (kid : String)
      (hregisters : Registers d request loaded verifier)
      (hbearer : bearer request.headers = some token)
      (hpermit : ((gateway hash d operators usage).run arrival).permit = true)
      (hkid : d.keyId token = .ok kid) :
      StageKnown acts arrival draw request cluster (.locking verifier.policy token kid)
  | fetching (loaded : LoadedRegistrar) (verifier : Verifier) (token : Bytes) (kid : String)
      (start : Instant) (hregisters : Registers d request loaded verifier)
      (hbearer : bearer request.headers = some token)
      (hpermit : ((gateway hash d operators usage).run arrival).permit = true)
      (hkid : d.keyId token = .ok kid) :
      StageKnown acts arrival draw request cluster (.fetching verifier.policy token kid start)
  | decoding (loaded : LoadedRegistrar) (verifier : Verifier) (token : Bytes) (found : K)
      (hregisters : Registers d request loaded verifier)
      (hbearer : bearer request.headers = some token)
      (hpermit : ((gateway hash d operators usage).run arrival).permit = true)
      (hkeyed : Keyed d ((gateway hash d operators usage).run arrival).keyCalls
        ((gateway hash d operators usage).run acts).keyCalls token (.ok found)) :
      StageKnown acts arrival draw request cluster (.decoding verifier.policy token found)
  | registering (loaded : LoadedRegistrar) (verifier : Verifier) (token : Bytes) (found : K)
      (unix : UInt64) (identity : RunIdentity) (hregisters : Registers d request loaded verifier)
      (hbearer : bearer request.headers = some token)
      (hpermit : ((gateway hash d operators usage).run arrival).permit = true)
      (hunix : ∃ verified ∈ drawn arrival acts, unix = verified.unix)
      (hkeyed : Keyed d ((gateway hash d operators usage).run arrival).keyCalls
        ((gateway hash d operators usage).run acts).keyCalls token (.ok found))
      (hidentity : d.identity verifier.policy unix token found = .ok identity) :
      StageKnown acts arrival draw request cluster (.registering identity)

variable (hash d operators usage) in
/-- What is known of a task under way. -/
def Known (acts : List (Act K)) (id : Nat) (task : Task K) : Prop :=
  ∃ arrival draw, arrival ++ [.request draw task.request task.cluster] <+: acts ∧
    ((gateway hash d operators usage).run arrival).shared.arrived = id ∧
      StageKnown hash d operators usage acts arrival draw task.request task.cluster task.stage

theorem Answered.mono {acts more arrival : List (Act K)} {draw : Draw} {request : Request}
    {cluster : Option String} {reply : Reply}
    (h : Answered hash d operators usage acts arrival draw request cluster reply)
    (hpre : acts <+: more) :
    Answered hash d operators usage more arrival draw request cluster reply := by
  obtain ⟨seen, now, harrival, hseen, hnow, hanswered⟩ := h
  exact ⟨seen, now, harrival, hseen, hnow.trans hpre, hanswered⟩

variable (hash d) in
/-- What was asked of the registry and of the key cache stays on record. -/
theorem records_step (g : Gateway H K) (act : Act K) :
    g.calls <+: (g.step hash d act).1.calls ∧ g.keyCalls <+: (g.step hash d act).1.keyCalls := by
  have hsection : ∀ {g g' : Gateway H K} {id : Nat} {now : Instant} {before : Bool}
      {next : Next K}, Section hash g id now before g' next → ∀ request cluster,
      g.calls <+: (g'.settled id request cluster next).1.calls ∧
        g.keyCalls <+: (g'.settled id request cluster next).1.keyCalls := by
    intro g g' id now before next h request cluster
    rw [Gateway.calls_settled, Gateway.keyCalls_settled]
    obtain ⟨calls, hcalls, -⟩ := h.registry
    refine ⟨hcalls ▸ List.prefix_append _ _, ?_⟩
    cases h.keys with
    | kept _ _ hkeyCalls _ => rw [hkeyCalls]
    | called call _ _ _ _ _ hkeyCalls _ => exact hkeyCalls ▸ List.prefix_append _ _
    | begun _ _ _ _ _ _ _ _ hkeyCalls _ => rw [hkeyCalls]
  have hidle : g.calls <+: g.calls ∧ g.keyCalls <+: g.keyCalls :=
    ⟨List.prefix_refl _, List.prefix_refl _⟩
  cases act with
  | request draw request cluster =>
      exact hsection (Gateway.section_onRequest hash d g.arrive g.shared.arrived draw request
        cluster) request cluster
  | resume id draw =>
      unfold Gateway.step
      dsimp only
      split
      · exact hidle
      · next task _ =>
          cases hwaits : (Next.wait task.stage).fetching with
          | false => exact hsection (Gateway.section_advance hash d g id draw task hwaits) _ _
          | true =>
              rw [g.advance_of_fetching id draw hwaits]
              exact hidle
  | fetched id keys draw =>
      unfold Gateway.step Gateway.fetched
      dsimp only
      split
      · exact hidle
      · split
        · exact ⟨List.prefix_refl _, List.prefix_append _ _⟩
        · exact hidle
  | cancel id draw =>
      unfold Gateway.step Gateway.cancelled
      dsimp only
      split
      · exact hidle
      · split
        · exact hidle
        · exact ⟨List.prefix_refl _, List.prefix_append _ _⟩
        · exact hidle
  | response id head draw => exact hidle
  | body id endOfStream metadata draw => exact ⟨List.prefix_append _ _, List.prefix_refl _⟩
  | drop id draw => exact ⟨List.prefix_append _ _, List.prefix_refl _⟩

variable (hash d operators usage) in
theorem records_run {acts more : List (Act K)} (h : acts <+: more) :
    ((gateway hash d operators usage).run acts).calls <+:
        ((gateway hash d operators usage).run more).calls ∧
      ((gateway hash d operators usage).run acts).keyCalls <+:
        ((gateway hash d operators usage).run more).keyCalls := by
  obtain ⟨rest, rfl⟩ := h
  induction rest using List.reverseRecOn with
  | nil =>
      rw [List.append_nil]
      exact ⟨List.prefix_refl _, List.prefix_refl _⟩
  | append_singleton rest act ih =>
      rw [← List.append_assoc, Mealy.run_concat]
      have hstep := records_step hash d ((gateway hash d operators usage).run (acts ++ rest)) act
      exact ⟨ih.1.trans hstep.1, ih.2.trans hstep.2⟩

theorem StageKnown.mono {acts more arrival : List (Act K)} {draw : Draw} {request : Request}
    {cluster : Option String} {stage : Stage K}
    (h : StageKnown hash d operators usage acts arrival draw request cluster stage)
    (hpre : acts <+: more) :
    StageKnown hash d operators usage more arrival draw request cluster stage := by
  have hkeyCalls := (records_run hash d operators usage hpre).2
  cases h with
  | self key token hself hauth => exact .self key token hself hauth
  | authenticated name key token hinjection hoperator hauth =>
      exact .authenticated name key token hinjection hoperator hauth
  | returning name hanswered => exact .returning name (hanswered.mono hpre)
  | counting admitted action hanswered => exact .counting admitted action (hanswered.mono hpre)
  | answering action hanswered => exact .answering action (hanswered.mono hpre)
  | locking loaded verifier token kid hregisters hbearer hpermit hkid =>
      exact .locking loaded verifier token kid hregisters hbearer hpermit hkid
  | fetching loaded verifier token kid start hregisters hbearer hpermit hkid =>
      exact .fetching loaded verifier token kid start hregisters hbearer hpermit hkid
  | decoding loaded verifier token found hregisters hbearer hpermit hkeyed =>
      exact .decoding loaded verifier token found hregisters hbearer hpermit
        (hkeyed.mono hkeyCalls)
  | registering loaded verifier token found unix identity hregisters hbearer hpermit hunix hkeyed
      hidentity =>
      obtain ⟨verified, hdrawn, hunix⟩ := hunix
      exact .registering loaded verifier token found unix identity hregisters hbearer hpermit
        ⟨verified, drawn_subset arrival hpre hdrawn, hunix⟩ (hkeyed.mono hkeyCalls) hidentity

/-- A request that authenticated comes back. -/
theorem Authenticated.cameBack {acts arrival : List (Act K)} {draw : Draw} {request : Request}
    {cluster : Option String} {key : RunKey} {token : Bytes}
    (h : Authenticated hash d ((gateway hash d operators usage).run arrival)
      ((gateway hash d operators usage).run (arrival ++ [.request draw request cluster])) draw
      request key token)
    (hpre : arrival ++ [.request draw request cluster] <+: acts) :
    ∃ between, CameBack hash d ((gateway hash d operators usage).run arrival)
      ((gateway hash d operators usage).run acts) draw request key token between := by
  obtain ⟨between, hbetween⟩ := (records_run hash d operators usage hpre).1
  rw [h.calls] at hbetween
  refine ⟨between, h.carries, h.found, hbetween.symm, ?_⟩
  rw [(inStep_run hash d operators usage acts).registry, ← hbetween, Mealy.run_append,
    Mealy.run_concat, (inStep_run hash d operators usage arrival).registry]
  rfl

/-- What it asked stays, whatever else the state becomes. -/
theorem Asked.congr {draw : Draw} {request : Request} {start seen now now' : Gateway H K}
    {between : List Runs.Call} (h : Asked d draw request start seen now between)
    (hcalls : now'.calls = now.calls) : Asked d draw request start seen now' between := by
  cases h with
  | nothing hnow => exact .nothing (hcalls.trans hnow)
  | once call hnow => exact .once call (hcalls.trans hnow)
  | twice between call name token hseen hcarries hnow =>
      exact .twice between call name token hseen hcarries (hcalls.trans hnow)

theorem AnsweredAt.settled {start : Gateway H K} {draws : List Draw} {draw : Draw}
    {seen g : Gateway H K} {request request' : Request} {cluster cluster' : Option String}
    {reply : Reply} (h : AnsweredAt hash d start draws draw seen g request cluster reply) (id : Nat)
    (next : Next K) :
    AnsweredAt hash d start draws draw seen (g.settled id request' cluster' next).1 request cluster
      reply := by
  obtain ⟨unix, keys, later, between, world, hlater, honce, hruns, hasked, hkeys⟩ := h
  refine ⟨unix, keys, later, between, world, hlater, honce, ?_, ?_, ?_⟩
  · rw [Gateway.runs_settled]
    exact hruns
  · exact hasked.congr (Gateway.calls_settled _ _ _ _ _)
  · rw [Gateway.keyCalls_settled]
    exact hkeys

variable (hash d operators usage) in
/-- What is known of what a critical section leads to. -/
def NextKnown (acts arrival : List (Act K)) (draw : Draw) (request : Request)
    (cluster : Option String) : Next K → Prop
  | .wait stage => StageKnown hash d operators usage acts arrival draw request cluster stage
  | .reply reply => Answered hash d operators usage acts arrival draw request cluster reply

/-- What a registration waits for once its own call on the cache has come to a result. -/
theorem stageKnown_keyed {acts arrival : List (Act K)} {draw : Draw} {request : Request}
    {cluster : Option String} {loaded : LoadedRegistrar} {verifier : Verifier} {token : Bytes}
    {result : Except OidcError K} (hregisters : Registers d request loaded verifier)
    (hbearer : bearer request.headers = some token)
    (hpermit : ((gateway hash d operators usage).run arrival).permit = true)
    (harrival : arrival <+: acts) {later : Draw} (hlater : later ∈ drawn arrival acts)
    (hkeyed : Keyed d ((gateway hash d operators usage).run arrival).keyCalls
      ((gateway hash d operators usage).run acts).keyCalls token result) :
    StageKnown hash d operators usage acts arrival draw request cluster
      (keyed verifier.policy token result) := by
  cases result with
  | ok found => exact .decoding loaded verifier token found hregisters hbearer hpermit hkeyed
  | error error =>
      apply StageKnown.answering
      refine ⟨acts, acts, harrival, List.prefix_refl _, List.prefix_refl _, ?_⟩
      exact answeredAt_refused hregisters hbearer hpermit hkeyed hlater rfl

/-- What looking a key up leads to. -/
theorem lookUp_cases {g : Gateway H K} (hi : InStep hash g) (id : Nat) (draw : Draw)
    (policy : Policy) {token : Bytes} {kid : String} (hkid : d.keyId token = .ok kid)
    {since : List (KeyCall K)} (hsince : since <+: g.keyCalls) :
    (g.lookUp id draw policy token kid).2 = .wait (.locking policy token kid) ∨
      (g.lookUp id draw policy token kid).2 = .wait (.fetching policy token kid draw.now) ∨
      ∃ result, (g.lookUp id draw policy token kid).2 = .wait (keyed policy token result) ∧
        Keyed d since (g.lookUp id draw policy token kid).1.keyCalls token result := by
  unfold Gateway.lookUp
  split
  · exact .inl rfl
  · next hfree =>
      rw [Bool.not_eq_true, Option.isSome_eq_false_iff, Option.isNone_iff_eq_none] at hfree
      have hcache := hi.unlocked hfree
      right
      dsimp only
      split
      · next found hfresh =>
          right
          refine ⟨.ok found, rfl, g.keyCalls, ⟨kid, draw.now, .failed, draw.now⟩,
            hsince, List.prefix_refl _, hkid, ?_⟩
          rw [← hcache]
          simp [Oidc.key, hfresh]
      · next hfresh =>
          split
          · exact .inl rfl
          · next hsoon =>
              right
              refine ⟨g.cache.answer kid draw.now, rfl, g.keyCalls,
                ⟨kid, draw.now, .failed, draw.now⟩, hsince, List.prefix_refl _, hkid, ?_⟩
              rw [← hcache]
              simp [Oidc.key, hfresh, hsoon]

variable (hash d operators usage) in
/-- **Step**, of a request that arrives: what it comes to is known. -/
theorem nextKnown_onRequest (acts : List (Act K)) (draw : Draw) (request : Request)
    (cluster : Option String) :
    NextKnown hash d operators usage (acts ++ [.request draw request cluster]) acts draw request
      cluster (((gateway hash d operators usage).run acts).arrive.onRequest hash d draw request
        cluster).2 := by
  have hrun : (gateway hash d operators usage).run (acts ++ [.request draw request cluster]) =
      ((((gateway hash d operators usage).run acts).arrive.onRequest hash d draw request
        cluster).1.settled ((gateway hash d operators usage).run acts).shared.arrived request cluster
          (((gateway hash d operators usage).run acts).arrive.onRequest hash d draw request
            cluster).2).1 := Mealy.run_concat _ _ _
  have hcalls := (((gateway hash d operators usage).run acts).arrive.ran_onRequest hash d 0 draw
    request cluster).calls
  have hbegan := begun_onRequest hash d
    ((gateway hash d operators usage).run acts).arrive draw request cluster
  revert hrun hcalls hbegan
  generalize ((gateway hash d operators usage).run acts).arrive.onRequest hash d draw request
    cluster = result
  obtain ⟨g', next⟩ := result
  intro hrun hcalls hbegan
  have hnow : ∀ reply, AtOnce hash d ((gateway hash d operators usage).run acts).arrive g' draw
      request cluster reply → Answered hash d operators usage
        (acts ++ [.request draw request cluster]) acts draw request cluster reply := by
    intro reply honce
    refine ⟨acts, acts ++ [.request draw request cluster], List.prefix_refl _,
      List.prefix_append _ _, List.prefix_refl _, ?_⟩
    have hdraw := mem_drawn (List.prefix_refl acts) (.request draw request cluster)
    rw [hrun]
    apply AtOnce.answeredAt (g := ((gateway hash d operators usage).run acts)) honce hdraw
    · exact Gateway.runs_settled _ _ _ _ _
    · rcases hcalls with hnone | ⟨call, hcall⟩
      · exact .nothing ((Gateway.calls_settled _ _ _ _ _).trans hnone)
      · exact .once call ((Gateway.calls_settled _ _ _ _ _).trans hcall)
  have hauthenticated : ∀ key token,
      Authenticated hash d ((gateway hash d operators usage).run acts).arrive g' draw request key
        token →
      Authenticated hash d ((gateway hash d operators usage).run acts)
        ((gateway hash d operators usage).run (acts ++ [.request draw request cluster])) draw
        request key token := by
    intro key token hauth
    refine ⟨hauth.carries, hauth.found, ?_⟩
    rw [hrun, Gateway.calls_settled]
    exact hauth.calls
  cases hbegan with
  | replied reply honce => exact hnow reply honce
  | returning name honce => exact .returning name (hnow _ honce)
  | counting admitted action honce => exact .counting admitted action (hnow _ honce)
  | answering action honce => exact .answering action (hnow _ honce)
  | self key token hself hauth => exact .self key token hself (hauthenticated key token hauth)
  | authenticated name key token hinjection hoperator hauth =>
      exact .authenticated name key token hinjection hoperator (hauthenticated key token hauth)
  | locking loaded verifier token kid hregisters hbearer hpermit hkid =>
      exact .locking loaded verifier token kid hregisters hbearer hpermit hkid

/-- **Step**, of a task's next critical section. -/
theorem nextKnown_advance {acts : List (Act K)} {id : Nat} {task : Task K} {arrival : List (Act K)}
    {draw : Draw} (later : Draw)
    (harrival : arrival ++ [.request draw task.request task.cluster] <+: acts)
    (hknown : StageKnown hash d operators usage acts arrival draw task.request task.cluster
      task.stage)
    (hrun : (gateway hash d operators usage).run (acts ++ [.resume id later]) =
      ((((gateway hash d operators usage).run acts).advance hash d id later task).1.settled id
        task.request task.cluster
          (((gateway hash d operators usage).run acts).advance hash d id later task).2).1) :
    NextKnown hash d operators usage (acts ++ [.resume id later]) arrival draw task.request
      task.cluster (((gateway hash d operators usage).run acts).advance hash d id later task).2 := by
  obtain ⟨request, cluster, stage⟩ := task
  dsimp only at harrival hknown hrun ⊢
  have hpre : acts <+: acts ++ [.resume id later] := List.prefix_append _ _
  have harrived : arrival <+: acts := (List.prefix_append _ _).trans harrival
  have hseen : arrival <+: acts ++ [.resume id later] := harrived.trans hpre
  have hlater : later ∈ drawn arrival (acts ++ [.resume id later]) := mem_drawn harrived _
  cases hknown with
  | self key token hself hauth =>
      obtain ⟨between, hback⟩ := hauth.cameBack harrival
      obtain ⟨g', reply, hoperate⟩ : ∃ g' reply,
          ((gateway hash d operators usage).run acts).operate hash later request key draw.now =
            (g', .reply reply) := by
        unfold Gateway.operate
        split <;> exact ⟨_, _, rfl⟩
      have hadvance : ((gateway hash d operators usage).run acts).advance hash d id later
          ⟨request, cluster, .self key draw.now⟩ = (g', .reply reply) := hoperate
      rw [hadvance] at hrun ⊢
      refine ⟨arrival, acts ++ [.resume id later], List.prefix_refl _, hseen, List.prefix_refl _, ?_⟩
      rw [hrun]
      exact (answeredAt_operate hback hself cluster hlater hoperate).settled id _
  | authenticated name key token hinjection hoperator hauth =>
      obtain ⟨between, hback⟩ := hauth.cameBack harrival
      obtain ⟨g', reply, hadm⟩ : ∃ g' reply,
          ((gateway hash d operators usage).run acts).admitRun hash d request name key draw.now =
            (g', .reply reply) := ⟨_, _, rfl⟩
      have hadvance : ((gateway hash d operators usage).run acts).advance hash d id later
          ⟨request, cluster, .authenticated name key draw.now⟩ = (g', .reply reply) := hadm
      rw [hadvance] at hrun ⊢
      refine ⟨arrival, acts ++ [.resume id later], List.prefix_refl _, hseen, List.prefix_refl _, ?_⟩
      rw [hrun]
      exact (answeredAt_admitRun hback hinjection hoperator hlater hadm).settled id _
  | returning name hanswered => exact hanswered.mono hpre
  | counting admitted action hanswered => exact hanswered.mono hpre
  | answering action hanswered => exact hanswered.mono hpre
  | locking loaded verifier token kid hregisters hbearer hpermit hkid =>
      have hadvance : ((gateway hash d operators usage).run acts).advance hash d id later
          ⟨request, cluster, .locking verifier.policy token kid⟩ =
        ((gateway hash d operators usage).run acts).lookUp id later verifier.policy token kid := rfl
      rw [hadvance] at hrun ⊢
      rcases lookUp_cases (inStep_run hash d operators usage acts) id later verifier.policy hkid
        (records_run hash d operators usage harrived).2 with
        hnext | hnext | ⟨result, hnext, hkeyed⟩
      · rw [hnext]
        exact .locking loaded verifier token kid hregisters hbearer hpermit hkid
      · rw [hnext]
        exact .fetching loaded verifier token kid later.now hregisters hbearer hpermit hkid
      · rw [hnext]
        apply stageKnown_keyed hregisters hbearer hpermit hseen hlater
        rw [hrun, Gateway.keyCalls_settled]
        exact hkeyed
  | fetching loaded verifier token kid start hregisters hbearer hpermit hkid =>
      exact .fetching loaded verifier token kid start hregisters hbearer hpermit hkid
  | decoding loaded verifier token found hregisters hbearer hpermit hkeyed =>
      have hkeyed' := hkeyed.mono (records_run hash d operators usage hpre).2
      cases hidentity : d.identity verifier.policy later.unix token found with
      | ok identity =>
          have hnext : (((gateway hash d operators usage).run acts).advance hash d id later
              ⟨request, cluster, .decoding verifier.policy token found⟩).2 =
            .wait (.registering identity) := by
            unfold Gateway.advance
            dsimp only
            rw [hidentity]
          rw [hnext]
          exact .registering loaded verifier token found later.unix identity hregisters hbearer
            hpermit ⟨later, hlater, rfl⟩ hkeyed' hidentity
      | error error =>
          have hnext : (((gateway hash d operators usage).run acts).advance hash d id later
              ⟨request, cluster, .decoding verifier.policy token found⟩).2 =
            .wait (.answering (refusal error)) := by
            unfold Gateway.advance
            dsimp only
            rw [hidentity]
          rw [hnext]
          apply StageKnown.answering
          refine ⟨_, _, hseen, List.prefix_refl _, List.prefix_refl _, ?_⟩
          exact answeredAt_refused hregisters hbearer hpermit hkeyed' hlater hidentity
  | registering loaded verifier token found unix identity hregisters hbearer hpermit hunix hkeyed
      hidentity =>
      obtain ⟨verified, hdrawn, hunix⟩ := hunix
      have hadvance : ((gateway hash d operators usage).run acts).advance hash d id later
          ⟨request, cluster, .registering identity⟩ =
        ((gateway hash d operators usage).run acts).registerIdentity hash d later identity := rfl
      rw [hadvance] at hrun ⊢
      unfold Gateway.registerIdentity at hrun ⊢
      rw [hregisters.endpoints] at hrun ⊢
      dsimp only at hrun ⊢
      apply StageKnown.answering
      refine ⟨acts, acts ++ [.resume id later], harrived, hpre, List.prefix_refl _, ?_⟩
      apply answeredAt_register hregisters hbearer hpermit
        (hkeyed.mono (records_run hash d operators usage hpre).2)
        ⟨verified, drawn_subset arrival hpre hdrawn, hunix⟩ hlater
      · show (match d.identity verifier.policy unix token found with
          | .error error => _
          | .ok identity => _) = _
        rw [hidentity, hrun]
        rfl
      · rw [hrun]
        exact .once _ (Gateway.calls_settled _ _ _ _ _)

theorem Known.mono {acts more : List (Act K)} {id : Nat} {task : Task K}
    (h : Known hash d operators usage acts id task) (hpre : acts <+: more) :
    Known hash d operators usage more id task := by
  obtain ⟨arrival, draw, harrival, hid, hstage⟩ := h
  exact ⟨arrival, draw, harrival.trans hpre, hid, hstage.mono hpre⟩

/-- What is known of the task that a critical section leads to, if it is known of all others. -/
theorem Known.settled {acts more : List (Act K)} {g : Gateway H K} {id : Nat} {request : Request}
    {cluster : Option String} {next : Next K}
    (hothers : ∀ other task, g.tasks.lookup other = some task →
      Known hash d operators usage acts other task) (hpre : acts <+: more) {arrival : List (Act K)}
    {draw : Draw} (harrival : arrival ++ [.request draw request cluster] <+: more)
    (hid : ((gateway hash d operators usage).run arrival).shared.arrived = id)
    (hnext : NextKnown hash d operators usage more arrival draw request cluster next) (other : Nat)
    (task : Task K) (htask : (g.settled id request cluster next).1.tasks.lookup other = some task) :
    Known hash d operators usage more other task := by
  rw [Gateway.lookup_settled] at htask
  split at htask
  · next heq =>
      cases next with
      | wait stage =>
          cases htask
          exact ⟨arrival, draw, harrival, hid.trans heq.symm, hnext⟩
      | reply reply => cases htask
  · exact (hothers other task htask).mono hpre

/-- A task whose fetch is over. -/
theorem stageKnown_fetched {acts arrival : List (Act K)} {id : Nat} {request : Request}
    {cluster : Option String} {policy : Policy} {token : Bytes} {kid : String} {start : Instant}
    {draw : Draw}
    (htask : ((gateway hash d operators usage).run acts).tasks.lookup id =
      some ⟨request, cluster, .fetching policy token kid start⟩)
    (hknown : StageKnown hash d operators usage acts arrival draw request cluster
      (.fetching policy token kid start)) (harrival : arrival <+: acts)
    (keys : Option (Assoc String K)) (later : Draw) :
    ∃ stage, ((gateway hash d operators usage).run acts).fetched id
        ⟨request, cluster, .fetching policy token kid start⟩ keys later =
          { ((gateway hash d operators usage).run acts).fetched id
              ⟨request, cluster, .fetching policy token kid start⟩ keys later with
            tasks := ((gateway hash d operators usage).run acts).tasks.insert id
              ⟨request, cluster, stage⟩ } ∧
      StageKnown hash d operators usage (acts ++ [.fetched id keys later]) arrival draw request
        cluster stage := by
  have hi := inStep_run hash d operators usage acts
  obtain ⟨_, _, _, _, _, _, htask', hfetching⟩ := hi.locked id (hi.fetching _ _ _ _ _ _ _ htask)
  rw [htask] at htask'
  cases htask'
  have hrun : (gateway hash d operators usage).run (acts ++ [.fetched id keys later]) =
      ((gateway hash d operators usage).run acts).fetched id
        ⟨request, cluster, .fetching policy token kid start⟩ keys later := by
    rw [Mealy.run_concat]
    show (((gateway hash d operators usage).run acts).step hash d (.fetched id keys later)).1 = _
    unfold Gateway.step
    dsimp only
    rw [htask]
  cases hknown with
  | fetching loaded verifier _ _ _ hregisters hbearer hpermit hkid =>
      refine ⟨_, rfl, ?_⟩
      apply stageKnown_keyed hregisters hbearer hpermit (harrival.trans (List.prefix_append _ _))
        (mem_drawn harrival (.fetched id keys later))
      rw [hrun]
      refine ⟨((gateway hash d operators usage).run acts).keyCalls, _,
        (records_run hash d operators usage harrival).2, List.prefix_refl _, hkid, ?_⟩
      -- the call began with the cache as those before it left it
      have hfresh := hfetching.fresh
      have hdue := hfetching.due
      rw [hfetching.cache]
      cases keys with
      | none => simp [Oidc.key, hfresh, hdue]
      | some set => simp [Oidc.key, hfresh, hdue]

/-- **Step.** What is known of the tasks is known after the next act, of each by where it then
is. -/
theorem known_step {acts : List (Act K)} {act : Act K}
    (h : ∀ id task, ((gateway hash d operators usage).run acts).tasks.lookup id = some task →
      Known hash d operators usage acts id task) {other : Nat} {task : Task K}
    (htask : ((gateway hash d operators usage).run (acts ++ [act])).tasks.lookup other =
      some task) : Known hash d operators usage (acts ++ [act]) other task := by
  have hpre : acts <+: acts ++ [act] := List.prefix_append _ _
  have hrun : (gateway hash d operators usage).run (acts ++ [act]) =
      (((gateway hash d operators usage).run acts).step hash d act).1 := Mealy.run_concat _ _ _
  rw [hrun] at htask
  cases act with
  | request draw request cluster =>
      have hothers : ∀ other task,
          (((gateway hash d operators usage).run acts).arrive.onRequest hash d draw request
            cluster).1.tasks.lookup other = some task →
          Known hash d operators usage acts other task := by
        intro other task hother
        rw [(((gateway hash d operators usage).run acts).arrive.section_onRequest hash d 0 draw
          request cluster).tasks] at hother
        exact h other task hother
      exact Known.settled hothers hpre (List.prefix_refl _) rfl
        (nextKnown_onRequest hash d operators usage acts draw request cluster) other task htask
  | resume id draw =>
      unfold Gateway.step at htask hrun
      dsimp only at htask hrun
      split at htask
      · exact (h other task htask).mono hpre
      · next before hbefore =>
          rw [hbefore] at hrun
          obtain ⟨arrival, draw', harrival, hid, hstage⟩ := h id before hbefore
          have hothers : ∀ other task,
              (((gateway hash d operators usage).run acts).advance hash d id draw
                before).1.tasks.lookup other = some task →
              Known hash d operators usage acts other task := by
            intro other task hother
            cases hwaits : (Next.wait before.stage).fetching with
            | false =>
                rw [(((gateway hash d operators usage).run acts).section_advance hash d id draw
                  before hwaits).tasks] at hother
                exact h other task hother
            | true =>
                rw [Gateway.advance_of_fetching _ id draw hwaits] at hother
                exact h other task hother
          exact Known.settled hothers hpre (harrival.trans hpre) hid
            (nextKnown_advance draw harrival hstage hrun) other task htask
  | fetched id keys draw =>
      unfold Gateway.step at htask
      dsimp only at htask
      split at htask
      · exact (h other task htask).mono hpre
      · next before hbefore =>
          obtain ⟨request, cluster, stage⟩ := before
          cases stage with
          | fetching policy token kid start =>
              obtain ⟨arrival, draw', harrival, hid, hstage⟩ := h id _ hbefore
              obtain ⟨stage, hfetched, hknown⟩ := stageKnown_fetched hbefore hstage
                ((List.prefix_append _ _).trans harrival) keys draw
              rw [hfetched] at htask
              dsimp only at htask
              rw [Assoc.lookup_insert_eq] at htask
              split at htask
              · next heq =>
                  cases htask
                  exact ⟨arrival, draw', harrival.trans hpre, hid.trans heq.symm, hknown⟩
              · exact (h other task htask).mono hpre
          | _ => exact (h other task htask).mono hpre
  | cancel id draw =>
      unfold Gateway.step at htask
      dsimp only at htask
      have herase : (((gateway hash d operators usage).run acts).tasks.erase id).lookup other =
          some task → Known hash d operators usage (acts ++ [.cancel id draw]) other task := by
        intro hother
        rw [Assoc.lookup_erase_eq] at hother
        split at hother
        · cases hother
        · exact (h other task hother).mono hpre
      split at htask
      · exact (h other task htask).mono hpre
      · next before hbefore =>
          unfold Gateway.cancelled at htask
          split at htask
          · exact herase htask
          · exact herase htask
          · exact (h other task htask).mono hpre
  | response id head draw => exact (h other task htask).mono hpre
  | body id endOfStream metadata draw => exact (h other task htask).mono hpre
  | drop id draw => exact (h other task htask).mono hpre

variable (hash d operators usage) in
/-- **Run.** So it is known of every task, wherever the requests have come to. -/
theorem known_run (acts : List (Act K)) : ∀ id task,
    ((gateway hash d operators usage).run acts).tasks.lookup id = some task →
      Known hash d operators usage acts id task := by
  induction acts using List.reverseRecOn with
  | nil =>
      intro id task htask
      cases htask
  | append_singleton acts act ih =>
      intro id task htask
      exact known_step ih htask

end Known

end CredentialBroker.Tasks
