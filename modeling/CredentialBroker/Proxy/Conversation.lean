import CredentialBroker.Proxy.Requests
import CredentialBroker.Util.Transitions

/-!
# What the proxy does for one request

`Allowed` is what the proxy is for, without its handlers, permits or taps: the stages a request goes
through, and what may happen in each. The agent is asked anew before everything that is sent, what
is sent is the client's request under what was just granted, and a response that says the
credentials are unauthorized is not forwarded the first time but recovered from, once. What is
logged of a response is the usage that the forwarded part of it reports.

`allowed_run` says that this is all that happens to any request, in every run of all of them.
-/

namespace CredentialBroker.Proxy

open Transitions (Path path_run)

/-! ## Stages -/

/-- What a request has come to; `again` is once the credentials were recovered. -/
inductive Stage where
  | start
  | fresh (request : Request)
  | reading (request : Request)
  | ready (job : Job) (again : Bool)
  | asking (job : Job) (again : Bool)
  | trusted (job : Job) (again : Bool) (credentials : Credentials)
  | sent (job : Job) (again : Bool)
  | headed (job : Job) (again : Bool) (response : UpstreamResponse)
  | lapsed (job : Job)
  | recovering (job : Job)
  /-- The chunks of the body that went to the client so far. -/
  | forwarding (job : Job) (response : UpstreamResponse) (passed : List Bytes)
  | cut (job : Job) (response : UpstreamResponse) (passed : List Bytes)
  | closing (job : Job) (response : UpstreamResponse) (passed : List Bytes)
  | finished

/-- The proxy may answer itself. -/
def Stage.answers : Stage → Bool
  | fresh _ | reading _ | asking _ _ | trusted _ _ _ | sent _ _ | recovering _ => true
  | _ => false

/-- The client may be gone, and nothing was forwarded. -/
def Stage.waits : Stage → Bool
  | reading _ | asking _ _ | sent _ _ | recovering _ => true
  | _ => false

variable (app : App)

/-- What is logged of a response whose `passed` went to the client. -/
def App.lineOf (job : Job) (response : UpstreamResponse) (passed : List Bytes) : UsageLine where
  trace := job.trace
  status := response.status
  usage := UsageTap.logged app.json.fromSlice
    (App.isEvents (responseHeaders response.status response.headers)) passed

/-- What may happen in a stage, and where it leads. -/
inductive Allowed : Stage → Happening → Stage → Prop where
  | received (request : Request) : Allowed .start (.received request) (.fresh request)
  | admitted {request : Request} (h : app.turnsAway request = none) :
      Allowed (.fresh request) .admitted (.reading request)
  | answered {stage : Stage} (h : stage.answers = true) (status : Nat) (text : String) :
      Allowed stage (.answered status text) .finished
  | read {request : Request} {body : Bytes} {codex : CodexRequest}
      (h : normalizeCodexRequest app.json body = .ok codex) :
      Allowed (.reading request) (.read body) (.ready (app.job request codex) false)
  | asked (job : Job) (again : Bool) :
      Allowed (.ready job again) (.asked .acquire) (.asking job again)
  | granted (job : Job) (again : Bool) (credentials : Credentials) :
      Allowed (.asking job again) (.granted credentials) (.trusted job again credentials)
  | sent {job : Job} {credentials : Credentials} {headers : HeaderMap} (again : Bool)
      (h : upstreamHeaders app.http job.headers credentials.headers = some headers) :
      Allowed (.trusted job again credentials) (.sent ⟨headers, job.body⟩) (.sent job again)
  | headed (job : Job) (again : Bool) (response : UpstreamResponse) :
      Allowed (.sent job again) (.headed response) (.headed job again response)
  | lapsed (job : Job) {response : UpstreamResponse} (h : response.status = 401) :
      Allowed (.headed job false response) (.logged ⟨job.trace, response.status, none⟩)
        (.lapsed job)
  | askedRecovery (job : Job) :
      Allowed (.lapsed job) (.asked .unauthorizedRecovery) (.recovering job)
  | recovered (job : Job) : Allowed (.recovering job) .recovered (.ready job true)
  | forwarded (job : Job) {again : Bool} {response : UpstreamResponse}
      (h : response.status = 401 → again = true) :
      Allowed (.headed job again response)
        (.forwarded response.status (responseHeaders response.status response.headers))
        (.forwarding job response [])
  | passed (job : Job) (response : UpstreamResponse) {passed : List Bytes} {bytes : Bytes}
      (h : (passed ++ [bytes]).flatten.length ≤ app.maxBytes) :
      Allowed (.forwarding job response passed) (.streamed (.chunk bytes) (some (.ok bytes)))
        (.forwarding job response (passed ++ [bytes]))
  | exceeded (job : Job) (response : UpstreamResponse) {passed : List Bytes} {bytes : Bytes}
      (h : app.maxBytes < (passed ++ [bytes]).flatten.length) :
      Allowed (.forwarding job response passed)
        (.streamed (.chunk bytes) (some (.error "response limit exceeded")))
        (.cut job response passed)
  | failed (job : Job) (response : UpstreamResponse) (passed : List Bytes) :
      Allowed (.forwarding job response passed)
        (.streamed .failed (some (.error "upstream stream failed"))) (.cut job response passed)
  | idle (job : Job) (response : UpstreamResponse) (passed : List Bytes) :
      Allowed (.forwarding job response passed)
        (.streamed .idle (some (.error "upstream idle timeout"))) (.cut job response passed)
  | ended (job : Job) (response : UpstreamResponse) (passed : List Bytes) :
      Allowed (.forwarding job response passed) (.streamed .ended none)
        (.closing job response passed)
  | left {stage : Stage} (h : stage.waits = true) : Allowed stage .left .finished
  | leftForwarding (job : Job) (response : UpstreamResponse) (passed : List Bytes) :
      Allowed (.forwarding job response passed) .left (.closing job response passed)
  | leftCut (job : Job) (response : UpstreamResponse) (passed : List Bytes) :
      Allowed (.cut job response passed) .left (.closing job response passed)
  | loggedCut (job : Job) (response : UpstreamResponse) (passed : List Bytes) :
      Allowed (.cut job response passed) (.logged (app.lineOf job response passed)) .finished
  | logged (job : Job) (response : UpstreamResponse) (passed : List Bytes) :
      Allowed (.closing job response passed) (.logged (app.lineOf job response passed)) .finished

/-! ## Refinement -/

/-- A relay of a response of which `passed` went to the client. -/
structure RelayOf (job : Job) (response : UpstreamResponse) (passed : List Bytes)
    (relay : Relay) : Prop where
  status : relay.status = response.status
  trace : relay.trace = job.trace
  tap : relay.tap = UsageTap.fed app.json.fromSlice
    (App.isEvents (responseHeaders response.status response.headers)) passed

/-- Where a handler waits, and what its request has come to. -/
inductive Corresponds : Phase → Stage → Prop where
  | readingBody (request : Request) : Corresponds (.readingBody request) (.reading request)
  | acquiring (job : Job) (recovered : Bool) :
      Corresponds (.acquiring job recovered) (.asking job recovered)
  | sending (job : Job) (recovered : Bool) :
      Corresponds (.sending job recovered) (.sent job recovered)
  | recovering (job : Job) : Corresponds (.recovering job) (.recovering job)
  | forwarding {job : Job} {response : UpstreamResponse} {passed : List Bytes} {relay : Relay}
      (h : RelayOf app job response passed relay) (htotal : relay.total = passed.flatten.length) :
      Corresponds (.forwarding relay) (.forwarding job response passed)
  | broken {job : Job} {response : UpstreamResponse} {passed : List Bytes} {relay : Relay}
      (h : RelayOf app job response passed relay) :
      Corresponds (.broken relay) (.cut job response passed)

/-- What a handler came to by a step: it waits, or its request is over. -/
def Corresponding (phase : Option Phase) (stage : Stage) : Prop :=
  match phase with
  | some phase => Corresponds app phase stage
  | none => stage = .finished

variable {app}

theorem RelayOf.line {job : Job} {response : UpstreamResponse} {passed : List Bytes}
    {relay : Relay} (h : RelayOf app job response passed relay) :
    app.line relay = app.lineOf job response passed := by
  unfold App.line App.lineOf UsageTap.logged
  rw [h.status, h.trace, h.tap]

/-- **Step** of a response that is forwarded. -/
theorem allowed_stream {job : Job} {response : UpstreamResponse} {passed : List Bytes}
    {relay : Relay} (h : RelayOf app job response passed relay)
    (htotal : relay.total = passed.flatten.length) (event : StreamEvent) :
    ∃ stage, Path (Allowed app) (.forwarding job response passed)
        (app.advanceStream relay event).2 stage ∧
      Corresponding app (app.advanceStream relay event).1 stage := by
  have hflatten : ∀ bytes : Bytes,
      (passed ++ [bytes]).flatten.length = relay.total + bytes.length := by
    intro bytes
    rw [htotal, List.flatten_append, List.flatten_singleton, List.length_append]
  cases event with
  | chunk bytes =>
      unfold App.advanceStream
      dsimp only
      split
      · next hover =>
          rw [← hflatten] at hover
          exact ⟨_, .single (.exceeded job response hover), .broken ⟨h.status, h.trace, h.tap⟩⟩
      · next hfits =>
          rw [← hflatten, Nat.not_lt] at hfits
          refine ⟨_, .single (.passed job response hfits), ?_⟩
          refine Corresponds.forwarding ⟨h.status, h.trace, ?_⟩ (hflatten bytes).symm
          show relay.tap.feed _ bytes = _
          rw [h.tap]
          unfold UsageTap.fed
          rw [List.foldl_append]
          rfl
  | failed => exact ⟨_, .single (.failed job response passed), .broken h⟩
  | idle => exact ⟨_, .single (.idle job response passed), .broken h⟩
  | ended =>
      refine ⟨.finished, .cons (.ended job response passed) (.single ?_), rfl⟩
      rw [h.line]
      exact .logged job response passed

/-- A handler may be dropped wherever it waits. -/
theorem allowed_left {phase : Phase} {stage : Stage} (h : Corresponds app phase stage) :
    Path (Allowed app) stage (.left :: app.dropped phase) .finished := by
  cases h with
  | readingBody | acquiring | sending | recovering => exact .single (.left rfl)
  | forwarding h _ =>
      refine .cons (.leftForwarding _ _ _) (.single ?_)
      rw [h.line]
      exact .logged _ _ _
  | broken h =>
      refine .cons (.leftCut _ _ _) (.single ?_)
      rw [h.line]
      exact .logged _ _ _

/-- **Step.** What a handler does is allowed, one case for each place it waits at. -/
theorem allowed_advance {phase : Phase} {stage : Stage} (h : Corresponds app phase stage)
    (input : Input) :
    ∃ stage', Path (Allowed app) stage (app.advance phase input).2 stage' ∧
      Corresponding app (app.advance phase input).1 stage' := by
  have hstay : ∃ stage', Path (Allowed app) stage [] stage' ∧
      Corresponding app (some phase) stage' := ⟨stage, .nil stage, h⟩
  cases input with
  | left =>
      rw [App.advance]
      exact ⟨.finished, allowed_left h, rfl⟩
  | body outcome =>
      cases h with
      | readingBody request =>
          unfold App.advance
          dsimp only
          cases outcome with
          | failed => exact ⟨.finished, .single (.answered rfl _ _), rfl⟩
          | timeout => exact ⟨.finished, .single (.answered rfl _ _), rfl⟩
          | read body =>
              dsimp only
              split
              · exact ⟨.finished, .single (.answered rfl _ _), rfl⟩
              · next codex hcodex =>
                  exact ⟨_, .cons (.read hcodex) (.single (.asked _ _)), .acquiring _ _⟩
      | _ => exact hstay
  | agent answer =>
      cases h with
      | acquiring job recovered =>
          unfold App.advance
          dsimp only
          cases answer with
          | none => exact ⟨.finished, .single (.answered rfl _ _), rfl⟩
          | some credentials =>
              dsimp only
              split
              · exact ⟨.finished, .cons (.granted _ _ _) (.single (.answered rfl _ _)), rfl⟩
              · next headers hheaders =>
                  exact ⟨_, .cons (.granted _ _ _) (.single (.sent _ hheaders)), .sending _ _⟩
      | recovering job =>
          unfold App.advance
          dsimp only
          cases answer with
          | none => exact ⟨.finished, .single (.answered rfl _ _), rfl⟩
          | some _ => exact ⟨_, .cons (.recovered _) (.single (.asked _ _)), .acquiring _ _⟩
      | _ => exact hstay
  | upstream response =>
      cases h with
      | sending job recovered =>
          unfold App.advance
          dsimp only
          cases response with
          | none => exact ⟨.finished, .single (.answered rfl _ _), rfl⟩
          | some response =>
              dsimp only
              split
              · next hlapsed =>
                  rw [Bool.and_eq_true, decide_eq_true_eq, Bool.not_eq_true'] at hlapsed
                  obtain ⟨hstatus, rfl⟩ := hlapsed
                  exact ⟨_, .cons (.headed _ _ _) (.cons (.lapsed _ hstatus)
                    (.single (.askedRecovery _))), .recovering _⟩
              · next hfine =>
                  refine ⟨_, .cons (.headed _ _ _) (.single (.forwarded _ ?_)), ?_⟩
                  · intro hstatus
                    simpa [hstatus] using hfine
                  · exact .forwarding ⟨rfl, rfl, rfl⟩ rfl
      | _ => exact hstay
  | stream event =>
      cases h with
      | forwarding h htotal =>
          unfold App.advance
          dsimp only
          exact allowed_stream h htotal event
      | _ => exact hstay
  | resume =>
      cases h with
      | broken h =>
          unfold App.advance
          dsimp only
          refine ⟨.finished, .single ?_, rfl⟩
          rw [h.line]
          exact .loggedCut _ _ _
      | _ => exact hstay

variable (app) in
/-- What a request has come to, by its number. -/
def StageAt (id : Nat) (s : Serving) (stage : Stage) : Prop :=
  if s.count ≤ id then stage = .start else Corresponding app (s.requests.lookup id) stage

theorem stageAt_step_of_ne {s : Serving} {id : Nat} {stage : Stage} (h : StageAt app id s stage)
    {act : Act} (hid : s.idOf act ≠ id) : StageAt app id (s.step app act).1 stage := by
  have hcount : (s.step app act).1.count ≤ id ↔ s.count ≤ id := by
    cases act with
    | request request =>
        have hne : s.count ≠ id := hid
        rw [show (s.step app (.request request)).1.count = s.count + 1 from
          Serving.count_arrive app s request]
        omega
    | input other input => rw [Serving.count_input]
  unfold StageAt at h ⊢
  rw [Serving.lookup_step_of_ne hid]
  by_cases hle : s.count ≤ id
  · rw [if_pos hle] at h
    rw [if_pos (hcount.mpr hle)]
    exact h
  · rw [if_neg hle] at h
    rw [if_neg (mt hcount.mp hle)]
    exact h

/-- **Step** of all requests: what happens to one of them is allowed. -/
theorem allowed_step {s : Serving} (hs : s.Accounted app) {id : Nat} {stage : Stage}
    (h : StageAt app id s stage) (act : Act) :
    ∃ stage', Path (Allowed app) stage (happened app id (s, act)) stage' ∧
      StageAt app id (s.step app act).1 stage' := by
  unfold happened
  dsimp only
  by_cases hid : s.idOf act = id
  case neg =>
    rw [if_neg hid]
    exact ⟨stage, .nil stage, stageAt_step_of_ne h hid⟩
  rw [if_pos hid]
  cases act with
  | request request =>
      obtain rfl : s.count = id := hid
      unfold StageAt at h
      rw [if_pos (Nat.le_refl _)] at h
      subst h
      show ∃ stage', Path (Allowed app) .start (s.arrive app request).2 stage' ∧
        StageAt app s.count (s.arrive app request).1 stage'
      unfold Serving.arrive StageAt
      dsimp only
      have hover : (if s.count + 1 ≤ s.count then Stage.finished = .start else
          Corresponding app (s.requests.lookup s.count) .finished) := by
        rw [if_neg (Nat.not_succ_le_self _), hs.fresh s.count (Nat.le_refl _)]
        rfl
      split
      · exact ⟨.finished, .cons (.received _) (.single (.answered rfl _ _)), hover⟩
      · next hpasses =>
          split
          · exact ⟨.finished, .cons (.received _) (.single (.answered rfl _ _)), hover⟩
          · refine ⟨_, .cons (.received _) (.single (.admitted hpasses)), ?_⟩
            dsimp only
            rw [if_neg (Nat.not_succ_le_self _), AList.lookup_insert]
            exact .readingBody request
  | input other input =>
      obtain rfl : other = id := hid
      unfold Serving.step
      dsimp only
      cases hphase : s.requests.lookup other with
      | none => exact ⟨stage, .nil stage, h⟩
      | some phase =>
          dsimp only
          have hlt : ¬ s.count ≤ other := by
            intro hle
            rw [hs.fresh other hle] at hphase
            cases hphase
          unfold StageAt at h
          rw [if_neg hlt, hphase] at h
          obtain ⟨stage', hpath, hcorresponds⟩ := allowed_advance h input
          refine ⟨stage', ?_⟩
          unfold Serving.proceed StageAt
          generalize app.advance phase input = advanced at hpath hcorresponds
          obtain ⟨next, more⟩ := advanced
          cases next with
          | some next =>
              dsimp only
              rw [if_neg hlt, AList.lookup_insert]
              exact ⟨hpath, hcorresponds⟩
          | none =>
              dsimp only
              rw [if_neg hlt, AList.lookup_erase]
              exact ⟨hpath, hcorresponds⟩

/-- **Run.** What happens to a request in any run is allowed. -/
theorem allowed_run (app : App) (id : Nat) (acts : List Act) :
    ∃ stage, Path (Allowed app) .start (happenings app id acts) stage ∧
      StageAt app id ((proxy app).run acts) stage := by
  refine path_run (proxy app) (happened app id) (StageAt app id) ?_ ?_ acts
  · show if 0 ≤ id then Stage.start = .start else _
    rw [if_pos (Nat.zero_le id)]
  · intro acts act stage h
    exact allowed_step (accounted_run app acts) h act

end CredentialBroker.Proxy
