import CredentialBroker.Proxy.Careful

/-!
# What goes up and what comes back

The two ends of a request, in any run. What is sent upstream is the client's request with the
credentials granted just before, header by header. What comes back goes to the client as it came,
and a response that ends well is whole; what is logged of it is what its forwarded text reports,
whatever chunks it came in.
-/

namespace CredentialBroker.Proxy

open Transitions (Path)

/-! ## What comes back -/

namespace Happening

/-- A chunk of the body that came of upstream. -/
def came? : Happening → Option Bytes
  | streamed (.chunk bytes) _ => some bytes
  | _ => none

/-- A chunk that went to the client. -/
def passed? : Happening → Option Bytes
  | streamed _ (some (.ok bytes)) => some bytes
  | _ => none

/-- An error that the client's response was broken off with. -/
def error? : Happening → Option String
  | streamed _ (some (.error error)) => some error
  | _ => none

/-- The body ended, for upstream and for the client. -/
def ends? : Happening → Option Unit
  | streamed .ended none => some ()
  | _ => none

end Happening

/-- What was seen of the body of a response. -/
structure Body where
  came : List Bytes
  passed : List Bytes
  errors : List String
  ends : List Unit

/-- The body, of what happened. -/
def bodyOf (hs : List Happening) : Body where
  came := hs.filterMap Happening.came?
  passed := hs.filterMap Happening.passed?
  errors := hs.filterMap Happening.error?
  ends := hs.filterMap Happening.ends?

/-- What is promised of a body, of which no more than `max` bytes go to the client. -/
structure Body.Honest (max : Nat) (body : Body) : Prop where
  /-- What goes to the client is what came, but for a chunk that goes over the limit. -/
  passed : body.came = body.passed ∨
    ∃ bytes, body.came = body.passed ++ [bytes] ∧ max < body.came.flatten.length
  bounded : body.passed.flatten.length ≤ max
  errors : body.errors.length ≤ 1
  /-- A response that ends well for the client is whole. -/
  whole : body.ends ≠ [] → body.came = body.passed ∧ body.errors = []

variable {app : App}

/-- What has been seen of the body when a request is in a stage. -/
def Seen (app : App) (body : Body) : Stage → Prop
  | .forwarding _ _ passed => body = ⟨passed, passed, [], []⟩ ∧ passed.flatten.length ≤ app.maxBytes
  | .cut _ _ passed => body.Honest app.maxBytes ∧ body.passed = passed ∧ body.ends = []
  | .closing _ _ passed => body.Honest app.maxBytes ∧ body.passed = passed
  | .finished => body.Honest app.maxBytes
  | _ => body = ⟨[], [], [], []⟩

/-- Nothing has come of the body yet, or it is none that was cut. -/
theorem Body.honest_of_uncut {max : Nat} {passed : List Bytes} {ends : List Unit}
    (hbound : passed.flatten.length ≤ max) : Body.Honest max ⟨passed, passed, [], ends⟩ :=
  ⟨.inl rfl, hbound, Nat.zero_le _, fun _ => ⟨rfl, rfl⟩⟩

/-- A body that is cut by an error, with what came but did not pass. -/
theorem Body.honest_of_cut {max : Nat} {came passed : List Bytes} {error : String}
    (hbound : passed.flatten.length ≤ max)
    (hcame : came = passed ∨ ∃ bytes, came = passed ++ [bytes] ∧ max < came.flatten.length) :
    Body.Honest max ⟨came, passed, [error], []⟩ :=
  ⟨hcame, hbound, Nat.le_refl _, fun h => absurd rfl h⟩

theorem bodyOf_concat (es : List Happening) (event : Happening) :
    bodyOf (es ++ [event]) =
      ⟨(bodyOf es).came ++ event.came?.toList, (bodyOf es).passed ++ event.passed?.toList,
        (bodyOf es).errors ++ event.error?.toList, (bodyOf es).ends ++ event.ends?.toList⟩ := by
  unfold bodyOf
  simp only [List.filterMap_append, List.filterMap_cons, List.filterMap_nil]
  cases event.came? <;> cases event.passed? <;> cases event.error? <;> cases event.ends? <;> rfl

/-- What is no part of a body leaves it as it is. -/
theorem bodyOf_quiet (es : List Happening) {event : Happening} (hcame : event.came? = none)
    (hpassed : event.passed? = none) (herror : event.error? = none) (hends : event.ends? = none) :
    bodyOf (es ++ [event]) = bodyOf es := by
  rw [bodyOf_concat, hcame, hpassed, herror, hends]
  simp

/-- **Step.** A happening leads to a stage that says what has been seen of the body. -/
theorem Seen.step {es : List Happening} {stage stage' : Stage} {event : Happening}
    (h : Seen app (bodyOf es) stage) (hstep : Allowed app stage event stage') :
    Seen app (bodyOf (es ++ [event])) stage' := by
  have hempty : Body.Honest app.maxBytes ⟨[], [], [], []⟩ := Body.honest_of_uncut (Nat.zero_le _)
  cases hstep with
  | received | admitted | read | asked | granted | sent | headed | lapsed | askedRecovery
  | recovered =>
      rw [bodyOf_quiet es rfl rfl rfl rfl]
      exact h
  | forwarded =>
      rw [bodyOf_quiet es rfl rfl rfl rfl]
      exact ⟨h, Nat.zero_le _⟩
  | answered hanswers =>
      rw [bodyOf_quiet es rfl rfl rfl rfl]
      cases stage <;> cases hanswers <;> exact h ▸ hempty
  | left hwaits =>
      rw [bodyOf_quiet es rfl rfl rfl rfl]
      cases stage <;> cases hwaits <;> exact h ▸ hempty
  | passed job response hfits =>
      rw [bodyOf_concat, h.1]
      exact ⟨rfl, hfits⟩
  | @exceeded job response passed bytes hlong =>
      rw [bodyOf_concat, h.1]
      simp only [Happening.came?, Happening.passed?, Happening.error?, Happening.ends?,
        Option.toList, List.append_nil, List.nil_append]
      exact ⟨Body.honest_of_cut h.2 (.inr ⟨bytes, rfl, hlong⟩), rfl, rfl⟩
  | failed | idle =>
      rw [bodyOf_concat, h.1]
      simp only [Happening.came?, Happening.passed?, Happening.error?, Happening.ends?,
        Option.toList, List.append_nil, List.nil_append]
      exact ⟨Body.honest_of_cut h.2 (.inl rfl), rfl, rfl⟩
  | ended =>
      rw [bodyOf_concat, h.1]
      simp only [Happening.came?, Happening.passed?, Happening.error?, Option.toList_none,
        List.append_nil]
      exact ⟨Body.honest_of_uncut h.2, rfl⟩
  | leftForwarding =>
      rw [bodyOf_quiet es rfl rfl rfl rfl, h.1]
      exact ⟨Body.honest_of_uncut h.2, rfl⟩
  | leftCut =>
      rw [bodyOf_quiet es rfl rfl rfl rfl]
      exact ⟨h.1, h.2.1⟩
  | loggedCut | logged =>
      rw [bodyOf_quiet es rfl rfl rfl rfl]
      exact h.1

theorem seen_of_path {es : List Happening} {stage : Stage}
    (h : Path (Allowed app) .start es stage) : Seen app (bodyOf es) stage :=
  h.history (P := fun es stage => Seen app (bodyOf es) stage) rfl
    fun _ _ _ _ _ hseen hstep => hseen.step hstep

/-- What is logged of a response is of its text alone. -/
theorem logged_flatten (fromSlice : Bytes → Option Value) (events : Bool) (chunks : List Bytes) :
    UsageTap.logged fromSlice events chunks = UsageTap.logged fromSlice events [chunks.flatten] := by
  cases events with
  | true =>
      obtain ⟨lines, rest, hcut⟩ := Lines.exists_cut newline chunks.flatten
      rw [UsageTap.logged_stream chunks lines rest hcut, UsageTap.logged_stream _ lines rest]
      rwa [List.flatten_singleton]
  | false =>
      have husage := (UsageTap.tapAt_fed fromSlice chunks).2.scan.usage
      have husage' := (UsageTap.tapAt_fed fromSlice [chunks.flatten]).2.scan.usage
      rw [List.flatten_singleton] at husage'
      exact husage.trans husage'.symm

/-- `line` is logged of a response that was recovered from, after `before`. -/
def LogsLapsed (before : List Happening) (line : UsageLine) : Prop :=
  ∃ front response, before = front ++ [.headed response] ∧ response.status = 401 ∧
    line.status = 401 ∧ line.usage = none

/-- `line` is logged of a response that was forwarded, of which `passed` went to the client. -/
def LogsForwarded (app : App) (before : List Happening) (passed : List Bytes)
    (line : UsageLine) : Prop :=
  ∃ headers, .forwarded line.status headers ∈ before ∧
    line.usage = UsageTap.logged app.json.fromSlice (App.isEvents headers) [passed.flatten]

/-- What is promised of a response. -/
structure Faithful (app : App) (hs : List Happening) : Prop where
  body : (bodyOf hs).Honest app.maxBytes
  /-- A chunk is passed on unless it goes over the limit. -/
  limit : ∀ bytes item before after, hs = before ++ .streamed (.chunk bytes) item :: after →
    item = some (if app.maxBytes < ((bodyOf before).came ++ [bytes]).flatten.length then
      .error "response limit exceeded" else .ok bytes)
  /-- What is logged is of the client's request, and of what went to the client. -/
  logged : ∀ line before after, hs = before ++ .logged line :: after →
    (∃ job, FromClient app before job ∧ line.trace = job.trace) ∧
      (LogsLapsed before line ∨ LogsForwarded app before (bodyOf hs).passed line ∧ after = [])

/-- A request that is over is left alone. -/
theorem nil_of_finished {es : List Happening} {stage : Stage} (h : Path (Allowed app) .finished es stage) :
    es = [] := by
  cases h with
  | nil => rfl
  | cons hstep _ =>
      cases hstep with
      | answered hanswers => cases hanswers
      | left hwaits => cases hwaits

theorem faithful_of_path {hs : List Happening} {stage : Stage}
    (h : Path (Allowed app) .start hs stage) : Faithful app hs := by
  refine ⟨?_, ?_, ?_⟩
  · have hseen := seen_of_path h
    have hempty : Body.Honest app.maxBytes ⟨[], [], [], []⟩ :=
      Body.honest_of_uncut (Nat.zero_le _)
    cases stage with
    | forwarding job response passed =>
        rw [hseen.1]
        exact Body.honest_of_uncut hseen.2
    | cut | closing => exact hseen.1
    | finished => exact hseen
    | _ =>
        rw [show bodyOf hs = _ from hseen]
        exact hempty
  · rintro bytes item before after rfl
    obtain ⟨stage, stage', hbefore, hstep, -⟩ := h.of_mid
    have hseen := seen_of_path hbefore
    cases hstep with
    | passed job response hfits => rw [hseen.1, if_neg (Nat.not_lt.mpr hfits)]
    | exceeded job response hlong => rw [hseen.1, if_pos hlong]
  · rintro line before after rfl
    obtain ⟨stage, stage', hbefore, hstep, hafter⟩ := h.of_mid
    have hseen := seen_of_path hbefore
    have htold := told_of_path hbefore
    cases hstep with
    | lapsed job hstatus =>
        obtain ⟨front, credentials, upstream, hfront, -, rfl⟩ := htold
        refine ⟨⟨job, hfront.fromClient _, rfl⟩, .inl ⟨front ++ [.asked .acquire,
          .granted credentials, .sent upstream], _, ?_, hstatus, hstatus, rfl⟩⟩
        rw [List.append_assoc]
        rfl
    | loggedCut job response passed =>
        obtain rfl := nil_of_finished hafter
        rw [bodyOf_quiet before rfl rfl rfl rfl, hseen.2.1]
        exact ⟨⟨job, htold.1, rfl⟩, .inr ⟨⟨_, htold.2, logged_flatten _ _ _⟩, rfl⟩⟩
    | logged job response passed =>
        obtain rfl := nil_of_finished hafter
        rw [bodyOf_quiet before rfl rfl rfl rfl, hseen.2]
        exact ⟨⟨job, htold.1, rfl⟩, .inr ⟨⟨_, htold.2, logged_flatten _ _ _⟩, rfl⟩⟩

/-- **Every response is passed on and logged as it came**, in every run of any number of requests,
each cut short anywhere. -/
theorem faithful_run (app : App) (acts : List Act) (id : Nat) :
    Faithful app (happenings app id acts) := by
  obtain ⟨stage, hpath, -⟩ := allowed_run app id acts
  exact faithful_of_path hpath

/-! ## What goes up -/

/-- `upstream` is the client's `request` with `credentials`, as far as it may go. -/
structure SentFor (app : App) (request : Request) (codex : CodexRequest)
    (credentials : Credentials) (upstream : UpstreamRequest) : Prop where
  body : upstream.body = codex.body
  /-- A credential has the value granted last, and no other. -/
  credential : ∀ name value, lastGiven credentials.headers name = some value →
    upstream.headers.getAll name = [utf8 value]
  /-- Nothing of the client's is named as a credential is, denied, or listed by `Connection`. -/
  withheld : ∀ name, lastGiven credentials.headers name = none →
    canonical name ∈ injected ∨ denied name = true ∨
        canonical name ∈ connection request.headers →
      upstream.headers.getAll name = []
  /-- The prompt cache is routed by the body's key, if the client routes it by no header. -/
  routed : ∀ name, name = sessionId ∨ name = clientRequestId →
    canonical name ∉ connection request.headers → routesCache request.headers = false →
      upstream.headers.getAll name = (codex.promptCacheKey.bind app.http.fromStr).toList
  /-- All other headers of the client are there with their values. -/
  other : ∀ name, canonical name ∉ injected → denied name = false →
    canonical name ∉ connection request.headers →
    ¬ ((name = sessionId ∨ name = clientRequestId) ∧ routesCache request.headers = false) →
      upstream.headers.getAll name = request.headers.getAll name

/-- Routing the cache lists nothing more in `Connection`. -/
theorem connection_backstop (http : HeaderParsers) (headers : HeaderMap) (codex : CodexRequest) :
    connection (backstopCacheRouting http headers codex) = connection headers := by
  have hname : ¬ ("connection" = sessionId ∨ "connection" = clientRequestId) := by decide
  unfold connection
  rw [getAll_backstop, if_neg fun h => hname h.1]

theorem sentFor_of_under {request : Request} {codex : CodexRequest} {credentials : Credentials}
    {upstream : UpstreamRequest} (hhttp : app.http.Documented)
    (h : Under app (app.job request codex) credentials upstream) :
    SentFor app request codex credentials upstream := by
  have hpermitted := permitted_upstreamHeaders hhttp credentials.names h.headers
  have hall := getAll_inject hhttp credentials.names h.headers
  have hconnection : connection (app.job request codex).headers = connection request.headers :=
    connection_backstop _ _ _
  refine ⟨h.body, hpermitted.credential, ?_, ?_, ?_⟩
  · intro name hnone hwithheld
    rw [hall name, hnone]
    dsimp only
    rw [getAll_kept, hconnection, if_neg]
    rintro ⟨hlisted, hdenied⟩
    rcases hwithheld with hinjected | hdenied' | hlisted'
    · rw [denied_of_injected hinjected] at hdenied
      cases hdenied
    · rw [hdenied] at hdenied'
      cases hdenied'
    · exact hlisted hlisted'
  · intro name hname hlisted hroutes
    have hfree : canonical name ∉ injected ∧ denied name = false := by
      rcases hname with rfl | rfl <;> decide +kernel
    rw [hpermitted.other name hfree.1 hfree.2 (hconnection ▸ hlisted)]
    exact (getAll_backstop _ _ _ name).trans (if_pos ⟨hname, hroutes⟩)
  · intro name hinjected hdenied hlisted hroutes
    rw [hpermitted.other name hinjected hdenied (hconnection ▸ hlisted)]
    exact (getAll_backstop _ _ _ name).trans (if_neg hroutes)

/-- **What is sent is the client's request under the broker's credentials**, in every run of any
number of requests. -/
theorem sent_exactly (app : App) (hhttp : app.http.Documented) (acts : List Act) (id : Nat)
    (upstream : UpstreamRequest) (before after : List Happening)
    (h : happenings app id acts = before ++ .sent upstream :: after) :
    ∃ request body codex credentials,
      [.received request, .admitted, .read body] <+: before ∧
      [.asked .acquire, .granted credentials] <:+ before ∧
      app.turnsAway request = none ∧ Normalized app.json body codex ∧
        SentFor app request codex credentials upstream := by
  obtain ⟨stage, hpath, -⟩ := allowed_run app id acts
  obtain ⟨job, front, credentials, hbefore, hfrom, hunder⟩ :=
    (careful_of_path hpath fun h : stage.unlogged = 0 => h).anew upstream before after h
  obtain ⟨request, body, codex, rest, hfirst, hgate, hbody, rfl⟩ := hfrom
  exact ⟨request, body, codex, credentials, ⟨rest, hfirst.symm⟩, ⟨front, hbefore.symm⟩, hgate,
    normalizeCodexRequest_ok app.json hbody, sentFor_of_under hhttp hunder⟩

theorem lookup_filter_ne (fields : List (String × Value)) (name other : String) :
    (fields.filter fun field => field.1 ≠ name).lookup other =
      if other = name then none else fields.lookup other := by
  induction fields with
  | nil => simp
  | cons field fields ih =>
      by_cases hfield : field.1 = name
      · rw [List.filter_cons_of_neg (by simpa using hfield), ih, List.lookup_cons]
        by_cases hother : other = name
        · rw [if_pos hother, if_pos hother]
        · have hne : (other == field.1) = false := by
            rw [hfield]
            exact beq_false_of_ne hother
          rw [if_neg hother, if_neg hother, hne]
      · rw [List.filter_cons_of_pos (by simpa using hfield), List.lookup_cons, List.lookup_cons, ih]
        by_cases hother : other = field.1
        · have hne : other ≠ name := hother ▸ hfield
          rw [beq_iff_eq.mpr hother]
          exact (if_neg hne).symm
        · rw [beq_false_of_ne hother]

/-- A body with a field that is refused, and without it. -/
def sampleBody : Bytes := ascii "\x7b\"prompt_cache_key\":\"k\",\"max_output_tokens\":null\x7d"

def sampleNormalized : Bytes := ascii "\x7b\"prompt_cache_key\":\"k\"\x7d"

/-- Reads and writes these two. -/
def sampleJson : Json where
  fromSlice body :=
    if body = sampleBody then
      some (.object [("prompt_cache_key", .string "k"), ("max_output_tokens", .null)])
    else if body = sampleNormalized then some (.object [("prompt_cache_key", .string "k")])
    else none
  toVec
    | .object [("prompt_cache_key", .string "k")] => some sampleNormalized
    | _ => none
  remove fields name := fields.filter fun field => field.1 ≠ name
  distinct body fields h := by
    split at h
    · obtain rfl := Value.object.inj (Option.some.inj h)
      decide
    · split at h
      · obtain rfl := Value.object.inj (Option.some.inj h)
        decide
      · cases h
  lookup_remove fields name other _ := lookup_filter_ne fields name other

def sampleApp : App where
  http := sampleParsers
  json := sampleJson
  sha256 := id
  clientAuth := .disabled
  maxBytes := 1024
  concurrency := 1

theorem injected_sampleCredentials : ∀ credential ∈ sampleCredentials, credential.1 ∈ injected := by
  decide

def sampleGrant : Credentials := ⟨sampleCredentials, injected_sampleCredentials⟩

/-- A request is sent, refused as unauthorized, and sent again under what is granted then. -/
def sampleActs : List Act :=
  [.request ⟨ascii "POST", ascii "/v1/responses", none, sampleClient⟩,
    .input 0 (.body (.read sampleBody)), .input 0 (.agent (some sampleGrant)),
    .input 0 (.upstream (some ⟨401, []⟩)), .input 0 (.agent (some sampleGrant)),
    .input 0 (.agent (some sampleGrant))]

/-- It is sent again as the last of what happens, with what is granted then. -/
theorem sent_exactly_sample :
    ∃ request codex credentials upstream before,
      happenings sampleApp 0 sampleActs = before ++ [.sent upstream] ∧
        before.countP Happening.isSent = 1 ∧ Normalized sampleJson sampleBody codex ∧
          SentFor sampleApp request codex credentials upstream := by
  have hlast : ((happenings sampleApp 0 sampleActs).getLast?.any Happening.isSent) = true := by
    decide +kernel
  have hcount : (happenings sampleApp 0 sampleActs).countP Happening.isSent = 2 := by
    decide +kernel
  obtain ⟨last, hlast, hsent⟩ := (Option.any_eq_true _ _).mp hlast
  obtain ⟨before, hbefore⟩ := List.getLast?_eq_some_iff.mp hlast
  cases last with
  | sent upstream =>
      obtain ⟨request, body, codex, credentials, hreceived, -, -, hnormalized, hexactly⟩ :=
        sent_exactly sampleApp documented_sampleParsers sampleActs 0 upstream before [] hbefore
      have hbody : body = sampleBody := by
        have hthird : (happenings sampleApp 0 sampleActs)[2]? = some (.read sampleBody) := rfl
        obtain ⟨rest, hrest⟩ := hreceived
        rw [hbefore, ← hrest] at hthird
        exact Happening.read.inj (Option.some.inj hthird)
      refine ⟨request, codex, credentials, upstream, before, hbefore, ?_, hbody ▸ hnormalized,
        hexactly⟩
      rw [hbefore, List.countP_append] at hcount
      exact Nat.succ.inj hcount
  | _ => cases hsent

end CredentialBroker.Proxy
