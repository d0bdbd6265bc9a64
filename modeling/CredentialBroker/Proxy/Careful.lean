import CredentialBroker.Proxy.Conversation

/-!
# What is promised of a request

Consequences of what is `Allowed`, for the happenings of one request in any run: how often the agent
is asked and upstream is sent to, what stands before everything that is sent, when a response is
forwarded, and what goes to the client and into the log. Something is sent by one call of the HTTP
client, and a ping for `/healthz` is no request.

* `Told` is the history: what has happened by the time a request is in a stage.
* The counts are budgets of the stages.
-/

namespace CredentialBroker.Proxy

open Transitions (Path)

namespace Happening

def isSent : Happening → Bool
  | sent _ => true
  | _ => false

/-- It is the head of a response to the client. -/
def isAnswer : Happening → Bool
  | answered _ _ | forwarded _ _ => true
  | _ => false

def isRecovery : Happening → Bool
  | asked operation => operation = .unauthorizedRecovery
  | _ => false

def isHeaded : Happening → Bool
  | headed _ => true
  | _ => false

def isLogged : Happening → Bool
  | logged _ => true
  | _ => false

end Happening

/-! ## How often -/

namespace Stage

/-- How much more may be sent. -/
def sends : Stage → Nat
  | start | fresh _ | reading _ => 2
  | ready _ again | asking _ again | trusted _ again _ => if again then 1 else 2
  | sent _ again | headed _ again _ => if again then 0 else 1
  | lapsed _ | recovering _ => 1
  | forwarding _ _ _ | cut _ _ _ | closing _ _ _ | finished => 0

/-- How often more a recovery may be asked for. -/
def recoveries : Stage → Nat
  | start | fresh _ | reading _ | lapsed _ => 1
  | ready _ again | asking _ again | trusted _ again _ | sent _ again | headed _ again _ =>
      if again then 0 else 1
  | recovering _ | forwarding _ _ _ | cut _ _ _ | closing _ _ _ | finished => 0

/-- How many responses there may still be to the client. -/
def heads : Stage → Nat
  | forwarding _ _ _ | cut _ _ _ | closing _ _ _ | finished => 0
  | _ => 1

/-- How many responses of upstream are not logged yet. -/
def unlogged : Stage → Nat
  | headed _ _ _ | forwarding _ _ _ | cut _ _ _ | closing _ _ _ => 1
  | _ => 0

end Stage

variable {app : App}

theorem sends_keep (stage : Stage) (event : Happening) (stage' : Stage)
    (h : Allowed app stage event stage') :
    (if event.isSent then 1 else 0) + stage'.sends ≤ stage.sends := by
  cases h with
  | sent again _ => cases again <;> simp [Happening.isSent, Stage.sends]
  | _ => simp [Happening.isSent, Stage.sends]

theorem recoveries_keep (stage : Stage) (event : Happening) (stage' : Stage)
    (h : Allowed app stage event stage') :
    (if event.isRecovery then 1 else 0) + stage'.recoveries ≤ stage.recoveries := by
  cases h <;> simp [Happening.isRecovery, Stage.recoveries]

theorem heads_of_answers {stage : Stage} (h : stage.answers = true) : stage.heads = 1 := by
  cases stage <;> first | rfl | cases h

theorem heads_keep (stage : Stage) (event : Happening) (stage' : Stage)
    (h : Allowed app stage event stage') :
    (if event.isAnswer then 1 else 0) + stage'.heads ≤ stage.heads := by
  cases h with
  | answered hanswers _ _ =>
      rw [heads_of_answers hanswers]
      exact Nat.le_refl _
  | _ => simp [Happening.isAnswer, Stage.heads]

theorem unlogged_of_answers {stage : Stage} (h : stage.answers = true) : stage.unlogged = 0 := by
  cases stage <;> first | rfl | cases h

theorem unlogged_of_waits {stage : Stage} (h : stage.waits = true) : stage.unlogged = 0 := by
  cases stage <;> first | rfl | cases h

/-- A response is logged once, or is still to be. -/
theorem unlogged_step {stage stage' : Stage} {event : Happening}
    (h : Allowed app stage event stage') :
    (if event.isHeaded then 1 else 0) + stage.unlogged =
      (if event.isLogged then 1 else 0) + stage'.unlogged := by
  cases h with
  | answered hanswers _ _ =>
      rw [unlogged_of_answers hanswers]
      rfl
  | left hwaits =>
      rw [unlogged_of_waits hwaits]
      rfl
  | _ => rfl

/-! ## What has happened -/

/-- What is sent for `job` under `credentials`. -/
structure Under (app : App) (job : Job) (credentials : Credentials)
    (upstream : UpstreamRequest) : Prop where
  headers : upstreamHeaders app.http job.headers credentials.headers = some upstream.headers
  body : upstream.body = job.body

/-- What has happened to a request when the agent is about to be asked for credentials: it was
received and read, and if it was sent already, that was answered as unauthorized and recovered
from. -/
inductive Prepared (app : App) : Job → Bool → List Happening → Prop where
  | first {request : Request} {body : Bytes} {codex : CodexRequest}
      (hgate : app.turnsAway request = none)
      (hbody : normalizeCodexRequest app.json body = .ok codex) :
      Prepared app (app.job request codex) false [.received request, .admitted, .read body]
  | again {job : Job} {front : List Happening} {credentials : Credentials}
      {upstream : UpstreamRequest} {response : UpstreamResponse}
      (h : Prepared app job false front) (hunder : Under app job credentials upstream)
      (hstatus : response.status = 401) :
      Prepared app job true (front ++ [.asked .acquire, .granted credentials, .sent upstream,
        .headed response, .logged ⟨job.trace, response.status, none⟩,
        .asked .unauthorizedRecovery, .recovered])

/-- `job` is made of the request that `es` begins with, which passed the gate, had a permit, and has
a body to forward. -/
def FromClient (app : App) (es : List Happening) (job : Job) : Prop :=
  ∃ request body codex rest, es = .received request :: .admitted :: .read body :: rest ∧
    app.turnsAway request = none ∧ normalizeCodexRequest app.json body = .ok codex ∧
      job = app.job request codex

theorem FromClient.append {es : List Happening} {job : Job} (h : FromClient app es job)
    (more : List Happening) : FromClient app (es ++ more) job := by
  obtain ⟨request, body, codex, rest, rfl, hgate, hbody, hjob⟩ := h
  exact ⟨request, body, codex, rest ++ more, rfl, hgate, hbody, hjob⟩

theorem Prepared.fromClient {job : Job} {again : Bool} {front : List Happening}
    (h : Prepared app job again front) (more : List Happening) :
    FromClient app (front ++ more) job := by
  induction h generalizing more with
  | first hgate hbody => exact ⟨_, _, _, more, rfl, hgate, hbody, rfl⟩
  | again _ _ _ ih =>
      rw [List.append_assoc]
      exact ih _

/-- What has happened when a request is in a stage. -/
def Told (app : App) (es : List Happening) : Stage → Prop
  | .start => es = []
  | .fresh request => es = [.received request]
  | .reading request => es = [.received request, .admitted] ∧ app.turnsAway request = none
  | .ready job again => Prepared app job again es
  | .asking job again => ∃ front, Prepared app job again front ∧ es = front ++ [.asked .acquire]
  | .trusted job again credentials => ∃ front, Prepared app job again front ∧
      es = front ++ [.asked .acquire, .granted credentials]
  | .sent job again => ∃ front credentials upstream, Prepared app job again front ∧
      Under app job credentials upstream ∧
        es = front ++ [.asked .acquire, .granted credentials, .sent upstream]
  | .headed job again response => ∃ front credentials upstream, Prepared app job again front ∧
      Under app job credentials upstream ∧
        es = front ++ [.asked .acquire, .granted credentials, .sent upstream, .headed response]
  | .lapsed job => ∃ front credentials upstream response, Prepared app job false front ∧
      Under app job credentials upstream ∧ response.status = 401 ∧
        es = front ++ [.asked .acquire, .granted credentials, .sent upstream, .headed response,
          .logged ⟨job.trace, response.status, none⟩]
  | .recovering job => ∃ front credentials upstream response, Prepared app job false front ∧
      Under app job credentials upstream ∧ response.status = 401 ∧
        es = front ++ [.asked .acquire, .granted credentials, .sent upstream, .headed response,
          .logged ⟨job.trace, response.status, none⟩, .asked .unauthorizedRecovery]
  | .forwarding job response _ | .cut job response _ | .closing job response _ =>
      FromClient app es job ∧
        .forwarded response.status (responseHeaders response.status response.headers) ∈ es
  | .finished => True

/-- **Step.** A happening leads to a stage that tells what has happened. -/
theorem Told.step {es : List Happening} {stage stage' : Stage} {event : Happening}
    (htold : Told app es stage) (h : Allowed app stage event stage') :
    Told app (es ++ [event]) stage' := by
  cases h with
  | received request => exact congrArg (· ++ [Happening.received request]) htold
  | admitted hgate => exact ⟨congrArg (· ++ [Happening.admitted]) htold, hgate⟩
  | read hbody =>
      obtain ⟨rfl, hgate⟩ := htold
      exact .first hgate hbody
  | asked job again => exact ⟨es, htold, rfl⟩
  | granted job again credentials =>
      obtain ⟨front, hfront, rfl⟩ := htold
      exact ⟨front, hfront, List.append_assoc _ _ _⟩
  | sent again hheaders =>
      obtain ⟨front, hfront, rfl⟩ := htold
      exact ⟨front, _, _, hfront, ⟨hheaders, rfl⟩, List.append_assoc _ _ _⟩
  | headed job again response =>
      obtain ⟨front, credentials, upstream, hfront, hunder, rfl⟩ := htold
      exact ⟨front, credentials, upstream, hfront, hunder, List.append_assoc _ _ _⟩
  | lapsed job hstatus =>
      obtain ⟨front, credentials, upstream, hfront, hunder, rfl⟩ := htold
      exact ⟨front, credentials, upstream, _, hfront, hunder, hstatus, List.append_assoc _ _ _⟩
  | askedRecovery job =>
      obtain ⟨front, credentials, upstream, response, hfront, hunder, hstatus, rfl⟩ := htold
      exact ⟨front, credentials, upstream, response, hfront, hunder, hstatus,
        List.append_assoc _ _ _⟩
  | recovered job =>
      obtain ⟨front, credentials, upstream, response, hfront, hunder, hstatus, rfl⟩ := htold
      show Prepared app job true _
      rw [List.append_assoc]
      exact .again hfront hunder hstatus
  | forwarded job _ =>
      obtain ⟨front, credentials, upstream, hfront, -, rfl⟩ := htold
      exact ⟨(hfront.fromClient _).append _, by simp⟩
  | passed | exceeded | failed | idle | ended | leftForwarding | leftCut =>
      exact ⟨htold.1.append _, List.mem_append_left _ htold.2⟩
  | answered | left | loggedCut | logged => trivial

theorem told_of_path {es : List Happening} {stage : Stage}
    (h : Path (Allowed app) .start es stage) : Told app es stage :=
  h.history rfl fun _ _ _ _ _ htold hstep => htold.step hstep

/-! ## What follows of all that happens -/

theorem Prepared.recovered {job : Job} {again : Bool} {front : List Happening}
    (h : Prepared app job again front) (hagain : again = true) : Happening.recovered ∈ front := by
  cases h with
  | first _ _ => cases hagain
  | again _ _ _ => simp

/-- Nothing was sent before, or one request that was recovered from. -/
theorem Prepared.of_sent {job : Job} {again : Bool} {front before between : List Happening}
    {upstream : UpstreamRequest} {credentials : Credentials} (h : Prepared app job again front)
    (heq : front ++ [.asked .acquire, .granted credentials] =
      before ++ .sent upstream :: between) :
    ∃ response : UpstreamResponse, response.status = 401 ∧
      between = [.headed response, .logged ⟨job.trace, response.status, none⟩,
        .asked .unauthorizedRecovery, .recovered, .asked .acquire, .granted credentials] := by
  cases h with
  | first _ _ =>
      have hmem := congrArg (Happening.sent upstream ∈ ·) heq
      simp at hmem
  | @again _ _ granted sent response h _ hstatus =>
      cases h with
      | @first request body codex _ _ =>
          have heq' : [.received request, .admitted, .read body, .asked .acquire,
              .granted granted] ++ .sent sent :: [.headed response,
                .logged ⟨(app.job request codex).trace, response.status, none⟩,
                .asked .unauthorizedRecovery, .recovered, .asked .acquire,
                .granted credentials] = before ++ .sent upstream :: between := heq
          -- only one of what has happened is something sent
          obtain ⟨-, -, rfl⟩ :=
            (List.append_cons_inj_of_notMem (by simp) (by simp)).mp heq'
          exact ⟨response, hstatus, rfl⟩

/-- What is promised of all that happens to a request, which may be `finished`. -/
structure Careful (app : App) (finished : Prop) (hs : List Happening) : Prop where
  /-- The agent is asked for nothing but a request that passed the gate, has a permit, and has a
  body to forward. -/
  gated : ∀ operation before after, hs = before ++ .asked operation :: after →
    ∃ job, FromClient app before job
  /-- Whatever is sent is the client's request, under what the agent granted just before. -/
  anew : ∀ upstream before after, hs = before ++ .sent upstream :: after →
    ∃ job front credentials, before = front ++ [.asked .acquire, .granted credentials] ∧
      FromClient app before job ∧ Under app job credentials upstream
  /-- Nothing is sent again but after an unauthorized response, which was recovered from. -/
  retried : ∀ first second before between after,
    hs = (before ++ .sent first :: between) ++ .sent second :: after →
      ∃ response line credentials, response.status = 401 ∧
        between = [.headed response, .logged line, .asked .unauthorizedRecovery, .recovered,
          .asked .acquire, .granted credentials]
  /-- The response that is forwarded is the one that came last. It says that the credentials are
  unauthorized only if that was recovered from before. -/
  forwarded : ∀ status headers before after, hs = before ++ .forwarded status headers :: after →
    ∃ front upstream response, before = front ++ [.sent upstream, .headed response] ∧
      status = response.status ∧ headers = responseHeaders response.status response.headers ∧
        (status = 401 → .recovered ∈ front)
  sends : hs.countP Happening.isSent ≤ 2
  recoveries : hs.countP Happening.isRecovery ≤ 1
  answers : hs.countP Happening.isAnswer ≤ 1
  /-- Every response of upstream is logged, once, by the time the request is over. -/
  logged : hs.countP Happening.isLogged ≤ hs.countP Happening.isHeaded ∧
    (finished → hs.countP Happening.isLogged = hs.countP Happening.isHeaded)

theorem unlogged_of_path {es : List Happening} {stage : Stage}
    (h : Path (Allowed app) .start es stage) :
    es.countP Happening.isHeaded = es.countP Happening.isLogged + stage.unlogged := by
  refine h.history (P := fun es stage =>
    es.countP Happening.isHeaded = es.countP Happening.isLogged + stage.unlogged) rfl ?_
  intro es stage event stage' _ ih hstep
  have hone := unlogged_step hstep
  rw [List.countP_append, List.countP_append, List.countP_singleton, List.countP_singleton]
  omega

/-- A path is careful, one lemma or budget for each promise. -/
theorem careful_of_path {hs : List Happening} {stage : Stage} {finished : Prop}
    (h : Path (Allowed app) .start hs stage) (hfinished : finished → stage.unlogged = 0) :
    Careful app finished hs := by
  have hbudget {kind : Happening → Bool} {left : Stage → Nat}
      (keep : ∀ s e t, Allowed app s e t → (if kind e then 1 else 0) + left t ≤ left s) :
      hs.countP kind ≤ left .start := Nat.le_of_add_right_le (h.budget kind left keep)
  refine ⟨?_, ?_, ?_, ?_, hbudget sends_keep, hbudget recoveries_keep, hbudget heads_keep, ?_⟩
  · rintro operation before after rfl
    obtain ⟨stage, stage', hbefore, hstep, -⟩ := h.of_mid
    have htold := told_of_path hbefore
    cases hstep with
    | asked job again =>
        refine ⟨job, ?_⟩
        have hfrom := Prepared.fromClient htold []
        rwa [List.append_nil] at hfrom
    | askedRecovery job =>
        obtain ⟨front, _, _, _, hfront, -, -, rfl⟩ := htold
        exact ⟨job, hfront.fromClient _⟩
  · rintro upstream before after rfl
    obtain ⟨stage, stage', hbefore, hstep, -⟩ := h.of_mid
    have htold := told_of_path hbefore
    cases hstep with
    | @sent job credentials _ again hheaders =>
        obtain ⟨front, hfront, rfl⟩ := htold
        exact ⟨job, front, credentials, rfl, hfront.fromClient _, hheaders, rfl⟩
  · rintro first second before between after rfl
    obtain ⟨stage, stage', hbefore, hstep, -⟩ := h.of_mid
    have htold := told_of_path hbefore
    cases hstep with
    | @sent job credentials _ again hheaders =>
        obtain ⟨front, hfront, heq⟩ := htold
        obtain ⟨response, hstatus, hbetween⟩ := hfront.of_sent heq.symm
        exact ⟨response, _, credentials, hstatus, hbetween⟩
  · rintro status headers before after rfl
    obtain ⟨stage, stage', hbefore, hstep, -⟩ := h.of_mid
    have htold := told_of_path hbefore
    cases hstep with
    | @forwarded job again response hagain =>
        obtain ⟨front, credentials, upstream, hfront, -, rfl⟩ := htold
        refine ⟨front ++ [.asked .acquire, .granted credentials], upstream, response, ?_, rfl, rfl,
          ?_⟩
        · rw [List.append_assoc]
          rfl
        · intro hstatus
          have hrecovered := hfront.recovered (hagain hstatus)
          exact List.mem_append_left _ hrecovered
  · have hlogged := unlogged_of_path h
    refine ⟨by omega, fun h' => ?_⟩
    rw [hlogged, hfinished h', Nat.add_zero]

theorem unlogged_of_none {s : Serving} {id : Nat} {stage : Stage} (h : StageAt app id s stage)
    (hnone : s.requests.lookup id = none) : stage.unlogged = 0 := by
  unfold StageAt at h
  split at h
  · rw [h]
    rfl
  · rw [hnone] at h
    rw [show stage = .finished from h]
    rfl

/-- **Every request is handled with care**, in every run of any number of requests, each cut short
anywhere. -/
theorem careful_run (app : App) (acts : List Act) (id : Nat) :
    Careful app (((proxy app).run acts).requests.lookup id = none) (happenings app id acts) := by
  obtain ⟨stage, hpath, hstage⟩ := allowed_run app id acts
  exact careful_of_path hpath (unlogged_of_none hstage)

end CredentialBroker.Proxy
