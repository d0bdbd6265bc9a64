import CredentialBroker.Protocol.Channel
import CredentialBroker.Proxy.Faithful
import CredentialBroker.Util.Utf8

/-!
# The proxy and its provider

The proxy's requests and the credential channel as one system. A request that waits for the agent
makes a call on the channel, and goes on with what the call comes back with. In between other
requests move, the provider's sessions take and answer frames, and the network brings any frames at
all, so a `Move` is a step of any of them.

`Origin` is the invariant: a call that is waited for was made since its request asked, and whatever
session answered its nonce did so after that. So `authentic` holds without a clock: what a request
is sent upstream with is what the login manager came to after that request asked for it.
-/

namespace CredentialBroker.Proxy

open Protocol (Wire Channel Session Manager agentReceive answerTo nonceOf)

/-! ## What comes back of a call -/

/-- The string of bytes that are text. -/
def textOf (bytes : Bytes) : Option String := String.fromUTF8? ⟨bytes.toArray⟩

theorem utf8_textOf {bytes : Bytes} {text : String} (h : textOf bytes = some text) :
    utf8 text = bytes := by
  unfold textOf String.fromUTF8? at h
  split at h
  · cases h
    rfl
  · cases h

/-- A header of a response, as text. -/
def headerOf (header : Bytes × Bytes) : Option (String × String) := do
  let name ← textOf header.1
  let value ← textOf header.2
  some (name, value)

theorem utf8_headers {headers : List (Bytes × Bytes)} {texts : List (String × String)}
    (h : headers.mapM headerOf = some texts) :
    texts.map (fun header => (utf8 header.1, utf8 header.2)) = headers := by
  induction headers generalizing texts with
  | nil =>
      cases h
      rfl
  | cons header headers ih =>
      rw [List.mapM_cons] at h
      obtain ⟨text, htext, h⟩ := Option.bind_eq_some_iff.mp h
      obtain ⟨texts, htexts, h⟩ := Option.bind_eq_some_iff.mp h
      cases h
      obtain ⟨name, hname, htext⟩ := Option.bind_eq_some_iff.mp htext
      obtain ⟨value, hvalue, htext⟩ := Option.bind_eq_some_iff.mp htext
      cases htext
      rw [List.map_cons, ih htexts, utf8_textOf hname, utf8_textOf hvalue]

/-- What `agent` returns of the headers of a response, which are text. -/
def credentialsOf (headers : List (Bytes × Bytes)) : Option Credentials :=
  match headers.mapM headerOf with
  | none => none
  | some headers =>
      if h : ∀ credential ∈ headers, credential.1 ∈ injected then some ⟨headers, h⟩ else none

/-- What a handler that waits for the agent has asked for. -/
def Phase.asks : Phase → Option Protocol.Operation
  | acquiring _ _ => some .acquire
  | recovering _ => some .unauthorizedRecovery
  | _ => none

def Input.isAgent : Input → Bool
  | agent _ => true
  | _ => false

/-! ## The system -/

structure Broker where
  serving : Serving
  channel : Channel
  /-- The call that a request waits for. -/
  calls : Assoc Nat Nat

inductive Move where
  | request (request : Request)
  /-- A request gets what it waits for, but for the agent. -/
  | input (id : Nat) (input : Input)
  /-- A request that asked the agent makes its call. -/
  | call (id n : Nat) (random : Vector UInt8 32)
  /-- The call a request waits for reads this line. -/
  | deliver (id : Nat) (line : Bytes)
  /-- The call a request waits for fails. -/
  | giveUp (id : Nat)
  | accept (session : Nat) (frame : Bytes)
  | answer (session : Nat) (manager : Manager)

namespace Broker

variable (app : App) (wire : Wire) (s : Broker)

/-- What a request that may make a call `n` has asked for. -/
def calling (id n : Nat) : Option Protocol.Operation :=
  if s.calls.lookup id = none ∧ s.channel.calls.lookup n = none then
    (s.serving.requests.lookup id).bind Phase.asks
  else none

/-- What a call returns on a line. -/
def received (n : Nat) (line : Bytes) : Option Credentials :=
  (s.channel.calls.lookup n).bind fun call =>
    (agentReceive wire call.nonce line).bind credentialsOf

/-- What a move is to the channel. -/
def channelAct : Move → Option Protocol.Act
  | .call id n random => (s.calling id n).map fun op => .call n op random
  | .deliver id line => (s.calls.lookup id).map fun n => .deliver n line
  | .giveUp id => (s.calls.lookup id).map fun n => .giveUp n
  | .accept session frame => some (.accept session frame)
  | .answer session manager => some (.answer session manager)
  | .request _ | .input _ _ => none

/-- What a move is to the proxy. -/
def servingAct : Move → Option Act
  | .request request => some (.request request)
  | .input id input => if input.isAgent then none else some (.input id input)
  | .deliver id line =>
      (s.calls.lookup id).map fun n => .input id (.agent (s.received wire n line))
  | .giveUp id => (s.calls.lookup id).map fun _ => .input id (.agent none)
  | .call _ _ _ | .accept _ _ | .answer _ _ => none

/-- The calls that are waited for after a move. -/
def callsAfter : Move → Assoc Nat Nat
  | .call id n _ => if (s.calling id n).isSome then s.calls.insert id n else s.calls
  | .deliver id _ | .giveUp id | .input id .left => s.calls.erase id
  | _ => s.calls

def step (move : Move) : Broker × List Happening :=
  let served := match s.servingAct wire move with
    | some act => s.serving.step app act
    | none => (s.serving, [])
  (⟨served.1, (s.channelAct move).elim s.channel (s.channel.step wire), s.callsAfter move⟩,
    served.2)

end Broker

/-- The proxy and its provider, from when they start. -/
def broker (app : App) (wire : Wire) : Mealy Broker Move (List Happening) :=
  ⟨⟨(proxy app).init, ⟨∅, ∅, []⟩, ∅⟩, Broker.step app wire⟩

/-- What a move from a state is to one request. -/
def moved (app : App) (wire : Wire) (id : Nat) (s : Broker) (move : Move) : List Happening :=
  (s.servingAct wire move).elim [] fun act => happened app id (s.serving, act)

/-- No MAC is forged by a move, and a call draws a nonce of its own. -/
def Move.Sound (wire : Wire) (s : Broker) (move : Move) : Prop :=
  ∀ act ∈ s.channelAct move, act.Unforged wire s.channel ∧ act.Fresh s.channel

/-- Every move of a run is so. -/
def Sound (app : App) (wire : Wire) (moves : List Move) : Prop :=
  (broker app wire).Along
    (fun tr move => move.Sound wire ((broker app wire).run (tr.map Prod.snd))) moves

/-! ## Where a call comes from -/

variable {app : App} {wire : Wire}

/-- Request `id` waits for call `n`, which was made for it and is not back. -/
def Waiting (wire : Wire) (moves : List Move) (s : Broker) (id n : Nat) : Prop :=
  ∃ before random since phase op, moves = before ++ .call id n random :: since ∧
    s.serving.requests.lookup id = some phase ∧ phase.asks = some op ∧
    s.channel.calls.lookup n = some ⟨op, nonceOf random, .waiting⟩ ∧
    -- a session that answered its nonce has done so since
    ∀ session q out, s.channel.sessions.lookup session = some (.answered q out) →
      q.nonce = nonceOf random → ∃ manager, out = answerTo wire manager q ∧
        .answer session manager ∈ since

/-- What holds after some moves. -/
structure Origin (app : App) (wire : Wire) (moves : List Move) (s : Broker) : Prop where
  channel : Protocol.InOrder wire s.channel
  serving : s.serving.Accounted app
  waiting : ∀ id n, s.calls.lookup id = some n → Waiting wire moves s id n
  /-- No two requests wait for one call. -/
  own : ∀ id id' n, s.calls.lookup id = some n → s.calls.lookup id' = some n → id = id'

section Channel

variable {c : Channel}

/-- The call that an act of the channel is about. -/
def callOf : Protocol.Act → Option Nat
  | .call n _ _ | .deliver n _ | .giveUp n => some n
  | .accept _ _ | .answer _ _ => none

/-- A call stays as it is while others are made and come back. -/
theorem lookup_calls_of_ne {act : Protocol.Act} {n : Nat} (h : callOf act ≠ some n) :
    (c.step wire act).calls.lookup n = c.calls.lookup n := by
  have hsettle : ∀ m result, m ≠ n → (c.settle m result).calls.lookup n = c.calls.lookup n := by
    intro m result hne
    unfold Channel.settle
    split
    · exact AList.lookup_insert_ne (Ne.symm hne)
    · rfl
  cases act with
  | call m op random =>
      have hne : n ≠ m := fun heq => h (congrArg some heq.symm)
      unfold Channel.step
      dsimp only
      split
      · rfl
      · exact AList.lookup_insert_ne hne
  | deliver m line => exact hsettle m _ fun heq => h (congrArg some heq)
  | giveUp m => exact hsettle m _ fun heq => h (congrArg some heq)
  | accept session frame =>
      unfold Channel.step
      dsimp only
      split
      · rfl
      · split <;> rfl
  | answer session manager =>
      unfold Channel.step
      dsimp only
      split <;> rfl

theorem sessions_settle (n : Nat) (result : Bytes → Option (List (Bytes × Bytes))) :
    (c.settle n result).sessions = c.sessions := by
  unfold Channel.settle
  split <;> rfl

/-- A session that has answered had done so before, or does so by this act. -/
theorem answered_of_step {act : Protocol.Act} {session : Nat} {q : Protocol.Request}
    {out : Protocol.Response}
    (h : (c.step wire act).sessions.lookup session = some (.answered q out)) :
    c.sessions.lookup session = some (.answered q out) ∨
      ∃ manager, act = .answer session manager ∧ out = answerTo wire manager q := by
  cases act with
  | call m op random =>
      unfold Channel.step at h
      dsimp only at h
      split at h <;> exact .inl h
  | deliver m line => exact .inl ((sessions_settle (c := c) m _) ▸ h)
  | giveUp m => exact .inl ((sessions_settle (c := c) m _) ▸ h)
  | accept session' frame =>
      unfold Channel.step at h
      dsimp only at h
      split at h
      · exact .inl h
      · split at h <;>
        · rw [Assoc.lookup_insert_eq] at h
          split at h
          · cases h
          · exact .inl h
  | answer session' manager =>
      unfold Channel.step at h
      dsimp only at h
      split at h
      · next q' hq' =>
          rw [Assoc.lookup_insert_eq] at h
          split at h
          · next heq =>
              subst heq
              cases h
              exact .inr ⟨manager, rfl, rfl⟩
          · exact .inl h
      · exact .inl h

/-- No session has accepted a nonce before a call draws it. -/
theorem nonce_ne_of_fresh (hc : Protocol.InOrder wire c) {nonce : Bytes}
    (hfresh : ∀ n call, c.calls.lookup n = some call → call.nonce ≠ nonce) {session : Nat}
    {q : Protocol.Request} {out : Protocol.Response}
    (h : c.sessions.lookup session = some (.answered q out)) : q.nonce ≠ nonce := by
  obtain ⟨-, hcomputed⟩ := hc.accepted session _ q h rfl
  -- the MAC of what it accepted was computed for a call, which drew the nonce
  rcases hc.computed _ hcomputed with ⟨n, call, hcall, htext⟩ | ⟨_, q', out', -, htext⟩
  · rw [Protocol.requestText_agentRequest] at htext
    obtain ⟨-, -, -, -, hnonce⟩ := Protocol.sameText_of_notMem Protocol.zero_notMem_profile
      Protocol.zero_notMem_audience (hc.nonces n call hcall) htext.symm
    rw [← hnonce]
    exact hfresh n call hcall
  · exact absurd htext (Protocol.requestText_ne_responseText q out')

end Channel

/-- A handler that waits for the agent waits on, whatever else comes. -/
theorem advance_of_asks {phase : Phase} {op : Protocol.Operation} (h : phase.asks = some op)
    {input : Input} (hagent : input.isAgent = false) (hleft : input ≠ .left) :
    app.advance phase input = (some phase, []) := by
  cases input with
  | agent answer => cases hagent
  | left => exact absurd rfl hleft
  | body | upstream | stream | resume => cases phase <;> first | rfl | cases h

/-- A call goes on being waited for. -/
theorem Waiting.step {moves : List Move} {s s' : Broker} {id n : Nat} {move : Move}
    (h : Waiting wire moves s id n)
    (hphase : s'.serving.requests.lookup id = s.serving.requests.lookup id)
    (hcall : s'.channel.calls.lookup n = s.channel.calls.lookup n)
    (hanswered : ∀ session q out,
      s'.channel.sessions.lookup session = some (.answered q out) →
        s.channel.sessions.lookup session = some (.answered q out) ∨
          ∃ manager, move = .answer session manager ∧ out = answerTo wire manager q) :
    Waiting wire (moves ++ [move]) s' id n := by
  obtain ⟨before, random, since, phase, op, rfl, hlookup, hasks, hmade, hsince⟩ := h
  refine ⟨before, random, since ++ [move], phase, op, by simp, hphase.trans hlookup, hasks,
    hcall.trans hmade, ?_⟩
  intro session q out hout hnonce
  rcases hanswered session q out hout with hold | ⟨manager, rfl, hmanager⟩
  · obtain ⟨manager, hmanager, hmem⟩ := hsince session q out hold hnonce
    exact ⟨manager, hmanager, List.mem_append_left _ hmem⟩
  · exact ⟨manager, hmanager, by simp⟩

/-- The move ends what a request waits for. -/
def Move.Ends (id : Nat) (move : Move) : Prop :=
  (∃ line, move = .deliver id line) ∨ move = .giveUp id ∨ move = .input id .left

theorem lookup_callsAfter {s : Broker} {move : Move} {id n : Nat}
    (h : (s.callsAfter move).lookup id = some n) :
    (s.calls.lookup id = some n ∧ ¬ move.Ends id) ∨
      ∃ random op, move = .call id n random ∧ s.calling id n = some op := by
  have herase : ∀ other, (s.calls.erase other).lookup id = some n →
      s.calls.lookup id = some n ∧ id ≠ other := by
    intro other h
    rw [Assoc.lookup_erase_eq] at h
    split at h
    · cases h
    · next hne => exact ⟨h, hne⟩
  cases move with
  | request | accept | answer => exact .inl ⟨h, by simp [Move.Ends]⟩
  | deliver other line =>
      obtain ⟨hold, hne⟩ := herase other h
      exact .inl ⟨hold, by simpa [Move.Ends] using Ne.symm hne⟩
  | giveUp other =>
      obtain ⟨hold, hne⟩ := herase other h
      exact .inl ⟨hold, by simpa [Move.Ends] using Ne.symm hne⟩
  | input other input =>
      cases input with
      | left =>
          obtain ⟨hold, hne⟩ := herase other h
          exact .inl ⟨hold, by simpa [Move.Ends] using Ne.symm hne⟩
      | _ => exact .inl ⟨h, by simp [Move.Ends]⟩
  | call other m random =>
      unfold Broker.callsAfter at h
      dsimp only at h
      split at h
      · next hcalling =>
          rw [Assoc.lookup_insert_eq] at h
          split at h
          · next heq =>
              subst heq
              cases h
              obtain ⟨op, hop⟩ := Option.isSome_iff_exists.mp hcalling
              exact .inr ⟨random, op, rfl, hop⟩
          · exact .inl ⟨h, by simp [Move.Ends]⟩
      · exact .inl ⟨h, by simp [Move.Ends]⟩

section Step

variable {moves : List Move} {s : Broker} {move : Move}

theorem calling_eq_some {id n : Nat} {op : Protocol.Operation} (h : s.calling id n = some op) :
    s.calls.lookup id = none ∧ s.channel.calls.lookup n = none ∧
      ∃ phase, s.serving.requests.lookup id = some phase ∧ phase.asks = some op := by
  unfold Broker.calling at h
  split at h
  · next hfree => exact ⟨hfree.1, hfree.2, Option.bind_eq_some_iff.mp h⟩
  · cases h

/-- A request that waits for the agent is where it was, unless the move ends that. -/
theorem Origin.phase_kept (h : Origin app wire moves s) {id : Nat} {phase : Phase}
    {op : Protocol.Operation} (hphase : s.serving.requests.lookup id = some phase)
    (hasks : phase.asks = some op) (hends : ¬ move.Ends id) :
    (s.step app wire move).1.serving.requests.lookup id = s.serving.requests.lookup id := by
  unfold Broker.step
  dsimp only
  cases hact : s.servingAct wire move with
  | none => rfl
  | some act =>
      dsimp only
      by_cases hid : s.serving.idOf act = id
      case neg => exact Serving.lookup_step_of_ne hid
      cases act with
      | request request =>
          rw [h.serving.fresh id (Nat.le_of_eq hid)] at hphase
          cases hphase
      | input other input =>
          obtain rfl : other = id := hid
          have hinput : input.isAgent = false ∧ input ≠ .left := by
            cases move with
            | input other' input' =>
                unfold Broker.servingAct at hact
                dsimp only at hact
                split at hact
                · cases hact
                · next hagent =>
                    cases hact
                    refine ⟨by simpa using hagent, ?_⟩
                    rintro rfl
                    exact hends (.inr (.inr rfl))
            | deliver other' line =>
                obtain ⟨n, -, hact⟩ := Option.map_eq_some_iff.mp hact
                cases hact
                exact absurd (.inl ⟨line, rfl⟩) hends
            | giveUp other' =>
                obtain ⟨n, -, hact⟩ := Option.map_eq_some_iff.mp hact
                cases hact
                exact absurd (.inr (.inl rfl)) hends
            | request | call | accept | answer => cases hact
          unfold Serving.step Serving.proceed
          dsimp only
          rw [hphase]
          dsimp only
          rw [advance_of_asks hasks hinput.1 hinput.2]
          exact AList.lookup_insert _

/-- So is its call. -/
theorem Origin.call_kept (h : Origin app wire moves s) {id n : Nat}
    (hn : s.calls.lookup id = some n) (hends : ¬ move.Ends id) :
    (s.step app wire move).1.channel.calls.lookup n = s.channel.calls.lookup n := by
  unfold Broker.step
  dsimp only
  cases hact : s.channelAct move with
  | none => rfl
  | some act =>
      refine lookup_calls_of_ne ?_
      intro heq
      cases move with
      | request | input => cases hact
      | accept | answer =>
          cases hact
          cases heq
      | call other m random =>
          obtain ⟨op, hop, hact⟩ := Option.map_eq_some_iff.mp hact
          cases hact
          cases heq
          obtain ⟨_, _, _, _, _, -, -, -, hmade, -⟩ := h.waiting id n hn
          rw [(calling_eq_some hop).2.1] at hmade
          cases hmade
      | deliver other line =>
          obtain ⟨m, hm, hact⟩ := Option.map_eq_some_iff.mp hact
          cases hact
          cases heq
          exact hends (.inl ⟨line, by rw [h.own other id n hm hn]⟩)
      | giveUp other =>
          obtain ⟨m, hm, hact⟩ := Option.map_eq_some_iff.mp hact
          cases hact
          cases heq
          exact hends (.inr (.inl (by rw [h.own other id n hm hn])))

/-- A session that has answered had done so before, or does so by this move. -/
theorem answered_of_move {session : Nat} {q : Protocol.Request} {out : Protocol.Response}
    (h : (s.step app wire move).1.channel.sessions.lookup session = some (.answered q out)) :
    s.channel.sessions.lookup session = some (.answered q out) ∨
      ∃ manager, move = .answer session manager ∧ out = answerTo wire manager q := by
  unfold Broker.step at h
  dsimp only at h
  cases hact : s.channelAct move with
  | none =>
      rw [hact] at h
      exact .inl h
  | some act =>
      rw [hact] at h
      rcases answered_of_step h with hold | ⟨manager, rfl, hout⟩
      · exact .inl hold
      · refine .inr ⟨manager, ?_, hout⟩
        cases move with
        | answer session' manager' =>
            cases hact
            rfl
        | request | input | accept => cases hact
        | call | deliver | giveUp =>
            obtain ⟨_, _, hact⟩ := Option.map_eq_some_iff.mp hact
            cases hact

/-- A call that is made is a new one. -/
theorem Origin.not_waiting (h : Origin app wire moves s) {id other n : Nat}
    {op : Protocol.Operation} (hn : s.calls.lookup id = some n)
    (hcalling : s.calling other n = some op) : False := by
  obtain ⟨_, _, _, _, _, -, -, -, hmade, -⟩ := h.waiting id n hn
  rw [(calling_eq_some hcalling).2.1] at hmade
  cases hmade

/-- The call that a request makes. -/
theorem Origin.made (h : Origin app wire moves s) {id n : Nat} {random : Vector UInt8 32}
    {op : Protocol.Operation} (hcalling : s.calling id n = some op)
    (hsound : (Move.call id n random).Sound wire s) :
    Waiting wire (moves ++ [.call id n random]) (s.step app wire (.call id n random)).1 id n := by
  obtain ⟨-, hfree, phase, hphase, hasks⟩ := calling_eq_some hcalling
  have hact : s.channelAct (.call id n random) = some (.call n op random) :=
    congrArg (Option.map fun op => Protocol.Act.call n op random) hcalling
  have hchannel : (s.step app wire (.call id n random)).1.channel =
      s.channel.step wire (.call n op random) := by
    unfold Broker.step
    dsimp only
    rw [hact]
    rfl
  refine ⟨moves, random, [], phase, op, rfl, hphase, hasks, ?_, ?_⟩
  · rw [hchannel]
    unfold Channel.step
    dsimp only
    rw [hfree, if_neg (by decide)]
    exact AList.lookup_insert _
  · intro session q out hout hnonce
    obtain ⟨-, hfresh⟩ := hsound _ hact
    rcases answered_of_move hout with hold | ⟨manager, hmove, -⟩
    · exact absurd hnonce (nonce_ne_of_fresh h.channel hfresh hold)
    · cases hmove

/-- **Step.** A move keeps the channel in order, and each call with the one request that waits for
it. -/
theorem Origin.step (h : Origin app wire moves s) (hsound : move.Sound wire s) :
    Origin app wire (moves ++ [move]) (s.step app wire move).1 := by
  refine ⟨?_, ?_, ?_, ?_⟩
  · unfold Broker.step
    dsimp only
    cases hact : s.channelAct move with
    | none => exact h.channel
    | some act =>
        obtain ⟨hunforged, hfresh⟩ := hsound act hact
        exact h.channel.step hunforged hfresh
  · unfold Broker.step
    dsimp only
    split
    · exact h.serving.step _
    · exact h.serving
  · intro id n hn
    rcases lookup_callsAfter hn with ⟨hold, hends⟩ | ⟨random, op, rfl, hcalling⟩
    · have hwaiting := h.waiting id n hold
      have hwaiting' := hwaiting
      obtain ⟨_, _, _, phase, op, -, hphase, hasks, -, -⟩ := hwaiting'
      exact hwaiting.step (h.phase_kept hphase hasks hends) (h.call_kept hold hends)
        fun session q out => answered_of_move
    · exact h.made hcalling hsound
  · intro id id' n hn hn'
    rcases lookup_callsAfter hn with ⟨hold, -⟩ | ⟨random, op, rfl, hcalling⟩
    · rcases lookup_callsAfter hn' with ⟨hold', -⟩ | ⟨random, op, rfl, hcalling⟩
      · exact h.own id id' n hold hold'
      · exact (h.not_waiting hold hcalling).elim
    · rcases lookup_callsAfter hn' with ⟨hold', -⟩ | ⟨random', op', hmove, -⟩
      · exact (h.not_waiting hold' hcalling).elim
      · cases hmove
        rfl

end Step

/-- **Run.** So any moves do. -/
theorem origin_run {moves : List Move} (hsound : Sound app wire moves) :
    Origin app wire moves ((broker app wire).run moves) := by
  have hrun := Mealy.invariant (m := broker app wire)
    (P := fun tr s => Origin app wire (tr.map Prod.snd) s) ?_ ?_ moves hsound
  · rwa [Mealy.map_snd_trace] at hrun
  · refine ⟨?_, accounted_run app [], ?_, ?_⟩
    · have hempty : Protocol.Unforged wire [] := Mealy.along_nil
      exact Protocol.inOrder_run hempty Mealy.along_nil
    · rintro id n ⟨⟩
    · rintro id id' n ⟨⟩
  · intro moves move hi hguard
    rw [Mealy.map_snd_trace] at hi hguard
    rw [List.map_append, Mealy.map_snd_trace]
    exact hi.step hguard

/-! ## What a request is sent with -/

/-- A handler sends something only if it asked for credentials, on those it is given. -/
theorem sent_of_advance {phase : Phase} {input : Input} {upstream : UpstreamRequest}
    (h : .sent upstream ∈ (app.advance phase input).2) :
    ∃ job again credentials, phase = .acquiring job again ∧ input = .agent (some credentials) ∧
      Under app job credentials upstream := by
  have hdropped : .sent upstream ∉ app.dropped phase := by cases phase <;> simp [App.dropped]
  unfold App.advance at h
  split at h
  · exact absurd ((List.mem_cons.mp h).resolve_left (by simp)) hdropped
  · split at h
    · simp at h
    · simp at h
    · split at h <;> simp at h
  · next job again answer =>
      split at h
      · simp at h
      · next credentials =>
          split at h
          · simp at h
          · next headers hheaders =>
              simp only [List.mem_cons, reduceCtorEq, Happening.sent.injEq, List.not_mem_nil,
                or_false, false_or] at h
              subst h
              exact ⟨job, again, credentials, rfl, rfl, hheaders, rfl⟩
  · split at h
    · simp at h
    · split at h <;> simp at h
  · split at h <;> simp at h
  · unfold App.advanceStream at h
    dsimp only at h
    split at h
    · split at h <;> simp at h
    · simp at h
    · simp at h
    · simp at h
  · simp at h
  · cases h

/-- Something is sent only by a request that asked for credentials, on those it is given. -/
theorem sent_of_step {s : Serving} {act : Act} {upstream : UpstreamRequest}
    (h : .sent upstream ∈ (s.step app act).2) :
    ∃ id job again credentials, act = .input id (.agent (some credentials)) ∧
      s.requests.lookup id = some (.acquiring job again) ∧ Under app job credentials upstream := by
  cases act with
  | request request =>
      have hnone : .sent upstream ∉ (s.arrive app request).2 := by
        unfold Serving.arrive
        dsimp only
        split
        · simp
        · split <;> simp
      exact absurd h hnone
  | input id input =>
      unfold Serving.step at h
      dsimp only at h
      split at h
      case h_2 => cases h
      next phase hphase =>
        have hadvance : .sent upstream ∈ (app.advance phase input).2 := by
          unfold Serving.proceed at h
          split at h <;> rename_i heq <;> rw [heq] <;> exact h
        obtain ⟨job, again, credentials, rfl, rfl, hunder⟩ := sent_of_advance hadvance
        exact ⟨id, job, again, credentials, rfl, hphase, hunder⟩

/-- The headers of an answer to `acquire`, as the proxy takes them. -/
theorem headers_of_acquire {manager : Manager} {nonce : Bytes} {credentials : Credentials}
    (hok : (Protocol.acquire manager nonce).ok = true)
    (h : credentialsOf (Protocol.acquire manager nonce).headers = some credentials) :
    ∃ token account bearer id, manager.auth = some (token, account) ∧
      credentials.headers = [("authorization", bearer), ("chatgpt-account-id", id)] ∧
        utf8 bearer = ascii "Bearer " ++ token ∧ utf8 id = account.getD [] := by
  unfold Protocol.acquire at hok h
  split at hok
  case h_2 => cases hok
  next token account hauth =>
    rw [hauth] at h
    dsimp only at h
    unfold credentialsOf at h
    split at h
    · cases h
    · next headers hheaders =>
        split at h
        · next hnames =>
            cases h
            have htexts := utf8_headers hheaders
            obtain ⟨⟨name, bearer⟩, rest, rfl, hfirst, hrest⟩ := List.map_eq_cons_iff.mp htexts
            obtain ⟨⟨name', id⟩, rest, rfl, hsecond, hrest⟩ := List.map_eq_cons_iff.mp hrest
            obtain rfl := List.map_eq_nil_iff.mp hrest
            obtain ⟨hname, hbearer⟩ := Prod.mk.inj hfirst
            obtain ⟨hname', hid⟩ := Prod.mk.inj hsecond
            have hauthorization : name = "authorization" :=
              Utf8.bytes_injective (hname.trans (by decide +kernel))
            have haccount : name' = "chatgpt-account-id" :=
              Utf8.bytes_injective (hname'.trans (by decide +kernel))
            subst hauthorization haccount
            exact ⟨token, account, bearer, id, hauth, rfl, hbearer, hid⟩
        · cases h

/-- `upstream` goes under what the login manager came to after request `id` made its call. -/
def Authentic (moves : List Move) (id : Nat) (upstream : UpstreamRequest) : Prop :=
  ∃ before n random since session manager token account,
    moves = before ++ .call id n random :: since ∧ .answer session manager ∈ since ∧
      manager.auth = some (token, account) ∧
        upstream.headers.getAll "authorization" = [ascii "Bearer " ++ token] ∧
          upstream.headers.getAll "chatgpt-account-id" = [account.getD []]

/-- What a request is given is what the login manager came to since it asked. -/
theorem Origin.authentic {moves : List Move} {s : Broker} (h : Origin app wire moves s)
    (hhttp : app.http.Documented) {id n : Nat} {line : Bytes}
    (hsound : (Move.deliver id line).Sound wire s) (hn : s.calls.lookup id = some n)
    {job : Job} {again : Bool} (hphase : s.serving.requests.lookup id = some (.acquiring job again))
    {credentials : Credentials} (hreceived : s.received wire n line = some credentials)
    {upstream : UpstreamRequest} (hunder : Under app job credentials upstream) :
    Authentic moves id upstream := by
  obtain ⟨before, random, since, phase, op, rfl, hphase', hasks, hmade, hsince⟩ :=
    h.waiting id n hn
  rw [hphase] at hphase'
  cases hphase'
  cases hasks
  obtain ⟨call, hcall, hline⟩ := Option.bind_eq_some_iff.mp hreceived
  rw [hmade] at hcall
  cases hcall
  obtain ⟨headers, hreceive, hcredentials⟩ := Option.bind_eq_some_iff.mp hline
  have hact : s.channelAct (.deliver id line) = some (.deliver n line) :=
    congrArg (Option.map fun n => Protocol.Act.deliver n line) hn
  obtain ⟨session, q, out, hout, hnonce, hok, hheaders⟩ :=
    h.channel.answer_of_reply hreceive (hsound _ hact).1
  have hq : q.nonce = nonceOf random := (h.channel.answered session q out hout).symm.trans hnonce
  have hop : q.operation = .acquire := h.channel.operation_eq hmade hout rfl hq
  obtain ⟨manager, rfl, hmem⟩ := hsince session q out hout hq
  have hrespond : Protocol.respond manager q = Protocol.acquire manager q.nonce := by
    unfold Protocol.respond
    rw [hop]
  have hok' : (Protocol.acquire manager q.nonce).ok = true := hrespond ▸ hok
  have hcredentials' : credentialsOf (Protocol.acquire manager q.nonce).headers =
      some credentials := by
    rw [← hrespond]
    exact hheaders ▸ hcredentials
  obtain ⟨token, account, bearer, accountId, hauth, hgranted, hbearer, haccount⟩ :=
    headers_of_acquire hok' hcredentials'
  have hpermitted := permitted_upstreamHeaders hhttp credentials.names hunder.headers
  rw [hgranted] at hpermitted
  refine ⟨before, n, random, since, session, manager, token, account, rfl, hmem, hauth, ?_, ?_⟩
  · rw [← hbearer]
    exact hpermitted.credential "authorization" bearer rfl
  · rw [← haccount]
    exact hpermitted.credential "chatgpt-account-id" accountId rfl

/-- **Credentials are the provider's, and new.** Whatever the network does, short of forging a MAC,
and however the requests and the provider's sessions interleave, whatever is sent upstream goes
under what the login manager came to after that very request asked. -/
theorem sent_authentic (app : App) (wire : Wire) (hhttp : app.http.Documented) (moves : List Move)
    (hsound : Sound app wire moves) (before after : List Move) (move : Move)
    (hmoves : moves = before ++ move :: after) (id : Nat) (upstream : UpstreamRequest)
    (hsent : .sent upstream ∈ moved app wire id ((broker app wire).run before) move) :
    Authentic before id upstream := by
  have hprefix : before ++ [move] <+: moves := ⟨after, by simp [hmoves]⟩
  have hmove : move.Sound wire
      ((broker app wire).run (((broker app wire).trace before).map Prod.snd)) :=
    hsound before move hprefix
  have horigin : Origin app wire before ((broker app wire).run before) :=
    origin_run fun pre act hpre => hsound pre act (hpre.trans ⟨move :: after, hmoves.symm⟩)
  rw [Mealy.map_snd_trace] at hmove
  generalize (broker app wire).run before = s at hsent hmove horigin
  unfold moved at hsent
  cases hact : s.servingAct wire move with
  | none =>
      rw [hact] at hsent
      cases hsent
  | some act =>
      rw [hact] at hsent
      have hhappened : .sent upstream ∈ happened app id (s.serving, act) := hsent
      unfold happened at hhappened
      split at hhappened
      case isFalse => cases hhappened
      next hid =>
        obtain ⟨other, job, again, credentials, rfl, hphase, hunder⟩ := sent_of_step hhappened
        obtain rfl : other = id := hid
        cases move with
        | deliver other' line =>
            obtain ⟨n, hn, hact⟩ := Option.map_eq_some_iff.mp hact
            obtain ⟨rfl, hagent⟩ := Act.input.inj hact
            exact horigin.authentic hhttp hmove hn hphase (Input.agent.inj hagent) hunder
        | giveUp other' =>
            obtain ⟨n, hn, hact⟩ := Option.map_eq_some_iff.mp hact
            cases hact
        | input other' input =>
            unfold Broker.servingAct at hact
            dsimp only at hact
            split at hact
            · cases hact
            · next hagent =>
                cases hact
                exact absurd rfl hagent
        | request | call | accept | answer => cases hact

/-! ## A request that is sent -/

/-- The request that asks for the credential, and what it is answered. -/
def sampleAsked : Protocol.Request :=
  let q : Protocol.Request :=
    ⟨Protocol.version, .acquire, Protocol.profile, Protocol.audience, Protocol.sampleNonce, []⟩
  { q with mac := Protocol.requestMac Protocol.sampleHmac q }

def sampleAnswered : Protocol.Response :=
  let out := Protocol.acquire Protocol.sampleManager Protocol.sampleNonce
  { out with mac := Protocol.responseMac Protocol.sampleHmac out }

/-- Reads the two messages. -/
def sampleWire : Wire where
  hmac := Protocol.sampleHmac
  requests text := if text = sampleAsked.json then .ok sampleAsked else .error "invalid"
  responses text := if text = sampleAnswered.json then .ok sampleAnswered else .error "invalid"

/-- A request comes, and its call is taken and answered by a session. -/
def sampleBefore : List Move :=
  [.request ⟨ascii "POST", ascii "/v1/responses", none, sampleClient⟩,
    .input 0 (.body (.read sampleBody)), .call 0 0 (.replicate 32 0),
    .accept 0 (sampleAsked.json ++ [Protocol.newline]), .answer 0 Protocol.sampleManager]

def sampleDelivered : Move := .deliver 0 (sampleAnswered.json ++ [Protocol.newline])

theorem Sound.concat {moves : List Move} {move : Move} (h : Sound app wire moves)
    (hmove : move.Sound wire ((broker app wire).run moves)) :
    Sound app wire (moves ++ [move]) := by
  refine Mealy.Along.concat h ?_
  rwa [Mealy.map_snd_trace]

theorem sound_call {s : Broker} {id n : Nat} {random : Vector UInt8 32}
    (hfresh : ∀ n call, s.channel.calls.lookup n = some call → call.nonce ≠ nonceOf random) :
    (Move.call id n random).Sound wire s := by
  intro act hact
  obtain ⟨op, -, rfl⟩ := Option.map_eq_some_iff.mp (show Option.map _ _ = some act from hact)
  exact ⟨trivial, hfresh⟩

/-- A frame that was MACed is no forgery. -/
theorem sound_accept {s : Broker} {session : Nat} {frame : Bytes} {q : Protocol.Request}
    (hread : Protocol.decode wire.requests frame = .ok q)
    (hcomputed : Protocol.requestText q ∈ s.channel.computed) :
    (Move.accept session frame).Sound wire s := by
  rintro act ⟨⟩
  refine ⟨?_, trivial⟩
  intro q' hq' _
  rw [hread] at hq'
  cases hq'
  exact hcomputed

theorem sound_deliver {s : Broker} {id : Nat} {line : Bytes} {out : Protocol.Response}
    (hread : Protocol.decode wire.responses line = .ok out)
    (hcomputed : Protocol.responseText out ∈ s.channel.computed) :
    (Move.deliver id line).Sound wire s := by
  intro act hact
  obtain ⟨n, -, rfl⟩ := Option.map_eq_some_iff.mp (show Option.map _ _ = some act from hact)
  refine ⟨?_, trivial⟩
  intro out' hout' _
  rw [hread] at hout'
  cases hout'
  exact hcomputed

private theorem sound_sample : Sound sampleApp sampleWire (sampleBefore ++ [sampleDelivered]) := by
  have hasked : Protocol.decode sampleWire.requests (sampleAsked.json ++ [Protocol.newline]) =
      .ok sampleAsked := by decide +kernel
  have hanswered : Protocol.decode sampleWire.responses
      (sampleAnswered.json ++ [Protocol.newline]) = .ok sampleAnswered := by decide +kernel
  have hempty : ((broker sampleApp sampleWire).run (sampleBefore.take 2)).channel =
      ⟨∅, ∅, []⟩ := rfl
  have hread : Sound sampleApp sampleWire (sampleBefore.take 2) := by
    refine Sound.concat (Sound.concat Mealy.along_nil ?_) ?_ <;> rintro act ⟨⟩
  have hcalled : Sound sampleApp sampleWire (sampleBefore.take 3) := by
    refine hread.concat (sound_call ?_)
    rw [hempty]
    rintro n call ⟨⟩
  have haccepted : Sound sampleApp sampleWire (sampleBefore.take 4) :=
    hcalled.concat (sound_accept hasked (by decide +kernel))
  have hbefore : Sound sampleApp sampleWire sampleBefore := by
    refine haccepted.concat ?_
    rintro act ⟨⟩
    exact ⟨trivial, trivial⟩
  exact hbefore.concat (sound_deliver hanswered (by decide +kernel))

/-- It is sent with the token that the session's login has. -/
theorem sent_authentic_sample :
    ∃ upstream, .sent upstream ∈ moved sampleApp sampleWire 0
        ((broker sampleApp sampleWire).run sampleBefore) sampleDelivered ∧
      Authentic sampleBefore 0 upstream := by
  have hany : ((moved sampleApp sampleWire 0 ((broker sampleApp sampleWire).run sampleBefore)
      sampleDelivered).any Happening.isSent) = true := by decide +kernel
  obtain ⟨event, hmem, hsent⟩ := List.any_eq_true.mp hany
  cases event with
  | sent upstream =>
      exact ⟨upstream, hmem, sent_authentic sampleApp sampleWire documented_sampleParsers
        (sampleBefore ++ [sampleDelivered]) sound_sample sampleBefore [] sampleDelivered rfl 0
        upstream hmem⟩
  | _ => cases hsent

end CredentialBroker.Proxy
