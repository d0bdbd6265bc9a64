import CredentialBroker.Protocol.Frame
import CredentialBroker.Util.Mealy

/-!
# Agreement over the credential channel

The proxy's `agent` sends a request with a fresh nonce and takes a reply; the provider's
`handle_real` takes a request and answers it. Any number of both run at once under one key, and what
each of them reads is whatever the network likes: `deliver` and `accept` bring any bytes at all, so
frames are dropped, reordered, replayed and made up.

Of the key only this is used (`Unforged`): a MAC that checks out for a text was computed for that
text by the proxy or the provider before. Nothing in a reply says which operation it is to. That it
is to the one asked for follows in two hops: the reply's text binds it to a session that answered
this nonce, and the text of the request that session accepted binds it to the call that drew the
nonce, of which there is one.
-/

namespace CredentialBroker.Protocol

/-- What the two sides use of the outside: HMAC under the key they share, and the readers of JSON.
-/
structure Wire where
  hmac : Bytes → Bytes
  requests : Bytes → Except String Request
  responses : Bytes → Except String Response

/-- The profile and the audience of the one credential there is: `AGENT_PROFILE` and `PROFILE`,
`AGENT_AUDIENCE` and `AUDIENCE`. -/
def profile : Bytes := ascii "codex"

def audience : Bytes := ascii "codex"

theorem zero_notMem_profile : 0 ∉ profile := by decide

theorem zero_notMem_audience : 0 ∉ audience := by decide

/-! ## The proxy -/

/-- The headers the proxy takes from the provider. -/
def injected : List Bytes := [ascii "authorization", ascii "chatgpt-account-id"]

/-- The request `agent` sends. -/
def agentRequest (wire : Wire) (op : Operation) (nonce : Bytes) : Request :=
  let request : Request := ⟨version, op, profile, audience, nonce, []⟩
  { request with mac := requestMac wire.hmac request }

/-- What `agent` makes of the line it reads. -/
def agentReceive (wire : Wire) (nonce line : Bytes) : Option (List (Bytes × Bytes)) :=
  match decode wire.responses line with
  | .error _ => none
  | .ok response =>
    if !validateResponse response nonce || !response.ok ||
        !validMac response.mac (responseMac wire.hmac response) then none
    else if response.headers.any (fun h =>
        decide (128 < h.1.length) || decide (maxValue < h.2.length) || !injected.contains h.1) then
      none
    else some response.headers

/-! ## The provider -/

/-- What the login manager comes to: a token and an account, and whether recovery went through. -/
structure Manager where
  auth : Option (Bytes × Option Bytes)
  recovered : Bool

/-- The request `handle_real` goes on with, if any. -/
def handleRequest (wire : Wire) (frame : Bytes) : Option Request :=
  match decode wire.requests frame with
  | .error _ => none
  | .ok q =>
    if !validateRequest q profile audience || !validMac (requestMac wire.hmac q) q.mac then none
    else some q

/-- `bad`. -/
def bad (nonce : Bytes) : Response := ⟨version, false, nonce, [], []⟩

/-- `acquire`. -/
def acquire (manager : Manager) (nonce : Bytes) : Response :=
  match manager.auth with
  | some (token, account) =>
      ⟨version, true, nonce, [],
        [(ascii "authorization", ascii "Bearer " ++ token),
          (ascii "chatgpt-account-id", account.getD [])]⟩
  | none => bad nonce

/-- `recover`. -/
def recover (manager : Manager) (nonce : Bytes) : Response :=
  if manager.recovered then ⟨version, true, nonce, [], []⟩ else bad nonce

/-- What a request is answered with, before the MAC. -/
def respond (manager : Manager) (q : Request) : Response :=
  match q.operation with
  | .ping => ⟨version, true, q.nonce, [], []⟩
  | .acquire => acquire manager q.nonce
  | .unauthorizedRecovery => recover manager q.nonce

/-- The answer `handle_real` writes, if it fits in a frame. -/
def answerTo (wire : Wire) (manager : Manager) (q : Request) : Response :=
  { respond manager q with mac := responseMac wire.hmac (respond manager q) }

@[simp] theorem nonce_respond (manager : Manager) (q : Request) :
    (respond manager q).nonce = q.nonce := by
  unfold respond acquire recover bad
  repeat' split
  all_goals rfl

@[simp] theorem requestText_agentRequest (wire : Wire) (op : Operation) (nonce : Bytes) :
    requestText (agentRequest wire op nonce) =
      requestText ⟨version, op, profile, audience, nonce, []⟩ := rfl

/-! ## The system -/

/-- A call of `agent`: waiting for its reply, or back with the headers or an error. -/
inductive CallState where
  | waiting
  | returned (result : Option (List (Bytes × Bytes)))

/-- A call, with what it asked for and the nonce it drew. -/
structure AgentCall where
  op : Operation
  nonce : Bytes
  state : CallState

/-- A session of the provider: closed on a request it does not accept, or with the request it
accepted and, in time, its answer. -/
inductive Session where
  | closed
  | accepted (q : Request)
  | answered (q : Request) (out : Response)

/-- The request a session accepted. -/
def Session.request : Session → Option Request
  | closed => none
  | accepted q => some q
  | answered q _ => some q

/-- Every call and session there was, and every text the two sides computed a MAC of to send. -/
structure Channel where
  calls : Assoc Nat AgentCall
  sessions : Assoc Nat Session
  computed : List Bytes

inductive Act where
  /-- `agent` is called and sends its request. -/
  | call (id : Nat) (op : Operation) (random : Vector UInt8 32)
  /-- A waiting call reads this line. -/
  | deliver (id : Nat) (line : Bytes)
  /-- A waiting call gives up: it timed out, or its connection failed. -/
  | giveUp (id : Nat)
  /-- A new session reads this frame. -/
  | accept (id : Nat) (frame : Bytes)
  /-- A session answers, by what the login manager comes to. -/
  | answer (id : Nat) (manager : Manager)

/-- The nonce of a draw. -/
def nonceOf (random : Vector UInt8 32) : Bytes := Runs.hexEncode random.toList

variable (wire : Wire)

/-- A call that comes back. -/
def Channel.settle (s : Channel) (id : Nat) (result : Bytes → Option (List (Bytes × Bytes))) :
    Channel :=
  match s.calls.lookup id with
  | some ⟨op, nonce, .waiting⟩ =>
      { s with calls := s.calls.insert id ⟨op, nonce, .returned (result nonce)⟩ }
  | _ => s

/-- One step of the system. A number in use names no second call or session. -/
def Channel.step (s : Channel) : Act → Channel
  | .call id op random =>
    if (s.calls.lookup id).isSome then s
    else
      { s with
        calls := s.calls.insert id ⟨op, nonceOf random, .waiting⟩
        computed := requestText (agentRequest wire op (nonceOf random)) :: s.computed }
  | .deliver id line => s.settle id (agentReceive wire · line)
  | .giveUp id => s.settle id (fun _ => none)
  | .accept id frame =>
    if (s.sessions.lookup id).isSome then s
    else
      match handleRequest wire frame with
      | none => { s with sessions := s.sessions.insert id .closed }
      | some q => { s with sessions := s.sessions.insert id (.accepted q) }
  | .answer id manager =>
    match s.sessions.lookup id with
    | some (.accepted q) =>
      { s with
        sessions := s.sessions.insert id (.answered q (answerTo wire manager q))
        computed := responseText (answerTo wire manager q) :: s.computed }
    | _ => s

/-- The channel, from nothing. -/
def channel : Mealy Channel Act Unit := ⟨⟨∅, ∅, []⟩, fun s act => (s.step wire act, ())⟩

/-- A MAC the act checks holds for a text only if it was computed for that text. -/
def Act.Unforged (s : Channel) : Act → Prop
  | .deliver _ line => ∀ r, decode wire.responses line = .ok r →
      r.mac = responseMac wire.hmac r → responseText r ∈ s.computed
  | .accept _ frame => ∀ q, decode wire.requests frame = .ok q →
      q.mac = requestMac wire.hmac q → requestText q ∈ s.computed
  | _ => True

/-- A call draws a nonce that no call before it drew. -/
def Act.Fresh (s : Channel) : Act → Prop
  | .call _ _ random => ∀ id call, s.calls.lookup id = some call → call.nonce ≠ nonceOf random
  | _ => True

/-- No MAC is ever forged. -/
def Unforged (acts : List Act) : Prop :=
  (channel wire).Along (fun tr act => act.Unforged wire ((channel wire).run (tr.map Prod.snd))) acts

/-- Nonces are fresh. -/
def FreshNonces (acts : List Act) : Prop :=
  (channel wire).Along (fun tr act => act.Fresh ((channel wire).run (tr.map Prod.snd))) acts

/-! ## What the two sides check -/

variable {wire}

/-- Headers come back only from a response that was checked. -/
theorem agentReceive_eq_some {nonce line : Bytes} {headers : List (Bytes × Bytes)}
    (h : agentReceive wire nonce line = some headers) :
    ∃ r, decode wire.responses line = .ok r ∧ r.version = version ∧ r.nonce = nonce ∧
      r.ok = true ∧ r.mac = responseMac wire.hmac r ∧ r.headers = headers := by
  unfold agentReceive at h
  split at h
  · cases h
  · next r hr =>
      split at h
      · cases h
      · next hchecked =>
          split at h
          · cases h
          · cases h
            simp only [Bool.or_eq_true, Bool.not_eq_true', not_or, Bool.not_eq_false,
              validMac_iff, validateResponse, Bool.and_eq_true, beq_iff_eq] at hchecked
            obtain ⟨⟨⟨⟨⟨hversion, hnonce⟩, -⟩, -⟩, hok⟩, hmac⟩ := hchecked
            exact ⟨r, hr, hversion, hnonce, hok, hmac, rfl⟩

/-- A session goes on only with a request that was checked. -/
theorem handleRequest_eq_some {frame : Bytes} {q : Request}
    (h : handleRequest wire frame = some q) :
    decode wire.requests frame = .ok q ∧ validateRequest q profile audience = true ∧
      q.mac = requestMac wire.hmac q := by
  unfold handleRequest at h
  split at h
  · cases h
  · next q' hq =>
      split at h
      · cases h
      · next hchecked =>
          cases h
          simp only [Bool.or_eq_true, Bool.not_eq_true', not_or, Bool.not_eq_false,
            validMac_iff] at hchecked
          exact ⟨hq, hchecked.1, hchecked.2.symm⟩

/-- An accepted request is for this provider. -/
theorem validateRequest_true {q : Request} (h : validateRequest q profile audience = true) :
    q.version = version ∧ q.profile = profile ∧ q.audience = audience := by
  simp only [validateRequest, Bool.and_eq_true, beq_iff_eq] at h
  exact ⟨h.1.1.1.1.1.1, h.1.1.1.1.1.2, h.1.1.1.1.2⟩

theorem zero_notMem_hexEncode (bs : Bytes) : 0 ∉ Runs.hexEncode bs := by
  have hdigit : ∀ n : Fin 16, Runs.hexDigit n.val ≠ 0 := by decide
  intro hmem
  obtain ⟨b, -, hb⟩ := List.mem_flatMap.mp hmem
  have hlt := b.toNat_lt
  simp only [List.mem_cons, List.not_mem_nil, or_false] at hb
  rcases hb with hb | hb
  · exact hdigit ⟨b.toNat / 16, by omega⟩ hb.symm
  · exact hdigit ⟨b.toNat % 16, by omega⟩ hb.symm

/-! ## The invariant -/

variable (wire)

/-- Where every MAC, request and reply comes from. -/
structure InOrder (s : Channel) : Prop where
  /-- A text that was MACed is a call's request or a session's answer. -/
  computed : ∀ text ∈ s.computed,
    (∃ id call, s.calls.lookup id = some call ∧
      text = requestText (agentRequest wire call.op call.nonce)) ∨
    ∃ id q out, s.sessions.lookup id = some (.answered q out) ∧ text = responseText out
  /-- A request that was accepted was checked, and MACed by one of the two. -/
  accepted : ∀ id session q, s.sessions.lookup id = some session → session.request = some q →
    validateRequest q profile audience = true ∧ requestText q ∈ s.computed
  /-- An answer is to the nonce of its request. -/
  answered : ∀ id q out, s.sessions.lookup id = some (.answered q out) → out.nonce = q.nonce
  nonces : ∀ id call, s.calls.lookup id = some call → 0 ∉ call.nonce
  /-- No two calls drew one nonce. -/
  distinct : ∀ id id' call call', s.calls.lookup id = some call → s.calls.lookup id' = some call' →
    call.nonce = call'.nonce → id = id'
  /-- Headers that came back are those of an answer to the call's nonce. -/
  replied : ∀ id op nonce headers,
    s.calls.lookup id = some ⟨op, nonce, .returned (some headers)⟩ →
      ∃ sid q out, s.sessions.lookup sid = some (.answered q out) ∧ out.nonce = nonce ∧
        out.ok = true ∧ out.headers = headers

variable {wire}

/-- A session accepts the request of the call that drew its nonce, and so that call's operation. -/
theorem InOrder.operation_eq {s : Channel} (hi : InOrder wire s) {id sid : Nat} {call : AgentCall}
    {session : Session} {q : Request} (hcall : s.calls.lookup id = some call)
    (hsession : s.sessions.lookup sid = some session) (hq : session.request = some q)
    (hnonce : q.nonce = call.nonce) : q.operation = call.op := by
  obtain ⟨-, hcomputed⟩ := hi.accepted sid session q hsession hq
  rcases hi.computed _ hcomputed with ⟨id', call', hcall', htext⟩ | ⟨id', q', out, -, htext⟩
  · rw [requestText_agentRequest] at htext
    obtain ⟨-, hoperation, -, -, hnonce'⟩ := sameText_of_notMem zero_notMem_profile
      zero_notMem_audience (hi.nonces id' call' hcall') htext.symm
    have hid := hi.distinct id' id call' call hcall' hcall (hnonce'.trans hnonce)
    subst hid
    rw [hcall] at hcall'
    cases hcall'
    exact hoperation.symm
  · exact absurd htext (requestText_ne_responseText q out)

/-- A reply that checks out is an answer some session gave. -/
theorem InOrder.answer_of_reply {s : Channel} (hi : InOrder wire s) {nonce line : Bytes}
    {headers : List (Bytes × Bytes)} (hreceive : agentReceive wire nonce line = some headers)
    (hunforged : ∀ r, decode wire.responses line = .ok r → r.mac = responseMac wire.hmac r →
      responseText r ∈ s.computed) :
    ∃ sid q out, s.sessions.lookup sid = some (.answered q out) ∧ out.nonce = nonce ∧
      out.ok = true ∧ out.headers = headers := by
  obtain ⟨r, hr, -, hnonce, hok, hmac, hheaders⟩ := agentReceive_eq_some hreceive
  -- a MAC that is not forged is over a text one of the parties computed, and no request's is this
  rcases hi.computed _ (hunforged r hr hmac) with ⟨id, call, -, htext⟩ | ⟨sid, q, out, hout, htext⟩
  · exact absurd htext.symm (requestText_ne_responseText _ r)
  · obtain ⟨-, hok', hnonce', hheaders'⟩ := sameText_of_responseText htext
    exact ⟨sid, q, out, hout, hnonce' ▸ hnonce, hok' ▸ hok, hheaders' ▸ hheaders⟩

/-- A new call, with a nonce of its own. -/
private theorem InOrder.call {s : Channel} (hi : InOrder wire s) {id : Nat} {op : Operation}
    {random : Vector UInt8 32} (hnew : s.calls.lookup id = none)
    (hfresh : ∀ id call, s.calls.lookup id = some call → call.nonce ≠ nonceOf random) :
    InOrder wire { s with
      calls := s.calls.insert id ⟨op, nonceOf random, .waiting⟩
      computed := requestText (agentRequest wire op (nonceOf random)) :: s.computed } := by
  -- the calls there were are still there
  have hold : ∀ id' call, s.calls.lookup id' = some call →
      (s.calls.insert id ⟨op, nonceOf random, .waiting⟩).lookup id' = some call :=
    fun id' call => Assoc.lookup_insert_of_ne (by simp [hnew])
  have hcases : ∀ id' call,
      (s.calls.insert id ⟨op, nonceOf random, .waiting⟩).lookup id' = some call →
        id' = id ∧ call = ⟨op, nonceOf random, .waiting⟩ ∨ s.calls.lookup id' = some call := by
    intro id' call hcall
    rw [Assoc.lookup_insert_eq] at hcall
    split at hcall
    · next heq =>
        cases hcall
        exact Or.inl ⟨heq, rfl⟩
    · exact Or.inr hcall
  refine ⟨?_, ?_, hi.answered, ?_, ?_, ?_⟩
  · intro text htext
    rcases List.mem_cons.mp htext with rfl | htext
    · exact Or.inl ⟨id, _, AList.lookup_insert _, rfl⟩
    · rcases hi.computed text htext with ⟨id', call, hcall, heq⟩ | hanswer
      · exact Or.inl ⟨id', call, hold id' call hcall, heq⟩
      · exact Or.inr hanswer
  · intro sid session q hsession hq
    obtain ⟨hvalid, hcomputed⟩ := hi.accepted sid session q hsession hq
    exact ⟨hvalid, List.mem_cons_of_mem _ hcomputed⟩
  · intro id' call hcall
    rcases hcases id' call hcall with ⟨-, rfl⟩ | hcall
    · exact zero_notMem_hexEncode _
    · exact hi.nonces id' call hcall
  · -- two calls with one nonce are one call: a fresh nonce is no earlier call's
    intro id₁ id₂ call₁ call₂ h₁ h₂ hnonce
    rcases hcases id₁ call₁ h₁ with ⟨rfl, rfl⟩ | hold₁
    · rcases hcases id₂ call₂ h₂ with ⟨rfl, -⟩ | hold₂
      · rfl
      · exact absurd hnonce.symm (hfresh id₂ call₂ hold₂)
    · rcases hcases id₂ call₂ h₂ with ⟨rfl, rfl⟩ | hold₂
      · exact absurd hnonce (hfresh id₁ call₁ hold₁)
      · exact hi.distinct id₁ id₂ call₁ call₂ hold₁ hold₂ hnonce
  · intro id' op' nonce headers hcall
    rcases hcases id' _ hcall with ⟨-, hwaiting⟩ | hcall
    · cases hwaiting
    · exact hi.replied id' op' nonce headers hcall

/-- A call comes back, with headers only if a session answered them. -/
private theorem InOrder.settle {s : Channel} (hi : InOrder wire s) (id : Nat)
    {result : Bytes → Option (List (Bytes × Bytes))}
    (hresult : ∀ nonce headers, result nonce = some headers →
      ∃ sid q out, s.sessions.lookup sid = some (.answered q out) ∧ out.nonce = nonce ∧
        out.ok = true ∧ out.headers = headers) : InOrder wire (s.settle id result) := by
  unfold Channel.settle
  split
  · next op nonce hwaiting =>
      -- every call keeps what it asked for and the nonce it drew
      have hold : ∀ id' call, s.calls.lookup id' = some call → ∃ state,
          (s.calls.insert id ⟨op, nonce, .returned (result nonce)⟩).lookup id' =
            some ⟨call.op, call.nonce, state⟩ := by
        intro id' call hcall
        rw [Assoc.lookup_insert_eq]
        split
        · next heq =>
            subst heq
            rw [hwaiting] at hcall
            cases hcall
            exact ⟨_, rfl⟩
        · exact ⟨call.state, hcall⟩
      have hback : ∀ id' call,
          (s.calls.insert id ⟨op, nonce, .returned (result nonce)⟩).lookup id' = some call →
            ∃ old, s.calls.lookup id' = some old ∧ old.nonce = call.nonce := by
        intro id' call hcall
        rw [Assoc.lookup_insert_eq] at hcall
        split at hcall
        · next heq =>
            cases hcall
            exact ⟨⟨op, nonce, .waiting⟩, heq ▸ hwaiting, rfl⟩
        · exact ⟨call, hcall, rfl⟩
      refine ⟨?_, hi.accepted, hi.answered, ?_, ?_, ?_⟩
      · intro text htext
        rcases hi.computed text htext with ⟨id', call, hcall, heq⟩ | hanswer
        · obtain ⟨state, hstate⟩ := hold id' call hcall
          exact Or.inl ⟨id', _, hstate, heq⟩
        · exact Or.inr hanswer
      · intro id' call hcall
        obtain ⟨old, hold, heq⟩ := hback id' call hcall
        exact heq ▸ hi.nonces id' old hold
      · intro id₁ id₂ call₁ call₂ h₁ h₂ heq
        obtain ⟨old₁, hold₁, heq₁⟩ := hback id₁ call₁ h₁
        obtain ⟨old₂, hold₂, heq₂⟩ := hback id₂ call₂ h₂
        exact hi.distinct id₁ id₂ old₁ old₂ hold₁ hold₂ (heq₁.trans (heq.trans heq₂.symm))
      · intro id' op' nonce' headers hcall
        rw [Assoc.lookup_insert_eq] at hcall
        split at hcall
        · simp only [Option.some.injEq, AgentCall.mk.injEq, CallState.returned.injEq] at hcall
          obtain ⟨-, rfl, hheaders⟩ := hcall
          exact hresult nonce headers hheaders
        · exact hi.replied id' op' nonce' headers hcall
  · exact hi

/-- A new session, closed or with a request that was checked. -/
private theorem InOrder.accept {s : Channel} (hi : InOrder wire s) {sid : Nat} {session : Session}
    (hnew : s.sessions.lookup sid = none) (hopen : ∀ q out, session ≠ .answered q out)
    (hrequest : ∀ q, session.request = some q →
      validateRequest q profile audience = true ∧ requestText q ∈ s.computed) :
    InOrder wire { s with sessions := s.sessions.insert sid session } := by
  have hold : ∀ sid' q out, s.sessions.lookup sid' = some (.answered q out) →
      (s.sessions.insert sid session).lookup sid' = some (.answered q out) :=
    fun sid' q out => Assoc.lookup_insert_of_ne (by simp [hnew])
  refine ⟨?_, ?_, ?_, hi.nonces, hi.distinct, ?_⟩
  · intro text htext
    rcases hi.computed text htext with hcall | ⟨sid', q, out, hanswered, heq⟩
    · exact Or.inl hcall
    · exact Or.inr ⟨sid', q, out, hold sid' q out hanswered, heq⟩
  · intro sid' session' q hsession hq
    rw [Assoc.lookup_insert_eq] at hsession
    split at hsession
    · cases hsession
      exact hrequest q hq
    · exact hi.accepted sid' session' q hsession hq
  · intro sid' q out hanswered
    rw [Assoc.lookup_insert_eq] at hanswered
    split at hanswered
    · exact absurd (Option.some.inj hanswered) (hopen q out)
    · exact hi.answered sid' q out hanswered
  · intro id op nonce headers hcall
    obtain ⟨sid', q, out, hanswered, hreply⟩ := hi.replied id op nonce headers hcall
    exact ⟨sid', q, out, hold sid' q out hanswered, hreply⟩

/-- A session answers the request it accepted. -/
private theorem InOrder.answer {s : Channel} (hi : InOrder wire s) {sid : Nat} {q : Request}
    (hsession : s.sessions.lookup sid = some (.accepted q)) (manager : Manager) :
    InOrder wire { s with
      sessions := s.sessions.insert sid (.answered q (answerTo wire manager q))
      computed := responseText (answerTo wire manager q) :: s.computed } := by
  have hold : ∀ sid' q' out, s.sessions.lookup sid' = some (.answered q' out) →
      (s.sessions.insert sid (.answered q (answerTo wire manager q))).lookup sid' =
        some (.answered q' out) :=
    fun sid' q' out => Assoc.lookup_insert_of_ne (by simp [hsession])
  refine ⟨?_, ?_, ?_, hi.nonces, hi.distinct, ?_⟩
  · intro text htext
    rcases List.mem_cons.mp htext with rfl | htext
    · exact Or.inr ⟨sid, q, _, AList.lookup_insert _, rfl⟩
    · rcases hi.computed text htext with hcall | ⟨sid', q', out, hanswered, heq⟩
      · exact Or.inl hcall
      · exact Or.inr ⟨sid', q', out, hold sid' q' out hanswered, heq⟩
  · intro sid' session' q' hsession' hq'
    rw [Assoc.lookup_insert_eq] at hsession'
    split at hsession'
    · cases hsession'
      cases hq'
      obtain ⟨hvalid, hcomputed⟩ := hi.accepted sid _ q hsession rfl
      exact ⟨hvalid, List.mem_cons_of_mem _ hcomputed⟩
    · obtain ⟨hvalid, hcomputed⟩ := hi.accepted sid' session' q' hsession' hq'
      exact ⟨hvalid, List.mem_cons_of_mem _ hcomputed⟩
  · intro sid' q' out hanswered
    rw [Assoc.lookup_insert_eq] at hanswered
    split at hanswered
    · cases hanswered
      exact nonce_respond manager q
    · exact hi.answered sid' q' out hanswered
  · intro id op nonce headers hcall
    obtain ⟨sid', q', out, hanswered, hreply⟩ := hi.replied id op nonce headers hcall
    exact ⟨sid', q', out, hold sid' q' out hanswered, hreply⟩

/-- **Step.** Whatever the network brings, short of a forged MAC, keeps the channel in order. -/
theorem InOrder.step {s : Channel} (hi : InOrder wire s) {act : Act}
    (hunforged : act.Unforged wire s) (hfresh : act.Fresh s) : InOrder wire (s.step wire act) := by
  cases act with
  | call id op random =>
      rw [Channel.step]
      split
      · exact hi
      · next hnew => exact hi.call (Option.not_isSome_iff_eq_none.mp hnew) hfresh
  | deliver id line =>
      exact hi.settle id fun nonce headers hreceive => hi.answer_of_reply hreceive hunforged
  | giveUp id =>
      apply hi.settle id
      rintro nonce headers ⟨⟩
  | accept sid frame =>
      rw [Channel.step]
      split
      · exact hi
      · next hnew =>
          rw [Option.not_isSome_iff_eq_none] at hnew
          split
          · apply hi.accept hnew
            · rintro q out ⟨⟩
            · rintro q ⟨⟩
          · next q hq =>
              obtain ⟨hdecode, hvalid, hmac⟩ := handleRequest_eq_some hq
              apply hi.accept hnew
              · rintro q out ⟨⟩
              · rintro _ ⟨⟩
                exact ⟨hvalid, hunforged q hdecode hmac⟩
  | answer sid manager =>
      rw [Channel.step]
      split
      · next q hsession => exact hi.answer hsession manager
      · exact hi

/-- **Run.** The channel stays in order in every run with ideal MACs and fresh nonces. -/
theorem inOrder_run {acts : List Act} (hunforged : Unforged wire acts)
    (hfresh : FreshNonces wire acts) : InOrder wire ((channel wire).run acts) := by
  refine Mealy.invariant (m := channel wire) (P := fun _ s => InOrder wire s) ?_ ?_ acts
    (hunforged.and hfresh)
  · refine ⟨?_, ?_, ?_, ?_, ?_, ?_⟩
    · rintro text ⟨⟩
    · rintro id session q ⟨⟩
    · rintro id q out ⟨⟩
    · rintro id call ⟨⟩
    · rintro id id' call call' ⟨⟩
    · rintro id op nonce headers ⟨⟩
  · intro is act hi hguard
    rw [Mealy.map_snd_trace] at hguard
    exact hi.step hguard.1 hguard.2

/-! ## Agreement -/

/-- What a state of the channel owes the proxy. -/
structure Agrees (s : Channel) : Prop where
  /-- Headers that `agent` returns are those with which a session answered this very request. -/
  agreement : ∀ id op nonce headers,
    s.calls.lookup id = some ⟨op, nonce, .returned (some headers)⟩ →
      ∃ sid q out, s.sessions.lookup sid = some (.answered q out) ∧ q.version = version ∧
        q.operation = op ∧ q.profile = profile ∧ q.audience = audience ∧ q.nonce = nonce ∧
        out.nonce = nonce ∧ out.ok = true ∧ out.headers = headers
  /-- No session ever accepted the call's nonce for another operation. -/
  operation : ∀ id call sid session q, s.calls.lookup id = some call →
    s.sessions.lookup sid = some session → session.request = some q → q.nonce = call.nonce →
      q.operation = call.op

/-- What the MACed texts determine. -/
structure TextsDetermine : Prop where
  /-- Every field of a request, among those a provider accepts. -/
  accepted : ∀ q q', validateRequest q profile audience = true →
    validateRequest q' profile audience = true → requestText q = requestText q' → q.SameText q'
  /-- Every field of a request the proxy sends, among all requests. -/
  sent : ∀ wire op random q, requestText (agentRequest wire op (nonceOf random)) = requestText q →
    (agentRequest wire op (nonceOf random)).SameText q
  /-- Every field of a response. -/
  responses : ∀ r r', responseText r = responseText r' → r.SameText r'
  /-- And which of the two it is. -/
  apart : ∀ q r, requestText q ≠ responseText r

theorem texts_determine : TextsDetermine := by
  refine ⟨?_, ?_, ?_, requestText_ne_responseText⟩
  · intro q q' hq hq' htext
    obtain ⟨-, hprofile, haudience⟩ := validateRequest_true hq
    obtain ⟨-, hprofile', haudience'⟩ := validateRequest_true hq'
    exact sameText_of_profile (hprofile.trans hprofile'.symm) (haudience.trans haudience'.symm)
      htext
  · intro wire op random q htext
    exact sameText_of_notMem zero_notMem_profile zero_notMem_audience (zero_notMem_hexEncode _)
      htext
  · intro r r' htext
    exact sameText_of_responseText htext

/-- **Agreement of the credential channel.** -/
theorem channel_agrees (wire : Wire) (acts : List Act) (hunforged : Unforged wire acts)
    (hfresh : FreshNonces wire acts) :
    Agrees ((channel wire).run acts) ∧ TextsDetermine := by
  have hi := inOrder_run hunforged hfresh
  refine ⟨⟨?_, ?_⟩, texts_determine⟩
  · intro id op nonce headers hcall
    obtain ⟨sid, q, out, hout, hnonce, hok, hheaders⟩ := hi.replied id op nonce headers hcall
    have hq : q.nonce = nonce := (hi.answered sid q out hout).symm.trans hnonce
    obtain ⟨hvalid, -⟩ := hi.accepted sid _ q hout rfl
    obtain ⟨hversion, hprofile, haudience⟩ := validateRequest_true hvalid
    exact ⟨sid, q, out, hout, hversion, hi.operation_eq hcall hout rfl hq, hprofile, haudience, hq,
      hnonce, hok, hheaders⟩
  · intro id call sid session q hcall hsession hq hnonce
    exact hi.operation_eq hcall hsession hq hnonce

/-! ## A call that gets its headers -/

/-- The nonce that is all zeros. -/
def sampleNonce : Bytes := nonceOf (.replicate 32 0)

/-- A login with a token and an account of one letter each. -/
def sampleManager : Manager := ⟨some (ascii "t", some (ascii "a")), true⟩

/-- HMAC-SHA-256 under a key of 32 letters `k`, for the two texts of the sample. -/
def sampleHmac (data : Bytes) : Bytes :=
  if data = requestText ⟨version, .acquire, profile, audience, sampleNonce, []⟩ then
    [15, 166, 183, 11, 196, 145, 172, 15, 168, 205, 58, 144, 250, 53, 181, 70, 37, 108, 2, 133, 24,
      5, 120, 191, 240, 27, 82, 159, 17, 222, 114, 160]
  else if data = responseText ⟨version, true, sampleNonce, [],
      [(ascii "authorization", ascii "Bearer t"), (ascii "chatgpt-account-id", ascii "a")]⟩ then
    [241, 97, 113, 68, 204, 51, 59, 66, 251, 183, 133, 131, 41, 52, 119, 173, 84, 75, 51, 139, 28,
      62, 252, 163, 131, 208, 163, 183, 160, 10, 250, 208]
  else List.replicate 32 0

noncomputable def sampleWire : Wire :=
  ⟨sampleHmac, compactRequests.fromSlice, compactResponses.fromSlice⟩

noncomputable def sampleRequest : Request := agentRequest sampleWire .acquire sampleNonce

noncomputable def sampleResponse : Response := answerTo sampleWire sampleManager sampleRequest

/-- A call asks for the credential, and each frame gets where it is meant to go. -/
noncomputable def sampleActs : List Act :=
  [.call 0 .acquire (.replicate 32 0), .accept 0 (sampleRequest.json ++ [newline]),
    .answer 0 sampleManager, .deliver 0 (sampleResponse.json ++ [newline])]

private theorem decode_sampleRequest :
    decode sampleWire.requests (sampleRequest.json ++ [newline]) = .ok sampleRequest :=
  decode_encode compactRequests (encode_eq_ok.mpr ⟨by decide +kernel, rfl⟩)

private theorem decode_sampleResponse :
    decode sampleWire.responses (sampleResponse.json ++ [newline]) = .ok sampleResponse :=
  decode_encode compactResponses (encode_eq_ok.mpr ⟨by decide +kernel, rfl⟩)

private theorem handleRequest_sample :
    handleRequest sampleWire (sampleRequest.json ++ [newline]) = some sampleRequest := by
  unfold handleRequest
  rw [decode_sampleRequest]
  decide +kernel

private theorem agentReceive_sample :
    agentReceive sampleWire sampleNonce (sampleResponse.json ++ [newline]) =
      some sampleResponse.headers := by
  unfold agentReceive
  rw [decode_sampleResponse]
  decide +kernel

/-- The states the sample goes through. -/
private noncomputable def asked : Channel :=
  ⟨AList.singleton 0 ⟨.acquire, sampleNonce, .waiting⟩, ∅, [requestText sampleRequest]⟩

private noncomputable def accepted : Channel :=
  { asked with sessions := AList.singleton 0 (.accepted sampleRequest) }

private noncomputable def answered : Channel :=
  ⟨asked.calls, AList.singleton 0 (.answered sampleRequest sampleResponse),
    responseText sampleResponse :: asked.computed⟩

private theorem run_asked : (channel sampleWire).run [.call 0 .acquire (.replicate 32 0)] = asked :=
  rfl

private theorem next_accepted : (channel sampleWire).next asked
    (.accept 0 (sampleRequest.json ++ [newline])) = accepted := by
  have hfree : (asked.sessions.lookup 0).isSome = false := rfl
  simp only [Mealy.next, channel, Channel.step, hfree, handleRequest_sample]
  rfl

private theorem next_answered :
    (channel sampleWire).next accepted (.answer 0 sampleManager) = answered := rfl

private theorem next_returned : ((channel sampleWire).next answered
    (.deliver 0 (sampleResponse.json ++ [newline]))).calls.lookup 0 =
      some ⟨.acquire, sampleNonce, .returned (some sampleResponse.headers)⟩ := by
  rw [← agentReceive_sample]
  rfl

/-- The call returns the login's headers, and a session answered it with them. -/
theorem channel_agrees_sample :
    Unforged sampleWire sampleActs ∧ FreshNonces sampleWire sampleActs ∧
      ∃ sid q out,
        ((channel sampleWire).run sampleActs).sessions.lookup sid = some (.answered q out) ∧
        q.operation = .acquire ∧ out.headers =
          [(ascii "authorization", ascii "Bearer t"), (ascii "chatgpt-account-id", ascii "a")] := by
  have haccepted : (channel sampleWire).run ([.call 0 .acquire (.replicate 32 0)] ++
      [.accept 0 (sampleRequest.json ++ [newline])]) = accepted := by
    rw [Mealy.run_concat, run_asked, next_accepted]
  have hanswered : (channel sampleWire).run ([.call 0 .acquire (.replicate 32 0)] ++
      [.accept 0 (sampleRequest.json ++ [newline])] ++ [.answer 0 sampleManager]) = answered := by
    rw [Mealy.run_concat, haccepted, next_answered]
  have hacts : sampleActs = [.call 0 .acquire (.replicate 32 0)] ++
      [.accept 0 (sampleRequest.json ++ [newline])] ++ [.answer 0 sampleManager] ++
      [.deliver 0 (sampleResponse.json ++ [newline])] := rfl
  have hreturned : ((channel sampleWire).run sampleActs).calls.lookup 0 =
      some ⟨.acquire, sampleNonce, .returned (some sampleResponse.headers)⟩ := by
    rw [hacts, Mealy.run_concat, hanswered, next_returned]
  have hunforged : Unforged sampleWire sampleActs := by
    rw [hacts]
    refine .concat (.concat (.concat (.concat Mealy.along_nil ?_) ?_) ?_) ?_
    · trivial
    · intro q hq _
      rw [Mealy.map_snd_trace, run_asked]
      rw [decode_sampleRequest] at hq
      cases hq
      exact List.mem_cons_self
    · trivial
    · intro r hr _
      rw [Mealy.map_snd_trace, hanswered]
      rw [decode_sampleResponse] at hr
      cases hr
      exact List.mem_cons_self
  have hfresh : FreshNonces sampleWire sampleActs := by
    rw [hacts]
    refine .concat (.concat (.concat (.concat Mealy.along_nil ?_) ?_) ?_) ?_
    · rintro id call ⟨⟩
    · trivial
    · trivial
    · trivial
  obtain ⟨hagrees, -⟩ := channel_agrees sampleWire sampleActs hunforged hfresh
  obtain ⟨sid, q, out, hout, -, hop, -, -, -, -, -, hheaders⟩ := hagrees.agreement 0 _ _ _ hreturned
  exact ⟨hunforged, hfresh, sid, q, out, hout, hop, hheaders⟩

end CredentialBroker.Protocol
