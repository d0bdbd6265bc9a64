import CredentialBroker.Proxy.Headers
import CredentialBroker.Proxy.UsageTap

/-!
# A Codex request, as the proxy forwards it

The backend refuses `max_output_tokens`, so the body is read, that one field taken out of its top
level, and written again. A client that names its session only in the body's `prompt_cache_key` has
the two headers set by which the backend routes its prompt cache. What is logged of a request is its
`Trace`: no value of the client's but the model's name and a hash.

* `normalizeCodexRequest_ok` is what a body that is forwarded comes from.
* `getAll_backstop` says which headers are set, by the values of each name.
-/

namespace CredentialBroker.Proxy

/-! ## Bodies -/

def Value.asStr : Value → Option String
  | .string s => some s
  | _ => none

/-- The JSON library: reading a body, writing one, and taking a field out of an object. -/
structure Json where
  /-- `serde_json::from_slice`. -/
  fromSlice : Bytes → Option Value
  /-- `serde_json::to_vec`. -/
  toVec : Value → Option Bytes
  /-- `Map::remove`, which may leave the other fields in another order. -/
  remove : List (String × Value) → String → List (String × Value)
  /-- An object is read with distinct names. -/
  distinct : ∀ body fields, fromSlice body = some (.object fields) → (fields.map Prod.fst).Nodup
  lookup_remove : ∀ fields name other, (fields.map Prod.fst).Nodup →
    (remove fields name).lookup other = if other = name then none else fields.lookup other

/-- Why a body is not forwarded. -/
inductive CodexNormalizationError where
  | invalidJson
  | nonObject
  | serialization
  deriving DecidableEq, Repr

/-- A normalized Codex request, with the top-level fields the proxy routes and logs by when each is
a short token. -/
structure CodexRequest where
  body : Bytes
  model : Option String
  promptCacheKey : Option String
  deriving DecidableEq

/-- The longest `model` or `prompt_cache_key` the proxy logs or copies into a header. -/
def maxToken : Nat := 64

/-- An ASCII letter, a digit, `-`, `_`, `.` or `:`. -/
def isTokenByte (b : UInt8) : Bool :=
  (48 ≤ b && b ≤ 57) || (65 ≤ b && b ≤ 90) || (97 ≤ b && b ≤ 122) || b = 45 || b = 95 ||
    b = 46 || b = 58

/-- A string that is always a valid header value and cannot spread a log line. -/
def isToken (s : String) : Bool :=
  decide (1 ≤ (utf8 s).length) && decide ((utf8 s).length ≤ maxToken) && (utf8 s).all isTokenByte

/-- `token`: a string of 1 to `maxToken` such bytes. -/
def token (value : Option Value) : Option String := (value.bind Value.asStr).filter isToken

section Normalize

variable (json : Json)

/-- `normalize_codex_request`. -/
def normalizeCodexRequest (body : Bytes) : Except CodexNormalizationError CodexRequest :=
  match json.fromSlice body with
  | none => .error .invalidJson
  | some (.object fields) =>
    let fields := json.remove fields "max_output_tokens"
    match json.toVec (.object fields) with
    | none => .error .serialization
    | some body =>
        .ok {
          body := body
          model := token (fields.lookup "model")
          promptCacheKey := token (fields.lookup "prompt_cache_key") }
  | some _ => .error .nonObject

/-- `codex` is `body` normalized: the same object, but for the field the backend refuses. -/
structure Normalized (body : Bytes) (codex : CodexRequest) : Prop where
  object : ∃ fields fields', json.fromSlice body = some (.object fields) ∧
    json.toVec (.object fields') = some codex.body ∧
    ∀ name, fields'.lookup name = if name = "max_output_tokens" then none else fields.lookup name
  /-- What is routed and logged by is in the body that was sent. -/
  tokens : ∃ fields, json.fromSlice body = some (.object fields) ∧
    codex.model = token (fields.lookup "model") ∧
    codex.promptCacheKey = token (fields.lookup "prompt_cache_key")

theorem normalizeCodexRequest_ok {body : Bytes} {codex : CodexRequest}
    (h : normalizeCodexRequest json body = .ok codex) : Normalized json body codex := by
  unfold normalizeCodexRequest at h
  split at h
  · cases h
  · next fields hfields =>
      have hlookup := fun other => json.lookup_remove fields "max_output_tokens" other
        (json.distinct body fields hfields)
      dsimp only at h
      split at h
      · cases h
      · next body' hbody =>
          cases h
          refine ⟨⟨fields, _, hfields, hbody, hlookup⟩, fields, hfields, ?_, ?_⟩
          · exact congrArg token ((hlookup _).trans (if_neg (by decide)))
          · exact congrArg token ((hlookup _).trans (if_neg (by decide)))
  · cases h

end Normalize

/-- The answer to a body that is not forwarded. -/
def CodexNormalizationError.message : CodexNormalizationError → String
  | invalidJson => "request body must be valid JSON\n"
  | nonObject => "request body must be a JSON object\n"
  | serialization => "request body cannot be normalized\n"

/-- What is routed and logged by is a token. -/
theorem isToken_of_token {value : Option Value} {s : String} (h : token value = some s) :
    isToken s = true := by
  unfold token at h
  exact (Option.filter_eq_some_iff.mp h).2

/-! ## Cache routing -/

/-- The headers Codex clients route the prompt cache by. -/
def sessionId : String := "session_id"

def clientRequestId : String := "x-client-request-id"

/-- The client says itself how its prompt cache is routed. -/
def routesCache (headers : HeaderMap) : Bool :=
  headers.containsKey sessionId || headers.containsKey clientRequestId

/-- `backstop_cache_routing`: with neither routing header, both are set from `prompt_cache_key`. -/
def backstopCacheRouting (http : HeaderParsers) (headers : HeaderMap) (codex : CodexRequest) :
    HeaderMap :=
  if routesCache headers then headers
  else
    match codex.promptCacheKey.bind http.fromStr with
    | none => headers
    | some value => (headers.insert sessionId value).insert clientRequestId value

/-- The values of each name once the cache is routed. -/
theorem getAll_backstop (http : HeaderParsers) (headers : HeaderMap) (codex : CodexRequest)
    (name : String) :
    (backstopCacheRouting http headers codex).getAll name =
      if (name = sessionId ∨ name = clientRequestId) ∧ routesCache headers = false then
        (codex.promptCacheKey.bind http.fromStr).toList
      else headers.getAll name := by
  unfold backstopCacheRouting
  cases hroutes : routesCache headers with
  | true => simp
  | false =>
      rw [if_neg (by decide)]
      unfold routesCache at hroutes
      rw [Bool.or_eq_false_iff, HeaderMap.containsKey_eq_false,
        HeaderMap.containsKey_eq_false] at hroutes
      obtain ⟨hsession, hrequest⟩ := hroutes
      cases codex.promptCacheKey.bind http.fromStr with
      | none =>
          -- neither header was there, so neither has a value
          by_cases hname : name = sessionId ∨ name = clientRequestId
          · rw [if_pos ⟨hname, rfl⟩]
            rcases hname with rfl | rfl
            · exact hsession
            · exact hrequest
          · rw [if_neg fun h => hname h.1]
      | some value =>
          dsimp only
          rw [HeaderMap.getAll_insert, HeaderMap.getAll_insert]
          by_cases hrequestId : name = clientRequestId
          · rw [if_pos hrequestId, if_pos ⟨.inr hrequestId, rfl⟩]
            rfl
          · rw [if_neg hrequestId]
            by_cases hsessionId : name = sessionId
            · rw [if_pos hsessionId, if_pos ⟨.inl hsessionId, rfl⟩]
              rfl
            · rw [if_neg hsessionId, if_neg fun h => h.1.elim hsessionId hrequestId]

/-! ## What is logged -/

/-- What an upstream request is logged with. -/
structure Trace where
  route : Bytes
  model : Option String
  sessionId : Bool
  clientRequestId : Bool
  /-- The first six bytes of the cache key's hash, in hex. -/
  cacheKey : Option Bytes
  deriving DecidableEq

/-- `Trace::new`, of the headers as the client sent them. -/
def Trace.new (sha256 : Bytes → Bytes) (route : Bytes) (headers : HeaderMap)
    (codex : CodexRequest) : Trace where
  route := route
  model := codex.model
  sessionId := headers.containsKey Proxy.sessionId
  clientRequestId := headers.containsKey Proxy.clientRequestId
  cacheKey := codex.promptCacheKey.map fun key => Runs.hexEncode ((sha256 (utf8 key)).take 6)

/-! ## Client authentication -/

/-- Whether a client must show the proxy's key, which is kept as its hash. -/
inductive ClientAuth where
  | required (key : Bytes)
  | disabled
  deriving DecidableEq

/-- `ClientAuth::accepts`, of the first `Authorization` there is. -/
def ClientAuth.accepts (sha256 : Bytes → Bytes) (authorization : Option Bytes) :
    ClientAuth → Bool
  | required key =>
      ((authorization.bind HeaderMap.toStr).bind (ascii "Bearer ").isPrefixOf?).any
        fun token => decide (sha256 token = key)
  | disabled => true

end CredentialBroker.Proxy
