import CredentialBroker.Chain.Basic
import CredentialBroker.Prices

/-!
# The headers that pass the credential proxy

The proxy forwards a client's request under the broker's credential, which the agent gives it as
header fields. Going up, it drops what the client may not say (the credentials themselves,
hop-by-hop and forwarding headers, and what `Connection` lists), in any spelling that a backend
would read as the same name, and sets the credentials. Coming back, it drops what is not for the
client.

* `Permitted` says what goes up, by the values of each name, and `Returned` what comes back.
* `inject_append` keeps the client's part and the injected part apart, so that the second is the
  same whoever the client is.
-/

namespace CredentialBroker.Proxy

open Chain (trim)

/-! ## Names -/

/-- `INJECTED`: the only headers the credential agent may inject. -/
def injected : List String := ["authorization", "chatgpt-account-id"]

/-- A header name as backends that treat `_` and `-` alike read it. -/
def canonical (name : String) : String :=
  String.ofList ((name.toList.map Char.toLower).map fun c => if c = '_' then '-' else c)

def hopCanonical (name : String) : Bool :=
  decide (name ∈ injected) ||
    decide (name ∈ ["connection", "keep-alive", "proxy-authenticate", "proxy-authorization", "te",
      "trailer", "transfer-encoding", "upgrade", "host", "cookie"])

/-- A hop-by-hop header, or one that carries a credential, in either direction. -/
def hop (name : String) : Bool := hopCanonical (canonical name)

/-- A client request header that never goes upstream: besides `hop`, the proxy headers, the ones
that would select another account, and the ones that describe the client's connection. -/
def denied (name : String) : Bool :=
  let name := canonical name
  hopCanonical name || "proxy-".toList.isPrefixOf name.toList ||
    "x-forwarded-".toList.isPrefixOf name.toList ||
    decide (name ∈ ["content-length", "forwarded", "x-real-ip", "openai-organization",
      "openai-project", "accept-encoding"])

/-! ## Requests -/

/-- The HTTP library's parsers of a header's name and value. -/
structure HeaderParsers where
  /-- `HeaderName::from_bytes`, of a string's bytes. -/
  fromBytes : String → Option String
  /-- `HeaderValue::from_str`. -/
  fromStr : String → Option Bytes

/-- What the library says of its parsers: a name is read in lower case, and a value as it is. -/
structure HeaderParsers.Documented (http : HeaderParsers) : Prop where
  fromBytes : ∀ name parsed, http.fromBytes name = some parsed →
    parsed = String.ofList (name.toList.map Char.toLower)
  fromStr : ∀ value parsed, http.fromStr value = some parsed → parsed = utf8 value

section Upstream

variable (http : HeaderParsers)

/-- The header names that a client's `Connection` lists, canonically. -/
def connection (client : HeaderMap) : List String :=
  (((client.getAll "connection").filterMap HeaderMap.toStr).flatMap
    fun value => value.splitOn 44).map fun name => canonical (asString (trim name))

/-- The client's headers that go upstream. -/
def kept (client : HeaderMap) : HeaderMap :=
  client.filter fun field =>
    !decide (canonical field.1 ∈ connection client) && !denied field.1

/-- Set one credential. -/
def injectOne (headers : HeaderMap) (credential : String × String) : Option HeaderMap := do
  let name ← http.fromBytes credential.1
  let value ← http.fromStr credential.2
  some (headers.insert name value)

/-- Set the credentials in place of any headers under the same names. -/
def inject (headers : HeaderMap) (credentials : List (String × String)) : Option HeaderMap :=
  credentials.foldlM (injectOne http) headers

/-- The client's headers that go upstream, with the injected credentials in place of any the client
sent under the same names. -/
def upstreamHeaders (client : HeaderMap) (credentials : List (String × String)) :
    Option HeaderMap :=
  inject http (kept client) credentials

end Upstream

/-! ## Responses -/

/-- `StatusCode::is_success`. -/
def isSuccess (status : Nat) : Bool := decide (200 ≤ status ∧ status < 300)

/-- What a successful response is when it does not say. -/
def unnamedResponseType : Bytes := ascii "text/event-stream"

/-- The headers of an upstream response that go back to the client. -/
def responseHeaders (status : Nat) (upstream : HeaderMap) : HeaderMap :=
  let headers : HeaderMap :=
    upstream.filter fun field => !hop field.1 && decide (field.1 ≠ "set-cookie")
  if isSuccess status && !headers.containsKey "content-type" then
    headers.insert "content-type" unnamedResponseType
  else headers

/-! ## What goes up -/

/-- The value given last for a name. -/
def lastGiven (credentials : List (String × String)) (name : String) : Option String :=
  ((credentials.filter fun credential => credential.1 = name).map Prod.snd).getLast?

/-- `headers` are the credentials and the headers of `client` that may go upstream. -/
structure Permitted (client : HeaderMap) (credentials : List (String × String))
    (headers : HeaderMap) : Prop where
  /-- A credential has the value given last, and no other. -/
  credential : ∀ name value, lastGiven credentials name = some value →
    headers.getAll name = [utf8 value]
  /-- Nothing else is named as a credential is, denied, or listed by `Connection`. -/
  nothingElse : ∀ field ∈ headers, lastGiven credentials field.1 = none →
    canonical field.1 ∉ injected ∧ denied field.1 = false ∧
      canonical field.1 ∉ connection client
  /-- All other headers of the client are there with their values. -/
  other : ∀ name, canonical name ∉ injected → denied name = false →
    canonical name ∉ connection client → headers.getAll name = client.getAll name

/-- What is named as a credential is denied. -/
theorem denied_of_injected {name : String} (h : canonical name ∈ injected) :
    denied name = true := by
  unfold denied hopCanonical
  simp [h]

/-- The name of a credential is read as it is. -/
theorem lower_injected {name : String} (h : name ∈ injected) :
    String.ofList (name.toList.map Char.toLower) = name := by
  have hall : ∀ name ∈ injected, String.ofList (name.toList.map Char.toLower) = name := by
    decide +kernel
  exact hall name h

theorem canonical_injected {name : String} (h : name ∈ injected) : canonical name = name := by
  have hall : ∀ name ∈ injected, canonical name = name := by decide +kernel
  exact hall name h

theorem lastGiven_cons (credential : String × String) (credentials : List (String × String))
    (name : String) :
    lastGiven (credential :: credentials) name =
      (lastGiven credentials name).or
        (if credential.1 = name then some credential.2 else none) := by
  unfold lastGiven
  rw [List.filter_cons]
  by_cases hname : credential.1 = name
  · rw [if_pos (decide_eq_true hname), List.map_cons, List.getLast?_cons, if_pos hname]
    cases (List.map Prod.snd _).getLast? <;> rfl
  · rw [if_neg (by simpa using hname), if_neg hname, Option.or_none]

/-- A name that is no credential's was given no value. -/
theorem lastGiven_eq_none {credentials : List (String × String)}
    (hnames : ∀ credential ∈ credentials, credential.1 ∈ injected) {name : String}
    (h : name ∉ injected) : lastGiven credentials name = none := by
  unfold lastGiven
  rw [List.getLast?_eq_none_iff, List.map_eq_nil_iff, List.filter_eq_nil_iff]
  intro credential hmem hname
  rw [decide_eq_true_eq] at hname
  exact h (hname ▸ hnames credential hmem)

/-- The client's headers that go upstream have the values they came with. -/
theorem getAll_kept (client : HeaderMap) (name : String) :
    (kept client).getAll name =
      if canonical name ∉ connection client ∧ denied name = false then client.getAll name
      else [] := by
  unfold kept
  rw [HeaderMap.getAll_filter client
    (fun name => !decide (canonical name ∈ connection client) && !denied name)]
  simp

theorem of_mem_kept {client : HeaderMap} {field : String × Bytes} (h : field ∈ kept client) :
    canonical field.1 ∉ connection client ∧ denied field.1 = false := by
  unfold kept at h
  simpa using (List.mem_filter.mp h).2

theorem not_injected_of_mem_kept {client : HeaderMap} {field : String × Bytes}
    (h : field ∈ kept client) : canonical field.1 ∉ injected := by
  intro hinjected
  have hdenied := (of_mem_kept h).2
  rw [denied_of_injected hinjected] at hdenied
  cases hdenied

section Inject

variable {http : HeaderParsers} (hhttp : http.Documented)
include hhttp

/-- What setting one credential does, if it is done. -/
theorem injectOne_eq_some {headers headers' : HeaderMap} {name value : String}
    (hname : name ∈ injected) (h : injectOne http headers (name, value) = some headers') :
    headers' = headers.insert name (utf8 value) := by
  unfold injectOne at h
  obtain ⟨parsed, hparsed, h⟩ := Option.bind_eq_some_iff.mp h
  obtain ⟨bytes, hbytes, h⟩ := Option.bind_eq_some_iff.mp h
  cases h
  rw [hhttp.fromBytes _ _ hparsed, hhttp.fromStr _ _ hbytes, lower_injected hname]

/-- The values of each name once the credentials are set. -/
theorem getAll_inject {credentials : List (String × String)}
    (hnames : ∀ credential ∈ credentials, credential.1 ∈ injected) {headers result : HeaderMap}
    (h : inject http headers credentials = some result) (name : String) :
    result.getAll name =
      match lastGiven credentials name with
      | some value => [utf8 value]
      | none => headers.getAll name := by
  induction credentials generalizing headers with
  | nil =>
      cases h
      rfl
  | cons credential credentials ih =>
      obtain ⟨headers', hone, hrest⟩ := Option.bind_eq_some_iff.mp h
      have hone' := injectOne_eq_some hhttp (hnames credential List.mem_cons_self) hone
      rw [ih (fun c hc => hnames c (List.mem_cons_of_mem _ hc)) hrest, lastGiven_cons, hone',
        HeaderMap.getAll_insert]
      cases lastGiven credentials name with
      | some value => rfl
      | none =>
          by_cases hname : credential.1 = name
          · rw [if_pos hname.symm, if_pos hname]
            rfl
          · rw [if_neg (Ne.symm hname), if_neg hname]
            rfl

omit hhttp in
/-- Setting a credential leaves headers of other names where they are. -/
theorem insert_append {front back : HeaderMap} {name : String} (value : Bytes)
    (hfront : ∀ field ∈ front, field.1 ≠ name) :
    HeaderMap.insert (front ++ back) name value = front ++ back.insert name value := by
  unfold HeaderMap.insert HeaderMap.removeAll
  rw [List.filter_append, List.append_assoc, List.filter_eq_self.mpr]
  intro field hmem
  simpa using hfront field hmem

theorem injectOne_append {front : HeaderMap} {credential : String × String}
    (hname : credential.1 ∈ injected) (hfront : ∀ field ∈ front, canonical field.1 ∉ injected)
    (back : HeaderMap) :
    injectOne http (front ++ back) credential =
      (injectOne http back credential).map (front ++ ·) := by
  have hne : ∀ field ∈ front, field.1 ≠ credential.1 := by
    intro field hmem heq
    apply hfront field hmem
    rw [heq, canonical_injected hname]
    exact hname
  unfold injectOne
  cases hparsed : http.fromBytes credential.1 with
  | none => rfl
  | some name =>
      have hread : name = credential.1 := by
        rw [hhttp.fromBytes _ _ hparsed, lower_injected hname]
      cases http.fromStr credential.2 with
      | none => rfl
      | some value => exact congrArg some (insert_append value (hread ▸ hne))

/-- The credentials are set behind the client's headers, whatever these are. -/
theorem inject_append {credentials : List (String × String)}
    (hnames : ∀ credential ∈ credentials, credential.1 ∈ injected) {front : HeaderMap}
    (hfront : ∀ field ∈ front, canonical field.1 ∉ injected) (back : HeaderMap) :
    inject http (front ++ back) credentials =
      (inject http back credentials).map (front ++ ·) := by
  induction credentials generalizing back with
  | nil => rfl
  | cons credential credentials ih =>
      have hone := injectOne_append hhttp (hnames credential List.mem_cons_self) hfront back
      have hrest := ih fun c hc => hnames c (List.mem_cons_of_mem _ hc)
      unfold inject at hrest ⊢
      rw [List.foldlM_cons, List.foldlM_cons, hone]
      cases injectOne http back credential with
      | none => rfl
      | some headers => exact hrest headers

/-- What goes up is the client's part and the part that is set, which is the same for every
client. -/
theorem upstreamHeaders_eq_append {credentials : List (String × String)}
    (hnames : ∀ credential ∈ credentials, credential.1 ∈ injected) (client : HeaderMap) :
    upstreamHeaders http client credentials =
      (inject http [] credentials).map (kept client ++ ·) := by
  unfold upstreamHeaders
  rw [← inject_append hhttp hnames (fun _ hmem => not_injected_of_mem_kept hmem) [],
    List.append_nil]

theorem mem_inject {credentials : List (String × String)}
    (hnames : ∀ credential ∈ credentials, credential.1 ∈ injected) {result : HeaderMap}
    (h : inject http [] credentials = some result) {field : String × Bytes}
    (hmem : field ∈ result) : field.1 ∈ injected := by
  by_contra hname
  have hall := getAll_inject hhttp hnames h field.1
  rw [lastGiven_eq_none hnames hname] at hall
  have hvalue : field.2 ∈ result.getAll field.1 := HeaderMap.mem_getAll.mpr hmem
  rw [hall] at hvalue
  cases hvalue

theorem permitted_upstreamHeaders {credentials : List (String × String)}
    (hnames : ∀ credential ∈ credentials, credential.1 ∈ injected) {client headers : HeaderMap}
    (h : upstreamHeaders http client credentials = some headers) :
    Permitted client credentials headers := by
  have hall := getAll_inject hhttp hnames h
  refine ⟨?_, ?_, ?_⟩
  · intro name value hlast
    rw [hall name, hlast]
  · intro field hmem hnone
    have hvalue : field.2 ∈ headers.getAll field.1 := HeaderMap.mem_getAll.mpr hmem
    rw [hall field.1, hnone] at hvalue
    have hkept : field ∈ kept client := HeaderMap.mem_getAll.mp hvalue
    exact ⟨not_injected_of_mem_kept hkept, (of_mem_kept hkept).2, (of_mem_kept hkept).1⟩
  · intro name hinjected hdenied hlisted
    have hnot : name ∉ injected := by
      intro hmem
      rw [canonical_injected hmem] at hinjected
      exact hinjected hmem
    rw [hall name, lastGiven_eq_none hnames hnot]
    dsimp only
    rw [getAll_kept, if_pos ⟨hlisted, hdenied⟩]

end Inject

/-! ## What comes back -/

/-- `headers` are the headers of `upstream` that are for the client, with a content type. -/
structure Returned (status : Nat) (upstream headers : HeaderMap) : Prop where
  /-- Nothing is named as a credential or a hop-by-hop header is, and no cookie is set. -/
  safe : ∀ field ∈ headers, canonical field.1 ∉ injected ∧ hop field.1 = false ∧
    field.1 ≠ "set-cookie"
  /-- All other headers of the response are there with their values. -/
  other : ∀ name, hop name = false → name ≠ "set-cookie" → name ≠ "content-type" →
    headers.getAll name = upstream.getAll name
  /-- The content type is there with its values, or is set where a success has none. -/
  contentType : headers.getAll "content-type" =
    if isSuccess status = true ∧ upstream.getAll "content-type" = [] then [unnamedResponseType]
    else upstream.getAll "content-type"

theorem not_injected_of_hop {name : String} (h : hop name = false) :
    canonical name ∉ injected := by
  unfold hop hopCanonical at h
  rw [Bool.or_eq_false_iff, decide_eq_false_iff_not] at h
  exact h.1

theorem hop_contentType : hop "content-type" = false := by decide +kernel

theorem getAll_responseHeaders (status : Nat) (upstream : HeaderMap) (name : String) :
    (responseHeaders status upstream).getAll name =
      if name = "content-type" ∧ isSuccess status = true ∧
          upstream.getAll "content-type" = [] then [unnamedResponseType]
      else if hop name = false ∧ name ≠ "set-cookie" then upstream.getAll name
      else [] := by
  have hpassed : ∀ name, HeaderMap.getAll
      (upstream.filter fun field => !hop field.1 && decide (field.1 ≠ "set-cookie")) name =
        if hop name = false ∧ name ≠ "set-cookie" then upstream.getAll name else [] := by
    intro name
    rw [HeaderMap.getAll_filter upstream (fun name => !hop name && decide (name ≠ "set-cookie"))]
    simp
  have htype := hpassed "content-type"
  rw [if_pos ⟨hop_contentType, by decide⟩] at htype
  unfold responseHeaders
  dsimp only
  split
  · next hset =>
      rw [Bool.and_eq_true, Bool.not_eq_true', HeaderMap.containsKey_eq_false, htype] at hset
      rw [HeaderMap.getAll_insert, hpassed]
      by_cases hname : name = "content-type"
      · rw [if_pos hname, if_pos ⟨hname, hset⟩]
      · have hother : ¬ (name = "content-type" ∧ isSuccess status = true ∧
            upstream.getAll "content-type" = []) := fun h => hname h.1
        rw [if_neg hname, if_neg hother]
  · next hset =>
      rw [Bool.and_eq_true, Bool.not_eq_true', HeaderMap.containsKey_eq_false, htype] at hset
      have hother : ¬ (name = "content-type" ∧ isSuccess status = true ∧
          upstream.getAll "content-type" = []) := fun h => hset h.2
      rw [hpassed, if_neg hother]

theorem returned_responseHeaders (status : Nat) (upstream : HeaderMap) :
    Returned status upstream (responseHeaders status upstream) := by
  have hall := getAll_responseHeaders status upstream
  refine ⟨?_, ?_, ?_⟩
  · intro field hmem
    have hvalue : field.2 ∈ (responseHeaders status upstream).getAll field.1 :=
      HeaderMap.mem_getAll.mpr hmem
    rw [hall] at hvalue
    split at hvalue
    · next hname =>
        rw [hname.1]
        exact ⟨not_injected_of_hop hop_contentType, hop_contentType, by decide⟩
    · split at hvalue
      · next hpassed => exact ⟨not_injected_of_hop hpassed.1, hpassed⟩
      · cases hvalue
  · intro name hhop hcookie htype
    rw [hall, if_neg fun h => htype h.1, if_pos ⟨hhop, hcookie⟩]
  · rw [hall]
    by_cases hset : isSuccess status = true ∧ upstream.getAll "content-type" = []
    · rw [if_pos ⟨rfl, hset⟩, if_pos hset]
    · rw [if_neg fun h => hset h.2, if_pos ⟨hop_contentType, by decide⟩, if_neg hset]

/-- The headers that are named as a credential is. -/
def injectedPart (headers : HeaderMap) : HeaderMap :=
  headers.filter fun field => decide (canonical field.1 ∈ injected)

/-- **Exactly the permitted headers pass**, up and back, and the credentials that go up are the same
for every client. -/
theorem headers_pass_exactly (http : HeaderParsers) (hhttp : http.Documented)
    (credentials : List (String × String))
    (hnames : ∀ credential ∈ credentials, credential.1 ∈ injected) :
    (∀ client headers, upstreamHeaders http client credentials = some headers →
      Permitted client credentials headers ∧
        ∀ client', ∃ headers', upstreamHeaders http client' credentials = some headers' ∧
          injectedPart headers' = injectedPart headers) ∧
      ∀ status upstream, Returned status upstream (responseHeaders status upstream) := by
  refine ⟨?_, returned_responseHeaders⟩
  intro client headers h
  refine ⟨permitted_upstreamHeaders hhttp hnames h, ?_⟩
  intro client'
  rw [upstreamHeaders_eq_append hhttp hnames] at h
  obtain ⟨back, hback, rfl⟩ := Option.map_eq_some_iff.mp h
  -- the client's part has nothing of the kind
  have hpart : ∀ client, injectedPart (kept client ++ back) = back := by
    intro client
    unfold injectedPart
    rw [List.filter_append, List.filter_eq_nil_iff.mpr, List.nil_append, List.filter_eq_self]
    · intro field hmem
      have hname := mem_inject hhttp hnames hback hmem
      rw [decide_eq_true_eq, canonical_injected hname]
      exact hname
    · intro field hmem
      rw [decide_eq_true_eq]
      exact not_injected_of_mem_kept hmem
  refine ⟨kept client' ++ back, ?_, ?_⟩
  · rw [upstreamHeaders_eq_append hhttp hnames, hback]
    rfl
  · rw [hpart client, hpart client']

/-- Parsers as the library has them, 96 being the accent that a name may have too. -/
def sampleParsers : HeaderParsers where
  fromBytes name :=
    if name ≠ "" ∧ name.toList.all (fun c => c.isAlphanum || c.toNat = 96 ||
        "!#$%&'*+-.^_|~".toList.contains c) then
      some (String.ofList (name.toList.map Char.toLower))
    else none
  fromStr value :=
    if (utf8 value).all (fun b => (32 ≤ b && b ≠ 127) || b = 9) then some (utf8 value) else none

theorem documented_sampleParsers : sampleParsers.Documented := by
  refine ⟨?_, ?_⟩
  · intro name parsed h
    unfold sampleParsers at h
    dsimp only at h
    split at h
    · cases h
      rfl
    · cases h
  · intro value parsed h
    unfold sampleParsers at h
    dsimp only at h
    split at h
    · cases h
      rfl
    · cases h

/-- A client that spells a credential's name in two ways, and lists a header of its own. -/
def sampleClient : HeaderMap :=
  [("authorization", ascii "Bearer client"), ("chatgpt_account_id", ascii "other"),
    ("connection", ascii "close, X_Hop,Authorization"), ("x-hop", ascii "1"),
    ("accept", ascii "a"), ("accept", ascii "b")]

def sampleCredentials : List (String × String) :=
  [("authorization", "Bearer first"), ("authorization", "Bearer broker")]

/-- The credential given last goes up for its name, and what else the client may say. -/
theorem headers_pass_exactly_sample :
    ∃ headers, upstreamHeaders sampleParsers sampleClient sampleCredentials = some headers ∧
      headers.getAll "authorization" = [utf8 "Bearer broker"] ∧
      headers.getAll "accept" = [ascii "a", ascii "b"] := by
  have hnames : ∀ credential ∈ sampleCredentials, credential.1 ∈ injected := by decide +kernel
  have hok : (upstreamHeaders sampleParsers sampleClient sampleCredentials).isSome = true := by
    decide +kernel
  obtain ⟨headers, h⟩ := Option.isSome_iff_exists.mp hok
  have hpass := ((headers_pass_exactly sampleParsers documented_sampleParsers sampleCredentials
    hnames).1 sampleClient headers h).1
  refine ⟨headers, h, hpass.credential _ _ (by decide +kernel), ?_⟩
  rw [hpass.other "accept" (by decide +kernel) (by decide +kernel) (by decide +kernel)]
  decide +kernel

end CredentialBroker.Proxy
