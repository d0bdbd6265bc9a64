import CredentialBroker.Runs.Basic
import CredentialBroker.Util.JsonText

/-!
# The credential-agent protocol

`credential-protocol`: how the proxy that adds the Codex credential asks the provider that holds it.
A request and its response are one JSON object each, on a line of its own, and carry a MAC under a
key the two share. The MAC is over a text of its own, not over the JSON: the fields joined with NUL
bytes, with the operation and the headers in JSON.

Strings are their UTF-8 bytes, as the lengths and the MACs are of bytes. HMAC-SHA-256 is an
argument, as the reader of JSON is.
-/

namespace CredentialBroker.Protocol

def version : UInt8 := 1

def maxFrame : Nat := 16 * 1024

def maxHeaders : Nat := 16

def maxValue : Nat := 4096

/-! ## Messages -/

inductive Operation where
  | ping
  | acquire
  | unauthorizedRecovery
  deriving DecidableEq, Repr

structure Request where
  version : UInt8
  operation : Operation
  profile : Bytes
  audience : Bytes
  nonce : Bytes
  mac : Bytes
  deriving DecidableEq, Repr

structure Response where
  version : UInt8
  ok : Bool
  nonce : Bytes
  mac : Bytes
  headers : List (Bytes × Bytes)
  deriving DecidableEq, Repr

/-! ## Their JSON -/

def Operation.name : Operation → Bytes
  | ping => ascii "ping"
  | acquire => ascii "acquire"
  | unauthorizedRecovery => ascii "unauthorized_recovery"

def Operation.json (operation : Operation) : Bytes := JsonText.quote operation.name

/-- A header, as the array of its name and its value. -/
def headerJson (header : Bytes × Bytes) : Bytes :=
  ascii "[" ++ (JsonText.quote header.1 ++ (ascii "," ++ (JsonText.quote header.2 ++ ascii "]")))

def headersJson (headers : List (Bytes × Bytes)) : Bytes := JsonText.array headerJson headers

def Request.json (request : Request) : Bytes :=
  ascii "\x7b\"version\":" ++ (JsonText.decimal request.version ++ ascii ",") ++
    (ascii "\"operation\":" ++ request.operation.json) ++
    (ascii ",\"profile\":" ++ JsonText.quote request.profile) ++
    (ascii ",\"audience\":" ++ JsonText.quote request.audience) ++
    (ascii ",\"nonce\":" ++ JsonText.quote request.nonce) ++
    (ascii ",\"mac\":" ++ JsonText.quote request.mac ++ ascii "\x7d")

def Response.json (response : Response) : Bytes :=
  ascii "\x7b\"version\":" ++ (JsonText.decimal response.version ++ ascii ",") ++
    (ascii "\"ok\":" ++ (JsonText.boolean response.ok ++ ascii ",")) ++
    (ascii "\"nonce\":" ++ JsonText.quote response.nonce) ++
    (ascii ",\"mac\":" ++ JsonText.quote response.mac) ++
    (ascii ",\"headers\":" ++ headersJson response.headers ++ ascii "\x7d")

/-! ## Frames -/

/-- What ends a frame. -/
def newline : UInt8 := 10

/-- `encode`: the JSON of a value, `toVec` of it, as a frame. -/
def encode {T : Type} (toVec : T → Bytes) (value : T) : Except String Bytes :=
  let out := toVec value ++ [newline]
  if maxFrame < out.length then .error "frame too large" else .ok out

/-- What a reader yields: each byte by its place, and none once it ended or failed. -/
abbrev ByteStream := Nat → Option UInt8

inductive ReadError where
  /-- The reader ended or failed. -/
  | io
  /-- `frame too large`. -/
  | tooLarge
  deriving DecidableEq, Repr

/-- The loop of `read_frame`, with the bytes read so far: the frame or the error, and how many bytes
were read. -/
def readLoop (stream : ByteStream) (out : Bytes) : Except ReadError Bytes × Nat :=
  match stream out.length with
  | none => (.error .io, out.length)
  | some byte =>
    if maxFrame < (out ++ [byte]).length then (.error .tooLarge, (out ++ [byte]).length)
    else if byte = newline then (.ok (out ++ [byte]), (out ++ [byte]).length)
    else readLoop stream (out ++ [byte])
termination_by maxFrame - out.length
decreasing_by
  rw [List.length_append, List.length_singleton] at *
  omega

/-- `read_frame`. -/
def readFrame (stream : ByteStream) : Except ReadError Bytes × Nat := readLoop stream []

/-- `decode`: the value of a frame, by the JSON reader `fromSlice`. -/
def decode {T : Type} (fromSlice : Bytes → Except String T) (frame : Bytes) : Except String T :=
  if maxFrame < frame.length ∨ frame.getLast? ≠ some newline then .error "invalid frame"
  else fromSlice frame.dropLast

/-! ## Checks -/

/-- `validate_request`. -/
def validateRequest (r : Request) (profile audience : Bytes) : Bool :=
  r.version == version && r.profile == profile && r.audience == audience &&
    r.nonce.length == 64 && r.mac.length == 64 &&
    decide (r.profile.length ≤ 128) && decide (r.audience.length ≤ 256)

/-- `validate_response`. -/
def validateResponse (r : Response) (nonce : Bytes) : Bool :=
  r.version == version && r.nonce == nonce && decide (r.headers.length ≤ maxHeaders) &&
    r.headers.all (fun h => decide (h.1.length ≤ 128) && decide (h.2.length ≤ maxValue))

/-! ## MACs -/

/-- What `request_mac` is over. -/
def requestText (r : Request) : Bytes :=
  ascii "request" ++ 0 :: (JsonText.decimal r.version ++ 0 :: (r.operation.json ++ 0 ::
    (r.profile ++ 0 :: (r.audience ++ 0 :: r.nonce))))

/-- What `response_mac` is over. -/
def responseText (r : Response) : Bytes :=
  ascii "response" ++ 0 :: (JsonText.decimal r.version ++ 0 :: (JsonText.boolean r.ok ++ 0 ::
    (r.nonce ++ 0 :: headersJson r.headers)))

/-- `mac`, under the key the two share: `hmac` in hexadecimal. -/
def mac (hmac : Bytes → Bytes) (data : Bytes) : Bytes := Runs.hexEncode (hmac data)

def requestMac (hmac : Bytes → Bytes) (r : Request) : Bytes := mac hmac (requestText r)

def responseMac (hmac : Bytes → Bytes) (r : Response) : Bytes := mac hmac (responseText r)

/-- `valid_mac`. -/
def validMac (expected actual : Bytes) : Bool :=
  expected.length == actual.length && expected == actual

theorem validMac_iff {expected actual : Bytes} :
    validMac expected actual = true ↔ expected = actual := by
  unfold validMac
  rw [Bool.and_eq_true, beq_iff_eq, beq_iff_eq]
  exact ⟨And.right, fun h => ⟨by rw [h], h⟩⟩

end CredentialBroker.Protocol
