import CredentialBroker.Protocol.Basic

/-!
# What the texts of the protocol determine

Two kinds of text stand for a message: its JSON, which goes over the socket, and the text that is
MACed, which does not. The JSON determines the message, as it is put together from self-delimiting
parts.

The MACed text joins raw strings with NUL bytes that those strings may contain themselves, so the
question is which of them it determines. A response's text always does: what follows the nonce is
JSON, without a control character, so the last NUL is where the nonce ends. A request's text does
not always, but it does for the requests that matter: among those that are for one profile and
audience, and between one whose nonce has no NUL and any other whatsoever. No request's text is a
response's.
-/

namespace CredentialBroker.Protocol

/-! ## The JSON of the messages -/

theorem selfDelimiting_operation : SelfDelimiting Operation.json := by
  refine JsonText.selfDelimiting_quote.comap (e := Operation.name) ?_
  intro a b
  cases a <;> cases b <;> decide

theorem selfDelimiting_header : SelfDelimiting headerJson := by
  have hquote := JsonText.selfDelimiting_quote
  exact (hquote.pair ((hquote.closed (ascii "]")).literal (ascii ","))).literal (ascii "[")

theorem selfDelimiting_headers : SelfDelimiting headersJson :=
  JsonText.selfDelimiting_array selfDelimiting_header fun _ => ⟨91, _, rfl, by decide⟩

/-- A version, closed by a letter that is no digit. -/
theorem selfDelimiting_version {c : UInt8} (hc : c < 48) :
    SelfDelimiting (fun version => JsonText.decimal version ++ [c]) :=
  SelfDelimiting.terminated JsonText.decimal_injective fun _ hmem =>
    absurd (JsonText.digit_of_mem_decimal hmem) (by simpa using hc)

/-- A truth value, closed by a letter of neither. -/
theorem selfDelimiting_boolean {c : UInt8} (hc : c < 48) :
    SelfDelimiting (fun b => JsonText.boolean b ++ [c]) := by
  refine SelfDelimiting.terminated JsonText.boolean_injective fun b hmem => ?_
  have hletters : (JsonText.boolean b).all (fun c => decide (48 ≤ c)) = true := by
    cases b <;> decide
  have hletter : 48 ≤ c := of_decide_eq_true (List.all_eq_true.mp hletters c hmem)
  exact absurd hletter (by simpa using hc)

theorem selfDelimiting_request : SelfDelimiting Request.json := by
  have hquote := JsonText.selfDelimiting_quote
  have hfields := (((((selfDelimiting_version (c := 44) (by decide)).literal
    (ascii "\x7b\"version\":")).pair (selfDelimiting_operation.literal (ascii "\"operation\":"))).pair
    (hquote.literal (ascii ",\"profile\":"))).pair (hquote.literal (ascii ",\"audience\":"))).pair
    (hquote.literal (ascii ",\"nonce\":"))
  have hall := hfields.pair ((hquote.literal (ascii ",\"mac\":")).closed (ascii "\x7d"))
  refine hall.comap (e := fun r : Request =>
    (((((r.version, r.operation), r.profile), r.audience), r.nonce), r.mac)) ?_
  rintro ⟨_, _, _, _, _, _⟩ ⟨_, _, _, _, _, _⟩ h
  simpa [and_assoc] using h

theorem selfDelimiting_response : SelfDelimiting Response.json := by
  have hquote := JsonText.selfDelimiting_quote
  have hfields := ((((selfDelimiting_version (c := 44) (by decide)).literal
    (ascii "\x7b\"version\":")).pair
    ((selfDelimiting_boolean (c := 44) (by decide)).literal (ascii "\"ok\":"))).pair
    (hquote.literal (ascii "\"nonce\":"))).pair (hquote.literal (ascii ",\"mac\":"))
  have hall := hfields.pair
    ((selfDelimiting_headers.literal (ascii ",\"headers\":")).closed (ascii "\x7d"))
  refine hall.comap (e := fun r : Response =>
    ((((r.version, r.ok), r.nonce), r.mac), r.headers)) ?_
  rintro ⟨_, _, _, _, _⟩ ⟨_, _, _, _, _⟩ h
  simpa [and_assoc] using h

/-! ## Their letters -/

theorem visible_operation (operation : Operation) : JsonText.Visible operation.json :=
  JsonText.visible_quote _

theorem visible_header (header : Bytes × Bytes) : JsonText.Visible (headerJson header) := by
  have hname := JsonText.visible_quote header.1
  have hvalue := JsonText.visible_quote header.2
  exact .append (by decide) (hname.append (.append (by decide) (hvalue.append (by decide))))

theorem visible_headers (headers : List (Bytes × Bytes)) :
    JsonText.Visible (headersJson headers) :=
  JsonText.visible_array visible_header headers

/-- A field, after the letters that name it. -/
private theorem visible_quoted {name : Bytes} (h : JsonText.Visible name) (value : Bytes) :
    JsonText.Visible (name ++ JsonText.quote value) :=
  h.append (JsonText.visible_quote value)

theorem visible_request (request : Request) : JsonText.Visible request.json := by
  have hversion : JsonText.Visible (JsonText.decimal request.version ++ ascii ",") :=
    (JsonText.visible_decimal _).append (by decide)
  have hoperation := visible_operation request.operation
  unfold Request.json
  refine .append (.append (.append (.append (.append (.append ?_ hversion) ?_) ?_) ?_) ?_) ?_
  · decide
  · exact .append (by decide) hoperation
  · exact visible_quoted (by decide) _
  · exact visible_quoted (by decide) _
  · exact visible_quoted (by decide) _
  · exact (visible_quoted (by decide) _).append (by decide)

theorem visible_response (response : Response) : JsonText.Visible response.json := by
  have hversion : JsonText.Visible (JsonText.decimal response.version ++ ascii ",") :=
    (JsonText.visible_decimal _).append (by decide)
  have hok : JsonText.Visible (JsonText.boolean response.ok ++ ascii ",") :=
    (JsonText.visible_boolean _).append (by decide)
  unfold Response.json
  refine .append (.append (.append (.append (.append ?_ hversion) ?_) ?_) ?_) ?_
  · decide
  · exact .append (by decide) hok
  · exact visible_quoted (by decide) _
  · exact visible_quoted (by decide) _
  · exact (JsonText.Visible.append (by decide) (visible_headers _)).append (by decide)

/-! ## The MACed texts -/

private theorem zero_notMem {text : Bytes} (h : JsonText.Visible text) : 0 ∉ text :=
  h.notMem (by decide)

/-- The fields of a request's text up to the operation are read off its beginning. -/
theorem requestText_eq {r r' : Request} (h : requestText r = requestText r') :
    r.version = r'.version ∧ r.operation = r'.operation ∧
      r.profile ++ 0 :: (r.audience ++ 0 :: r.nonce) =
        r'.profile ++ 0 :: (r'.audience ++ 0 :: r'.nonce) := by
  unfold requestText at h
  have hfields := (List.cons.inj (List.append_cancel_left h)).2
  obtain ⟨hversion, hfields⟩ := SelfDelimiting.append_cons_cancel
    (zero_notMem (JsonText.visible_decimal _)) (zero_notMem (JsonText.visible_decimal _)) hfields
  obtain ⟨hoperation, hrest⟩ := SelfDelimiting.append_cons_cancel
    (zero_notMem (visible_operation _)) (zero_notMem (visible_operation _)) hfields
  exact ⟨JsonText.decimal_injective hversion, selfDelimiting_operation.injective hoperation, hrest⟩

/-- What a request's text is of, up to the MAC, which it does not contain. -/
def Request.SameText (r r' : Request) : Prop :=
  r.version = r'.version ∧ r.operation = r'.operation ∧ r.profile = r'.profile ∧
    r.audience = r'.audience ∧ r.nonce = r'.nonce

/-- Among requests for one profile and audience the text determines every field. -/
theorem sameText_of_profile {r r' : Request} (hprofile : r.profile = r'.profile)
    (haudience : r.audience = r'.audience) (h : requestText r = requestText r') :
    r.SameText r' := by
  obtain ⟨hversion, hoperation, hrest⟩ := requestText_eq h
  rw [hprofile, haudience] at hrest
  have hnonce := (List.cons.inj (List.append_cancel_left
    (List.cons.inj (List.append_cancel_left hrest)).2)).2
  exact ⟨hversion, hoperation, hprofile, haudience, hnonce⟩

/-- A request whose strings have no NUL shares its text with no other request. -/
theorem sameText_of_notMem {r r' : Request} (hprofile : 0 ∉ r.profile) (haudience : 0 ∉ r.audience)
    (hnonce : 0 ∉ r.nonce) (h : requestText r = requestText r') : r.SameText r' := by
  obtain ⟨hversion, hoperation, hrest⟩ := requestText_eq h
  -- the two NULs of the format are all there are on the left, so all there are on the right
  have hcount := congrArg (List.count 0) hrest
  simp only [List.count_append, List.count_cons_self, List.count_eq_zero_of_not_mem hprofile,
    List.count_eq_zero_of_not_mem haudience, List.count_eq_zero_of_not_mem hnonce] at hcount
  have hprofile' : 0 ∉ r'.profile := List.count_eq_zero.mp (by omega)
  have haudience' : 0 ∉ r'.audience := List.count_eq_zero.mp (by omega)
  obtain ⟨hp, hrest⟩ := SelfDelimiting.append_cons_cancel hprofile hprofile' hrest
  obtain ⟨ha, hn⟩ := SelfDelimiting.append_cons_cancel haudience haudience' hrest
  exact ⟨hversion, hoperation, hp, ha, hn⟩

/-- What a response's text is of. -/
def Response.SameText (r r' : Response) : Prop :=
  r.version = r'.version ∧ r.ok = r'.ok ∧ r.nonce = r'.nonce ∧ r.headers = r'.headers

/-- A response's text determines every field, whatever is in the strings. -/
theorem sameText_of_responseText {r r' : Response} (h : responseText r = responseText r') :
    r.SameText r' := by
  unfold responseText at h
  have hfields := (List.cons.inj (List.append_cancel_left h)).2
  obtain ⟨hversion, hfields⟩ := SelfDelimiting.append_cons_cancel
    (zero_notMem (JsonText.visible_decimal _)) (zero_notMem (JsonText.visible_decimal _)) hfields
  obtain ⟨hok, hrest⟩ := SelfDelimiting.append_cons_cancel
    (zero_notMem (JsonText.visible_boolean _)) (zero_notMem (JsonText.visible_boolean _)) hfields
  -- from the end: the headers are JSON, so the last NUL is the one before them
  obtain ⟨hnonce, hheaders⟩ := SelfDelimiting.append_cons_cancel_right
    (zero_notMem (visible_headers _)) (zero_notMem (visible_headers _)) hrest
  exact ⟨JsonText.decimal_injective hversion, JsonText.boolean_injective hok, hnonce,
    selfDelimiting_headers.injective hheaders⟩

/-- No text is both a request's and a response's. -/
theorem requestText_ne_responseText (q : Request) (r : Response) :
    requestText q ≠ responseText r := by
  intro h
  have hhead : (requestText q).take 3 = (responseText r).take 3 := by rw [h]
  exact absurd hhead (by decide : ascii "req" ≠ ascii "res")

end CredentialBroker.Protocol
