import CredentialBroker.Protocol.Text
import CredentialBroker.Util.Checked

/-!
# Frames are exact at every length

Three length checks must agree: the writer's, that of the reader that takes a byte at a time, and
the decoder's. They do, at the very limit: the frames the writer makes are what the reader gives
back, one for each read and with the rest of the stream untouched, and the decoder takes each of
them. Whatever comes in, ended or endless, the reader stops within one byte of the limit.

Of JSON it is assumed that what is written is read back and has no raw newline in it (`Serde`). The
second half of that is a fact about compact JSON text, and the first can be had for it, as its text
determines the value: `compactRequests` and `compactResponses` are the writers of the two messages
with a reader that inverts them.
-/

namespace CredentialBroker.Protocol

/-- Serialization of a type: what is written is read back, and no newline is written. -/
structure Serde (T : Type) where
  toVec : T → Bytes
  fromSlice : Bytes → Except String T
  fromSlice_toVec : ∀ value, fromSlice (toVec value) = .ok value
  newline_notMem : ∀ value, newline ∉ toVec value

/-! ## Streams -/

namespace ByteStream

/-- Some bytes, and then another stream. -/
def prepend (bs : Bytes) (rest : ByteStream) : ByteStream := fun i =>
  match bs[i]? with
  | some b => some b
  | none => rest (i - bs.length)

/-- A stream without its first bytes. -/
def drop (n : Nat) (stream : ByteStream) : ByteStream := fun i => stream (n + i)

theorem prepend_of_getElem? {bs : Bytes} {rest : ByteStream} {i : Nat} {b : UInt8}
    (h : bs[i]? = some b) : prepend bs rest i = some b := by
  unfold prepend
  rw [h]

theorem drop_prepend (bs : Bytes) (rest : ByteStream) : drop bs.length (prepend bs rest) = rest := by
  funext i
  unfold drop prepend
  rw [List.getElem?_eq_none (Nat.le_add_right _ _), Nat.add_sub_cancel_left]

theorem prepend_nil (rest : ByteStream) : prepend [] rest = rest := by
  funext i
  simp [prepend]

theorem prepend_append (bs cs : Bytes) (rest : ByteStream) :
    prepend (bs ++ cs) rest = prepend bs (prepend cs rest) := by
  funext i
  unfold prepend
  by_cases hi : i < bs.length
  · rw [List.getElem?_append_left hi, List.getElem?_eq_getElem hi]
  · rw [Nat.not_lt] at hi
    rw [List.getElem?_append_right hi, List.getElem?_eq_none hi, List.length_append, Nat.sub_sub]

end ByteStream

/-! ## Reading a frame -/

/-- A line that the stream goes on with is read to its end, if it fits. -/
theorem readLoop_of_line {stream : ByteStream} {body : Bytes} (hbody : newline ∉ body) :
    ∀ {out : Bytes},
      (∀ i b, (body ++ [newline])[i]? = some b → stream (out.length + i) = some b) →
        out.length + body.length < maxFrame →
          readLoop stream out =
            (.ok (out ++ (body ++ [newline])), out.length + body.length + 1) := by
  induction body with
  | nil =>
      intro out hstream hfits
      have hbyte : stream out.length = some newline := hstream 0 newline rfl
      have hlength : ¬ maxFrame < (out ++ [newline]).length := by
        rw [List.length_append, List.length_singleton]
        simp only [List.length_nil] at hfits
        omega
      rw [readLoop, hbyte]
      simp only [hlength, if_false, if_true]
      rw [List.length_append, List.length_singleton]
      rfl
  | cons byte body ih =>
      intro out hstream hfits
      have hbyte : stream out.length = some byte := hstream 0 byte rfl
      have hnotNewline : byte ≠ newline := fun heq => hbody (heq ▸ List.mem_cons_self)
      simp only [List.length_cons] at hfits
      have hlength : ¬ maxFrame < (out ++ [byte]).length := by
        rw [List.length_append, List.length_singleton]
        omega
      have hnext : ∀ i b, (body ++ [newline])[i]? = some b →
          stream ((out ++ [byte]).length + i) = some b := by
        intro i b hi
        rw [List.length_append, List.length_singleton, Nat.add_assoc, Nat.add_comm 1 i]
        exact hstream (i + 1) b hi
      have hfits' : (out ++ [byte]).length + body.length < maxFrame := by
        rw [List.length_append, List.length_singleton]
        omega
      -- the byte is neither the end nor one too many, so the loop goes on past it
      rw [readLoop, hbyte]
      simp only [hlength, hnotNewline, if_false]
      rw [ih (fun hmem => hbody (List.mem_cons_of_mem _ hmem)) hnext hfits']
      refine Prod.ext ?_ ?_
      · simp
      · show (out ++ [byte]).length + body.length + 1 = out.length + (body.length + 1) + 1
        rw [List.length_append, List.length_singleton]
        omega

/-- What `readLoop` gives, whatever the stream: it stops within a byte of the limit, and a frame is
within the limit, is what the stream had, and is one line. -/
structure ReadWell (stream : ByteStream) (result : Except ReadError Bytes × Nat) : Prop where
  consumed_le : result.2 ≤ maxFrame + 1
  length_le : ∀ out, result.1 = .ok out → out.length ≤ maxFrame
  line : ∀ out, result.1 = .ok out → ∃ body, out = body ++ [newline] ∧ newline ∉ body
  consumed : ∀ out, result.1 = .ok out → result.2 = out.length ∧
    ∀ i b, out[i]? = some b → stream i = some b

/-- One more byte read is where the stream has it. -/
private theorem read_concat {stream : ByteStream} {out : Bytes} {byte : UInt8}
    (hread : ∀ i b, out[i]? = some b → stream i = some b)
    (hbyte : stream out.length = some byte) (i : Nat) (b : UInt8)
    (hi : (out ++ [byte])[i]? = some b) : stream i = some b := by
  rcases Nat.lt_or_ge i out.length with hlt | hge
  · rw [List.getElem?_append_left hlt] at hi
    exact hread i b hi
  · rw [List.getElem?_append_right hge, List.getElem?_singleton] at hi
    split at hi
    · next hzero =>
        cases hi
        rw [show i = out.length by omega]
        exact hbyte
    · cases hi

/-- **The loop.** By induction on what it may still read: nothing read so far was a newline, and all
of it is where the stream has it. -/
theorem readLoop_spec (stream : ByteStream) (out : Bytes) (hout : newline ∉ out)
    (hread : ∀ i b, out[i]? = some b → stream i = some b) (hlength : out.length ≤ maxFrame) :
    ReadWell stream (readLoop stream out) := by
  fun_induction readLoop stream out with
  | case1 out hstream =>
      -- the stream ends, or fails, within a line
      refine ⟨Nat.le_succ_of_le hlength, ?_, ?_, ?_⟩
      · rintro _ ⟨⟩
      · rintro _ ⟨⟩
      · rintro _ ⟨⟩
  | case2 out byte hstream hlong =>
      -- one byte over the limit
      refine ⟨?_, ?_, ?_, ?_⟩
      · rw [List.length_append, List.length_singleton]
        exact Nat.succ_le_succ hlength
      · rintro _ ⟨⟩
      · rintro _ ⟨⟩
      · rintro _ ⟨⟩
  | case3 out hstream hlong =>
      -- the newline
      have hfits := Nat.not_lt.mp hlong
      refine ⟨Nat.le_succ_of_le hfits, ?_, ?_, ?_⟩
      · rintro _ ⟨⟩
        exact hfits
      · rintro _ ⟨⟩
        exact ⟨out, rfl, hout⟩
      · rintro _ ⟨⟩
        exact ⟨rfl, read_concat hread hstream⟩
  | case4 out byte hstream hlong hbyte ih =>
      refine ih ?_ (read_concat hread hstream) (Nat.not_lt.mp hlong)
      rw [List.mem_append, List.mem_singleton, not_or]
      exact ⟨hout, fun heq => hbyte heq.symm⟩

theorem readFrame_spec (stream : ByteStream) : ReadWell stream (readFrame stream) := by
  apply readLoop_spec stream [] List.not_mem_nil
  · intro i b hi
    simp at hi
  · exact Nat.zero_le _

/-! ## Writing, reading back and decoding -/

section Codec

variable {T : Type} (serde : Serde T)

theorem encode_eq_ok {toVec : T → Bytes} {value : T} {frame : Bytes} :
    encode toVec value = .ok frame ↔
      (toVec value).length < maxFrame ∧ frame = toVec value ++ [newline] := by
  unfold encode
  rw [Checked.refuse_eq_ok, List.length_append, List.length_singleton, Nat.not_lt,
    Nat.succ_le_iff, Except.ok.injEq]
  exact and_congr_right fun _ => eq_comm

theorem encode_eq_error {toVec : T → Bytes} {value : T} :
    (∃ e, encode toVec value = .error e) ↔ maxFrame < (toVec value).length + 1 := by
  unfold encode
  dsimp only
  rw [List.length_append, List.length_singleton]
  split
  · next hlong => exact ⟨fun _ => hlong, fun _ => ⟨_, rfl⟩⟩
  · next hfits => exact ⟨fun ⟨e, he⟩ => (nomatch he), fun hlong => absurd hlong hfits⟩

/-- A frame is read from the head of a stream as it was written. -/
theorem readFrame_prepend {value : T} {frame : Bytes}
    (h : encode serde.toVec value = .ok frame) (rest : ByteStream) :
    readFrame (ByteStream.prepend frame rest) = (.ok frame, frame.length) := by
  obtain ⟨hfits, rfl⟩ := encode_eq_ok.mp h
  have hline := @readLoop_of_line (ByteStream.prepend (serde.toVec value ++ [newline]) rest) _
    (serde.newline_notMem value) [] ?_ ?_
  · unfold readFrame
    rw [hline]
    simp
  · intro i b hi
    rw [List.length_nil, Nat.zero_add]
    exact ByteStream.prepend_of_getElem? hi
  · rw [List.length_nil, Nat.zero_add]
    exact hfits

/-- And decoded to what was written. -/
theorem decode_encode {value : T} {frame : Bytes} (h : encode serde.toVec value = .ok frame) :
    decode serde.fromSlice frame = .ok value := by
  obtain ⟨hfits, rfl⟩ := encode_eq_ok.mp h
  unfold decode
  rw [if_neg, List.dropLast_concat]
  · exact serde.fromSlice_toVec value
  · rw [not_or, Nat.not_lt, List.length_append, List.length_singleton, List.getLast?_concat]
    exact ⟨hfits, fun hne => hne rfl⟩

end Codec

/-! ## Sequences of messages -/

/-- A message of either kind. -/
inductive Message where
  | request (request : Request)
  | response (response : Response)

variable (requests : Serde Request) (responses : Serde Response)

/-- The JSON of a message. -/
def Message.toVec : Message → Bytes
  | request q => requests.toVec q
  | response r => responses.toVec r

/-- The frame of a message. -/
def Message.frame : Message → Except String Bytes
  | request q => encode requests.toVec q
  | response r => encode responses.toVec r

/-- A frame is decoded to a message, as a value of its kind. -/
def Message.DecodesFrom (frame : Bytes) : Message → Prop
  | request q => decode requests.fromSlice frame = .ok q
  | response r => decode responses.fromSlice frame = .ok r

/-- As many calls of `read_frame`, each from where the one before stopped. -/
def readFrames : Nat → ByteStream → Except ReadError (List Bytes) × ByteStream
  | 0, stream => (.ok [], stream)
  | n + 1, stream =>
    match readFrame stream with
    | (.error e, consumed) => (.error e, stream.drop consumed)
    | (.ok frame, consumed) =>
      match readFrames n (stream.drop consumed) with
      | (.error e, rest) => (.error e, rest)
      | (.ok frames, rest) => (.ok (frame :: frames), rest)

theorem Message.readFrame_frame {m : Message} {frame : Bytes}
    (h : m.frame requests responses = .ok frame) (rest : ByteStream) :
    readFrame (ByteStream.prepend frame rest) = (.ok frame, frame.length) := by
  cases m with
  | request q => exact readFrame_prepend requests h rest
  | response r => exact readFrame_prepend responses h rest

theorem Message.decodesFrom_frame {m : Message} {frame : Bytes}
    (h : m.frame requests responses = .ok frame) : m.DecodesFrom requests responses frame := by
  cases m with
  | request q => exact decode_encode requests h
  | response r => exact decode_encode responses h

/-- **Frames written one after another are read back one after another**, and nothing more. -/
theorem readFrames_flatten {ms : List Message} {frames : List Bytes}
    (h : List.Forall₂ (fun m frame => Message.frame requests responses m = .ok frame) ms frames)
    (rest : ByteStream) :
    readFrames ms.length (ByteStream.prepend frames.flatten rest) = (.ok frames, rest) := by
  induction h with
  | nil =>
      show (Except.ok [], ByteStream.prepend [] rest) = _
      rw [ByteStream.prepend_nil]
  | @cons m frame ms frames hm _ ih =>
      have hread := Message.readFrame_frame requests responses hm
        (ByteStream.prepend frames.flatten rest)
      rw [← ByteStream.prepend_append] at hread
      show readFrames (ms.length + 1) (ByteStream.prepend (frame ++ frames.flatten) rest) = _
      rw [readFrames, hread]
      simp only
      rw [ByteStream.prepend_append, ByteStream.drop_prepend, ih]

/-- What the codec owes its callers. -/
structure ExactFrames : Prop where
  /-- Any sequence of messages is read back frame by frame, and the rest is left. -/
  read_back : ∀ ms frames rest,
    List.Forall₂ (fun m frame => Message.frame requests responses m = .ok frame) ms frames →
      readFrames ms.length (ByteStream.prepend frames.flatten rest) = (.ok frames, rest) ∧
        List.Forall₂ (fun m frame => Message.DecodesFrom requests responses frame m) ms frames
  /-- A message is refused exactly if its JSON and the newline are too long. -/
  refused_iff : ∀ m, (∃ e, Message.frame requests responses m = .error e) ↔
    maxFrame < (Message.toVec requests responses m).length + 1
  /-- No frame that is written is refused by the reader or the decoder. -/
  accepted : ∀ m frame, Message.frame requests responses m = .ok frame →
    (∀ rest, readFrame (ByteStream.prepend frame rest) = (.ok frame, frame.length)) ∧
      Message.DecodesFrom requests responses frame m
  /-- Whatever comes in, the reader stops within a byte of the limit. -/
  consumed_le : ∀ stream, (readFrame stream).2 ≤ maxFrame + 1
  /-- And what it returns is one line, within the limit. -/
  line : ∀ stream out, (readFrame stream).1 = .ok out →
    out.length ≤ maxFrame ∧ ∃ body, out = body ++ [newline] ∧ newline ∉ body

/-- **The frame codec is exact at every length.** -/
theorem frames_exact (requests : Serde Request) (responses : Serde Response) :
    ExactFrames requests responses := by
  refine ⟨?_, ?_, ?_, ?_, ?_⟩
  · intro ms frames rest h
    refine ⟨readFrames_flatten requests responses h rest, ?_⟩
    exact h.imp fun m frame hm => Message.decodesFrom_frame requests responses hm
  · intro m
    cases m with
    | request q => exact encode_eq_error
    | response r => exact encode_eq_error
  · intro m frame hm
    exact ⟨Message.readFrame_frame requests responses hm,
      Message.decodesFrom_frame requests responses hm⟩
  · intro stream
    exact (readFrame_spec stream).consumed_le
  · intro stream out hout
    exact ⟨(readFrame_spec stream).length_le out hout, (readFrame_spec stream).line out hout⟩

/-! ## Compact JSON qualifies -/

open Classical in
/-- A writer of visible text that determines what was written, with the reader that inverts it. -/
noncomputable def Serde.ofText {T : Type} (toVec : T → Bytes) (hinj : Function.Injective toVec)
    (hvisible : ∀ value, JsonText.Visible (toVec value)) : Serde T where
  toVec := toVec
  fromSlice text :=
    if h : ∃ value, toVec value = text then .ok h.choose else .error "invalid JSON"
  fromSlice_toVec value := by
    have h : ∃ value', toVec value' = toVec value := ⟨value, rfl⟩
    rw [dif_pos h, hinj h.choose_spec]
  newline_notMem value := (hvisible value).notMem (by decide)

noncomputable def compactRequests : Serde Request :=
  .ofText Request.json selfDelimiting_request.injective visible_request

noncomputable def compactResponses : Serde Response :=
  .ofText Response.json selfDelimiting_response.injective visible_response

/-- A request of the proxy's. -/
def samplePing : Request where
  version := version
  operation := .ping
  profile := ascii "codex"
  audience := ascii "codex"
  nonce := List.replicate 64 97
  mac := List.replicate 64 98

/-- The agent's answer to it. -/
def sampleHealthy : Response where
  version := version
  ok := true
  nonce := samplePing.nonce
  mac := List.replicate 64 99
  headers := []

/-- The frames of the two, one after the other with an endless stream of other bytes behind them,
are read back and decoded, and the rest is left. -/
theorem frames_exact_ping : ∃ ping healthy, encode Request.json samplePing = .ok ping ∧
    encode Response.json sampleHealthy = .ok healthy ∧
      readFrames 2 (ByteStream.prepend (ping ++ healthy) fun _ => some 120) =
          (.ok [ping, healthy], fun _ => some 120) ∧
        decode compactRequests.fromSlice ping = .ok samplePing ∧
          decode compactResponses.fromSlice healthy = .ok sampleHealthy := by
  have hping : encode Request.json samplePing = .ok (Request.json samplePing ++ [newline]) :=
    encode_eq_ok.mpr ⟨by decide +kernel, rfl⟩
  have hhealthy :
      encode Response.json sampleHealthy = .ok (Response.json sampleHealthy ++ [newline]) :=
    encode_eq_ok.mpr ⟨by decide +kernel, rfl⟩
  obtain ⟨hread, hdecode⟩ := (frames_exact compactRequests compactResponses).read_back
    [.request samplePing, .response sampleHealthy] [_, _] (fun _ => some 120)
    (.cons hping (.cons hhealthy .nil))
  rw [List.flatten_cons, List.flatten_cons, List.flatten_nil, List.append_nil] at hread
  cases hdecode with
  | cons hdecodePing hrest =>
      cases hrest with
      | cons hdecodeHealthy _ =>
          exact ⟨_, _, hping, hhealthy, hread, hdecodePing, hdecodeHealthy⟩

end CredentialBroker.Protocol
