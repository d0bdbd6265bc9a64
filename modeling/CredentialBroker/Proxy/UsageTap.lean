import CredentialBroker.Basic
import CredentialBroker.Util.Lines
import Mathlib.Data.List.Perm.Basic

/-!
# The usage a response reports

The proxy reads the token counts out of a response as it forwards it, a chunk at a time, holding no
more than `maxUsageEvent` bytes. An event stream is read a line at a time, any other response as
one document. Where the chunks are cut makes no difference: `TapAt` says what the tap holds by the
text alone, and `usage_unchunked` what it ends with.
-/

namespace CredentialBroker.Proxy

open Lines (IsLine Cut Held holding splitInclusive)

/-! ## Token counts -/

/-- `serde_json::Value`, as far as it is read. -/
inductive Value where
  | null
  | bool (b : Bool)
  /-- A number, and its value if it is an unsigned integer of 64 bits. -/
  | number (asU64 : Option UInt64)
  | string (s : String)
  | array (items : List Value)
  /-- The fields of an object, by distinct names. -/
  | object (fields : List (String × Value))

namespace Value

/-- `Value::pointer`, of names that are no index into an array. -/
def pointer (value : Value) : List String → Option Value
  | [] => some value
  | name :: path =>
    match value with
    | object fields => (fields.lookup name).bind fun field => field.pointer path
    | _ => none

def isObject : Value → Bool
  | object _ => true
  | _ => false

def asU64 : Value → Option UInt64
  | number n => n
  | _ => none

end Value

/-- The token counts a response reports. `input` includes `cached`. -/
structure Tokens where
  input : UInt64
  cached : UInt64
  cacheWrite : UInt64
  output : UInt64
  deriving DecidableEq, Repr

namespace Tokens

/-- One count of a usage object. -/
def count (usage : Value) (path : List String) : UInt64 :=
  ((usage.pointer path).bind Value.asU64).getD 0

/-- The usage of a response or one of its events: OpenAI's under `response` in a stream, Anthropic's
under `message` when it starts. -/
def of (event : Value) : Option Tokens := do
  let usage ← [["response", "usage"], ["message", "usage"], ["usage"]].findSome? fun path =>
    (event.pointer path).filter Value.isObject
  some {
    input := count usage ["input_tokens"]
    cached := (count usage ["input_tokens_details", "cached_tokens"]).satAdd
      (count usage ["cache_read_input_tokens"])
    cacheWrite := count usage ["cache_creation_input_tokens"]
    output := count usage ["output_tokens"] }

/-- Anthropic reports usage in more than one event, each count growing. -/
def merge (tokens other : Tokens) : Tokens where
  input := max tokens.input other.input
  cached := max tokens.cached other.cached
  cacheWrite := max tokens.cacheWrite other.cacheWrite
  output := max tokens.output other.output

end Tokens

/-! ## The tap -/

/-- The most of one event, or of a response that is not an event stream, held to read its usage
from. -/
def maxUsageEvent : Nat := 1024 * 1024

def newline : UInt8 := 10

/-- `trim_ascii`. -/
def trimAscii (text : Bytes) : Bytes :=
  let blank : UInt8 → Bool := fun b => b = 32 || b = 9 || b = 10 || b = 12 || b = 13
  ((text.dropWhile blank).reverse.dropWhile blank).reverse

/-- Reads the usage out of a response as it is forwarded. What is pending, and whether it is being
skipped, are as `Held` has them. -/
structure UsageTap extends Held UInt8 where
  /-- Whether the response is an event stream, read an event (line) at a time. -/
  events : Bool
  usage : Option Tokens

namespace UsageTap

/-- The tap of a response that begins. -/
def new (events : Bool) : UsageTap :=
  { pending := [], skipping := false, events := events, usage := none }

/-- What is read as JSON of an event or document. -/
def data (pending : Bytes) : Bytes :=
  let text := trimAscii pending
  (text.dropPrefix? (ascii "data:")).getD text

section Reading

-- `serde_json::from_slice`
variable (fromSlice : Bytes → Option Value)

/-- Take the usage, if any, from the event or document read so far. -/
def scan (tap : UsageTap) : UsageTap :=
  let taken : UsageTap := { tap with pending := [], skipping := false }
  if tap.skipping || !decide (ascii "usage" <:+: tap.pending) then taken
  else
    match (fromSlice (data tap.pending)).bind Tokens.of with
    | none => taken
    | some tokens =>
      match tap.usage with
      | some usage => { taken with usage := some (usage.merge tokens) }
      | none => { taken with usage := some tokens }

/-- Hold a piece of a line, or skip the line. -/
def hold (tap : UsageTap) (line : Bytes) : UsageTap :=
  { tap with toHeld := tap.toHeld.push maxUsageEvent line }

def feedLine (tap : UsageTap) (line : Bytes) : UsageTap :=
  let tap := tap.hold line
  if tap.events && decide (line.getLast? = some newline) then tap.scan fromSlice else tap

def feed (tap : UsageTap) (chunk : Bytes) : UsageTap :=
  (if tap.events then splitInclusive newline chunk else [chunk]).foldl (feedLine fromSlice) tap

/-- The tap of a response that has come in `chunks`. -/
def fed (events : Bool) (chunks : List Bytes) : UsageTap :=
  chunks.foldl (feed fromSlice) (new events)

/-- What is logged of a response when the tap is dropped. -/
def logged (events : Bool) (chunks : List Bytes) : Option Tokens :=
  ((fed fromSlice events chunks).scan fromSlice).usage

end Reading

end UsageTap

/-! ## What a text reports -/

namespace Tokens

/-- The greatest of each count, if there are any. -/
def maximum : List Tokens → Option Tokens
  | [] => none
  | tokens => some {
      input := (tokens.map input).foldl max 0
      cached := (tokens.map cached).foldl max 0
      cacheWrite := (tokens.map cacheWrite).foldl max 0
      output := (tokens.map output).foldl max 0 }

theorem maximum_concat (before : List Tokens) (tokens : Tokens) :
    maximum (before ++ [tokens]) =
      match maximum before with
      | some usage => some (usage.merge tokens)
      | none => some tokens := by
  cases before with
  | nil =>
      show some _ = some tokens
      simp only [List.map_cons, List.map_nil, List.foldl_cons, List.foldl_nil, UInt64.zero_max,
        List.nil_append]
  | cons first before =>
      show some _ = some _
      simp only [List.map_append, List.map_cons, List.map_nil, List.foldl_append, List.foldl_cons,
        List.foldl_nil]
      rfl

private theorem foldl_max_perm {counts counts' : List UInt64} (h : counts.Perm counts') :
    counts.foldl max 0 = counts'.foldl max 0 := by
  have hcomm : RightCommutative (max : UInt64 → UInt64 → UInt64) :=
    ⟨fun a b c => by rw [UInt64.max_assoc, UInt64.max_comm b, UInt64.max_assoc]⟩
  exact h.foldl_eq 0

/-- The order makes no difference. -/
theorem maximum_perm {before after : List Tokens} (h : before.Perm after) :
    maximum before = maximum after := by
  cases before with
  | nil => rw [List.nil_perm.mp h]
  | cons first before =>
      cases after with
      | nil => exact absurd h.length_eq (by simp)
      | cons first' after =>
          show some _ = some _
          rw [foldl_max_perm (h.map input), foldl_max_perm (h.map cached),
            foldl_max_perm (h.map cacheWrite), foldl_max_perm (h.map output)]

end Tokens

section Reports

variable (fromSlice : Bytes → Option Value)

/-- What a line or document reports, if it is small enough to be held. -/
def reported (piece : Bytes) : Option Tokens :=
  if piece.length ≤ maxUsageEvent ∧ ascii "usage" <:+: piece then
    (fromSlice (UsageTap.data piece)).bind Tokens.of
  else none

end Reports

/-! ## What a tap holds -/

namespace UsageTap

section Runs

variable {fromSlice : Bytes → Option Value}

/-- The usage found in `lines`. -/
def found (fromSlice : Bytes → Option Value) (lines : List Bytes) : Option Tokens :=
  Tokens.maximum (lines.filterMap (reported fromSlice))

/-- The tap after `text` of a response, of which `lines` have been scanned and `rest` has not. -/
structure TapAt (fromSlice : Bytes → Option Value) (tap : UsageTap) (lines : List Bytes)
    (rest : Bytes) : Prop where
  held : tap.toHeld = holding maxUsageEvent rest
  usage : tap.usage = found fromSlice lines

/-- What a scan makes of the usage found before it. -/
def add (usage : Option Tokens) : Option Tokens → Option Tokens
  | none => usage
  | some tokens =>
    match usage with
    | some usage => some (usage.merge tokens)
    | none => some tokens

theorem found_concat (lines : List Bytes) (rest : Bytes) :
    found fromSlice (lines ++ [rest]) = add (found fromSlice lines) (reported fromSlice rest) := by
  unfold found
  rw [List.filterMap_append]
  cases hrest : reported fromSlice rest with
  | none => simp [hrest, add]
  | some tokens =>
      have hlast : [rest].filterMap (reported fromSlice) = [tokens] := by simp [hrest]
      rw [hlast, Tokens.maximum_concat]
      rfl

/-- A scan adds what the text that is held reports, and holds nothing more. -/
theorem scan_eq {tap : UsageTap} {rest : Bytes} (h : tap.toHeld = holding maxUsageEvent rest) :
    tap.scan fromSlice = { tap with
      pending := []
      skipping := false
      usage := add tap.usage (reported fromSlice rest) } := by
  obtain ⟨⟨pending, skipping⟩, events, usage⟩ := tap
  unfold holding at h
  unfold UsageTap.scan reported
  dsimp only at h ⊢
  by_cases hsize : rest.length ≤ maxUsageEvent
  · rw [if_pos hsize] at h
    obtain ⟨rfl, rfl⟩ := Held.mk.inj h
    by_cases husage : ascii "usage" <:+: pending
    · rw [if_neg (by simp [husage]), if_pos ⟨hsize, husage⟩]
      cases (fromSlice (data pending)).bind Tokens.of with
      | none => rfl
      | some tokens => cases usage <;> rfl
    · rw [if_pos (by simp [husage]), if_neg fun h => husage h.2]
      rfl
  · -- the text was too long, and is skipped
    rw [if_neg hsize] at h
    obtain ⟨rfl, rfl⟩ := Held.mk.inj h
    have hlong : ¬ (rest.length ≤ maxUsageEvent ∧ ascii "usage" <:+: rest) := fun h => hsize h.1
    rw [if_neg hlong, Bool.true_or, if_pos rfl]
    rfl

/-- **Step.** A scan takes up what is held as a line. -/
theorem TapAt.scan {tap : UsageTap} {lines : List Bytes} {rest : Bytes}
    (h : TapAt fromSlice tap lines rest) :
    TapAt fromSlice (tap.scan fromSlice) (lines ++ [rest]) [] := by
  rw [scan_eq h.held]
  refine ⟨rfl, ?_⟩
  rw [found_concat, ← h.usage]

theorem TapAt.hold {tap : UsageTap} {lines : List Bytes} {rest : Bytes}
    (h : TapAt fromSlice tap lines rest) (piece : Bytes) :
    TapAt fromSlice (tap.hold piece) lines (rest ++ piece) := by
  refine ⟨?_, h.usage⟩
  unfold UsageTap.hold
  rw [h.held]
  exact Held.push_holding maxUsageEvent rest piece

@[simp] theorem events_hold (tap : UsageTap) (line : Bytes) :
    (tap.hold line).events = tap.events := rfl

@[simp] theorem events_scan (tap : UsageTap) : (tap.scan fromSlice).events = tap.events := by
  unfold UsageTap.scan
  dsimp only
  split
  · rfl
  · split
    · rfl
    · split <;> rfl

@[simp] theorem events_feedLine (tap : UsageTap) (line : Bytes) :
    (tap.feedLine fromSlice line).events = tap.events := by
  unfold feedLine
  dsimp only
  split
  · rw [events_scan, events_hold]
  · rw [events_hold]

/-- **Step.** A line that ends is scanned with what was held of it. -/
theorem TapAt.feedLine_of_isLine {tap : UsageTap} {lines : List Bytes} {rest piece : Bytes}
    (h : TapAt fromSlice tap lines rest) (hevents : tap.events = true)
    (hpiece : IsLine newline piece) :
    TapAt fromSlice (tap.feedLine fromSlice piece) (lines ++ [rest ++ piece]) [] := by
  unfold feedLine
  dsimp only
  rw [events_hold, hevents, hpiece.getLast?, if_pos (by decide)]
  exact (h.hold piece).scan

/-- **Step.** A piece with no line end, or of a document, is held with the rest. -/
theorem TapAt.feedLine_of_open {tap : UsageTap} {lines : List Bytes} {rest piece : Bytes}
    (h : TapAt fromSlice tap lines rest) (hpiece : tap.events = false ∨ newline ∉ piece) :
    TapAt fromSlice (tap.feedLine fromSlice piece) lines (rest ++ piece) := by
  have hopen : (tap.events && decide (piece.getLast? = some newline)) = false := by
    rcases hpiece with hevents | hpiece
    · rw [hevents, Bool.false_and]
    · rw [decide_eq_false fun hlast => hpiece (List.mem_of_getLast? hlast), Bool.and_false]
  unfold feedLine
  dsimp only
  rw [events_hold, hopen, if_neg (by decide)]
  exact h.hold piece

/-- What a tap of an event stream has read once it was given `text`. -/
def StreamAt (fromSlice : Bytes → Option Value) (tap : UsageTap) (text : Bytes) : Prop :=
  tap.events = true ∧ ∃ lines rest, Cut newline text lines rest ∧ TapAt fromSlice tap lines rest

theorem StreamAt.feedLines {tap : UsageTap} {text : Bytes} (h : StreamAt fromSlice tap text)
    (pieces : List Bytes) (hpieces : ∀ piece ∈ pieces, IsLine newline piece ∨ newline ∉ piece) :
    StreamAt fromSlice (pieces.foldl (feedLine fromSlice) tap) (text ++ pieces.flatten) := by
  induction pieces generalizing tap text with
  | nil => simpa using h
  | cons piece pieces ih =>
      obtain ⟨hevents, lines, rest, hcut, hat⟩ := h
      rw [List.flatten_cons, ← List.append_assoc]
      refine ih ⟨by rw [events_feedLine, hevents], ?_⟩
        fun p hp => hpieces p (List.mem_cons_of_mem _ hp)
      rcases hpieces piece List.mem_cons_self with hline | hopen
      · exact ⟨_, [], hcut.append_line hline, hat.feedLine_of_isLine hevents hline⟩
      · exact ⟨lines, _, hcut.append_open hopen, hat.feedLine_of_open (.inr hopen)⟩

/-- **Step.** A chunk of an event stream is read, wherever it is cut. -/
theorem StreamAt.feed {tap : UsageTap} {text : Bytes} (h : StreamAt fromSlice tap text)
    (chunk : Bytes) : StreamAt fromSlice (tap.feed fromSlice chunk) (text ++ chunk) := by
  have hfeed := h.feedLines (splitInclusive newline chunk)
    fun piece hmem => Lines.isLine_or_of_mem_splitInclusive hmem
  rw [Lines.flatten_splitInclusive] at hfeed
  unfold UsageTap.feed
  rw [if_pos h.1]
  exact hfeed

variable (fromSlice) in
/-- **Run.** A tap of an event stream has read the text of its chunks. -/
theorem streamAt_fed (chunks : List Bytes) :
    StreamAt fromSlice (fed fromSlice true chunks) chunks.flatten := by
  induction chunks using List.reverseRecOn with
  | nil => exact ⟨rfl, [], [], .nil, rfl, rfl⟩
  | append_singleton chunks chunk ih =>
      unfold fed at ih ⊢
      rw [List.foldl_append, List.flatten_append, List.flatten_singleton]
      exact ih.feed chunk

variable (fromSlice) in
/-- **Run.** A tap of a document holds the text of its chunks. -/
theorem tapAt_fed (chunks : List Bytes) :
    (fed fromSlice false chunks).events = false ∧
      TapAt fromSlice (fed fromSlice false chunks) [] chunks.flatten := by
  induction chunks using List.reverseRecOn with
  | nil => exact ⟨rfl, rfl, rfl⟩
  | append_singleton chunks chunk ih =>
      obtain ⟨hevents, hat⟩ := ih
      have hfed : fed fromSlice false (chunks ++ [chunk]) =
          (fed fromSlice false chunks).feedLine fromSlice chunk := by
        rw [fed, List.foldl_append]
        show (fed fromSlice false chunks).feed fromSlice chunk = _
        rw [UsageTap.feed, hevents, if_neg (by decide)]
        rfl
      rw [hfed, List.flatten_append, List.flatten_singleton]
      exact ⟨by rw [events_feedLine, hevents], hat.feedLine_of_open (.inl hevents)⟩

theorem reported_of_long {piece : Bytes} (h : maxUsageEvent < piece.length) :
    reported fromSlice piece = none := by
  unfold reported
  rw [if_neg fun hfits => Nat.not_le_of_lt h hfits.1]

theorem logged_stream (chunks : List Bytes) (lines : List Bytes) (rest : Bytes)
    (h : Cut newline chunks.flatten lines rest) :
    logged fromSlice true chunks = found fromSlice (lines ++ [rest]) := by
  obtain ⟨-, lines', rest', hcut, hat⟩ := streamAt_fed fromSlice chunks
  obtain ⟨rfl, rfl⟩ := h.unique hcut
  exact hat.scan.usage

theorem length_pending_fed (events : Bool) (chunks : List Bytes) :
    (fed fromSlice events chunks).pending.length ≤ maxUsageEvent := by
  have hheld : ∃ rest, (fed fromSlice events chunks).toHeld = holding maxUsageEvent rest := by
    cases events with
    | false => exact ⟨_, (tapAt_fed fromSlice chunks).2.held⟩
    | true =>
        obtain ⟨-, lines, rest, -, hat⟩ := streamAt_fed fromSlice chunks
        exact ⟨rest, hat.held⟩
  obtain ⟨rest, hheld⟩ := hheld
  show (fed fromSlice events chunks).toHeld.pending.length ≤ _
  rw [hheld]
  exact Lines.length_pending_holding maxUsageEvent rest

end Runs

end UsageTap

open UsageTap in
/-- What is logged of a response is of its text alone. -/
structure Unchunked (fromSlice : Bytes → Option Value) : Prop where
  /-- Of an event stream, the greatest counts of its lines and of what follows the last. -/
  stream : ∀ chunks lines rest, Cut newline chunks.flatten lines rest →
    logged fromSlice true chunks =
      Tokens.maximum ((lines ++ [rest]).filterMap (reported fromSlice))
  /-- Every text has such lines. -/
  cut : ∀ text : Bytes, ∃ lines rest, Cut newline text lines rest
  /-- Of another response, the counts of its whole body. -/
  document : ∀ chunks, logged fromSlice false chunks = reported fromSlice chunks.flatten
  /-- No more than the limit is held, neither between chunks nor before a line is scanned. -/
  bounded : ∀ events chunks line, (fed fromSlice events chunks).pending.length ≤ maxUsageEvent ∧
    ((fed fromSlice events chunks).hold line).pending.length ≤ maxUsageEvent
  /-- A line that is too long changes nothing. -/
  skipped : ∀ (before : List Bytes) line after chunks chunks', (∀ l ∈ before, IsLine newline l) →
    IsLine newline line → maxUsageEvent < line.length →
    chunks.flatten = before.flatten ++ (line ++ after) →
    chunks'.flatten = before.flatten ++ after →
      logged fromSlice true chunks = logged fromSlice true chunks'
  /-- Nor does the order of the lines. -/
  permuted : ∀ (lines lines' : List Bytes) after chunks chunks',
    (∀ l ∈ lines, IsLine newline l) → lines.Perm lines' →
    chunks.flatten = lines.flatten ++ after → chunks'.flatten = lines'.flatten ++ after →
      logged fromSlice true chunks = logged fromSlice true chunks'

/-- **The usage logged does not depend on the chunks** that a response came in. -/
theorem usage_unchunked (fromSlice : Bytes → Option Value) : Unchunked fromSlice where
  stream := UsageTap.logged_stream
  cut := Lines.exists_cut newline
  document := by
    intro chunks
    have husage := (UsageTap.tapAt_fed fromSlice chunks).2.scan.usage
    rw [UsageTap.found_concat] at husage
    rw [UsageTap.logged, husage]
    cases reported fromSlice chunks.flatten <;> rfl
  bounded events chunks line :=
    ⟨UsageTap.length_pending_fed events chunks,
      Lines.length_pending_push (UsageTap.length_pending_fed events chunks) line⟩
  skipped := by
    intro before line after chunks chunks' hbefore hline hlong hchunks hchunks'
    obtain ⟨lines, rest, hcut⟩ := Lines.exists_cut newline after
    have hwith := (hcut.prepend [line] (by simpa using hline)).prepend before hbefore
    have hwithout := hcut.prepend before hbefore
    rw [List.flatten_singleton, ← hchunks] at hwith
    rw [← hchunks'] at hwithout
    rw [UsageTap.logged_stream chunks _ _ hwith, UsageTap.logged_stream chunks' _ _ hwithout]
    unfold UsageTap.found
    simp only [List.filterMap_append, List.filterMap_cons, List.filterMap_nil,
      UsageTap.reported_of_long hlong, List.nil_append]
  permuted := by
    intro lines lines' after chunks chunks' hlines hperm hchunks hchunks'
    obtain ⟨rest, last, hcut⟩ := Lines.exists_cut newline after
    have hfirst := hcut.prepend lines hlines
    have hsecond := hcut.prepend lines' fun l hmem => hlines l (hperm.mem_iff.mpr hmem)
    rw [← hchunks] at hfirst
    rw [← hchunks'] at hsecond
    rw [UsageTap.logged_stream chunks _ _ hfirst, UsageTap.logged_stream chunks' _ _ hsecond]
    exact Tokens.maximum_perm (((hperm.append_right rest).append_right [last]).filterMap _)

end CredentialBroker.Proxy
