import CredentialBroker.Budget.Basic
import CredentialBroker.Http

/-!
# Broker usage

The subscription windows that responses report, as `usage.rs` keeps them: `captureAt` takes them
from a response's headers and charges them to the consumer, `grantAt` hands them to the budget, and
the usage state file keeps them across a restart. Besides, a grant needs the list-price spend on
Mistral of the trailing week; what `/usage` shows of spend and counts is not modelled here.

The state file's JSON is a `JsonCodec`, of which only the round trip is assumed: that a file is read
back as it was written, its numbers too. `serde_json` as it is built reads some floats one place off.
-/

namespace CredentialBroker

/-! ## Spend -/

/-- Spend, and the responses it leaves out. -/
structure Tally where
  /-- Millionths of a USD. -/
  micros : UInt64 := 0
  unpriced : UInt64 := 0
  unmetered : UInt64 := 0
  deriving DecidableEq, Repr

/-- `Tally::add`. -/
def Tally.add (a b : Tally) : Tally where
  micros := a.micros.satAdd b.micros
  unpriced := a.unpriced.satAdd b.unpriced
  unmetered := a.unmetered.satAdd b.unmetered

/-- Hours of spend kept. -/
def spendHours : Nat := 7 * 24

/-- What the injected requests settled in one hour cost at list price. -/
structure Bucket where
  /-- Hours since the Unix epoch: seconds that fit `u64` over 3600, so that adding `spendHours` to it
  cannot wrap. -/
  hour : Nat
  tally : Tally
  deriving DecidableEq, Repr

/-- One payer's spend over the trailing week, hour by hour, oldest first. -/
abbrev Week := List Bucket

/-- `Week::sum`: what was settled in the week ending with `hour`. -/
def Week.sum (week : Week) (hour : Nat) : Tally :=
  (week.filter (fun bucket => decide (hour < bucket.hour + spendHours))).foldl
    (fun sum bucket => sum.add bucket.tally) {}

/-- The part of list-price spend that grants read. -/
structure Spend where
  /-- Unix seconds when metering began. -/
  since : UInt64
  /-- Mistral's part, by consumer. -/
  mistral : PerConsumer Week
  deriving DecidableEq, Repr

/-! ## Windows -/

inductive Status where
  | allowed
  | allowedWarning
  | rejected
  deriving DecidableEq, Repr

structure AnthropicWindow where
  utilization : Option ℚ
  reset : Option UInt64
  status : Option Status
  observedAt : UInt64
  /-- Loaded from the usage state file, and not read since. -/
  restored : Bool
  deriving DecidableEq, Repr

structure CodexWindow where
  usedPercent : Option ℚ
  windowMinutes : Option UInt64
  resetAfterSeconds : Option UInt64
  observedAt : UInt64
  /-- Loaded from the usage state file, and not read since. -/
  restored : Bool
  deriving DecidableEq, Repr

/-- The windows a grant has, by their names in `/usage`. -/
def windowNames : Fin 4 → Provider × String
  | 0 => (.anthropic, "unified_5h")
  | 1 => (.anthropic, "unified_7d")
  | 2 => (.codex, "primary")
  | 3 => (.codex, "secondary")

/-- One registry's windows, as the usage state file keeps them. -/
structure Windows where
  unified5h : Option AnthropicWindow := none
  unified7d : Option AnthropicWindow := none
  primary : Option CodexWindow := none
  secondary : Option CodexWindow := none
  /-- The windows of `windowNames`, as charged to each consumer. -/
  attributed : Fin 4 → Option Attributed := fun _ => none

/-- The windows of a registry, and its spend if it is metered. -/
structure BrokerUsage where
  windows : Windows := {}
  spend : Option Spend := none

/-! ## Reading headers -/

/-- `anthropic_window`. -/
def anthropicWindow (headers : HeaderMap) (window : String) (now : UInt64) :
    Option AnthropicWindow :=
  let pre := "anthropic-ratelimit-unified-" ++ window
  let utilization := headers.percent (pre ++ "-utilization") 1
  let reset := headers.number (pre ++ "-reset")
  let status := (headers.text (pre ++ "-status")).bind fun value =>
    if value = ascii "allowed" then some .allowed
    else if value = ascii "allowed_warning" then some .allowedWarning
    else if value = ascii "rejected" then some .rejected
    else none
  if utilization.isSome || reset.isSome || status.isSome then
    some ⟨utilization, reset, status, now, false⟩
  else none

/-- `codex_window`. -/
def codexWindow (headers : HeaderMap) (window : String) (now : UInt64) : Option CodexWindow :=
  let pre := "x-codex-" ++ window
  let usedPercent := headers.percent (pre ++ "-used-percent") 100
  let windowMinutes := headers.number (pre ++ "-window-minutes")
  let resetAfterSeconds := headers.number (pre ++ "-reset-after-seconds")
  if usedPercent.isSome || windowMinutes.isSome || resetAfterSeconds.isSome then
    some ⟨usedPercent, windowMinutes, resetAfterSeconds, now, false⟩
  else none

/-- What a response says of the window of one slot: the slot after it, and what is to be charged, a
complete reading, or none for a window the plan does not have. -/
structure SlotRead (W : Type) where
  slot : Option W
  reading : Option (Option Reading)

/-- The reading of a window that is complete. -/
def AnthropicWindow.reading (window : AnthropicWindow) (windowSecs : UInt64) : Option Reading :=
  match window.utilization, window.reset with
  | some utilization, some resetsAt => some ⟨utilization * 100, resetsAt, windowSecs⟩
  | _, _ => none

def CodexWindow.reading (window : CodexWindow) (now : UInt64) : Option Reading :=
  match window.usedPercent, window.windowMinutes, window.resetAfterSeconds with
  | some usedPercent, some minutes, some after =>
      some ⟨usedPercent, now.satAdd after, minutes.satMul 60⟩
  | _, _, _ => none

/-- One turn of the loop over Anthropic's windows. -/
def readAnthropic (headers : HeaderMap) (name : String) (windowSecs now : UInt64)
    (slot : Option AnthropicWindow) : SlotRead AnthropicWindow :=
  match anthropicWindow headers name now with
  | none => ⟨slot, none⟩
  | some window => ⟨some window, (window.reading windowSecs).map some⟩

/-- One turn of the loop over Codex's windows. -/
def readCodex (headers : HeaderMap) (name : String) (now : UInt64) (slot : Option CodexWindow) :
    SlotRead CodexWindow :=
  match codexWindow headers name now with
  | none => ⟨slot, none⟩
  | some window =>
    -- a window the plan does not have comes as zeros
    if window.windowMinutes = some 0 then ⟨none, some none⟩
    else ⟨some window, (window.reading now).map some⟩

/-- Charge a slot what was read of it. -/
def chargeSlot (consumer : Consumer) (now : UInt64) (window : Option Attributed) :
    Option (Option Reading) → Option Attributed
  | none => window
  | some reading => reading.map (fun reading => .charge window reading consumer now)

namespace Windows

/-- The windows after a response of Anthropic's. -/
def captureAnthropic (windows : Windows) (consumer : Consumer) (headers : HeaderMap)
    (now : UInt64) : Windows :=
  let first := readAnthropic headers "5h" fiveHours now windows.unified5h
  let second := readAnthropic headers "7d" week now windows.unified7d
  { windows with
    unified5h := first.slot
    unified7d := second.slot
    attributed := fun index =>
      if index = 0 then chargeSlot consumer now (windows.attributed 0) first.reading
      else if index = 1 then chargeSlot consumer now (windows.attributed 1) second.reading
      else windows.attributed index }

/-- The windows after a response of Codex's. -/
def captureCodex (windows : Windows) (consumer : Consumer) (headers : HeaderMap)
    (now : UInt64) : Windows :=
  let first := readCodex headers "primary" now windows.primary
  let second := readCodex headers "secondary" now windows.secondary
  { windows with
    primary := first.slot
    secondary := second.slot
    attributed := fun index =>
      if index = 2 then chargeSlot consumer now (windows.attributed 2) first.reading
      else if index = 3 then chargeSlot consumer now (windows.attributed 3) second.reading
      else windows.attributed index }

end Windows

/-- A response, as `capture_at` sees it. -/
structure Capture where
  provider : Provider
  consumer : Consumer
  headers : HeaderMap
  now : UInt64

namespace BrokerUsage

/-- `BrokerUsage::capture_at`: keep the windows a response reports, and charge `consumer` what they
rose by. -/
def captureAt (usage : BrokerUsage) (capture : Capture) : BrokerUsage :=
  match capture.provider with
  | .anthropic =>
      { usage with
        windows := usage.windows.captureAnthropic capture.consumer capture.headers capture.now }
  | .codex =>
      { usage with
        windows := usage.windows.captureCodex capture.consumer capture.headers capture.now }
  | .mistral => usage

/-- `BrokerUsage::grant_at`: `consumer`'s grant under `budget`. -/
def grantAt (usage : BrokerUsage) (budget : Budget) (consumer : Consumer) (now : UInt64) : Grant :=
  let mistral := usage.spend.map fun spend =>
    ⟨((spend.mistral.get consumer).sum (now.toNat / 3600)).micros, spend.since⟩
  let windows := (List.finRange 4).map fun index =>
    ((windowNames index).1, (windowNames index).2, usage.windows.attributed index)
  budget.grant consumer windows mistral now

end BrokerUsage

/-! ## The usage state file -/

/-- The schema of the usage state file. -/
def stateSchema : String := "praxis-broker-usage-state/v1"

namespace Windows

/-- The check of one of Anthropic's windows. -/
def checkAnthropic (name : String) (window : Option AnthropicWindow) : Except String Unit :=
  if (window.bind AnthropicWindow.utilization).any (fun n => !decide (0 ≤ n ∧ n ≤ 1)) then
    .error (name ++ ".utilization must be 0 to 1")
  else .ok ()

/-- The checks of one of Codex's windows. -/
def checkCodex (name : String) : Option CodexWindow → Except String Unit
  | none => .ok ()
  | some window =>
    if window.usedPercent.any (fun n => !decide (0 ≤ n ∧ n ≤ 100)) then
      .error (name ++ ".used_percent must be 0 to 100")
    else if window.windowMinutes.any (fun n => n = 0 || (n.checkedMul 60).isNone) then
      .error (name ++ ".window_minutes must be positive and fit in seconds")
    else if window.resetAfterSeconds.any (fun n => (window.observedAt.checkedAdd n).isNone) then
      .error (name ++ ".reset_after_seconds overflows observed_at")
    else .ok ()

/-- The check of one attributed window. -/
def checkAttributed (index : Fin 4) : Option Attributed → Except String Unit
  | none => .ok ()
  | some window =>
      window.validate.mapError (fun e => "attributed[" ++ toString index.val ++ "]: " ++ e)

/-- `Windows::validate`. -/
def validate (windows : Windows) : Except String Unit := do
  checkAnthropic "unified_5h" windows.unified5h
  checkAnthropic "unified_7d" windows.unified7d
  checkCodex "primary" windows.primary
  checkCodex "secondary" windows.secondary
  (List.finRange 4).forM (fun index => checkAttributed index (windows.attributed index))

/-- An Anthropic window as observed no later than `now`, and when it was stored as observed if that
was later. -/
def clampAnthropic (now : UInt64) (window : AnthropicWindow) : AnthropicWindow × Option UInt64 :=
  if now < window.observedAt then ({ window with observedAt := now }, some window.observedAt)
  else (window, none)

/-- A Codex window as observed no later than `now`, with its reset where it was. -/
def clampCodex (now : UInt64) (window : CodexWindow) : CodexWindow × Option UInt64 :=
  if now < window.observedAt then
    let ahead := window.observedAt - now
    ({ window with
        observedAt := now
        resetAfterSeconds := window.resetAfterSeconds.map (· + ahead) },
      some window.observedAt)
  else (window, none)

/-- What clamping reports of a window under its name. -/
def clamped {W : Type} (name : String) (clamp : W → W × Option UInt64) (window : Option W) :
    List (String × UInt64) :=
  ((window.bind (fun w => (clamp w).2)).map (name, ·)).toList

/-- `Windows::clamp_observed_at`: take each window stored as observed after `now` as observed now,
and return each one's name and stored time. -/
def clampObservedAt (windows : Windows) (now : UInt64) : Windows × List (String × UInt64) :=
  ({ unified5h := windows.unified5h.map (fun w => (clampAnthropic now w).1)
     unified7d := windows.unified7d.map (fun w => (clampAnthropic now w).1)
     primary := windows.primary.map (fun w => (clampCodex now w).1)
     secondary := windows.secondary.map (fun w => (clampCodex now w).1)
     attributed := fun index =>
       (windows.attributed index).map (fun w => (w.clampObservedAt now).1) },
    clamped "unified_5h" (clampAnthropic now) windows.unified5h ++
      clamped "unified_7d" (clampAnthropic now) windows.unified7d ++
      clamped "primary" (clampCodex now) windows.primary ++
      clamped "secondary" (clampCodex now) windows.secondary ++
      (List.finRange 4).flatMap fun index =>
        clamped ("attributed[" ++ toString index.val ++ "]") (Attributed.clampObservedAt · now)
          (windows.attributed index))

/-- The windows as loaded at `now`: clamped, and their attribution marked restored. -/
def load (windows : Windows) (now : UInt64) : Windows :=
  let windows := (windows.clampObservedAt now).1
  { windows with
    attributed := fun index => (windows.attributed index).map (Attributed.restore · now) }

/-- What the file keeps of the windows: not whether attribution was restored, nor when. -/
def kept (windows : Windows) : Windows :=
  { windows with
    attributed := fun index =>
      (windows.attributed index).map (fun w => { w with restored := false, loadedAt := 0 }) }

end Windows

structure StateFile where
  schema : String
  registries : Assoc String Windows

/-- JSON text of a state file. Assumed is that a file is read back as it was written, its floats to
the last place. -/
structure JsonCodec where
  encode : StateFile → Bytes
  decode : Bytes → Except String StateFile
  decode_encode : ∀ file, decode (encode file) =
    .ok { file with registries := file.registries.mapVals (fun _ windows => windows.kept) }

/-- What `write_state` puts in the file. -/
def writeState (encode : StateFile → Bytes) (registries : Assoc String Windows) : Bytes :=
  encode ⟨stateSchema, registries⟩

/-- The registries in the order of their names. -/
def byName (registries : Assoc String Windows) : List (Σ _ : String, Windows) :=
  registries.entries.mergeSort (fun a b => decide (a.1 ≤ b.1))

/-- `read_state`: the windows in the state file at `path`, by registry, or what is wrong with it. -/
def readState (codec : JsonCodec) (path : String) (contents : Except String Bytes) (now : UInt64) :
    Except String (Assoc String Windows) :=
  let read : Except String (Assoc String Windows) := do
    let text ← contents
    let file ← codec.decode text
    if file.schema ≠ stateSchema then
      .error ("schema " ++ file.schema.quote ++ ", not " ++ stateSchema.quote)
    else do
      (byName file.registries).forM fun registry =>
        registry.2.validate.mapError (fun e => "registry " ++ registry.1.quote ++ ": " ++ e)
      .ok (file.registries.mapVals (fun _ windows => windows.load now))
  read.mapError (fun e => path ++ ": " ++ e)

end CredentialBroker
