import CredentialBroker.Runs.Basic
import Mathlib.Data.Rat.Floor

/-!
# List prices

What a response would have cost at list price, as `prices.rs` counts it for the spend that `/usage`
shows: a pinned table of rates, found by the model a response names or by that name without its
snapshot date. Rates are exact rationals. A name is its UTF-8 bytes, by which the source compares
and cuts it.
-/

namespace CredentialBroker

/-- The date the table was taken from the providers' pricing pages. -/
def prices : String := "2026-10-24"

/-- USD per million tokens. -/
structure Rates where
  input : ℚ
  cacheRead : ℚ
  cacheWrite : ℚ
  output : ℚ
  deriving DecidableEq

/-- `plain`: a model that has no separate cache-write price. -/
def Rates.plain (input cacheRead output : ℚ) : Rates := ⟨input, cacheRead, input, output⟩

/-- `claude`: writes at 1.25 times input. -/
def Rates.claude (input cacheRead output : ℚ) : Rates := ⟨input, cacheRead, input * 1.25, output⟩

structure Price where
  /-- As upstream names the model in its response, without a snapshot date. -/
  model : String
  rates : Rates
  /-- The rates for a whole request whose prompt, cached or not, is longer than this. -/
  long : Option (UInt64 × Rates)

namespace Price

/-- `price`. -/
def flat (model : String) (rates : Rates) : Price := ⟨model, rates, none⟩

/-- `openai`: a prompt over 272K tokens at twice the input and cache rates and 1.5 times output. -/
def openai (model : String) (input cacheRead output : ℚ) : Price :=
  ⟨model, .plain input cacheRead output,
    some (272000, .plain (input * 2) (cacheRead * 2) (output * 1.5))⟩

/-- `TABLE`. -/
def table : List Price :=
  [flat "claude-fable-5-1" (.claude 10 0.25 50),
    flat "claude-fable-5" (.claude 10 1 50),
    flat "claude-opus-5-5" (.claude 4 0.2 20),
    flat "claude-opus-5" (.claude 5 0.5 25),
    flat "claude-opus-4-8" (.claude 5 0.5 25),
    flat "claude-opus-4-7" (.claude 5 0.5 25),
    flat "claude-opus-4-6" (.claude 5 0.5 25),
    flat "claude-sonnet-5-5" (.claude 2 0.2 10),
    flat "claude-sonnet-5" (.claude 2 0.2 10),
    flat "claude-sonnet-4-6" (.claude 3 0.3 15),
    ⟨"claude-haiku-5-5", .claude 0.1 0.01 0.5, some (100000, .claude 0.5 0.05 2.5)⟩,
    flat "claude-haiku-4-5" (.claude 1 0.1 5),
    ⟨"gpt-6.1-sol", { Rates.plain 2 0.1 10 with cacheWrite := 2.5 },
      some (272000, { Rates.plain 4 0.2 15 with cacheWrite := 5 })⟩,
    openai "gpt-6-sol" 2 0.2 10,
    openai "gpt-6-astra" 10 1 50,
    openai "gpt-6-luna" 0.1 0.01 0.5,
    flat "gpt-5.3-codex" (.plain 1.75 0.175 14),
    flat "zai-glm-5-3" (.plain 1.4 0.14 4.4)]

end Price

/-- The bytes of a string. -/
def utf8 (s : String) : Bytes := s.toUTF8.data.toList

/-- `-`. -/
def dash : UInt8 := 45

/-- The name before a date of `len` bytes after a dash, with dashes at `dashes` and digits
elsewhere, if it ends in one. -/
def undatedAs (model : Bytes) (len : Nat) (dashes : List Nat) : Option Bytes :=
  if model.length < len + 1 then none
  else
    let start := model.length - (len + 1)
    match model.drop start with
    | [] => none
    | first :: date =>
      if first == dash && date.zipIdx.all (fun b =>
          if b.2 ∈ dashes then b.1 == dash else decide (48 ≤ b.1 ∧ b.1 ≤ 57)) then
        some (model.take start)
      else none

/-- `undated`: `model` without a trailing snapshot date, `-YYYYMMDD` or `-YYYY-MM-DD`, if it has
one. -/
def undated (model : Bytes) : Option Bytes :=
  match undatedAs model 8 [] with
  | some name => some name
  | none => undatedAs model 10 [4, 7]

/-- The price of a model the table names. -/
def Price.find (model : Bytes) : Option Price :=
  table.find? (fun price => utf8 price.model == model)

/-- The price of a model, by its name or its alias. -/
def Price.ofModel (model : Bytes) : Option Price :=
  match find model with
  | some price => some price
  | none => (undated model).bind find

/-- The rates for a prompt of so many tokens. -/
def Price.ratesFor (price : Price) (prompt : UInt64) : Rates :=
  match price.long with
  | some (above, long) => if above < prompt then long else price.rates
  | none => price.rates

/-- What a response's tokens cost, in millionths of a USD. `input` includes cache writes. -/
def Rates.micros (rates : Rates) (usage : Usage) : ℚ :=
  let cacheWrite := min usage.cacheWrite usage.tokens.input
  (usage.tokens.input - cacheWrite).toNat * rates.input + cacheWrite.toNat * rates.cacheWrite +
    usage.tokens.cacheRead.toNat * rates.cacheRead + usage.tokens.output.toNat * rates.output

/-- To the nearest integer, within the range. -/
def roundMicros (micros : ℚ) : UInt64 := .ofNat (min ⌊micros + 1 / 2⌋.toNat UInt64.maxVal)

/-- `cost`: what a response would have cost at list price, in millionths of a USD, if the table has
a price for the model it names. -/
def cost (usage : Usage) : Option UInt64 := do
  let model ← usage.model
  let price ← Price.ofModel (utf8 model)
  let rates := price.ratesFor (usage.tokens.input.satAdd usage.tokens.cacheRead)
  return roundMicros (rates.micros usage)

end CredentialBroker
