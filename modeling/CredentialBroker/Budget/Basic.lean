import CredentialBroker.Basic
import CredentialBroker.Util.Numeral

/-!
# Budget grants

The share of each pool that a policy delegates to each consumer, and how much of it the consumer has
used, as `budget.rs` computes it: `Attributed` charges the rises of a window's readings to the
consumers whose responses carried them, `Budget.parse` is what a policy file must satisfy, and
`Budget.grant` decides who is to hold.

Percentages are exact rationals. The numbers of a policy file are read as `Real64`, because YAML can
spell infinities and not-a-number, and `parse` is what keeps those out. The two consumers and the
three pools are enumerations, so the source's ordered maps over them are functions, visited in the
order of the enumeration.
-/

namespace CredentialBroker

open Numeral (Real64)

/-- The short windows, which are unpaced; and how old a reading may be before it is stale. -/
def fiveHours : UInt64 := 5 * 3600

def week : UInt64 := 7 * 24 * 3600

/-- How far a paced allowance runs ahead of an even pace, as a fraction of the window. -/
def lead : ℚ := 1 / 10

/-- The name of Mistral's only window in a grant. -/
def mistralWindow : String := "spend_7d"

/-- The consumers, in order. -/
def Consumer.all : List Consumer := [.pub, .priv]

/-- The providers, in order. -/
def Provider.all : List Provider := [.anthropic, .codex, .mistral]

/-- One value for each consumer, which the source indexes by `Consumer::index`. -/
structure PerConsumer (α : Type) where
  ofPublic : α
  ofPrivate : α
  deriving DecidableEq, Repr

namespace PerConsumer

variable {α : Type}

/-- The same for both. -/
def fill (a : α) : PerConsumer α := ⟨a, a⟩

def get (xs : PerConsumer α) : Consumer → α
  | .pub => xs.ofPublic
  | .priv => xs.ofPrivate

def modify (xs : PerConsumer α) (c : Consumer) (f : α → α) : PerConsumer α :=
  match c with
  | .pub => { xs with ofPublic := f xs.ofPublic }
  | .priv => { xs with ofPrivate := f xs.ofPrivate }

@[simp] theorem get_fill (a : α) (c : Consumer) : (fill a).get c = a := by cases c <;> rfl

theorem get_modify (xs : PerConsumer α) (c c' : Consumer) (f : α → α) :
    (xs.modify c f).get c' = if c' = c then f (xs.get c') else xs.get c' := by
  cases c <;> cases c' <;> rfl

end PerConsumer

/-! ## Attribution -/

/-- What one response said of one window, for the whole account. -/
structure Reading where
  usedPercent : ℚ
  resetsAt : UInt64
  windowSecs : UInt64
  deriving DecidableEq, Repr

/-- A window's latest reading and what each consumer used of it since it last reset, in percent of
the window. -/
structure Attributed where
  reading : Reading
  observedAt : UInt64
  /-- The gateway first read this window part-way used, so whose that use was is unknown until it
  resets. -/
  partWay : Bool
  /-- Loaded from the usage state file, and not read since. -/
  restored : Bool
  /-- When the state file was read. -/
  loadedAt : UInt64
  used : PerConsumer ℚ
  deriving DecidableEq, Repr

namespace Attributed

/-- `Attributed::charge`: the window after `reading`, taken at `now` from a response to `consumer`'s
request, follows `previous`. -/
def charge (previous : Option Attributed) (reading : Reading) (consumer : Consumer)
    (now : UInt64) : Attributed :=
  match previous with
  | some previous =>
    if now < previous.reading.resetsAt then
      let rise := reading.usedPercent - previous.reading.usedPercent
      ⟨reading, now, previous.partWay, false, 0, previous.used.modify consumer (· + max rise 0)⟩
    else
      -- reset since the previous reading: all of it is since then
      ⟨reading, now, false, false, 0,
        (PerConsumer.fill 0).modify consumer (fun _ => reading.usedPercent)⟩
  | none =>
    ⟨reading, now, decide (0 < reading.usedPercent), false, 0, .fill reading.usedPercent⟩

/-- `Attributed::restore`: the window as loaded from the usage state file. -/
def restore (window : Attributed) (now : UInt64) : Attributed :=
  { window with restored := true, loadedAt := now }

/-- `Attributed::clamp_observed_at`: take a reading stored as observed after `now` as observed now,
and return when it was stored as observed if so. -/
def clampObservedAt (window : Attributed) (now : UInt64) : Attributed × Option UInt64 :=
  if now < window.observedAt then ({ window with observedAt := now }, some window.observedAt)
  else (window, none)

/-- `Attributed::validate`. -/
def validate (window : Attributed) : Except String Unit :=
  if ¬ (0 ≤ window.reading.usedPercent ∧ window.reading.usedPercent ≤ 100) then
    .error "reading.used_percent must be 0 to 100"
  else if window.reading.windowSecs = 0 then .error "reading.window_secs must be positive"
  else if Consumer.all.any (fun c => decide (window.used.get c < 0)) then
    .error "used must be finite and nonnegative"
  else .ok ()

end Attributed

/-! ## The policy file -/

/-- Each consumer's share of each pool, in percent of every window. -/
abbrev Shares (α : Type) := Consumer → Option (Provider → Option α)

/-- The deployment's budget policy, as decoded from `budget.yaml`. -/
structure BudgetFile where
  shares : Shares Real64
  mistralWeeklyUsd : Option Real64

/-- An accepted policy. -/
structure Budget where
  shares : Shares ℚ
  mistralWeeklyUsd : Option ℚ

/-- What `Budget::parse` finds wrong with a decoded file. -/
inductive BudgetError where
  | badShare (pool : Provider)
  | overWhole (pool : Provider) (total : ℚ)
  | badCap
  | noCap
  deriving DecidableEq, Repr

/-- A provider as `Debug` prints it. -/
def Provider.debug : Provider → String
  | anthropic => "Anthropic"
  | codex => "Codex"
  | mistral => "Mistral"

/-- The message of an error, with numbers printed by `display`. -/
def BudgetError.message (display : ℚ → String) : BudgetError → String
  | badShare pool => pool.debug ++ ": a share is 0 to 100 percent"
  | overWhole pool total =>
      pool.debug ++ ": the shares add up to " ++ display total ++ " percent, more than the whole"
  | badCap => "mistral_weekly_usd must be positive"
  | noCap => "a share of mistral needs mistral_weekly_usd"

/-- The shares of a map of maps, in the order the source visits them. -/
def shareList {α : Type} (shares : Shares α) : List (Provider × α) :=
  Consumer.all.flatMap fun consumer =>
    match shares consumer with
    | none => []
    | some pools => Provider.all.filterMap fun pool => (pools pool).map (pool, ·)

/-- A share that is a number from 0 to 100. -/
def shareOf (share : Real64) : Option ℚ := share.inRange 0 100

/-- The shares as numbers. -/
def toShares (shares : Shares Real64) : Shares ℚ :=
  fun consumer => (shares consumer).map fun pools pool => (pools pool).bind shareOf

/-- The sum of the shares of a pool, if it has any. -/
def poolTotal (shares : Shares ℚ) (pool : Provider) : Option ℚ :=
  let own := Consumer.all.filterMap fun consumer => (shares consumer).bind (· pool)
  if own.isEmpty then none else some own.sum

/-- What `Budget::parse` requires of a decoded file. -/
def Budget.check (file : BudgetFile) : Except BudgetError Budget :=
  match (shareList file.shares).find? (fun share => (shareOf share.2).isNone) with
  | some share => .error (.badShare share.1)
  | none =>
    let shares := toShares file.shares
    let totals := Provider.all.filterMap fun pool =>
      (poolTotal shares pool).map (pool, ·)
    -- shares that add up to more than the pool would let the consumers together use more of it
    -- than there is, each within its grant
    match totals.find? (fun total => decide (100 < total.2)) with
    | some total => .error (.overWhole total.1 total.2)
    | none =>
      let cap := file.mistralWeeklyUsd.map (fun cap => cap.toRat.filter (fun q => decide (0 < q)))
      if cap = some none then .error .badCap
      else if totals.any (fun total => total.1 = .mistral) && cap.isNone then .error .noCap
      else .ok ⟨shares, cap.join⟩

/-- `Budget::parse`, with the YAML decoder and the printer of numbers given. -/
def Budget.parse (fromYaml : String → Except String BudgetFile) (display : ℚ → String)
    (text : String) : Except String Budget := do
  let file ← fromYaml text
  (Budget.check file).mapError (BudgetError.message display)

/-! ## Grants -/

/-- A window of a pool, for the grant. -/
structure Window where
  usedPercent : ℚ
  start : UInt64
  secs : UInt64
  resetsAt : Option UInt64
  stale : Bool
  deriving DecidableEq, Repr

structure WindowGrant where
  sharePercent : ℚ
  allowedPercent : ℚ
  usedPercent : ℚ
  resetsAt : Option UInt64
  hold : Bool
  deriving DecidableEq, Repr

structure PoolGrant where
  hold : Bool := false
  stale : Bool := false
  windows : Assoc String WindowGrant := ∅
  deriving DecidableEq

/-- One consumer's grant: `GET /usage/grant`. -/
structure Grant where
  consumer : Consumer
  observedAt : UInt64
  hold : Bool
  pools : Provider → Option PoolGrant

/-- Two decimals, halves away from zero. -/
def round (n : ℚ) : ℚ :=
  (if 0 ≤ n then ⌊n * 100 + 1 / 2⌋ else ⌈n * 100 - 1 / 2⌉) / 100

/-- What a share of a window allows at `now`. Paced if longer than the short windows: the share
times the fraction of the window elapsed plus the lead, up to the share. -/
def Window.allowed (window : Window) (share : ℚ) (now : UInt64) : ℚ :=
  if fiveHours < window.secs then
    let elapsed : ℚ := (now.satSub window.start).toNat / window.secs.toNat
    share * min (elapsed + lead) 1
  else share

/-- `Window::grant`. -/
def Window.grant (window : Window) (share : ℚ) (now : UInt64) : WindowGrant where
  sharePercent := share
  allowedPercent := round (window.allowed share now)
  usedPercent := round window.usedPercent
  resetsAt := window.resetsAt
  -- decided before rounding
  hold := window.stale || decide (window.allowed share now < window.usedPercent)

/-- What a consumer spent on Mistral over the trailing week, and when the spend meter began. -/
structure MistralSpend where
  micros : UInt64
  since : UInt64
  deriving DecidableEq, Repr

namespace Budget

/-- Mistral's window: the trailing week of spend, paced from when metering began. -/
def spendWindow (cap : ℚ) (spend : MistralSpend) : Window where
  usedPercent := spend.micros.toNat / (cap * 1000000) * 100
  start := spend.since
  secs := week
  resetsAt := none
  stale := false

/-- The reading of a window that counts towards a grant: after its stored reset a restored window is
no reading. -/
def readWindow (consumer : Consumer) (window : Attributed) (now : UInt64) : Option Window :=
  let reading := window.reading
  if window.restored && decide (reading.resetsAt ≤ now) then none
  else
    let old := decide (fiveHours < now.satSub (max window.observedAt window.loadedAt))
    some ⟨window.used.get consumer, reading.resetsAt.satSub reading.windowSecs, reading.windowSecs,
      some reading.resetsAt, window.partWay || old⟩

/-- The windows of a pool that were read. -/
def read (budget : Budget) (consumer : Consumer)
    (windows : List (Provider × String × Option Attributed)) (mistral : Option MistralSpend)
    (now : UInt64) (pool : Provider) : List (String × Window) :=
  (match pool, budget.mistralWeeklyUsd, mistral with
    | .mistral, some cap, some spend => [(mistralWindow, spendWindow cap spend)]
    | _, _, _ => []) ++
  windows.filterMap fun entry =>
    if entry.1 = pool then
      (entry.2.2.bind (readWindow consumer · now)).map (entry.2.1, ·)
    else none

/-- A window's part in its pool's grant, and in the whole. -/
def addWindow (share : ℚ) (now : UInt64) (acc : Bool × PoolGrant) (entry : String × Window) :
    Bool × PoolGrant :=
  let grant := entry.2.grant share now
  -- a stale window holds its pool only, or no fresh reading of it could ever arrive
  (acc.1 || (grant.hold && !entry.2.stale),
    ⟨acc.2.hold || grant.hold, acc.2.stale || entry.2.stale, acc.2.windows.insert entry.1 grant⟩)

/-- A pool's part in a grant. -/
def addPool (share : ℚ) (now : UInt64) (grant : Grant) (pool : Provider)
    (read : List (String × Window)) : Grant :=
  let (hold, poolGrant) :=
    if read.isEmpty then (grant.hold, { hold := true, stale := true })
    else read.foldl (addWindow share now) (grant.hold, {})
  { grant with hold := hold, pools := Function.update grant.pools pool (some poolGrant) }

/-- `Budget::grant`: `consumer`'s grant at `now`. -/
def grant (budget : Budget) (consumer : Consumer)
    (windows : List (Provider × String × Option Attributed)) (mistral : Option MistralSpend)
    (now : UInt64) : Grant :=
  match budget.shares consumer with
  | none => ⟨consumer, now, true, fun _ => none⟩
  | some shares =>
    Provider.all.foldl (fun grant pool =>
      match shares pool with
      | none => grant
      | some share => addPool share now grant pool (budget.read consumer windows mistral now pool))
      ⟨consumer, now, false, fun _ => none⟩

end Budget

end CredentialBroker
