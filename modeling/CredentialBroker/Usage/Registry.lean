import CredentialBroker.Operators
import CredentialBroker.Prices
import CredentialBroker.Usage.Basic
import Mathlib.Data.Finset.Basic

/-!
# The usage registry

All that one registry of `usage.rs` counts: each provider's responses, each listed operator's, those
of the runs registered without proof, and, if spend is metered, the list-price spend of the trailing
week by payer. `Snapshot` is what its first lock guards and `SpendWeeks` its second, each operation
is a function on both, and `UsageCall` is one operation, so any history of a registry is a list of
them.

Of the spend, a grant reads the part that `BrokerUsage` has: `UsageRegistry.forGrants` is that view.
-/

namespace CredentialBroker

/-! ## Counts -/

structure Counts where
  requests : UInt64 := 0
  unmetered : UInt64 := 0
  tokens : Tokens := {}
  deriving DecidableEq, Repr

/-- `Counts::settle`. -/
def Counts.settle (counts : Counts) (usage : Option Usage) (success : Bool) : Counts :=
  match usage with
  | some usage =>
      { counts with
        requests := counts.requests.satAdd 1
        tokens := counts.tokens.add usage.tokens }
  | none =>
    if success then { counts with unmetered := counts.unmetered.satAdd 1 } else counts

/-- The runs registered without proof, all together. -/
structure UnprovenRuns where
  /-- Registrations admitted. -/
  registered : UInt64 := 0
  /-- Registrations refused because their quota was used up. -/
  refused : UInt64 := 0
  counts : Counts := {}
  deriving DecidableEq, Repr

/-! ## Spend of a week -/

/-- What one settled response adds to spend. -/
inductive Charge where
  /-- Millionths of a USD. -/
  | priced (micros : UInt64)
  /-- A response with usage whose model the price table has no price for. -/
  | unpriced
  /-- A successful response whose usage never arrived. -/
  | unmetered
  deriving DecidableEq, Repr

/-- The charge of a response, if it has one. -/
def Charge.of (usage : Option Usage) (success : Bool) : Option Charge :=
  match usage with
  | some usage => some (match cost usage with | some micros => .priced micros | none => .unpriced)
  | none => if success then some .unmetered else none

/-- A tally with one more charge. -/
def Tally.charge (tally : Tally) : Charge → Tally
  | .priced micros => { tally with micros := tally.micros.satAdd micros }
  | .unpriced => { tally with unpriced := tally.unpriced.satAdd 1 }
  | .unmetered => { tally with unmetered := tally.unmetered.satAdd 1 }

namespace Week

/-- `Week::expire`: drop the hours that are no longer in the week ending with `hour`. -/
def expire (week : Week) (hour : Nat) : Week :=
  week.dropWhile (fun bucket => decide (bucket.hour + spendHours ≤ hour))

/-- `Week::add`. A clock that steps back charges the latest hour. -/
def add (week : Week) (hour : Nat) (charge : Charge) : Week :=
  let week := week.expire hour
  match week.getLast? with
  | some last =>
    if hour ≤ last.hour then week.dropLast ++ [{ last with tally := last.tally.charge charge }]
    else week ++ [⟨hour, Tally.charge {} charge⟩]
  | none => week ++ [⟨hour, Tally.charge {} charge⟩]

end Week

/-- `Spend`: list-price spend, the runs' together and apart from each operator's. -/
structure SpendWeeks extends Spend where
  /-- By consumer. -/
  runs : PerConsumer Week
  /-- Only the operators the snapshot lists. -/
  operators : Assoc String Week

/-- A payer's spend, or all of it. -/
structure Spent where
  /-- USD. -/
  total : ℚ
  unpricedRequests : UInt64
  unmeteredRequests : UInt64
  deriving DecidableEq

/-- What a tally comes to. -/
def Tally.spent (tally : Tally) : Spent :=
  ⟨tally.micros.toNat / 1000000, tally.unpriced, tally.unmetered⟩

/-- What `/usage` says of spend. -/
structure SpendView where
  currency : String
  basis : String
  prices : String
  windowDays : Nat
  since : UInt64
  /-- The runs' and every operator's. -/
  all : Spent
  runs : Spent
  /-- In the order of their names. -/
  byOperator : List (String × Spent)
  deriving DecidableEq

/-- `Spend::view`: the spend of the week ending with `hour`; only the public consumer's if
`publicOperators`, the operators it has, is given. -/
def SpendWeeks.view (spend : SpendWeeks) (hour : Nat) (publicOperators : Option (Finset String)) :
    SpendView :=
  let ofPublic := (spend.runs.get .pub).sum hour
  let runs :=
    if publicOperators.isNone then ofPublic.add ((spend.runs.get .priv).sum hour) else ofPublic
  let shown := (spend.operators.retain fun name _ =>
    publicOperators.all (fun operators => decide (name ∈ operators))).sorted
  { currency := "USD"
    basis := "list"
    prices := prices
    windowDays := spendHours / 24
    since := spend.since
    all := (shown.foldl (fun all operator => all.add (operator.2.sum hour)) runs).spent
    runs := runs.spent
    byOperator := shown.map (fun operator => (operator.1, (operator.2.sum hour).spent)) }

/-! ## The registry -/

/-- The counts and windows of a registry, as `/usage` shows them. -/
structure Snapshot where
  startedAt : UInt64
  windows : Windows := {}
  /-- Each provider's. -/
  counts : Provider → Counts := fun _ => {}
  /-- What each operator token used, by its operator's name. -/
  operators : Assoc String Counts := ∅
  /-- What the runs registered without proof used, if the deployment admits them. -/
  unprovenRuns : Option UnprovenRuns := none
  /-- Filled in when the snapshot is taken. -/
  spend : Option SpendView := none
  /-- The listed operators whose consumer is public. -/
  publicOperators : Finset String := ∅

/-- `BrokerUsage`: the counts, and the spend if it is metered. -/
structure UsageRegistry where
  snapshot : Snapshot
  spend : Option SpendWeeks := none

/-- Whom a settled response's spend is charged to. -/
structure Payer where
  /-- The operator named, or else the runs. -/
  operator : Option String
  consumer : Consumer
  /-- The provider that answered, if its usage is counted. -/
  provider : Option Provider
  deriving DecidableEq, Repr

/-- Operators a snapshot lists: those of a few generations of tokens file. -/
def maxListedOperators : Nat := 4 * maxOperators

/-- A week's charge, if the week is there. -/
def SpendWeeks.charge (spend : SpendWeeks) (payer : Payer) (hour : Nat) (charge : Charge) :
    SpendWeeks :=
  let mistral :=
    if payer.provider = some .mistral then
      spend.mistral.modify payer.consumer (·.add hour charge)
    else spend.mistral
  match payer.operator with
  | none =>
      { spend with
        runs := spend.runs.modify payer.consumer (·.add hour charge)
        mistral := mistral }
  | some operator =>
    match spend.operators.lookup operator with
    | none => spend
    | some week =>
        { spend with
          operators := spend.operators.insert operator (week.add hour charge)
          mistral := mistral }

namespace SpendWeeks

variable (spend : SpendWeeks) (payer : Payer) (hour : Nat) (charge : Charge)

@[simp] theorem since_charge : (spend.charge payer hour charge).since = spend.since := by
  unfold SpendWeeks.charge
  cases payer.operator with
  | none => rfl
  | some operator => dsimp only; split <;> rfl

/-- The runs' week is charged if no operator pays. -/
theorem runs_charge : (spend.charge payer hour charge).runs =
    if payer.operator = none then spend.runs.modify payer.consumer (·.add hour charge)
    else spend.runs := by
  unfold SpendWeeks.charge
  cases payer.operator with
  | none => rfl
  | some operator => dsimp only; split <;> rfl

/-- An operator's week is charged if that operator pays. -/
theorem lookup_operators_charge (name : String) :
    (spend.charge payer hour charge).operators.lookup name =
      if payer.operator = some name then
        (spend.operators.lookup name).map (fun week => Week.add week hour charge)
      else spend.operators.lookup name := by
  unfold SpendWeeks.charge
  cases payer.operator with
  | none => rfl
  | some operator =>
      dsimp only
      split
      · next hweek =>
          split
          · next hname => cases hname; rw [hweek]; rfl
          · rfl
      · next week hweek =>
          rw [Assoc.lookup_insert_eq]
          by_cases hname : name = operator
          · subst hname
            simp [hweek]
          · simp [hname, Ne.symm hname]

/-- Mistral's week is charged if Mistral answered and the payer's week is there. -/
theorem mistral_charge : (spend.charge payer hour charge).mistral =
    if payer.provider = some .mistral ∧
        payer.operator.all (fun name => (spend.operators.lookup name).isSome) then
      spend.mistral.modify payer.consumer (·.add hour charge)
    else spend.mistral := by
  unfold SpendWeeks.charge
  cases payer.operator with
  | none => simp
  | some operator =>
      dsimp only [Option.all_some]
      split
      · next hweek => simp [hweek]
      · next week hweek => simp [hweek]

end SpendWeeks

namespace UsageRegistry

/-- A registry nothing was counted in. -/
def new (startedAt : UInt64) : UsageRegistry := { snapshot := { startedAt := startedAt } }

/-- What grants are given from. -/
def forGrants (r : UsageRegistry) : BrokerUsage :=
  ⟨r.snapshot.windows, r.spend.map SpendWeeks.toSpend⟩

/-- `snapshot_at`: what `/usage` shows. Once a budget grants shares, its spend is only the public
consumer's. -/
def snapshotAt (r : UsageRegistry) (now : UInt64) (granted : Bool) : Snapshot :=
  { r.snapshot with
    spend := r.spend.map fun spend =>
      spend.view (now.toNat / 3600) (if granted then some r.snapshot.publicOperators else none) }

/-- `meter_spend_at`: meter list-price spend from now on, if it is not metered already. -/
def meterSpendAt (r : UsageRegistry) (now : UInt64) : UsageRegistry :=
  match r.spend with
  | some _ => r
  | none =>
      { r with
        spend := some
          { since := now
            mistral := .fill []
            runs := .fill []
            operators := r.snapshot.operators.mapVals (fun _ _ => []) } }

/-- `settle_spend_at`: charge what a response cost to its payer, if spend is metered and the
operator listed. -/
def settleSpendAt (r : UsageRegistry) (payer : Payer) (usage : Option Usage) (success : Bool)
    (now : UInt64) : UsageRegistry :=
  match Charge.of usage success with
  | none => r
  | some charge =>
      { r with spend := r.spend.map (fun spend => spend.charge payer (now.toNat / 3600) charge) }

/-- `settle`: count a response of a provider's. -/
def settle (r : UsageRegistry) (provider : Provider) (usage : Option Usage) (success : Bool) :
    UsageRegistry :=
  { r with
    snapshot := { r.snapshot with
      counts := fun p =>
        if p = provider then (r.snapshot.counts p).settle usage success
        else r.snapshot.counts p } }

/-- List an operator that is not listed. -/
def listOperator (r : UsageRegistry) (operator : String) : UsageRegistry where
  snapshot := { r.snapshot with operators := r.snapshot.operators.insert operator {} }
  spend := r.spend.map fun spend =>
    { spend with operators := spend.operators.insert operator [] }

/-- Take a listed operator's consumer to be `consumer`. -/
def markOperator (r : UsageRegistry) (operator : String) (consumer : Consumer) : UsageRegistry :=
  { r with
    snapshot := { r.snapshot with
      publicOperators :=
        if consumer = .pub then insert operator r.snapshot.publicOperators
        else r.snapshot.publicOperators.erase operator } }

/-- `declare_operator`: list an operator, at zero until it uses something. -/
def declareOperator (r : UsageRegistry) (operator : String) (consumer : Consumer) :
    UsageRegistry :=
  if (r.snapshot.operators.lookup operator).isSome then r.markOperator operator consumer
  else if maxListedOperators ≤ r.snapshot.operators.size then r
  else (r.listOperator operator).markOperator operator consumer

/-- `settle_operator`: count a response to a declared operator's request. -/
def settleOperator (r : UsageRegistry) (operator : String) (usage : Option Usage)
    (success : Bool) : UsageRegistry :=
  { r with
    snapshot := { r.snapshot with
      operators := r.snapshot.operators.modify operator (·.settle usage success) } }

/-- Change what is counted of the runs registered without proof, listing them if they are not. -/
def modifyUnproven (r : UsageRegistry) (f : UnprovenRuns → UnprovenRuns) : UsageRegistry :=
  { r with
    snapshot := { r.snapshot with unprovenRuns := some (f (r.snapshot.unprovenRuns.getD {})) } }

/-- `declare_unproven`. -/
def declareUnproven (r : UsageRegistry) : UsageRegistry := r.modifyUnproven id

/-- `unproven_registration`: count a registration without proof, admitted or refused for quota. -/
def unprovenRegistration (r : UsageRegistry) (admitted : Bool) : UsageRegistry :=
  r.modifyUnproven fun runs =>
    if admitted then { runs with registered := runs.registered.satAdd 1 }
    else { runs with refused := runs.refused.satAdd 1 }

/-- `settle_unproven`: count a response to a request of a run registered without proof. -/
def settleUnproven (r : UsageRegistry) (usage : Option Usage) (success : Bool) : UsageRegistry :=
  r.modifyUnproven fun runs => { runs with counts := runs.counts.settle usage success }

/-- `capture_at`. -/
def captureAt (r : UsageRegistry) (capture : Capture) : UsageRegistry :=
  { r with
    snapshot := { r.snapshot with windows := (r.forGrants.captureAt capture).windows } }

end UsageRegistry

/-! ## Histories -/

/-- One operation on the registry. -/
inductive UsageCall where
  | meterSpend (now : UInt64)
  | settleSpend (payer : Payer) (usage : Option Usage) (success : Bool) (now : UInt64)
  | settle (provider : Provider) (usage : Option Usage) (success : Bool)
  | declareOperator (operator : String) (consumer : Consumer)
  | settleOperator (operator : String) (usage : Option Usage) (success : Bool)
  | declareUnproven
  | unprovenRegistration (admitted : Bool)
  | settleUnproven (usage : Option Usage) (success : Bool)
  | capture (capture : Capture)

/-- One call. -/
def UsageRegistry.step (r : UsageRegistry) : UsageCall → UsageRegistry
  | .meterSpend now => r.meterSpendAt now
  | .settleSpend payer usage success now => r.settleSpendAt payer usage success now
  | .settle provider usage success => r.settle provider usage success
  | .declareOperator operator consumer => r.declareOperator operator consumer
  | .settleOperator operator usage success => r.settleOperator operator usage success
  | .declareUnproven => r.declareUnproven
  | .unprovenRegistration admitted => r.unprovenRegistration admitted
  | .settleUnproven usage success => r.settleUnproven usage success
  | .capture capture => r.captureAt capture

/-- A registry, from the time it is first named. -/
def usageRegistry (startedAt : UInt64) : Mealy UsageRegistry UsageCall Unit :=
  ⟨.new startedAt, fun r call => (r.step call, ())⟩

end CredentialBroker
