import CredentialBroker.Filter.Endings
import CredentialBroker.Usage.Listed

/-!
# The ledgers of the usage registry

What a response uses is kept by provider, by operator or for the runs without proof together, and as
list-price spend by payer and, on Mistral, by consumer. The registry has an operation for each, and
`on_response_body` makes the calls.

* A `Delta` is what one response adds to any ledger that counts it.
* `Ledgers` is all that the registry counts, as functions, and `Ledgers.count` says what an ending
  is worth to each: one delta and one charge for all of them.
* `ledgers_step` is the refinement: what a callback does to the registry is to count the ending it
  brings about, if it brings one about.
-/

namespace CredentialBroker

/-! ## What a response adds -/

/-- What one response adds to a ledger. -/
inductive Delta where
  /-- One request, and its tokens. -/
  | response (tokens : Tokens)
  /-- One success whose usage never arrived. -/
  | unmetered
  | nothing
  deriving DecidableEq, Repr

/-- The delta of a response by what was reported of it. -/
def Delta.of (reported : Option Usage) (success : Bool) : Delta :=
  match reported with
  | some usage => .response usage.tokens
  | none => if success then .unmetered else .nothing

/-- A delta, in counts of the usage registry. -/
def Delta.count (counts : Counts) : Delta → Counts
  | response tokens =>
      { counts with requests := counts.requests.satAdd 1, tokens := counts.tokens.add tokens }
  | unmetered => { counts with unmetered := counts.unmetered.satAdd 1 }
  | nothing => counts

/-- A delta, in the record of a run. -/
def Delta.total (totals : Totals) : Delta → Totals
  | response tokens =>
      { totals with requests := totals.requests + 1, tokens := totals.tokens.add tokens }
  | unmetered => { totals with unmetered := totals.unmetered + 1 }
  | nothing => totals

theorem Counts.settle_eq (counts : Counts) (reported : Option Usage) (success : Bool) :
    counts.settle reported success = (Delta.of reported success).count counts := by
  cases reported with
  | some usage => rfl
  | none => cases success <;> rfl

/-- There is a charge exactly if there is something to count. -/
theorem Charge.isSome_of (reported : Option Usage) (success : Bool) :
    (Charge.of reported success).isSome ↔ Delta.of reported success ≠ .nothing := by
  cases reported with
  | some usage => simp [Charge.of, Delta.of]
  | none => cases success <;> simp [Charge.of, Delta.of]

namespace Ending

/-- The usage registry counts it: it reached its end of stream and may use tokens. -/
def counted (ending : Ending) : Bool :=
  match ending.how with
  | .complete _ _ => !ending.usageFree
  | .dropped => false

/-- What it adds. A dropped response has reported nothing. -/
def delta (ending : Ending) : Delta :=
  if ending.usageFree then .nothing
  else match ending.how with
    | .complete reported _ => .of reported ending.success
    | .dropped => .of none ending.success

/-- A week with the charge of an ending, if there is one, in the hour it ended. -/
def bill (ending : Ending) (week : Week) : Week :=
  match ending.how with
  | .complete reported unix =>
    match Charge.of reported ending.success with
    | some charge => week.add (unix.toNat / 3600) charge
    | none => week
  | .dropped => week

end Ending

/-! ## The ledgers -/

/-- The weeks of list-price spend. -/
@[ext] structure WeekLedgers where
  runs : Consumer → Week
  operators : String → Option Week
  mistral : Consumer → Week

/-- All that the usage registry counts of responses. -/
@[ext] structure Ledgers where
  providers : Provider → Counts
  /-- Of the listed operators. -/
  operators : String → Option Counts
  unproven : Counts
  /-- None if spend is not metered. -/
  spend : Option WeekLedgers

def SpendWeeks.ledgers (spend : SpendWeeks) : WeekLedgers where
  runs := spend.runs.get
  operators := spend.operators.lookup
  mistral := spend.mistral.get

def UsageRegistry.ledgers (r : UsageRegistry) : Ledgers where
  providers := r.snapshot.counts
  operators := r.snapshot.operators.lookup
  unproven := (r.snapshot.unprovenRuns.getD {}).counts
  spend := r.spend.map SpendWeeks.ledgers

namespace WeekLedgers

/-- A week is there for what the holder spends: the runs', or the listed operator's. -/
def pays (weeks : WeekLedgers) : Holder → Bool
  | .run _ => true
  | .operator name => (weeks.operators name).isSome

/-- The weeks with one more ending: it is billed to its payer, and to its consumer's on Mistral if
Mistral answered. -/
def count (weeks : WeekLedgers) (ending : Ending) : WeekLedgers where
  runs consumer :=
    if ending.holder.isRun ∧ ending.consumer = consumer then ending.bill (weeks.runs consumer)
    else weeks.runs consumer
  operators name :=
    if ending.holder = .operator name then (weeks.operators name).map ending.bill
    else weeks.operators name
  mistral consumer :=
    if ending.provider = some .mistral ∧ ending.consumer = consumer ∧ weeks.pays ending.holder then
      ending.bill (weeks.mistral consumer)
    else weeks.mistral consumer

end WeekLedgers

/-- The ledgers with one more ending: if it is counted, its delta to the counts of its provider and
of its operator, if listed, or of the runs without proof, if it is one of those, and its bill. -/
def Ledgers.count (ledgers : Ledgers) (ending : Ending) : Ledgers :=
  if ending.counted then
    { providers := fun provider =>
        if ending.provider = some provider then ending.delta.count (ledgers.providers provider)
        else ledgers.providers provider
      operators := fun name =>
        if ending.holder = .operator name then
          (ledgers.operators name).map (fun counts => ending.delta.count counts)
        else ledgers.operators name
      unproven :=
        if ending.holder.isUnproven then ending.delta.count ledgers.unproven
        else ledgers.unproven
      spend := ledgers.spend.map (WeekLedgers.count · ending) }
  else ledgers

/-! ## The registry's operations on the ledgers -/

namespace UsageRegistry

variable (r : UsageRegistry)

@[simp] theorem ledgers_captureAt (capture : Capture) :
    (r.captureAt capture).ledgers = r.ledgers := rfl

@[simp] theorem ledgers_unprovenRegistration (admitted : Bool) :
    (r.unprovenRegistration admitted).ledgers = r.ledgers := by
  cases admitted <;> rfl

theorem ledgers_settle (provider : Provider) (reported : Option Usage) (success : Bool) :
    (r.settle provider reported success).ledgers =
      { r.ledgers with
        providers := fun p =>
          if provider = p then (Delta.of reported success).count (r.ledgers.providers p)
          else r.ledgers.providers p } := by
  refine Ledgers.ext ?_ rfl rfl rfl
  funext p
  show (if p = provider then (r.snapshot.counts p).settle reported success
    else r.snapshot.counts p) = _
  simp only [Counts.settle_eq, eq_comm (a := p)]
  rfl

theorem ledgers_settleOperator (name : String) (reported : Option Usage) (success : Bool) :
    (r.settleOperator name reported success).ledgers =
      { r.ledgers with
        operators := fun other =>
          if name = other then
            (r.ledgers.operators other).map (fun counts => (Delta.of reported success).count counts)
          else r.ledgers.operators other } := by
  refine Ledgers.ext rfl ?_ rfl rfl
  funext other
  show (r.snapshot.operators.modify name _).lookup other = _
  rw [Assoc.lookup_modify]
  simp only [Counts.settle_eq, eq_comm (a := other)]
  rfl

theorem ledgers_settleUnproven (reported : Option Usage) (success : Bool) :
    (r.settleUnproven reported success).ledgers =
      { r.ledgers with unproven := (Delta.of reported success).count r.ledgers.unproven } := by
  refine Ledgers.ext rfl rfl ?_ rfl
  exact Counts.settle_eq _ reported success

end UsageRegistry

/-- Whom an ending is billed to. -/
def Ending.payer (ending : Ending) : Payer where
  operator :=
    match ending.holder with
    | .run _ => none
    | .operator name => some name
  consumer := ending.consumer
  provider := ending.provider

theorem Ending.operator_payer {ending : Ending} {name : String} :
    ending.payer.operator = some name ↔ ending.holder = .operator name := by
  unfold Ending.payer
  cases ending.holder <;> simp

/-- Charging what an ending costs to its payer is billing it. -/
theorem SpendWeeks.ledgers_charge (spend : SpendWeeks) {ending : Ending}
    {reported : Option Usage} {unix : UInt64} {charge : Charge}
    (hhow : ending.how = .complete reported unix)
    (hcharge : Charge.of reported ending.success = some charge) :
    (spend.charge ending.payer (unix.toNat / 3600) charge).ledgers =
      spend.ledgers.count ending := by
  have hbill : ending.bill = fun week => week.add (unix.toNat / 3600) charge := by
    funext week
    simp only [Ending.bill, hhow, hcharge]
  have hrun : ending.payer.operator = none ↔ ending.holder.isRun := by
    unfold Ending.payer Holder.isRun
    cases ending.holder <;> simp
  have hpays : ending.payer.operator.all (fun name => (spend.operators.lookup name).isSome) =
      spend.ledgers.pays ending.holder := by
    unfold Ending.payer WeekLedgers.pays
    cases ending.holder <;> rfl
  ext1
  · funext consumer
    show (spend.charge ending.payer _ charge).runs.get consumer = _
    rw [runs_charge]
    simp only [WeekLedgers.count, hbill, ← hrun]
    by_cases hoperator : ending.payer.operator = none
    · rw [if_pos hoperator, PerConsumer.get_modify]
      simp only [hoperator, true_and, eq_comm (a := consumer)]
      rfl
    · simp only [hoperator, if_false, false_and]
      rfl
  · funext name
    show (spend.charge ending.payer _ charge).operators.lookup name = _
    rw [lookup_operators_charge]
    simp only [WeekLedgers.count, hbill, Ending.operator_payer]
    rfl
  · funext consumer
    show (spend.charge ending.payer _ charge).mistral.get consumer = _
    rw [mistral_charge, hpays]
    simp only [WeekLedgers.count, hbill]
    by_cases hmistral : ending.payer.provider = some .mistral ∧
        spend.ledgers.pays ending.holder = true
    · rw [if_pos hmistral, PerConsumer.get_modify]
      have hprovider : ending.provider = some .mistral := hmistral.1
      simp only [hprovider, hmistral.2, and_true, true_and, eq_comm (a := consumer)]
      rfl
    · rw [if_neg hmistral, if_neg]
      · rfl
      · rintro ⟨hprovider, -, hpaid⟩
        exact hmistral ⟨hprovider, hpaid⟩

/-- Nothing is billed of a response with nothing to count. -/
theorem WeekLedgers.count_of_no_charge (weeks : WeekLedgers) {ending : Ending}
    {reported : Option Usage} {unix : UInt64} (hhow : ending.how = .complete reported unix)
    (hcharge : Charge.of reported ending.success = none) : weeks.count ending = weeks := by
  have hbill : ending.bill = id := by
    funext week
    simp only [Ending.bill, hhow, hcharge, id]
  ext1 <;> simp [WeekLedgers.count, hbill]

theorem UsageRegistry.ledgers_settleSpendAt (r : UsageRegistry) {ending : Ending}
    {reported : Option Usage} {unix : UInt64} (hhow : ending.how = .complete reported unix) :
    (r.settleSpendAt ending.payer reported ending.success unix).ledgers =
      { r.ledgers with spend := r.ledgers.spend.map (WeekLedgers.count · ending) } := by
  unfold settleSpendAt
  cases hcharge : Charge.of reported ending.success with
  | none =>
      refine Ledgers.ext rfl rfl rfl ?_
      simp only [WeekLedgers.count_of_no_charge _ hhow hcharge, Option.map_id']
  | some charge =>
      refine Ledgers.ext rfl rfl rfl ?_
      show (r.spend.map _).map SpendWeeks.ledgers = (r.spend.map SpendWeeks.ledgers).map _
      rw [Option.map_map, Option.map_map]
      congr 1
      funext spend
      exact spend.ledgers_charge hhow hcharge

/-- Exactly the listed operators have a week, if spend is metered. -/
def Ledgers.Listed (ledgers : Ledgers) : Prop :=
  ∀ weeks, ledgers.spend = some weeks → ∀ name,
    (weeks.operators name).isSome = (ledgers.operators name).isSome

theorem Ledgers.Listed.count {ledgers : Ledgers} (h : ledgers.Listed) (ending : Ending) :
    (ledgers.count ending).Listed := by
  unfold Ledgers.count
  split
  · intro weeks hweeks name
    obtain ⟨old, hold, rfl⟩ := Option.map_eq_some_iff.mp hweeks
    have hname := h old hold name
    simp only [WeekLedgers.count]
    split
    · rw [Option.isSome_map, Option.isSome_map, hname]
    · exact hname
  · exact h

/-- Whatever a registry went through, exactly its listed operators have a week. -/
theorem listed_of_history (startedAt : UInt64) (history : List UsageCall) :
    ((usageRegistry startedAt).run history).ledgers.Listed := by
  intro weeks hweeks name
  obtain ⟨spend, hspend, rfl⟩ := Option.map_eq_some_iff.mp hweeks
  have hstep := OperatorLists.inStep_run history
  rw [← lists_run startedAt history] at hstep
  have hlisted := hstep.weeks _ (congrArg (Option.map _) hspend)
  exact congrFun hlisted name

/-! ## Settling a context -/

namespace FilterState

variable {H : Type} [DecidableEq H] (s : FilterState H)

/-- A request that uses no tokens has no provider, and settles nothing in the registry. -/
private theorem usage_settle_free {metered : Metered} {caller : Caller}
    (hcaller : metered.caller = some caller) (hprovider : metered.provider = none)
    (hfree : caller.usageFree = true) (reported : Option Usage) (unix : UInt64) :
    (s.settle metered reported unix).usage = s.usage := by
  cases caller with
  | run admission =>
      have hfree : admission.usageFree = true := hfree
      simp [settle, hcaller, hprovider, hfree]
  | operator slot =>
      have hfree : slot.usageFree = true := hfree
      simp [settle, hcaller, hprovider, hfree]

/-- A response for a run: to its provider, to the runs without proof if it is one, and to the
runs' spend. -/
private theorem ledgers_settle_run {metered : Metered} {admission : Runs.Admission}
    {provider : Provider} (hcaller : metered.caller = some (.run admission))
    (hprovider : metered.provider = some provider) (hpaid : admission.usageFree = false)
    {reported : Option Usage} {unix : UInt64} {ending : Ending}
    (hmade : ending = ⟨ending.request, some provider, .run admission.key, admission.consumer, false,
      metered.success, .complete reported unix⟩) :
    (s.settle metered reported unix).usage.ledgers = s.usage.ledgers.count ending := by
  have hhow : ending.how = .complete reported unix := by rw [hmade]
  have hsuccess : ending.success = metered.success := by rw [hmade]
  have hpayer : ending.payer = ⟨none, admission.consumer, some provider⟩ := by rw [hmade]; rfl
  have hcount : s.usage.ledgers.count ending =
      { providers := fun p =>
          if provider = p then
            (Delta.of reported ending.success).count (s.usage.ledgers.providers p)
          else s.usage.ledgers.providers p
        operators := s.usage.ledgers.operators
        unproven :=
          if admission.key.isUnproven then
            (Delta.of reported ending.success).count s.usage.ledgers.unproven
          else s.usage.ledgers.unproven
        spend := s.usage.ledgers.spend.map (WeekLedgers.count · ending) } := by
    rw [hmade]
    simp [Ledgers.count, Ending.counted, Ending.delta, Holder.isUnproven]
  rw [hcount]
  simp only [settle, hcaller, hprovider, hpaid, Bool.false_eq_true, if_false, Option.map_some,
    Option.getD_some, Caller.consumer]
  rw [← hpayer, ← hsuccess, UsageRegistry.ledgers_settleSpendAt _ hhow]
  by_cases hunproven : admission.key.isUnproven
  · rw [if_pos hunproven, if_pos hunproven, UsageRegistry.ledgers_settleUnproven,
      UsageRegistry.ledgers_settle]
  · rw [if_neg hunproven, if_neg hunproven, UsageRegistry.ledgers_settle]

/-- A response for an operator: to its provider, to the operator and to its spend. -/
private theorem ledgers_settle_operator {metered : Metered} {slot : Operator.Slot}
    {provider : Provider} (hcaller : metered.caller = some (.operator slot))
    (hprovider : metered.provider = some provider) (hpaid : slot.usageFree = false)
    {reported : Option Usage} {unix : UInt64} {ending : Ending}
    (hmade : ending = ⟨ending.request, some provider, .operator slot.name, slot.consumer, false,
      metered.success, .complete reported unix⟩) :
    (s.settle metered reported unix).usage.ledgers = s.usage.ledgers.count ending := by
  have hhow : ending.how = .complete reported unix := by rw [hmade]
  have hsuccess : ending.success = metered.success := by rw [hmade]
  have hpayer : ending.payer = ⟨some slot.name, slot.consumer, some provider⟩ := by
    rw [hmade]
    rfl
  have hcount : s.usage.ledgers.count ending =
      { providers := fun p =>
          if provider = p then
            (Delta.of reported ending.success).count (s.usage.ledgers.providers p)
          else s.usage.ledgers.providers p
        operators := fun name =>
          if slot.name = name then
            (s.usage.ledgers.operators name).map
              (fun counts => (Delta.of reported ending.success).count counts)
          else s.usage.ledgers.operators name
        unproven := s.usage.ledgers.unproven
        spend := s.usage.ledgers.spend.map (WeekLedgers.count · ending) } := by
    rw [hmade]
    simp [Ledgers.count, Ending.counted, Ending.delta, Holder.isUnproven]
  rw [hcount]
  simp only [settle, hcaller, hprovider, hpaid, Bool.false_eq_true, if_false, Option.map_some,
    Option.getD_some, Caller.consumer]
  rw [← hpayer, ← hsuccess, UsageRegistry.ledgers_settleSpendAt _ hhow,
    UsageRegistry.ledgers_settleOperator, UsageRegistry.ledgers_settle]

/-- The registry after an end of stream, in which every ledger has counted the ending. -/
theorem ledgers_settle {metered : Metered} (hcoherent : metered.Coherent) {id : Nat}
    {reported : Option Usage} {unix : UInt64} {ending : Ending}
    (hending : metered.ending id (.complete reported unix) = some ending) :
    (s.settle metered reported unix).usage.ledgers = s.usage.ledgers.count ending := by
  obtain ⟨caller, hcaller, rfl⟩ := Option.map_eq_some_iff.mp hending
  have hfree := hcoherent.provider caller hcaller
  cases hprovider : metered.provider with
  | none =>
      have hfree : caller.usageFree = true := hfree.mp hprovider
      rw [s.usage_settle_free hcaller hprovider hfree]
      simp [Ledgers.count, Ending.counted, hfree]
  | some provider =>
      have hpaid : caller.usageFree = false := by
        by_contra hnot
        simp [hfree.mpr (Bool.not_eq_false _ ▸ hnot)] at hprovider
      cases caller with
      | run admission =>
          have hpaid : admission.usageFree = false := hpaid
          apply s.ledgers_settle_run hcaller hprovider hpaid
          simp [Caller.holder, Caller.consumer, Caller.usageFree, hpaid]
      | operator slot =>
          have hpaid : slot.usageFree = false := hpaid
          apply s.ledgers_settle_operator hcaller hprovider hpaid
          simp [Caller.holder, Caller.consumer, Caller.usageFree, hpaid]

variable {hash : Bytes → H} {filter : RunTokenFilter}

/-- **One callback, in the registry**: the ledgers count the ending it brings about, if any. -/
theorem ledgers_step (hcoherent : ∀ id metered, s.contexts.lookup id = some metered →
      metered.Coherent) (callback : Callback) :
    (s.step hash filter callback).usage.ledgers =
      (s.ending callback).elim s.usage.ledgers s.usage.ledgers.count := by
  cases callback with
  | request out request cluster =>
      simp only [step, onRequest, ending, Option.elim_none]
      split
      · exact UsageRegistry.ledgers_unprovenRegistration _ _
      · rfl
  | response id head unix =>
      simp only [step, onResponse, ending, Option.elim_none]
      split
      · rfl
      · dsimp only
        split
        · exact UsageRegistry.ledgers_captureAt _ _
        · rfl
  | body id endOfStream metadata unix =>
      simp only [step, onResponseBody]
      cases hmetered : s.contexts.lookup id with
      | none => cases endOfStream <;> simp [ending, hmetered]
      | some metered =>
          cases endOfStream with
          | false => rfl
          | true =>
              simp only [ending, hmetered, Option.bind_some, if_true]
              cases hending : metered.ending id (.complete (reportedUsage metadata) unix) with
              | some ending => exact ledgers_settle _ (hcoherent id metered hmetered) hending
              | none =>
                  -- without a caller there is no provider either, and settling does nothing
                  have hcaller : metered.caller = none := by
                    simpa [Metered.ending] using hending
                  have hprovider := (hcoherent id metered hmetered).free hcaller
                  simp [settle, hcaller, hprovider]
  | drop id =>
      simp only [step, onDrop]
      cases hmetered : s.contexts.lookup id with
      | none => simp [ending, hmetered]
      | some metered =>
          -- what is dropped is not counted by any ledger
          have husage : ∀ ending, metered.ending id .dropped = some ending →
              s.usage.ledgers.count ending = s.usage.ledgers := by
            intro ending hending
            obtain ⟨caller, -, rfl⟩ := Option.map_eq_some_iff.mp hending
            rfl
          simp only [ending, hmetered, Option.bind_some]
          cases hending : metered.ending id .dropped with
          | none => split <;> rfl
          | some ending =>
              rw [Option.elim_some, husage ending hending]
              split <;> rfl

end FilterState

end CredentialBroker
