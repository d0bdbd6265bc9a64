import CredentialBroker.Filter.Contexts
import CredentialBroker.Runs.Figures

/-!
# No ledger understates its total

Caps are charged by the total of a ledger's tokens, which the upstream reports on its own and which
saturates apart from the counts it is the total of. `Tokens.Covers` says that it is still no less
than their sum, as saturating addition sums them.

* `reported_usage` sees to that for one response (`reported_of_reportedUsage`).
* `Tokens.Covers.add` keeps it where tokens are added up, and all ledgers do:
  `RunRecord.Covered.add` is the step of a record, `UsageRegistry.Covered.step` the step of the
  usage registry.
* `FilterState.usage_step` and `FilterState.runs_step` take a callback apart into calls on the two
  registries, none of which settles anything but what `reported_usage` returned.
-/

namespace CredentialBroker

/-! ## Tokens -/

/-- The total is no less than the input, cached or not, and the output together. -/
def Tokens.Covers (tokens : Tokens) : Prop :=
  (tokens.input.satAdd tokens.cacheRead).satAdd tokens.output ≤ tokens.total

theorem Tokens.covers_zero : ({} : Tokens).Covers := UInt64.le_refl 0

theorem Tokens.Covers.add {a b : Tokens} (ha : a.Covers) (hb : b.Covers) : (a.add b).Covers := by
  -- the parts of both saturate at the same value in whatever order they are summed
  have hparts : ((a.add b).input.satAdd (a.add b).cacheRead).satAdd (a.add b).output =
      ((a.input.satAdd a.cacheRead).satAdd a.output).satAdd
        ((b.input.satAdd b.cacheRead).satAdd b.output) := by
    apply UInt64.toNat_inj.mp
    simp only [Tokens.add, UInt64.toNat_satAdd]
    omega
  unfold Covers
  rw [hparts]
  exact UInt64.satAdd_le_satAdd ha hb

/-! ## Reported usage -/

/-- What `reported_usage` returns of `metadata`. -/
structure Reported (metadata : TokenMetadata) (usage : Usage) : Prop where
  /-- The cached part was taken out of an input no smaller, and is all that was. -/
  input : ∃ input, metadata.input.bind Numeral.parseU64 = some input ∧
    usage.tokens.cacheRead ≤ input ∧
    usage.tokens.input.toNat + usage.tokens.cacheRead.toNat = input.toNat
  covers : usage.tokens.Covers

theorem reported_of_reportedUsage {metadata : TokenMetadata} {usage : Usage}
    (h : reportedUsage metadata = some usage) : Reported metadata usage := by
  unfold reportedUsage at h
  split at h
  · cases h
  · obtain ⟨input, hinput, h⟩ := Option.bind_eq_some_iff.mp h
    obtain ⟨output, houtput, h⟩ := Option.bind_eq_some_iff.mp h
    cases h
    generalize hcached :
      min ((metadata.cacheRead.bind Numeral.parseU64).getD 0) input = cacheRead
    have hle : cacheRead ≤ input := hcached ▸ UInt64.min_le_right _ _
    have hsum : (input - cacheRead).toNat + cacheRead.toNat = input.toNat := by
      rw [UInt64.toNat_sub_of_le _ _ hle]
      exact Nat.sub_add_cancel (UInt64.le_iff_toNat_le.mp hle)
    refine ⟨⟨input, hinput, hle, hsum⟩, ?_⟩
    have hinput : (input - cacheRead).satAdd cacheRead = input := by
      apply UInt64.toNat_inj.mp
      rw [UInt64.toNat_satAdd, hsum]
      exact Nat.min_eq_left (Nat.le_of_lt_succ input.toNat_lt)
    show ((input - cacheRead).satAdd cacheRead).satAdd output ≤ _
    rw [hinput]
    exact UInt64.le_max_right _ _

/-! ## Records -/

/-- A record's total covers its counts, the total of each of its models that model's, and no model
has a larger total than the record. -/
structure RunRecord.Covered (record : RunRecord) : Prop where
  tokens : record.tokens.Covers
  models : ∀ model tokens, record.models.lookup model = some tokens → tokens.Covers
  bounded : ∀ model tokens, record.models.lookup model = some tokens →
    tokens.total ≤ record.tokens.total

namespace Runs

/-- Where the tokens of a model come from once a usage is added. -/
theorem lookup_models_add {record : RunRecord} {usage : Usage} {model : String} {tokens : Tokens}
    (h : (record.add usage).models.lookup model = some tokens) :
    record.models.lookup model = some tokens ∨
      (∃ old, record.models.lookup model = some old ∧ tokens = old.add usage.tokens) ∨
      tokens = usage.tokens := by
  rw [models_add] at h
  split at h
  · exact .inl h
  · next used hused =>
      have hinsert : ∀ added, (record.models.insert used added).lookup model = some tokens →
          model = used ∧ tokens = added ∨ record.models.lookup model = some tokens := by
        intro added hadded
        rw [Assoc.lookup_insert_eq] at hadded
        split at hadded
        · next heq => exact .inl ⟨heq, (Option.some.inj hadded).symm⟩
        · exact .inr hadded
      split at h
      · next old hold =>
          rcases hinsert _ h with ⟨rfl, rfl⟩ | hother
          · exact .inr (.inl ⟨old, hold, rfl⟩)
          · exact .inl hother
      · split at h
        · rcases hinsert _ h with ⟨-, rfl⟩ | hother
          · exact .inr (.inr rfl)
          · exact .inl hother
        · exact .inl h

end Runs

/-- **Step.** A record that covers its models does with one more response. -/
theorem RunRecord.Covered.add {record : RunRecord} (h : record.Covered) {usage : Usage}
    (husage : usage.tokens.Covers) : (record.add usage).Covered := by
  have htokens : (record.add usage).tokens = record.tokens.add usage.tokens :=
    congrArg Totals.tokens (Runs.totals_add record usage)
  refine ⟨?_, ?_, ?_⟩
  · rw [htokens]
    exact h.tokens.add husage
  · intro model tokens hmodel
    rcases Runs.lookup_models_add hmodel with hold | ⟨old, hold, rfl⟩ | rfl
    · exact h.models model tokens hold
    · exact (h.models model old hold).add husage
    · exact husage
  · intro model tokens hmodel
    rw [htokens]
    rcases Runs.lookup_models_add hmodel with hold | ⟨old, hold, rfl⟩ | rfl
    · exact UInt64.le_trans (h.bounded model tokens hold) (UInt64.le_satAdd_left _ _)
    · exact UInt64.satAdd_le_satAdd (h.bounded model old hold) (UInt64.le_refl _)
    · show _ ≤ record.tokens.total.satAdd _
      rw [UInt64.satAdd_comm]
      exact UInt64.le_satAdd_left _ _

/-- A record of the same figures is covered as well. -/
theorem RunRecord.Covered.congr {record record' : RunRecord} (h : record.Covered)
    (heq : record'.figures = record.figures) : record'.Covered := by
  have htokens : record'.tokens = record.tokens := congrArg (Totals.tokens ∘ Figures.totals) heq
  have hmodels : record'.models = record.models := congrArg Figures.models heq
  refine ⟨?_, ?_, ?_⟩
  · rw [htokens]
    exact h.tokens
  · rw [hmodels]
    exact h.models
  · rw [htokens, hmodels]
    exact h.bounded

theorem RunRecord.covered_of_figures {record : RunRecord} (h : record.figures = {}) :
    record.Covered := by
  have htokens : record.tokens = {} := congrArg (Totals.tokens ∘ Figures.totals) h
  have hmodels : record.models = ∅ := congrArg Figures.models h
  refine ⟨?_, ?_, ?_⟩
  · rw [htokens]
    exact Tokens.covers_zero
  · intro model tokens hmodel
    rw [hmodels] at hmodel
    cases hmodel
  · intro model tokens hmodel
    rw [hmodels] at hmodel
    cases hmodel

/-- What an outcome adds covers its counts. -/
def Runs.Outcome.Covers : Runs.Outcome → Prop
  | .metered usage => usage.tokens.Covers
  | .unmetered | .failed => True

theorem Runs.Admission.covers_settled (admission : Runs.Admission) {reported : Option Usage}
    (hreported : ∀ usage, reported = some usage → usage.tokens.Covers) :
    (admission.settled reported).Covers := by
  unfold settled
  split
  · trivial
  · split
    · next usage => exact hreported usage rfl
    · split <;> trivial

theorem Runs.Admission.covers_dropped (admission : Runs.Admission) :
    admission.dropped.Covers := by
  unfold dropped
  split <;> trivial

theorem RunRecord.Covered.record {record : RunRecord} (h : record.Covered) {outcome : Runs.Outcome}
    (houtcome : outcome.Covers) : (outcome.record record).Covered := by
  cases outcome with
  | metered usage => exact h.add houtcome
  | unmetered => exact ⟨h.tokens, h.models, h.bounded⟩
  | failed => exact h

section

variable {H : Type} [DecidableEq H]

/-- The records of all runs are covered. -/
def Runs.State.Covered (s : Runs.State H) : Prop :=
  ∀ key run, s.runs.lookup key = some run → run.record.Covered

namespace Runs.State

theorem Covered.unsettled {hash : Bytes → H} {s s' : Runs.State H} {calls : List Runs.Call}
    (h : s.Covered) (hcalls : Runs.Unsettled hash s calls s') : s'.Covered := by
  intro key run hrun
  rcases Runs.figures_of_unsettled hcalls hrun with ⟨old, hold, hfigures⟩ | ⟨-, hfigures⟩
  · exact (h key old hold).congr hfigures
  · exact RunRecord.covered_of_figures hfigures

omit [DecidableEq H] in
theorem Covered.settle {s : Runs.State H} (h : s.Covered) (key : RunKey) {outcome : Runs.Outcome}
    (houtcome : outcome.Covers) : (Runs.settle s key outcome).Covered := by
  intro k run hrun
  change (s.runs.modify key (Runs.release outcome)).lookup k = some run at hrun
  rw [Assoc.lookup_modify] at hrun
  split at hrun
  · obtain ⟨old, hold, rfl⟩ := Option.map_eq_some_iff.mp hrun
    exact (h k old hold).record houtcome
  · exact h k run hrun

end Runs.State

end

/-! ## The usage registry -/

/-- The counts of every provider, of every listed operator and of the runs without proof are
covered. -/
structure UsageRegistry.Covered (r : UsageRegistry) : Prop where
  providers : ∀ provider, (r.snapshot.counts provider).tokens.Covers
  operators : ∀ name counts, r.snapshot.operators.lookup name = some counts → counts.tokens.Covers
  unproven : ∀ runs, r.snapshot.unprovenRuns = some runs → runs.counts.tokens.Covers

/-- The usage a call settles, if it settles one. -/
def UsageCall.usage : UsageCall → Option Usage
  | .settleSpend _ usage _ _ | .settle _ usage _ | .settleOperator _ usage _
  | .settleUnproven usage _ => usage
  | _ => none

/-- The call settles no usage but one whose total covers its counts. -/
def UsageCall.Covers (call : UsageCall) : Prop :=
  ∀ usage, call.usage = some usage → usage.tokens.Covers

theorem Counts.covers_settle {counts : Counts} (h : counts.tokens.Covers) {usage : Option Usage}
    (husage : ∀ u, usage = some u → u.tokens.Covers) (success : Bool) :
    (counts.settle usage success).tokens.Covers := by
  cases usage with
  | some usage => exact h.add (husage usage rfl)
  | none =>
      unfold Counts.settle
      dsimp only
      split <;> exact h

namespace UsageRegistry

theorem covered_new (startedAt : UInt64) : (UsageRegistry.new startedAt).Covered := by
  refine ⟨fun _ => Tokens.covers_zero, ?_, ?_⟩
  · intro name counts h
    cases h
  · intro runs h
    cases h

private theorem Covered.modifyUnproven {r : UsageRegistry} (h : r.Covered)
    {f : UnprovenRuns → UnprovenRuns}
    (hf : ∀ runs, runs.counts.tokens.Covers → (f runs).counts.tokens.Covers) :
    (r.modifyUnproven f).Covered := by
  refine ⟨h.providers, h.operators, ?_⟩
  intro runs hruns
  cases hruns
  apply hf
  cases hold : r.snapshot.unprovenRuns with
  | none => exact Tokens.covers_zero
  | some runs => exact h.unproven runs hold

private theorem Covered.declareOperator {r : UsageRegistry} (h : r.Covered) (operator : String)
    (consumer : Consumer) : (r.declareOperator operator consumer).Covered := by
  unfold UsageRegistry.declareOperator
  split
  · exact ⟨h.providers, h.operators, h.unproven⟩
  · split
    · exact h
    · refine ⟨h.providers, ?_, h.unproven⟩
      intro name counts hcounts
      change (r.snapshot.operators.insert operator {}).lookup name = some counts at hcounts
      rw [Assoc.lookup_insert_eq] at hcounts
      split at hcounts
      · cases hcounts
        exact Tokens.covers_zero
      · exact h.operators name counts hcounts

/-- **Step**, one case for each operation: a registry stays covered. -/
theorem Covered.step {r : UsageRegistry} (h : r.Covered) {call : UsageCall} (hcall : call.Covers) :
    (r.step call).Covered := by
  cases call with
  | meterSpend now =>
      show (r.meterSpendAt now).Covered
      unfold meterSpendAt
      split
      · exact h
      · exact ⟨h.providers, h.operators, h.unproven⟩
  | settleSpend payer usage success now =>
      show (r.settleSpendAt payer usage success now).Covered
      unfold settleSpendAt
      split
      · exact h
      · exact ⟨h.providers, h.operators, h.unproven⟩
  | settle provider usage success =>
      show (r.settle provider usage success).Covered
      refine ⟨?_, h.operators, h.unproven⟩
      intro p
      show (if p = provider then _ else _ : Counts).tokens.Covers
      split
      · exact Counts.covers_settle (h.providers p) hcall success
      · exact h.providers p
  | declareOperator operator consumer => exact h.declareOperator operator consumer
  | settleOperator operator usage success =>
      show (r.settleOperator operator usage success).Covered
      refine ⟨h.providers, ?_, h.unproven⟩
      intro name counts hcounts
      change (r.snapshot.operators.modify operator _).lookup name = some counts at hcounts
      rw [Assoc.lookup_modify] at hcounts
      split at hcounts
      · obtain ⟨old, hold, rfl⟩ := Option.map_eq_some_iff.mp hcounts
        exact Counts.covers_settle (h.operators name old hold) hcall success
      · exact h.operators name counts hcounts
  | declareUnproven => exact h.modifyUnproven fun runs hruns => hruns
  | unprovenRegistration admitted =>
      show (r.unprovenRegistration admitted).Covered
      unfold unprovenRegistration
      refine h.modifyUnproven fun runs hruns => ?_
      split <;> exact hruns
  | settleUnproven usage success =>
      show (r.settleUnproven usage success).Covered
      exact h.modifyUnproven fun runs hruns => Counts.covers_settle hruns hcall success
  | capture capture =>
      show (r.captureAt capture).Covered
      unfold captureAt
      exact ⟨h.providers, h.operators, h.unproven⟩

/-- **Run.** A registry stays covered by any operations that cover. -/
theorem Covered.foldl {r : UsageRegistry} (h : r.Covered) {calls : List UsageCall}
    (hcalls : ∀ call ∈ calls, call.Covers) : (calls.foldl UsageRegistry.step r).Covered := by
  refine List.foldlRecOn _ _ h ?_
  intro r hr call hcall
  exact hr.step (hcalls call hcall)

end UsageRegistry

/-! ## Callbacks -/

/-- The calls `on_response_body` makes on the usage registry at the end of a stream, in order. -/
def Metered.calls (metered : Metered) (reported : Option Usage) (unix : UInt64) : List UsageCall :=
  let payer (operator : Option String) : Payer :=
    ⟨operator, (metered.caller.map Caller.consumer).getD .priv, metered.provider⟩
  let answered := (metered.provider.map (.settle · reported metered.success)).toList
  match metered.caller with
  | some (.run admission) =>
    if admission.usageFree then answered
    else
      let spent := .settleSpend (payer none) reported metered.success unix
      if admission.key.isUnproven then
        answered ++ [.settleUnproven reported metered.success, spent]
      else answered ++ [spent]
  | some (.operator slot) =>
    if slot.usageFree then answered
    else
      answered ++ [.settleOperator slot.name reported metered.success,
        .settleSpend (payer (some slot.name)) reported metered.success unix]
  | none => answered

theorem Metered.usage_of_mem_calls {metered : Metered} {reported : Option Usage} {unix : UInt64}
    {call : UsageCall} (h : call ∈ metered.calls reported unix) : call.usage = reported := by
  have hanswered : ∀ call ∈ (metered.provider.map
      (UsageCall.settle · reported metered.success)).toList, call.usage = reported := by
    intro call hcall
    obtain ⟨provider, -, rfl⟩ := Option.map_eq_some_iff.mp (Option.mem_toList.mp hcall)
    rfl
  unfold calls at h
  dsimp only at h
  split at h
  · split at h
    · exact hanswered call h
    · split at h
      all_goals
        rcases List.mem_append.mp h with h | h
        · exact hanswered call h
        · simp only [List.mem_cons, List.not_mem_nil, or_false] at h
          rcases h with rfl | rfl <;> rfl
  · split at h
    · exact hanswered call h
    · rcases List.mem_append.mp h with h | h
      · exact hanswered call h
      · simp only [List.mem_cons, List.not_mem_nil, or_false] at h
        rcases h with rfl | rfl <;> rfl
  · exact hanswered call h

namespace FilterState

variable {H : Type} [DecidableEq H] (hash : Bytes → H) (filter : RunTokenFilter)

/-- The calls a callback makes on the usage registry, in order. -/
def usageCalls (s : FilterState H) : Callback → List UsageCall
  | .request out request _ =>
      ((filter.countRegistration hash s.runs out request).map .unprovenRegistration).toList
  | .response id head unix =>
    match s.contexts.lookup id with
    | none => []
    | some metered =>
      match metered.provider, metered.caller, head with
      | some provider, some caller, some head =>
          [.capture ⟨provider, caller.consumer, head.headers, unix⟩]
      | _, _, _ => []
  | .body id endOfStream metadata unix =>
    match s.contexts.lookup id with
    | none => []
    | some metered => if endOfStream then metered.calls (reportedUsage metadata) unix else []
  | .drop _ => []

omit [DecidableEq H] in
private theorem consumer_answered (success : Bool) (caller : Caller) :
    (caller.answered success).consumer = caller.consumer := by
  cases caller <;> rfl

theorem usage_settle (s : FilterState H) (metered : Metered) (reported : Option Usage)
    (unix : UInt64) :
    (s.settle metered reported unix).usage =
      (metered.calls reported unix).foldl UsageRegistry.step s.usage := by
  unfold settle Metered.calls
  dsimp only
  cases metered.caller with
  | none => cases metered.provider <;> rfl
  | some caller =>
      cases caller with
      | run admission =>
          dsimp only
          split
          · cases metered.provider <;> rfl
          · split
            · cases metered.provider <;> rfl
            · cases metered.provider <;> rfl
      | operator slot =>
          dsimp only
          split
          · cases metered.provider <;> rfl
          · cases metered.provider <;> rfl

/-- **What a callback does to the usage registry** is the calls it makes. -/
theorem usage_step (s : FilterState H) (callback : Callback) :
    (s.step hash filter callback).usage =
      (s.usageCalls hash filter callback).foldl UsageRegistry.step s.usage := by
  cases callback with
  | request out request cluster =>
      simp only [step, onRequest, usageCalls]
      cases filter.countRegistration hash s.runs out request <;> rfl
  | response id head unix =>
      simp only [step, onResponse, usageCalls]
      cases s.contexts.lookup id with
      | none => rfl
      | some metered =>
          simp only [Metered.answered]
          cases metered.provider with
          | none => rfl
          | some provider =>
              cases metered.caller with
              | none => rfl
              | some caller =>
                  cases head with
                  | none => rfl
                  | some head =>
                      simp only [Option.map_some, consumer_answered]
                      rfl
  | body id endOfStream metadata unix =>
      simp only [step, onResponseBody, usageCalls]
      cases s.contexts.lookup id with
      | none => rfl
      | some metered =>
          cases endOfStream with
          | false => rfl
          | true => exact usage_settle _ metered (reportedUsage metadata) unix
  | drop id =>
      simp only [step, onDrop, usageCalls]
      cases s.contexts.lookup id with
      | none => rfl
      | some metered =>
          simp only
          split <;> rfl

/-- No callback settles a usage whose total does not cover its counts. -/
theorem covers_usageCalls (s : FilterState H) (callback : Callback) :
    ∀ call ∈ s.usageCalls hash filter callback, call.Covers := by
  intro call hcall
  cases callback with
  | request out request cluster =>
      obtain ⟨admitted, -, rfl⟩ := Option.map_eq_some_iff.mp (Option.mem_toList.mp hcall)
      intro usage husage
      cases husage
  | response id head unix =>
      simp only [usageCalls] at hcall
      split at hcall
      · cases hcall
      · split at hcall
        · rw [List.mem_singleton.mp hcall]
          intro usage husage
          cases husage
        · cases hcall
  | body id endOfStream metadata unix =>
      simp only [usageCalls] at hcall
      split at hcall
      · cases hcall
      · split at hcall
        · intro usage husage
          rw [Metered.usage_of_mem_calls hcall] at husage
          exact (reported_of_reportedUsage husage).covers
        · cases hcall
  | drop id => cases hcall

end FilterState

/-! ## The ledgers of one registry's name -/

section

variable {H : Type} [DecidableEq H]

/-- What all filters share that are configured with one registry's name, from when it is first
used. -/
structure SharedLedgers (H : Type) [DecidableEq H] where
  runs : Runs.State H
  usage : UsageRegistry

/-- What happens to it. -/
inductive SharedAct (H : Type) [DecidableEq H] where
  /-- A filter is built, with `spend` the time if it meters spend. -/
  | build (spend : Option UInt64) (endpoints : RunEndpoints) (operators : List Operator)
  /-- A callback of a filter, with what it keeps of its own. -/
  | callback (filter : RunTokenFilter) (operators : Operators H) (contexts : Assoc Nat Metered)
      (arrived : Nat) (callback : Callback)

/-- The calls of `from_config` on the usage registry. -/
def declarations (spend : Option UInt64) (endpoints : RunEndpoints) (operators : List Operator) :
    List UsageCall :=
  let metered := (spend.map UsageCall.meterSpend).toList
  let unproven :=
    match endpoints with
    | .serving registrar => if registrar.unproven.isSome then [.declareUnproven] else []
    | .absent | .unconfigured => []
  metered ++ unproven ++
    operators.map fun operator => .declareOperator operator.name operator.consumer

def SharedLedgers.step (hash : Bytes → H) (s : SharedLedgers H) : SharedAct H → SharedLedgers H
  | .build spend endpoints operators =>
      { s with
        usage := (declarations spend endpoints operators).foldl UsageRegistry.step s.usage }
  | .callback filter operators contexts arrived callback =>
      let after := FilterState.step hash filter ⟨s.runs, operators, s.usage, contexts, arrived⟩
        callback
      ⟨after.runs, after.usage⟩

def sharedLedgers (hash : Bytes → H) (startedAt : UInt64) :
    Mealy (SharedLedgers H) (SharedAct H) Unit :=
  ⟨⟨.empty, .new startedAt⟩, fun s act => (s.step hash act, ())⟩

/-- Every record and every count is covered. -/
structure SharedLedgers.Covered (s : SharedLedgers H) : Prop where
  runs : s.runs.Covered
  usage : s.usage.Covered

private theorem covers_declarations {spend : Option UInt64} {endpoints : RunEndpoints}
    {operators : List Operator} {call : UsageCall}
    (h : call ∈ declarations spend endpoints operators) : call.Covers := by
  have hnone : call.usage = none := by
    unfold declarations at h
    rcases List.mem_append.mp h with h | h
    · rcases List.mem_append.mp h with h | h
      · obtain ⟨now, -, rfl⟩ := Option.map_eq_some_iff.mp (Option.mem_toList.mp h)
        rfl
      · split at h
        · split at h
          · rw [List.mem_singleton.mp h]
            rfl
          · cases h
        all_goals cases h
    · obtain ⟨operator, -, rfl⟩ := List.mem_map.mp h
      rfl
  intro usage husage
  rw [hnone] at husage
  cases husage

/-- **Step.** No act of any filter uncovers a total. -/
theorem SharedLedgers.Covered.step {hash : Bytes → H} {s : SharedLedgers H} (h : s.Covered)
    (act : SharedAct H) : (s.step hash act).Covered := by
  cases act with
  | build spend endpoints operators =>
      exact ⟨h.runs, h.usage.foldl fun call => covers_declarations⟩
  | callback filter operators contexts arrived callback =>
      let before : FilterState H := ⟨s.runs, operators, s.usage, contexts, arrived⟩
      refine ⟨?_, ?_⟩
      · show (before.step hash filter callback).runs.Covered
        cases before.runs_step hash filter callback with
        | unsettled calls hcalls => exact Runs.State.Covered.unsettled h.runs hcalls
        | settled id metadata unix metered admission hcallback hmetered hcaller hruns =>
            rw [hruns]
            refine Runs.State.Covered.settle h.runs _ (admission.covers_settled ?_)
            exact fun usage husage => (reported_of_reportedUsage husage).covers
        | dropped id metered admission hcallback hmetered hcaller hruns =>
            rw [hruns]
            exact Runs.State.Covered.settle h.runs _ admission.covers_dropped
      · show (before.step hash filter callback).usage.Covered
        rw [before.usage_step]
        exact h.usage.foldl (before.covers_usageCalls hash filter callback)

/-- **Run.** So all totals cover, whatever the filters. -/
theorem covered_run (hash : Bytes → H) (startedAt : UInt64) (acts : List (SharedAct H)) :
    ((sharedLedgers hash startedAt).run acts).Covered := by
  induction acts using List.reverseRecOn with
  | nil =>
      refine ⟨?_, UsageRegistry.covered_new startedAt⟩
      intro key run hrun
      cases hrun
  | append_singleton acts act ih =>
      rw [Mealy.run_concat]
      exact ih.step act

/-- What is promised of the totals. -/
structure TotalsCover (hash : Bytes → H) (startedAt : UInt64) : Prop where
  reported : ∀ metadata usage, reportedUsage metadata = some usage → Reported metadata usage
  added : ∀ a b : Tokens, a.Covers → b.Covers → (a.add b).Covers
  reached : ∀ acts, ((sharedLedgers hash startedAt).run acts).Covered

/-- **No ledger understates its total.** Whatever filters share a registry, in every state that the
building of them and the callbacks of their requests lead to, interleaved in any order. -/
theorem totals_cover (hash : Bytes → H) (startedAt : UInt64) : TotalsCover hash startedAt :=
  ⟨fun _ _ => reported_of_reportedUsage, fun _ _ => Tokens.Covers.add, covered_run hash startedAt⟩

end

end CredentialBroker
