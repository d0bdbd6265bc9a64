import CredentialBroker.Filter.Ledgers

/-!
# Every response is counted once

The ledgers of the usage registry and the records of the runs are behind different locks, and an
admission that is not settled settles itself when it is dropped. For every interleaving of the
callbacks of any number of requests, `counted_once` says that

* every ending is of a request under way, and no request ends twice;
* the registry's ledgers are the sum of the endings, each counted by all of them alike;
* the record of the run a request was admitted for, if the run is still remembered, gets the same
  delta, and nothing else changes what a record has counted.
-/

namespace CredentialBroker

/-! ## Records -/

/-- What an outcome adds. -/
def Runs.Outcome.delta : Runs.Outcome → Delta
  | .metered usage => .response usage.tokens
  | .unmetered => .unmetered
  | .failed => .nothing

theorem totals_record (outcome : Runs.Outcome) (record : RunRecord) :
    (outcome.record record).totals = outcome.delta.total record.totals := by
  cases outcome with
  | metered usage => exact Runs.totals_add record usage
  | unmetered => rfl
  | failed => rfl

/-- What an ending makes of the totals of the run registered under a key. -/
def Ending.total (ending : Ending) (key : RunKey) (totals : Totals) : Totals :=
  if ending.holder = .run key then ending.delta.total totals else totals

section

variable {H : Type} [DecidableEq H]

omit [DecidableEq H] in
/-- Settling changes the totals of the run it is of. -/
private theorem totals_settle (s : Runs.State H) (key : RunKey) (outcome : Runs.Outcome)
    (k : RunKey) :
    ((Runs.settle s key outcome).runs.lookup k).map (fun run => run.record.totals) =
      (s.runs.lookup k).map fun run =>
        if key = k then outcome.delta.total run.record.totals else run.record.totals := by
  show ((s.runs.modify key _).lookup k).map _ = _
  rw [Assoc.lookup_modify]
  by_cases hk : k = key
  · subst hk
    simp only [if_true, Option.map_map]
    congr 1
    funext run
    exact totals_record outcome run.record
  · simp only [hk, Ne.symm hk, if_false]

/-- An admission settles with the delta of the ending. -/
private theorem delta_settled (admission : Runs.Admission) (reported : Option Usage) :
    (admission.settled reported).delta =
      if admission.usageFree then .nothing else .of reported admission.success := by
  unfold Runs.Admission.settled
  split
  · rfl
  · cases reported with
    | some usage => rfl
    | none => cases admission.success <;> rfl

private theorem delta_dropped (admission : Runs.Admission) :
    admission.dropped.delta =
      if admission.usageFree then .nothing else .of none admission.success := by
  unfold Runs.Admission.dropped
  cases admission.usageFree <;> cases admission.success <;> rfl

namespace FilterState

variable {s : FilterState H} {hash : Bytes → H} {filter : RunTokenFilter}

/-- The records after a context ends: the run it was admitted for gets the delta, if it is still
remembered. -/
theorem totals_ending (hcoherent : ∀ id metered, s.contexts.lookup id = some metered →
      metered.Coherent) {callback : Callback} {ending : Ending}
    (h : s.ending callback = some ending) (k : RunKey) :
    ((s.step hash filter callback).runs.runs.lookup k).map (fun run => run.record.totals) =
      (s.runs.runs.lookup k).map fun run => ending.total k run.record.totals := by
  cases callback with
  | request out request cluster => cases h
  | response id head unix => cases h
  | body id endOfStream metadata unix =>
      cases endOfStream with
      | false => cases h
      | true =>
          obtain ⟨metered, hmetered, hending⟩ := Option.bind_eq_some_iff.mp h
          obtain ⟨caller, hcaller, rfl⟩ := Option.map_eq_some_iff.mp hending
          simp only [step, onResponseBody, hmetered, if_true]
          cases caller with
          | run admission =>
              -- the admission was told of the response's status when the context was
              have hsuccess := (hcoherent id metered hmetered).success admission hcaller
              simp only [settle, hcaller]
              rw [totals_settle, delta_settled, hsuccess]
              congr 1
              funext run
              simp only [Ending.total, Caller.holder, Holder.run.injEq]
              rfl
          | operator slot =>
              -- an operator's response is no run's
              simp only [settle, hcaller]
              simp [Ending.total, Caller.holder]
  | drop id =>
      obtain ⟨metered, hmetered, hending⟩ := Option.bind_eq_some_iff.mp h
      obtain ⟨caller, hcaller, rfl⟩ := Option.map_eq_some_iff.mp hending
      simp only [step, onDrop, hmetered]
      cases caller with
      | run admission =>
          have hsuccess := (hcoherent id metered hmetered).success admission hcaller
          simp only [hcaller]
          rw [totals_settle, delta_dropped, hsuccess]
          congr 1
          funext run
          simp only [Ending.total, Caller.holder, Holder.run.injEq]
          rfl
      | operator slot =>
          simp only [hcaller]
          simp [Ending.total, Caller.holder]

variable (hash filter) in
/-- A callback that ends no injected request settles nothing. -/
theorem unsettled_step {callback : Callback} (h : s.ending callback = none) :
    ∃ calls, Runs.Unsettled hash s.runs calls (s.step hash filter callback).runs := by
  cases s.runs_step hash filter callback with
  | unsettled calls hcalls => exact ⟨calls, hcalls⟩
  | settled id metadata unix metered admission hcallback hmetered hcaller hruns =>
      rw [hcallback] at h
      simp [ending, hmetered, Metered.ending, hcaller] at h
  | dropped id metered admission hcallback hmetered hcaller hruns =>
      rw [hcallback] at h
      simp [ending, hmetered, Metered.ending, hcaller] at h

end FilterState

/-! ## The sum of the endings -/

/-- What a list of callbacks leaves in the ledgers and the records. -/
structure CountedOnce (hash : Bytes → H) (filter : RunTokenFilter)
    (m : Mealy (FilterState H) Callback Unit) (callbacks : List Callback) : Prop where
  /-- A callback brings about an ending exactly if it ends a request under way, and then the one the
  callbacks before it tell: of its cluster's provider, for whom it was admitted, with the success of
  its last response head and what was reported. -/
  ends : ∀ before callback after, callbacks = before ++ callback :: after →
    ∀ ending, (m.run before).ending callback = some ending ↔
      Ends hash filter m before callback ending
  /-- No request ends twice. -/
  once : ((endings m callbacks).map Ending.request).Nodup
  /-- Every ending that counts is counted for a provider. -/
  answered : ∀ ending ∈ endings m callbacks, ending.counted = true → ending.provider ≠ none
  /-- It has a charge exactly if it has something to count. -/
  charged : ∀ ending ∈ endings m callbacks, ending.counted = true →
    ∀ reported unix, ending.how = .complete reported unix →
      ((Charge.of reported ending.success).isSome ↔ ending.delta ≠ .nothing)
  /-- What the usage registry has counted is the endings, each alike in every ledger. -/
  ledgers : (m.run callbacks).usage.ledgers =
    (endings m callbacks).foldl Ledgers.count m.init.usage.ledgers
  /-- If spend is metered, every listed operator has a week to bill. -/
  listed : (m.run callbacks).usage.ledgers.Listed
  /-- An ending adds its delta to the record of the run that its key is registered for when the
  response ends, if any, and to no record of another key. -/
  records : ∀ before callback after, callbacks = before ++ callback :: after →
    ∀ ending, (m.run before).ending callback = some ending → ∀ key,
      ((m.run (before ++ [callback])).runs.runs.lookup key).map (fun run => run.record.totals) =
        ((m.run before).runs.runs.lookup key).map fun run => ending.total key run.record.totals
  /-- Every other callback leaves the records as they were, but for runs it registers anew. -/
  quiet : ∀ before callback after, callbacks = before ++ callback :: after →
    (m.run before).ending callback = none →
      ∃ calls, Runs.Unsettled hash (m.run before).runs calls (m.run (before ++ [callback])).runs ∧
        ∀ key run, (m.run (before ++ [callback])).runs.runs.lookup key = some run →
          (∃ old, (m.run before).runs.runs.lookup key = some old ∧
            run.record.totals = old.record.totals) ∨
          Runs.Registers hash (m.run before).runs calls key ∧ run.record.totals = {}

/-- What counts is for the provider of its cluster, if every injected cluster has one. -/
private theorem provider_of_ends {hash : Bytes → H} {filter : RunTokenFilter}
    {m : Mealy (FilterState H) Callback Unit}
    (hclusters : ∀ cluster, filter.credentials.lookup cluster = some .injected →
      Provider.forCluster (some cluster) ≠ none)
    {before : List Callback} {callback : Callback} {ending : Ending}
    (h : Ends hash filter m before callback ending) (hcounted : ending.counted = true) :
    ending.provider ≠ none := by
  cases h with
  | complete id metadata unix exchange hunderWay =>
      have hpaid : exchange.usageFree = false := by
        simpa [Ending.counted, Exchange.ending] using hcounted
      simp only [Exchange.ending, hpaid, Bool.false_eq_true, if_false]
      obtain ⟨pre, out, request, cluster, post, caller, -, -, hinjected, -⟩ := hunderWay
      exact hclusters cluster hinjected.mode
  | dropped id exchange hunderWay => cases hcounted

/-- **All ledgers count a response once and alike.** Whatever the filter with these injected
clusters, the runs, the operators and the history of the usage registry, for every interleaving of
the callbacks of any number of requests. -/
theorem counted_once (hash : Bytes → H) (filter : RunTokenFilter)
    (hclusters : ∀ cluster, filter.credentials.lookup cluster = some .injected →
      cluster = "anthropic" ∨ cluster = "inference-backend" ∨ cluster = "mistral")
    (runs : Runs.State H) (operators : Operators H) (startedAt : UInt64)
    (history : List UsageCall) (callbacks : List Callback) :
    CountedOnce hash filter
      (filter.metering hash runs operators ((usageRegistry startedAt).run history)) callbacks := by
  have hproviders : ∀ cluster, filter.credentials.lookup cluster = some .injected →
      Provider.forCluster (some cluster) ≠ none := by
    intro cluster hmode
    rcases hclusters cluster hmode with rfl | rfl | rfl <;> decide
  have hcoherent : ∀ before id metered,
      ((filter.metering hash runs operators ((usageRegistry startedAt).run history)).run
        before).contexts.lookup id = some metered → metered.Coherent :=
    fun before id metered => coherent_of_lookup hash filter hproviders _ _ _
  have hledgers := Mealy.read_run
    (m := filter.metering hash runs operators ((usageRegistry startedAt).run history))
    (fun s => s.usage.ledgers) (fun event => event.1.ending event.2) Ledgers.count
    (fun before callback => FilterState.ledgers_step _ (hcoherent before) callback) callbacks
  refine ⟨?_, ?_, ?_, ?_, hledgers, ?_, ?_, ?_⟩
  · intro before callback after _ ending
    exact ending_iff hash filter _ _ _ before callback ending
  · exact nodup_endings hash filter _ _ _ callbacks
  · intro ending hending hcounted
    obtain ⟨⟨s, callback⟩, hevent, hended⟩ := List.mem_filterMap.mp hending
    obtain ⟨before, after, -, rfl⟩ := Mealy.exists_of_mem_trace _ hevent
    exact provider_of_ends hproviders ((ending_iff hash filter _ _ _ _ _ _).mp hended) hcounted
  · intro ending _ hcounted reported unix hhow
    have hpaid : ending.usageFree = false := by simpa [Ending.counted, hhow] using hcounted
    have hdelta : ending.delta = .of reported ending.success := by
      simp [Ending.delta, hpaid, hhow]
    rw [hdelta]
    exact Charge.isSome_of reported ending.success
  · rw [hledgers]
    refine List.foldlRecOn _ _ (listed_of_history startedAt history) ?_
    intro ledgers hlisted ending _
    exact hlisted.count ending
  · intro before callback after _ ending hending key
    rw [Mealy.run_concat]
    exact FilterState.totals_ending (hcoherent before) hending key
  · intro before callback after _ hending
    rw [Mealy.run_concat]
    obtain ⟨calls, hcalls⟩ := FilterState.unsettled_step hash filter hending
    exact ⟨calls, hcalls, fun key run => Runs.totals_of_unsettled hcalls⟩

end

/-- What `token_count` finds in a response of 10 tokens in and 5 out. -/
def sampleMetadata : TokenMetadata :=
  { input := some (ascii "10"), output := some (ascii "5"), model := some "claude-test" }

/-- Two requests of a job's run side by side, of which one ends its stream and one is dropped. -/
def sampleCallbacks : List Callback :=
  [.request sampleOutside sampleRequest (some "anthropic"),
    .request sampleOutside sampleRequest (some "anthropic"), .response 1 (some ⟨200, []⟩) 7200,
    .response 0 (some ⟨200, []⟩) 7200, .body 1 false {} 7200, .body 1 true sampleMetadata 7200,
    .drop 0, .drop 1]

def sampleMetering : Mealy (FilterState Bytes) Callback Unit :=
  (RunTokenFilter.praxis .absent none).metering id ((Runs.machine id).run Runs.retryCalls) ∅
    ((usageRegistry 0).run [.meterSpend 0])

/-- The shipped filter injects for the three clusters, and each of the two requests ends once. -/
theorem counted_once_sample :
    CountedOnce id (.praxis .absent none) sampleMetering sampleCallbacks ∧
      (endings sampleMetering sampleCallbacks).map (fun ending => (ending.request, ending.delta)) =
        [(1, .response ⟨10, 0, 5, 0, 15⟩), (0, .unmetered)] := by
  refine ⟨counted_once id (.praxis .absent none) ?_ _ ∅ 0 [.meterSpend 0] sampleCallbacks,
    by decide +kernel⟩
  intro cluster hmode
  have hentry : (⟨cluster, .injected⟩ : Σ _ : String, CredentialMode) ∈
      [⟨"inference-backend", .injected⟩, ⟨"anthropic", .injected⟩,
        ⟨"anthropic-pass-through", .passThrough⟩, ⟨"mistral", .injected⟩] :=
    AList.mem_lookup_iff.mp hmode
  simp only [List.mem_cons, List.not_mem_nil, Sigma.mk.injEq, heq_eq_eq, reduceCtorEq, and_false,
    and_true, or_false, false_or] at hentry
  tauto

end CredentialBroker
