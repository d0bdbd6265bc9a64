import CredentialBroker.Filter.Contexts

/-!
# How requests end

A metered request ends in one of two ways, by the end of its stream or because its context is
dropped. Only an injected one has a caller to settle.

* `UnderWay` says, of a list of callbacks alone, that a request was injected, for whom it was
  admitted, and that nothing has ended it since.
* `ending_iff` shows that a callback brings about an ending exactly if it ends a request under way,
  and then with the provider, the holder and the success that the callbacks tell.
* `nodup_endings` is that no request ends twice.
-/

namespace CredentialBroker

variable {H : Type} [DecidableEq H] {hash : Bytes → H} {filter : RunTokenFilter}
  {m : Mealy (FilterState H) Callback Unit}

/-! ## How a request ends -/

/-- Who an injected request was admitted for. -/
inductive Holder where
  | run (key : RunKey)
  | operator (name : String)
  deriving DecidableEq, Repr

def Holder.isRun : Holder → Bool
  | run _ => true
  | operator _ => false

def Holder.isUnproven : Holder → Bool
  | run key => key.isUnproven
  | operator _ => false

def Caller.holder : Caller → Holder
  | run admission => .run admission.key
  | operator slot => .operator slot.name

def Caller.usageFree : Caller → Bool
  | run admission => admission.usageFree
  | operator slot => slot.usageFree

/-- How the response to a request came to its end. -/
inductive End where
  /-- The end of its stream, with what was reported by then, at `unix`. -/
  | complete (reported : Option Usage) (unix : UInt64)
  /-- Its context was dropped before. -/
  | dropped
  deriving DecidableEq, Repr

/-- The end of an injected request. -/
structure Ending where
  request : Nat
  /-- The provider whose response it is, if its usage counts. -/
  provider : Option Provider
  holder : Holder
  consumer : Consumer
  usageFree : Bool
  success : Bool
  how : End
  deriving DecidableEq, Repr

/-- The ending of a metered request, if the broker's credential was injected. -/
def Metered.ending (metered : Metered) (id : Nat) (how : End) : Option Ending :=
  metered.caller.map fun caller =>
    { request := id
      provider := metered.provider
      holder := caller.holder
      consumer := caller.consumer
      usageFree := caller.usageFree
      success := metered.success
      how := how }

namespace FilterState

/-- The ending a callback brings about, if it ends an injected request. -/
def ending (s : FilterState H) : Callback → Option Ending
  | .body id true metadata unix =>
      (s.contexts.lookup id).bind (Metered.ending · id (.complete (reportedUsage metadata) unix))
  | .drop id => (s.contexts.lookup id).bind (Metered.ending · id .dropped)
  | _ => none

end FilterState

/-- What is known of an injected request while it is under way. -/
structure Exchange where
  cluster : String
  holder : Holder
  consumer : Consumer
  /-- Its path uses no tokens. -/
  usageFree : Bool
  /-- Its last response head is a success. -/
  success : Bool
  deriving DecidableEq, Repr

/-- The ending of a request by what was known of it: the provider is that of its cluster. -/
def Exchange.ending (exchange : Exchange) (id : Nat) (how : End) : Ending where
  request := id
  provider := if exchange.usageFree then none else Provider.forCluster (some exchange.cluster)
  holder := exchange.holder
  consumer := exchange.consumer
  usageFree := exchange.usageFree
  success := exchange.success
  how := how

variable (hash filter m) in
/-- By the callbacks `before` alone, request number `id` is under way: it arrived injected, was
admitted for a caller, and nothing has ended it since. -/
inductive UnderWay (before : List Callback) (id : Nat) : Exchange → Prop where
  | intro (pre : List Callback) (out : Outside) (request : Request) (cluster : String)
      (post : List Callback) (caller : Caller)
      (hsplit : before = pre ++ .request out request (some cluster) :: post)
      (hid : Callback.requests pre = id)
      (hinjected :
        Injected hash filter (m.run pre).world out.unsettled request cluster caller)
      (hpost : ∀ callback ∈ post, callback.ends id = false) :
      UnderWay before id
        ⟨cluster, caller.holder, caller.consumer, decide (request.path ∈ filter.usageFreePaths),
          Callback.succeeded id post⟩

variable (hash filter m) in
/-- By the callbacks before it alone, a callback ends a request under way. -/
inductive Ends (before : List Callback) : Callback → Ending → Prop where
  | complete (id : Nat) (metadata : TokenMetadata) (unix : UInt64) (exchange : Exchange)
      (hunderWay : UnderWay hash filter m before id exchange) :
      Ends before (.body id true metadata unix)
        (exchange.ending id (.complete (reportedUsage metadata) unix))
  | dropped (id : Nat) (exchange : Exchange)
      (hunderWay : UnderWay hash filter m before id exchange) :
      Ends before (.drop id) (exchange.ending id .dropped)

/-- An admission starts without a success. -/
private theorem answered_of_injected {world : World H} {out : Outside} {request : Request}
    {cluster : String} {caller : Caller}
    (h : Injected hash filter world out request cluster caller) :
    caller.answered false = caller := by
  obtain ⟨subject, hadm⟩ := h.admitted
  unfold RunTokenFilter.admitRequest at hadm
  split at hadm
  · cases hadm
  · split at hadm
    · split at hadm <;> cases hadm
      rfl
    · split at hadm
      · cases hadm
      · split at hadm
        · next hanswer =>
            cases hadm
            unfold Runs.admitRequest at hanswer
            dsimp only at hanswer
            split at hanswer
            · cases hanswer
            · split at hanswer
              · cases hanswer
              · split at hanswer <;> cases hanswer
                rfl
        · cases hadm
        · cases hadm

/-- A request has heard the last of its response heads, on both flags. -/
private theorem foldl_hear {first : Metered} (hfirst : first.answered false = first) (id : Nat)
    (post : List Callback) :
    post.foldl (Metered.hear id) first = first.answered (Callback.succeeded id post) := by
  induction post using List.reverseRecOn with
  | nil => exact hfirst.symm
  | append_singleton post callback ih =>
      rw [List.foldl_append, ih]
      simp only [Callback.succeeded, List.foldl_append, List.foldl_cons, List.foldl_nil,
        Metered.hear]
      cases hsuccess : callback.success id with
      | none => rfl
      | some success =>
          obtain ⟨mode, provider, old, caller⟩ := first
          cases caller with
          | none => rfl
          | some caller => cases caller <;> rfl

/-- A context holds an exchange: all its flags are those of the exchange. -/
structure Metered.Of (metered : Metered) (exchange : Exchange) : Prop where
  provider : metered.provider =
    if exchange.usageFree then none else Provider.forCluster (some exchange.cluster)
  success : metered.success = exchange.success
  caller : ∃ caller, metered.caller = some caller ∧ caller.holder = exchange.holder ∧
    caller.consumer = exchange.consumer ∧ caller.usageFree = exchange.usageFree ∧
    ∀ admission, caller = .run admission → admission.success = exchange.success

theorem Metered.Of.ending {metered : Metered} {exchange : Exchange} (h : metered.Of exchange)
    (id : Nat) (how : End) : metered.ending id how = some (exchange.ending id how) := by
  obtain ⟨hprovider, hsuccess, caller, hcaller, hholder, hconsumer, hfree, -⟩ := h
  simp [Metered.ending, Exchange.ending, hprovider, hsuccess, hcaller, hholder, hconsumer, hfree]

private theorem of_injected (cluster : String) (caller : Caller) (usageFree success : Bool) :
    ((Metered.injected cluster caller usageFree).answered success).Of
      ⟨cluster, caller.holder, caller.consumer, usageFree, success⟩ := by
  refine ⟨rfl, rfl, _, rfl, ?_⟩
  cases caller with
  | run admission =>
      refine ⟨rfl, rfl, rfl, ?_⟩
      intro admission' heq
      cases heq
      rfl
  | operator slot =>
      refine ⟨rfl, rfl, rfl, ?_⟩
      intro admission' heq
      cases heq

private theorem answered_injected {world : World H} {out : Outside} {request : Request}
    {cluster : String} {caller : Caller}
    (h : Injected hash filter world out request cluster caller) (usageFree : Bool) :
    (Metered.injected cluster caller usageFree).answered false =
      .injected cluster caller usageFree := by
  have hcaller := answered_of_injected h
  cases caller with
  | run admission =>
      have hsuccess : admission.success = false := by
        injection hcaller with hadmission
        rw [← hadmission]
      simp [Metered.injected, Metered.answered, Caller.answered, Caller.setUsageFree, hsuccess]
  | operator slot => rfl

/-- What a context holds: nothing to settle, or an exchange under way. -/
theorem held_cases {before : List Callback} {id : Nat} {metered : Metered}
    (h : Held hash filter m before id metered) :
    (metered.caller = none ∧ metered.provider = none) ∨
      ∃ exchange, UnderWay hash filter m before id exchange ∧ metered.Of exchange := by
  obtain ⟨pre, out, request, cluster, post, first, hsplit, hid, hfirst, hpost, rfl⟩ := h
  rcases metered_cases hfirst with rfl | ⟨name, caller, rfl, hinjected, rfl⟩
  · left
    rw [foldl_hear rfl]
    exact ⟨rfl, rfl⟩
  · right
    rw [foldl_hear (answered_injected hinjected _)]
    exact ⟨_, .intro pre out request name post caller hsplit hid hinjected hpost,
      of_injected name caller _ _⟩

/-- What is under way is in its context. -/
theorem held_of_underWay {before : List Callback} {id : Nat} {exchange : Exchange}
    (h : UnderWay hash filter m before id exchange) :
    ∃ metered, Held hash filter m before id metered ∧ metered.Of exchange := by
  obtain ⟨pre, out, request, cluster, post, caller, hsplit, hid, hinjected, hpost⟩ := h
  refine ⟨_, ⟨pre, out, request, some cluster, post, _, hsplit, hid,
    metered_of_injected hinjected, hpost, rfl⟩, ?_⟩
  rw [foldl_hear (answered_injected hinjected _)]
  exact of_injected cluster caller _ _

variable (hash filter) in
/-- **Every ending is of a request under way**, with what the callbacks say of it. -/
theorem ending_iff (runs : Runs.State H) (operators : Operators H) (usage : UsageRegistry)
    (before : List Callback) (callback : Callback) (ending : Ending) :
    ((filter.metering hash runs operators usage).run before).ending callback = some ending ↔
      Ends hash filter (filter.metering hash runs operators usage) before callback ending := by
  -- both kinds of end read the context the same way
  have hread : ∀ id how, (((filter.metering hash runs operators usage).run before).contexts.lookup
      id).bind (Metered.ending · id how) = some ending ↔
        ∃ exchange, UnderWay hash filter (filter.metering hash runs operators usage) before id
          exchange ∧ ending = exchange.ending id how := by
    intro id how
    rw [Option.bind_eq_some_iff]
    constructor
    · rintro ⟨metered, hmetered, hending⟩
      rcases held_cases ((lookup_contexts hash filter _ _ _ _ _ _).mp hmetered) with
        ⟨hcaller, -⟩ | ⟨exchange, hunderWay, hof⟩
      · simp [Metered.ending, hcaller] at hending
      · rw [hof.ending, Option.some.injEq] at hending
        exact ⟨exchange, hunderWay, hending.symm⟩
    · rintro ⟨exchange, hunderWay, rfl⟩
      obtain ⟨metered, hheld, hof⟩ := held_of_underWay hunderWay
      exact ⟨metered, (lookup_contexts hash filter _ _ _ _ _ _).mpr hheld, hof.ending id how⟩
  constructor
  · intro h
    cases callback with
    | request out request cluster => cases h
    | response id head unix => cases h
    | body id endOfStream metadata unix =>
        cases endOfStream with
        | false => cases h
        | true =>
            obtain ⟨exchange, hunderWay, rfl⟩ := (hread id _).mp h
            exact .complete id metadata unix exchange hunderWay
    | drop id =>
        obtain ⟨exchange, hunderWay, rfl⟩ := (hread id _).mp h
        exact .dropped id exchange hunderWay
  · intro h
    cases h with
    | complete id metadata unix exchange hunderWay =>
        exact (hread id _).mpr ⟨exchange, hunderWay, rfl⟩
    | dropped id exchange hunderWay => exact (hread id _).mpr ⟨exchange, hunderWay, rfl⟩

/-! ## One ending each -/

/-- The endings of a list of callbacks, in order. -/
def endings (m : Mealy (FilterState H) Callback Unit) (callbacks : List Callback) : List Ending :=
  (m.trace callbacks).filterMap fun event => event.1.ending event.2

/-- A callback ends a request that has a context. -/
private theorem ends_of_ending {s : FilterState H} {callback : Callback} {ending : Ending}
    (h : s.ending callback = some ending) :
    callback.ends ending.request = true ∧ s.contexts.lookup ending.request ≠ none := by
  have hread : ∀ id how, (s.contexts.lookup id).bind (Metered.ending · id how) = some ending →
      ending.request = id ∧ s.contexts.lookup id ≠ none := by
    intro id how hbind
    obtain ⟨metered, hmetered, hending⟩ := Option.bind_eq_some_iff.mp hbind
    obtain ⟨caller, -, rfl⟩ := Option.map_eq_some_iff.mp hending
    exact ⟨rfl, by simp [hmetered]⟩
  cases callback with
  | request out request cluster => cases h
  | response id head unix => cases h
  | body id endOfStream metadata unix =>
      cases endOfStream with
      | false => cases h
      | true =>
          obtain ⟨rfl, hcontext⟩ := hread id _ h
          exact ⟨by simp [Callback.ends], hcontext⟩
  | drop id =>
      obtain ⟨rfl, hcontext⟩ := hread id _ h
      exact ⟨by simp [Callback.ends], hcontext⟩

/-- A request that has arrived and has no context gets none. -/
private theorem lookup_step_none {s : FilterState H}
    (hfresh : s.contexts.lookup s.arrived = none) {id : Nat} (hid : id < s.arrived)
    {callback : Callback} (h : callback.ends id = true ∨ s.contexts.lookup id = none) :
    (s.step hash filter callback).contexts.lookup id = none := by
  by_contra hsome
  obtain ⟨metered, hmetered⟩ := Option.ne_none_iff_exists'.mp hsome
  rcases (s.lookup_step hfresh callback id metered).mp hmetered with
    ⟨_, _, _, -, heq, -⟩ | ⟨hends, old, hold, -⟩
  · exact Nat.ne_of_lt hid heq.symm
  · rcases h with h | h
    · rw [h] at hends
      cases hends
    · rw [h] at hold
      cases hold

theorem endings_concat (callbacks : List Callback) (callback : Callback) :
    endings m (callbacks ++ [callback]) =
      endings m callbacks ++ ((m.run callbacks).ending callback).toList := by
  simp only [endings, Mealy.trace_concat, List.filterMap_append]
  cases hending : (m.run callbacks).ending callback <;> simp [hending]

variable (hash filter) in
/-- A request with a context has arrived. -/
private theorem lt_arrived (runs : Runs.State H) (operators : Operators H) (usage : UsageRegistry)
    (callbacks : List Callback) {id : Nat}
    (h : ((filter.metering hash runs operators usage).run callbacks).contexts.lookup id ≠ none) :
    id < ((filter.metering hash runs operators usage).run callbacks).arrived := by
  obtain ⟨metered, hmetered⟩ := Option.ne_none_iff_exists'.mp h
  rw [arrived_run hash filter]
  exact ((lookup_contexts hash filter _ _ _ _ _ _).mp hmetered).lt

/-- Every request in `ended` ended once: it has arrived, and its context is gone for good. -/
private structure EndedOnce (s : FilterState H) (ended : List Nat) : Prop where
  nodup : ended.Nodup
  arrived : ∀ id ∈ ended, id < s.arrived
  gone : ∀ id ∈ ended, s.contexts.lookup id = none

/-- **Step.** A request that ends has a context, so it had not ended before. -/
private theorem EndedOnce.step {s : FilterState H} {ended : List Nat} (h : EndedOnce s ended)
    (hlt : ∀ id, s.contexts.lookup id ≠ none → id < s.arrived) (callback : Callback) :
    EndedOnce (s.step hash filter callback)
      (ended ++ (s.ending callback).toList.map Ending.request) := by
  have hfresh : s.contexts.lookup s.arrived = none := by
    by_contra hsome
    exact Nat.lt_irrefl _ (hlt _ hsome)
  have hgrows : s.arrived ≤ (s.step hash filter callback).arrived := by
    rw [FilterState.arrived_step]
    exact Nat.le_add_right _ _
  have hstill : ∀ id ∈ ended, (s.step hash filter callback).contexts.lookup id = none :=
    fun id hid => lookup_step_none hfresh (h.arrived id hid) (.inr (h.gone id hid))
  cases hending : s.ending callback with
  | none =>
      rw [Option.toList_none, List.map_nil, List.append_nil]
      exact ⟨h.nodup, fun id hid => (h.arrived id hid).trans_le hgrows, hstill⟩
  | some ending =>
      obtain ⟨hends, hcontext⟩ := ends_of_ending hending
      have harrived := hlt _ hcontext
      have hnew : ending.request ∉ ended := fun hid => hcontext (h.gone _ hid)
      rw [Option.toList_some, List.map_cons, List.map_nil, ← List.concat_eq_append]
      refine ⟨h.nodup.concat hnew, ?_, ?_⟩
      · intro id hid
        rw [List.concat_eq_append, List.mem_append, List.mem_singleton] at hid
        rcases hid with hid | rfl
        · exact (h.arrived id hid).trans_le hgrows
        · exact harrived.trans_le hgrows
      · intro id hid
        rw [List.concat_eq_append, List.mem_append, List.mem_singleton] at hid
        rcases hid with hid | rfl
        · exact hstill id hid
        · exact lookup_step_none hfresh harrived (.inl hends)

variable (hash filter) in
/-- **Every request ends at most once.** -/
theorem nodup_endings (runs : Runs.State H) (operators : Operators H) (usage : UsageRegistry)
    (callbacks : List Callback) :
    ((endings (filter.metering hash runs operators usage) callbacks).map
      Ending.request).Nodup := by
  suffices h : EndedOnce ((filter.metering hash runs operators usage).run callbacks)
      ((endings (filter.metering hash runs operators usage) callbacks).map Ending.request) from
    h.nodup
  induction callbacks using List.reverseRecOn with
  | nil => exact ⟨List.nodup_nil, by simp [endings], by simp [endings]⟩
  | append_singleton callbacks callback ih =>
      rw [Mealy.run_concat, endings_concat, List.map_append]
      exact ih.step (fun id => lt_arrived hash filter runs operators usage callbacks) callback

/-! ## Flags that agree -/

/-- The flags of a context agree: it has a provider exactly if it may use tokens, and its admission
holds the same success as itself. -/
structure Metered.Coherent (metered : Metered) : Prop where
  free : metered.caller = none → metered.provider = none
  provider : ∀ caller, metered.caller = some caller →
    (metered.provider = none ↔ caller.usageFree = true)
  success : ∀ admission, metered.caller = some (.run admission) →
    admission.success = metered.success

variable (hash filter) in
/-- If the broker has a provider for every injected cluster, the flags of every context agree. -/
theorem coherent_of_lookup
    (hclusters : ∀ cluster, filter.credentials.lookup cluster = some .injected →
      Provider.forCluster (some cluster) ≠ none)
    (runs : Runs.State H) (operators : Operators H) (usage : UsageRegistry)
    {before : List Callback} {id : Nat} {metered : Metered}
    (h : ((filter.metering hash runs operators usage).run before).contexts.lookup id =
      some metered) : metered.Coherent := by
  rcases held_cases ((lookup_contexts hash filter _ _ _ _ _ _).mp h) with
    ⟨hcaller, hprovider⟩ | ⟨exchange, hunderWay, hof⟩
  · exact ⟨fun _ => hprovider, by simp [hcaller], by simp [hcaller]⟩
  · obtain ⟨hprovider, hsuccess, caller, hcaller, -, -, hfree, hadmission⟩ := hof
    obtain ⟨pre, out, request, cluster, post, admitted, -, -, hinjected, -⟩ := hunderWay
    refine ⟨by simp [hcaller], ?_, ?_⟩
    · intro caller' hcaller'
      obtain rfl := Option.some.inj (hcaller.symm.trans hcaller')
      have hsome := hclusters cluster hinjected.mode
      rw [hprovider, hfree]
      by_cases hpath : request.path ∈ filter.usageFreePaths
      · simp [hpath]
      · simpa [hpath] using hsome
    · intro admission hrun
      obtain rfl := Option.some.inj (hcaller.symm.trans hrun)
      rw [hadmission admission rfl, hsuccess]

end CredentialBroker
