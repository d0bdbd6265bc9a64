import CredentialBroker.Filter.Metering

/-!
# What the contexts hold

Three callbacks set the flags that say what a response is worth, and a fourth takes them away. What
a context holds at any time is a function of the callbacks so far.

* `unsettled_onRequest` and `metered_cases` say what `on_request` does to the registry and to the
  context of its request, and no later proof unfolds it. `FilterState.runs_step` says what any
  callback does to the registry.
* `Held` reads a list of callbacks: the request was metered when it arrived, heard the rest, and has
  not ended. `lookup_contexts` is the induction: the contexts are just that.
-/

namespace CredentialBroker

variable {H : Type} [DecidableEq H] {hash : Bytes → H}

/-! ## What `on_request` does to the registry -/

namespace RunTokenFilter

open Runs

/-- The calls that come between are unsettled. -/
private theorem unsettled_between (out : Outside) (s : Runs.State H) :
    Unsettled hash s out.unsettled.between
      ((Runs.machine hash).runFrom s out.unsettled.between) := by
  refine ⟨rfl, ?_⟩
  intro call hcall
  have hfilter := (List.mem_filter.mp hcall).2
  simpa using hfilter

variable (hash) in
private theorem unsettled_authenticate (s : Runs.State H) (token : Bytes) (now : Instant) :
    Unsettled hash s [⟨now, .authenticate token⟩] (Runs.authenticate hash s token now).1 :=
  .one s rfl

variable (hash) in
private theorem unsettled_runOf (filter : RunTokenFilter) (s : Runs.State H) (headers : HeaderMap)
    (now : Instant) : ∃ calls, Unsettled hash s calls (filter.runOf hash s headers now).1 := by
  unfold runOf
  split
  · exact ⟨[], .nil s⟩
  · next token _ => exact ⟨_, unsettled_authenticate hash s _ now⟩

private theorem unsettled_registerUnproven (s : Runs.State H) (quota : Quota) (limits : Limits)
    (out : Outside) (headers : HeaderMap) :
    ∃ calls, Unsettled hash s calls (registerUnproven hash s quota limits out headers).1 := by
  unfold registerUnproven
  split
  · exact ⟨[], .nil s⟩
  · split
    · split
      · exact ⟨[], .nil s⟩
      · next run _ => exact ⟨[⟨out.now, .registerUnproven run limits quota out.random out.unix⟩],
          .one s rfl⟩
    · exact ⟨[], .nil s⟩

private theorem unsettled_register (registrar : Registrar) (s : Runs.State H) (out : Outside)
    (headers : HeaderMap) :
    ∃ calls, Unsettled hash s calls (register hash registrar s out headers).1 := by
  unfold register
  split
  · exact unsettled_registerUnproven s _ _ out headers
  · split
    · exact ⟨[], .nil s⟩
    · split
      · exact ⟨[], .nil s⟩
      · split
        · exact ⟨[], .nil s⟩
        · split
          case h_5 identity _ =>
              exact ⟨[⟨out.later, .register identity registrar.limits out.random out.unix⟩],
                .one s rfl⟩
          all_goals exact ⟨[], .nil s⟩

private theorem unsettled_serveSelf (filter : RunTokenFilter) (s : Runs.State H) (out : Outside)
    (headers : HeaderMap)
    {operation : Runs.State H → RunKey → Runs.State H × Option RunRecord}
    (hoperation : ∀ t key, ∃ calls, Unsettled hash t calls (operation t key).1) :
    ∃ calls, Unsettled hash s calls
      (filter.serveSelf hash s out.unsettled headers operation).1 := by
  obtain ⟨calls, hcalls⟩ := unsettled_runOf hash filter s headers out.unsettled.now
  unfold serveSelf
  split
  · next runs hrun =>
      rw [hrun] at hcalls
      exact ⟨calls, hcalls⟩
  · next runs key hrun =>
      rw [hrun] at hcalls
      obtain ⟨last, hlast⟩ :=
        hoperation ((Runs.machine hash).runFrom runs out.unsettled.between) key
      exact ⟨_, (hcalls.append (unsettled_between out runs)).append hlast⟩

private theorem unsettled_serveRuns (filter : RunTokenFilter) (registrar : Option Registrar)
    (s : Runs.State H) (out : Outside) (request : Request) :
    ∃ calls, Unsettled hash s calls
      (filter.serveRuns hash registrar s out.unsettled request).1 := by
  unfold serveRuns
  split
  · split
    · split
      · exact unsettled_register _ s _ request.headers
      · exact ⟨[], .nil s⟩
    · exact ⟨[], .nil s⟩
  · split
    · split
      · apply unsettled_serveSelf
        intro t key
        exact ⟨[⟨out.unsettled.now, .record key⟩], .one t rfl⟩
      · split
        · apply unsettled_serveSelf
          intro t key
          exact ⟨[⟨out.unsettled.now, .finish key out.unsettled.unix⟩], .one t rfl⟩
        · exact ⟨[], .nil s⟩
    · exact ⟨[], .nil s⟩

variable (hash) in
private theorem unsettled_admitRequest (filter : RunTokenFilter) (world : World H) (out : Outside)
    (headers : HeaderMap) (cluster : String) :
    ∃ calls, Unsettled hash world.runs calls
      (filter.admitRequest hash world out.unsettled headers cluster).1.runs := by
  unfold admitRequest
  split
  · exact ⟨[], .nil _⟩
  next token _ =>
  split
  · split <;> exact ⟨[], .nil _⟩
  · have hauth := unsettled_authenticate hash world.runs token out.unsettled.now
    split
    · next runs hrun =>
        rw [hrun] at hauth
        exact ⟨_, hauth⟩
    · next runs key hrun =>
        rw [hrun] at hauth
        -- the admission, whatever it answers
        have hadmit : Unsettled hash _ [⟨out.unsettled.now, .admitRequest key⟩]
            (Runs.admitRequest ((Runs.machine hash).runFrom runs out.unsettled.between) key
              out.unsettled.now).1 := .one _ rfl
        have hall := (hauth.append (unsettled_between out runs)).append hadmit
        split
        all_goals
          next hanswer =>
            rw [hanswer] at hall
            exact ⟨_, hall⟩

/-- **No request settles**: what `on_request` does to the registry are calls of other kinds. -/
theorem unsettled_onRequest (filter : RunTokenFilter) (world : World H) (out : Outside)
    (request : Request) (cluster : Option String) :
    ∃ calls, Unsettled hash world.runs calls
      (filter.onRequest hash world out.unsettled request cluster).1.runs := by
  unfold onRequest
  split
  · exact ⟨[], .nil _⟩
  split
  · exact ⟨[], .nil _⟩
  split
  · dsimp only
    split
    · exact ⟨[], .nil _⟩
    · exact unsettled_serveRuns filter none world.runs out request
    · exact unsettled_serveRuns filter _ world.runs out request
  split
  · exact ⟨[], .nil _⟩
  split
  · exact ⟨[], .nil _⟩
  split
  · exact ⟨[], .nil _⟩
  · unfold passThrough
    dsimp only
    split
    · exact ⟨[], .nil _⟩
    · split <;> exact ⟨[], .nil _⟩
  · next name _ =>
      have hadmit := unsettled_admitRequest hash filter world out request.headers name
      unfold injected
      dsimp only
      split
      · next refused =>
          rw [refused] at hadmit
          exact hadmit
      · next admitted =>
          rw [admitted] at hadmit
          split <;> exact hadmit

end RunTokenFilter

/-! ## What a callback does to the registry -/

/-- What a callback does to the runs: it makes calls that settle nothing, or the admission in a
context settles, at its end of stream with what was reported, or dropped. -/
inductive FilterState.RunsStep (hash : Bytes → H) (s : FilterState H) (callback : Callback)
    (runs : Runs.State H) : Prop where
  | unsettled (calls : List Runs.Call) (hcalls : Runs.Unsettled hash s.runs calls runs)
  | settled (id : Nat) (metadata : TokenMetadata) (unix : UInt64) (metered : Metered)
      (admission : Runs.Admission) (hcallback : callback = .body id true metadata unix)
      (hmetered : s.contexts.lookup id = some metered)
      (hcaller : metered.caller = some (.run admission))
      (hruns : runs =
        Runs.settle s.runs admission.key (admission.settled (reportedUsage metadata)))
  | dropped (id : Nat) (metered : Metered) (admission : Runs.Admission)
      (hcallback : callback = .drop id) (hmetered : s.contexts.lookup id = some metered)
      (hcaller : metered.caller = some (.run admission))
      (hruns : runs = Runs.settle s.runs admission.key admission.dropped)

variable (hash) in
theorem FilterState.runs_step (filter : RunTokenFilter) (s : FilterState H) (callback : Callback) :
    s.RunsStep hash callback (s.step hash filter callback).runs := by
  cases callback with
  | request out request cluster =>
      obtain ⟨calls, hcalls⟩ := RunTokenFilter.unsettled_onRequest filter s.world out request cluster
      exact .unsettled calls hcalls
  | response id head unix =>
      simp only [step, onResponse]
      split <;> exact .unsettled [] (.nil _)
  | body id endOfStream metadata unix =>
      simp only [step, onResponseBody]
      split
      · exact .unsettled [] (.nil _)
      · next metered hmetered =>
          cases endOfStream with
          | false => exact .unsettled [] (.nil _)
          | true =>
              simp only [settle, if_true]
              split
              · next admission hcaller =>
                  exact .settled id metadata unix metered admission rfl hmetered hcaller rfl
              · exact .unsettled [] (.nil _)
              · exact .unsettled [] (.nil _)
  | drop id =>
      simp only [step, onDrop]
      split
      · exact .unsettled [] (.nil _)
      · next metered hmetered =>
          split
          · next admission hcaller => exact .dropped id metered admission rfl hmetered hcaller rfl
          · exact .unsettled [] (.nil _)
          · exact .unsettled [] (.nil _)

/-! ## What `on_request` leaves in the context -/

/-- A request the filter lets on with the broker's credential, admitted for `caller`. -/
structure Injected (hash : Bytes → H) (filter : RunTokenFilter) (world : World H) (out : Outside)
    (request : Request) (cluster : String) (caller : Caller) : Prop where
  mode : filter.credentials.lookup cluster = some .injected
  path : request.path ∉ filter.publicPaths
  proceeds : (filter.onRequest hash world out request (some cluster)).2.2 = .ok .proceed
  admitted : ∃ subject,
    (filter.admitRequest hash world out request.headers cluster).2 = .ok (subject, caller)

/-- What an injected request is metered as. -/
def Metered.injected (cluster : String) (caller : Caller) (usageFree : Bool) : Metered :=
  ⟨.injected, if usageFree then none else Provider.forCluster (some cluster), false,
    some (caller.setUsageFree usageFree)⟩

/-- What a pass-through request is metered as. -/
def Metered.passThrough : Metered := ⟨.passThrough, none, false, none⟩

theorem onRequest_of_injected {filter : RunTokenFilter} {world : World H} {out : Outside}
    {request : Request} {cluster : String} {caller : Caller}
    (h : Injected hash filter world out request cluster caller) :
    filter.onRequest hash world out request (some cluster) =
      filter.injected hash world out request cluster := by
  obtain ⟨hforward, -⟩ := proceeds_of_onRequest
    (show filter.onRequest hash world out request (some cluster) = (_, _, _) from
      Prod.ext rfl (Prod.ext rfl h.proceeds))
  unfold RunTokenFilter.onRequest
  rw [if_neg hforward.usage, if_neg hforward.grant,
    if_neg (not_or.mpr ⟨hforward.runs, hforward.underRuns⟩),
    if_neg (Nat.not_lt.mpr hforward.single), if_neg h.path]
  simp [h.mode]

theorem metered_of_injected {filter : RunTokenFilter} {world : World H} {out : Outside}
    {request : Request} {cluster : String} {caller : Caller}
    (h : Injected hash filter world out request cluster caller) :
    (filter.onRequest hash world out request (some cluster)).2.1.metered =
      some (.injected cluster caller (decide (request.path ∈ filter.usageFreePaths))) := by
  have hproceeds := h.proceeds
  rw [onRequest_of_injected h] at hproceeds ⊢
  obtain ⟨subject, hadmitted⟩ := h.admitted
  have hadm : filter.admitRequest hash world out request.headers cluster =
      ((filter.admitRequest hash world out request.headers cluster).1, .ok (subject, caller)) :=
    Prod.ext rfl hadmitted
  unfold RunTokenFilter.injected at hproceeds ⊢
  rw [hadm] at hproceeds ⊢
  dsimp only at hproceeds ⊢
  split at hproceeds
  · cases hproceeds
  · next hsubject =>
      rw [if_neg hsubject]
      rfl

variable (hash) in
/-- What `on_request` comes to, if it meters anything. -/
private theorem onRequest_cases (filter : RunTokenFilter) (world : World H) (out : Outside)
    (request : Request) (cluster : Option String) :
    (filter.onRequest hash world out request cluster).2.1.metered = none ∨
      filter.onRequest hash world out request cluster = filter.passThrough world request ∨
      ∃ name, cluster = some name ∧ filter.credentials.lookup name = some .injected ∧
        request.path ∉ filter.publicPaths ∧
        filter.onRequest hash world out request cluster =
          filter.injected hash world out request name := by
  unfold RunTokenFilter.onRequest
  split
  · exact .inl rfl
  split
  · exact .inl rfl
  split
  · exact .inl rfl
  split
  · exact .inl rfl
  split
  · exact .inl rfl
  next hpath =>
  split
  · exact .inl rfl
  · exact .inr (.inl rfl)
  · next name hmode =>
      obtain ⟨_, rfl, hlookup⟩ := Option.bind_eq_some_iff.mp hmode
      obtain ⟨_, hfound, heq⟩ := Option.map_eq_some_iff.mp hlookup
      obtain ⟨rfl, rfl⟩ := Prod.mk.inj heq
      exact .inr (.inr ⟨_, rfl, hfound, hpath, rfl⟩)

/-- **What is metered.** A context gets a `Metered` for a pass-through request, or for an injected
one that goes on. -/
theorem metered_cases {filter : RunTokenFilter} {world : World H} {out : Outside}
    {request : Request} {cluster : Option String} {metered : Metered}
    (h : (filter.onRequest hash world out request cluster).2.1.metered = some metered) :
    metered = .passThrough ∨
      ∃ name caller, cluster = some name ∧ Injected hash filter world out request name caller ∧
        metered =
          .injected name caller (decide (request.path ∈ filter.usageFreePaths)) := by
  rcases onRequest_cases hash filter world out request cluster with
    hnone | hpass | ⟨name, rfl, hmode, hpath, hinjected⟩
  · rw [hnone] at h
    cases h
  · left
    rw [hpass] at h
    unfold RunTokenFilter.passThrough at h
    dsimp only at h
    split at h
    · cases h
    · split at h
      · cases h
      · exact (Option.some.inj h).symm
  · right
    have hcaller : ∃ subject caller,
        (filter.admitRequest hash world out request.headers name).2 = .ok (subject, caller) ∧
          (filter.injected hash world out request name).2.2 = .ok .proceed := by
      rw [hinjected] at h
      unfold RunTokenFilter.injected at h ⊢
      dsimp only at h ⊢
      split at h
      · cases h
      · next subject caller hadm =>
          split at h
          · cases h
          · next hsubject =>
              refine ⟨subject, caller, by rw [hadm], ?_⟩
              rw [if_neg hsubject]
    obtain ⟨subject, caller, hadm, hproceeds⟩ := hcaller
    have hinj : Injected hash filter world out request name caller :=
      ⟨hmode, hpath, hinjected ▸ hproceeds, subject, hadm⟩
    rw [metered_of_injected hinj] at h
    exact ⟨name, caller, rfl, hinj, (Option.some.inj h).symm⟩

/-! ## Reading a list of callbacks -/

namespace Callback

def isRequest : Callback → Bool
  | request .. => true
  | _ => false

/-- The callback ends request number `id`: the end of its stream, or its context dropped. -/
def ends (id : Nat) : Callback → Bool
  | body other endOfStream _ _ => endOfStream && other = id
  | drop other => other = id
  | _ => false

/-- Whether upstream succeeded, if the callback is a response head of request number `id`. -/
def success (id : Nat) : Callback → Option Bool
  | response other head _ => if other = id then some (head.any ResponseHead.isSuccess) else none
  | _ => none

/-- How many requests have arrived in `callbacks`, and so the number of the next. -/
def requests (callbacks : List Callback) : Nat := callbacks.countP isRequest

/-- The last response head of request number `id` in `callbacks` is a success. -/
def succeeded (id : Nat) (callbacks : List Callback) : Bool :=
  callbacks.foldl (fun success callback => (callback.success id).getD success) false

end Callback

/-- A metered request after a callback that does not end it. -/
def Metered.hear (id : Nat) (metered : Metered) (callback : Callback) : Metered :=
  match callback.success id with
  | some success => metered.answered success
  | none => metered

variable {filter : RunTokenFilter} {m : Mealy (FilterState H) Callback Unit}

variable (hash filter m) in
/-- By the callbacks `before` alone, request number `id` has `metered` in its context: it was
metered when it arrived, heard the rest, and has not ended. -/
def Held (before : List Callback) (id : Nat) (metered : Metered) : Prop :=
  ∃ pre out request cluster post first,
    before = pre ++ .request out request cluster :: post ∧ Callback.requests pre = id ∧
      (filter.onRequest hash (m.run pre).world out.unsettled request cluster).2.1.metered =
        some first ∧
      (∀ callback ∈ post, callback.ends id = false) ∧ metered = post.foldl (Metered.hear id) first

theorem Held.lt {before : List Callback} {id : Nat} {metered : Metered}
    (h : Held hash filter m before id metered) : id < Callback.requests before := by
  obtain ⟨pre, out, request, cluster, post, first, rfl, rfl, -⟩ := h
  simp only [Callback.requests, List.countP_append, List.countP_cons, Callback.isRequest, if_true]
  omega

/-- A request is held after one more callback if it just arrived, or was held and goes on. -/
theorem held_concat {before : List Callback} {callback : Callback} {id : Nat} {metered : Metered} :
    Held hash filter m (before ++ [callback]) id metered ↔
      (∃ out request cluster, callback = .request out request cluster ∧
        Callback.requests before = id ∧
        (filter.onRequest hash (m.run before).world out.unsettled request cluster).2.1.metered =
          some metered) ∨
      callback.ends id = false ∧
        ∃ old, Held hash filter m before id old ∧ metered = old.hear id callback := by
  constructor
  · rintro ⟨pre, out, request, cluster, post, first, hsplit, hid, hfirst, hpost, rfl⟩
    rcases List.eq_nil_or_concat post with rfl | ⟨post, last, rfl⟩
    · obtain ⟨rfl, hlast⟩ := List.append_inj' hsplit rfl
      exact .inl ⟨out, request, cluster, List.head_eq_of_cons_eq hlast, hid, hfirst⟩
    · rw [List.concat_eq_append] at hsplit hpost
      rw [← List.cons_append, ← List.append_assoc] at hsplit
      obtain ⟨rfl, hlast⟩ := List.append_inj' hsplit rfl
      obtain rfl := List.head_eq_of_cons_eq hlast
      refine .inr ⟨hpost _ (by simp), _, ⟨pre, out, request, cluster, post, first, rfl, hid, hfirst,
        fun other hother => hpost other (List.mem_append_left _ hother), rfl⟩, ?_⟩
      rw [List.concat_eq_append, List.foldl_append]
      rfl
  · rintro (⟨out, request, cluster, rfl, hid, hfirst⟩ | ⟨hends, old, hheld, rfl⟩)
    · exact ⟨before, out, request, cluster, [], metered, rfl, hid, hfirst, by simp, rfl⟩
    · obtain ⟨pre, out, request, cluster, post, first, rfl, hid, hfirst, hpost, rfl⟩ := hheld
      refine ⟨pre, out, request, cluster, post ++ [callback], first, by simp, hid, hfirst, ?_, ?_⟩
      · intro other hother
        rcases List.mem_append.mp hother with hother | hother
        · exact hpost other hother
        · rwa [List.mem_singleton.mp hother]
      · rw [List.foldl_append]
        rfl

/-! ## The contexts hold what is under way -/

namespace FilterState

variable (s : FilterState H)

@[simp] theorem contexts_settle (metered : Metered) (reported : Option Usage) (unix : UInt64) :
    (s.settle metered reported unix).contexts = s.contexts := by
  unfold settle; dsimp only; split <;> rfl

@[simp] theorem arrived_settle (metered : Metered) (reported : Option Usage) (unix : UInt64) :
    (s.settle metered reported unix).arrived = s.arrived := by
  unfold settle; dsimp only; split <;> rfl

theorem arrived_step (callback : Callback) :
    (s.step hash filter callback).arrived = s.arrived + if callback.isRequest then 1 else 0 := by
  cases callback with
  | request out request cluster => rfl
  | response id head unix =>
      simp only [step, onResponse]
      split <;> rfl
  | body id endOfStream metadata unix =>
      simp only [step, onResponseBody]
      split
      · rfl
      · split
        · exact arrived_settle _ _ _ _
        · rfl
  | drop id =>
      simp only [step, onDrop]
      split
      · rfl
      · split <;> rfl

private theorem lookup_onResponse (id : Nat) (head : Option ResponseHead) (unix : UInt64)
    (k : Nat) : (s.onResponse id head unix).contexts.lookup k =
      (s.contexts.lookup k).map (Metered.hear k · (.response id head unix)) := by
  unfold onResponse
  by_cases hk : id = k
  · subst hk
    cases hmetered : s.contexts.lookup id with
    | none => simp [hmetered]
    | some metered => simp [Metered.hear, Callback.success]
  · split
    · simp [Metered.hear, Callback.success, hk]
    · rw [Assoc.lookup_insert_eq, if_neg (Ne.symm hk)]
      simp [Metered.hear, Callback.success, hk]

private theorem lookup_onResponseBody (id : Nat) (endOfStream : Bool) (metadata : TokenMetadata)
    (unix : UInt64) (k : Nat) :
    (s.onResponseBody id endOfStream metadata unix).contexts.lookup k =
      if endOfStream ∧ id = k then none else s.contexts.lookup k := by
  unfold onResponseBody
  by_cases hk : id = k
  · subst hk
    cases hmetered : s.contexts.lookup id with
    | none => simp [hmetered]
    | some metered =>
        cases endOfStream with
        | true => simp
        | false => simp [hmetered]
  · split
    · simp [hk]
    · split
      · rw [contexts_settle, Assoc.lookup_erase_eq, if_neg (Ne.symm hk)]
        simp [hk]
      · simp [hk]

private theorem lookup_onDrop (id k : Nat) :
    (s.onDrop id).contexts.lookup k = if id = k then none else s.contexts.lookup k := by
  unfold onDrop
  by_cases hk : id = k
  · subst hk
    cases hmetered : s.contexts.lookup id with
    | none => simp [hmetered]
    | some metered =>
        dsimp only
        split <;> simp
  · split
    · simp [hk]
    · dsimp only
      split <;> simp [hk, Ne.symm hk]

/-- The contexts after a callback, in the terms of `held_concat`. -/
theorem lookup_step (hfresh : s.contexts.lookup s.arrived = none) (callback : Callback) (id : Nat)
    (metered : Metered) :
    (s.step hash filter callback).contexts.lookup id = some metered ↔
      (∃ out request cluster, callback = .request out request cluster ∧ s.arrived = id ∧
        (filter.onRequest hash s.world out.unsettled request cluster).2.1.metered =
          some metered) ∨
      callback.ends id = false ∧
        ∃ old, s.contexts.lookup id = some old ∧ metered = old.hear id callback := by
  cases callback with
  | request out request cluster =>
      have hlookup : (s.step hash filter (.request out request cluster)).contexts.lookup id =
          if s.arrived = id then
            (filter.onRequest hash s.world out.unsettled request cluster).2.1.metered
          else s.contexts.lookup id := by
        simp only [step, onRequest]
        cases hmetered :
            (filter.onRequest hash s.world out.unsettled request cluster).2.1.metered with
        | none =>
            dsimp only
            split
            · next hid => rw [← hid, hfresh]
            · rfl
        | some metered => simp only [Assoc.lookup_insert_eq, eq_comm (a := id)]
      rw [hlookup]
      by_cases hid : s.arrived = id
      · subst hid
        simp [hfresh]
      · simp [hid, Callback.ends, Metered.hear, Callback.success, eq_comm (a := metered)]
  | response other head unix =>
      show (s.onResponse other head unix).contexts.lookup id = some metered ↔ _
      rw [lookup_onResponse, Option.map_eq_some_iff]
      simp [Callback.ends, eq_comm (a := metered)]
  | body other endOfStream metadata unix =>
      show (s.onResponseBody other endOfStream metadata unix).contexts.lookup id = some metered ↔ _
      rw [lookup_onResponseBody]
      by_cases hends : endOfStream ∧ other = id
      · simp [Callback.ends, hends]
      · rw [if_neg hends]
        have hgoes : (endOfStream && decide (other = id)) = false := by
          simpa using hends
        simp [Callback.ends, hgoes, Metered.hear, Callback.success, eq_comm (a := metered)]
  | drop other =>
      show (s.onDrop other).contexts.lookup id = some metered ↔ _
      rw [lookup_onDrop]
      by_cases hends : other = id
      · simp [Callback.ends, hends]
      · simp [Callback.ends, hends, Metered.hear, Callback.success, eq_comm (a := metered)]

end FilterState

variable (hash filter) in
theorem arrived_run (runs : Runs.State H) (operators : Operators H) (usage : UsageRegistry)
    (callbacks : List Callback) :
    ((filter.metering hash runs operators usage).run callbacks).arrived =
      Callback.requests callbacks := by
  induction callbacks using List.reverseRecOn with
  | nil => rfl
  | append_singleton callbacks callback ih =>
      rw [Mealy.run_concat]
      show (FilterState.step hash filter _ callback).arrived = _
      rw [FilterState.arrived_step, ih]
      simp [Callback.requests]

variable (hash filter) in
/-- **The contexts hold what is under way**, and nothing else: a request is metered from when it
arrives to when it ends. -/
theorem lookup_contexts (runs : Runs.State H) (operators : Operators H) (usage : UsageRegistry)
    (before : List Callback) (id : Nat) (metered : Metered) :
    ((filter.metering hash runs operators usage).run before).contexts.lookup id = some metered ↔
      Held hash filter (filter.metering hash runs operators usage) before id metered := by
  induction before using List.reverseRecOn generalizing id metered with
  | nil =>
      constructor
      · intro h
        cases h
      · rintro ⟨pre, out, request, cluster, post, first, hsplit, -⟩
        simp at hsplit
  | append_singleton before callback ih =>
      rw [Mealy.run_concat, held_concat]
      show (FilterState.step hash filter _ callback).contexts.lookup id = some metered ↔ _
      -- requests are numbered as they arrive, so the next number is no context's yet
      have hfresh : ((filter.metering hash runs operators usage).run before).contexts.lookup
          ((filter.metering hash runs operators usage).run before).arrived = none := by
        by_contra hsome
        obtain ⟨held, hheld⟩ := Option.ne_none_iff_exists'.mp hsome
        have hlt := ((ih _ held).mp hheld).lt
        rw [arrived_run hash filter] at hlt
        exact Nat.lt_irrefl _ hlt
      rw [FilterState.lookup_step _ hfresh, arrived_run hash filter]
      simp only [ih]

end CredentialBroker
