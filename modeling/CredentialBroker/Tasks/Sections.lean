import CredentialBroker.Runs.Step
import CredentialBroker.Tasks.Basic

/-!
# What a critical section does

A critical section touches at most one of the things that requests share, or asks the registry one
thing. `Ran` has a case for each, with the stage or the answer that it leads to, and `ran_onRequest`
and `ran_advance` say that those are all. What the requests keep of the registry, the permits, the
key cache, the operators and the contexts is read off these cases.
-/

namespace CredentialBroker.Tasks

open Oidc RunTokenFilter

variable {H K : Type} [DecidableEq H] {hash : Bytes → H} {d : Deployed K}

/-! ## What one leads to -/

/-- The operator whose count the stage is to take back. -/
def Stage.returned : Stage K → Option String
  | returning name => some name
  | self _ _ | authenticated _ _ _ | counting _ _ | locking _ _ _ | fetching _ _ _ _
  | decoding _ _ _ | registering _ | answering _ => none

namespace Next

/-- What it leads to holds a permit. -/
def verifying : Next K → Bool
  | wait stage => stage.verifying
  | reply _ => false

/-- What it leads to waits for the key set. -/
def fetching : Next K → Bool
  | wait (.fetching _ _ _ _) => true
  | wait _ | reply _ => false

/-- The operator that what it leads to is counted for, beyond what it may have. -/
def returning : Next K → Option String
  | wait stage => stage.returned
  | reply _ => none

/-- The context that a critical section leaves, if any. -/
def metered : Next K → Option Metered
  | wait _ => none
  | reply left => left.1.metered

/-- No operator's slot is in that context. -/
def Slotless (next : Next K) : Prop :=
  ∀ metered slot, next.metered = some metered → metered.caller ≠ some (.operator slot)

theorem slotless_of_none {next : Next K} (h : next.metered = none) : next.Slotless := by
  intro metered slot hmetered
  rw [h] at hmetered
  cases hmetered

theorem slotless_wait (stage : Stage K) : (wait stage).Slotless := slotless_of_none rfl

theorem slotless_answer (action : FilterAction) : (reply (answer action) : Next K).Slotless :=
  slotless_of_none rfl

end Next

theorem Stage.returned_of_fetching {stage : Stage K} (h : (Next.wait stage).fetching = true) :
    stage.returned = none := by
  cases stage with
  | fetching policy token kid start => rfl
  | _ => cases h

/-! ## What one may ask for -/

/-- A request that may register a run without proof. -/
structure Unproven (d : Deployed K) (request : Request) (loaded : LoadedRegistrar) (quota : Quota)
    (name : RunName) : Prop where
  endpoints : d.endpoints = .serving loaded
  path : request.path = runsPath
  method : request.method = ascii "POST"
  quota : loaded.unproven = some quota
  noToken : request.headers.containsKey "authorization" = false
  noBrowser : browserHeaders.any request.headers.containsKey = false
  named : ∃ value, request.headers.getAll "x-run-id" = [value] ∧
    (HeaderMap.toStr value).bind (fun name => RunName.new (asString name)) = some name

/-- What such a request asks for. -/
def unprovenRegistration (draw : Draw) (loaded : LoadedRegistrar) (name : RunName) :
    Registration :=
  ⟨.unproven name, .unproven name, none, .priv, loaded.limits, draw.now⟩

/-- What a request may ask for when it arrives. -/
def AsksAtOnce (d : Deployed K) (draw : Draw) (request : Request) (reg : Registration) : Prop :=
  ∃ loaded quota name, Unproven d request loaded quota name ∧
    reg = unprovenRegistration draw loaded name

/-- What a task may ask for. -/
def Asks (d : Deployed K) (draw : Draw) (stage : Stage K) (reg : Registration) : Prop :=
  ∃ loaded identity, d.endpoints = .serving loaded ∧ stage = .registering identity ∧
    reg = ⟨identity.key, identity.proof, some identity.jti, identity.consumer, loaded.limits,
      draw.now⟩

/-! ## What one does -/

/-- **Everything a critical section can do**, from a stage that does or does not hold a permit and
that has or has not a count to take back, if it asks for no registration but some that satisfy
`P`. -/
inductive Ran (hash : Bytes → H) (d : Deployed K) (g : Gateway H K) (id : Nat) (draw : Draw)
    (P : Registration → Prop) (before : Bool) : Option String → Gateway H K → Next K → Prop where
  /-- It touches nothing. -/
  | apart (next : Next K) (hverifying : next.verifying = before) (hfetching : next.fetching = false)
      (hreturning : next.returning = none) (hslotless : next.Slotless) :
      Ran hash d g id draw P before none g next
  | made (call : Runs.Call) (next : Next K)
      (hcall : ∀ reg, call.registration = some reg → P reg)
      (hverifying : next.verifying = before) (hfetching : next.fetching = false)
      (hreturning : next.returning = none) (hslotless : next.Slotless) :
      Ran hash d g id draw P before none (g.made hash call) next
  | counted (admitted : Bool) (action : FilterAction) (hbefore : before = false) :
      Ran hash d g id draw P before none
        { g with shared := { g.shared with
            usage := g.shared.usage.unprovenRegistration admitted } }
        (.reply (answer action))
  /-- An operator's request is admitted, or is for a cluster that is not its own. -/
  | operated (request : Request) (cluster name : String) (token : Bytes) (operator : Operator)
      (htoken : d.base.token request.headers = some (name, token))
      (hoperator : g.shared.operators.authenticate hash token = some operator)
      (hfree : cluster ∈ operator.clusters → operator.inFlight < operator.concurrency)
      (hbefore : before = false) :
      Ran hash d g id draw P before none
        { g with shared := { g.shared with
            operators :=
              (d.base.injected hash g.shared.world draw.alone request cluster).1.operators } }
        (.reply (d.base.injected hash g.shared.world draw.alone request cluster).2)
  /-- It is one too many, -/
  | exceeded (h : H) (operator : Operator) (hfound : g.shared.operators.lookup h = some operator)
      (hfull : operator.concurrency ≤ operator.inFlight) (hbefore : before = false) :
      Ran hash d g id draw P before none
        { g with shared := { g.shared with
            operators :=
              g.shared.operators.insert h { operator with inFlight := operator.inFlight + 1 } } }
        (.wait (.returning operator.name))
  /-- and was. -/
  | returned (name : String) (hbefore : before = false) :
      Ran hash d g id draw P before (some name)
        { g with shared := { g.shared with operators := g.shared.operators.release name } }
        (.reply (busy d))
  | acquired (permits : Semaphore) (stage : Stage K)
      (hpermits : g.permits.tryAcquire = some permits) (hverifying : stage.verifying = true)
      (hfetching : (Next.wait stage).fetching = false) (hreturning : stage.returned = none)
      (hbefore : before = false) :
      Ran hash d g id draw P before none { g with permits := permits } (.wait stage)
  | released (action : FilterAction) (hbefore : before = true) :
      Ran hash d g id draw P before none { g with permits := g.permits.release }
        (.reply (answer action))
  /-- The key cache answers at once. -/
  | called (call : KeyCall K) (stage : Stage K) (hstart : call.start = draw.now)
      (hfinish : call.finish = draw.now) (hfree : g.locked = none)
      (hcache : (Oidc.machine K).next g.cache call = g.cache)
      (hverifying : stage.verifying = before) (hfetching : (Next.wait stage).fetching = false)
      (hreturning : stage.returned = none) :
      Ran hash d g id draw P before none { g with keyCalls := g.keyCalls ++ [call] } (.wait stage)
  /-- The key set is fetched. -/
  | begun (policy : Policy) (token : Bytes) (kid : String) (hfree : g.locked = none)
      (hfresh : g.cache.freshKey kid draw.now = none) (hdue : g.cache.due draw.now = true)
      (hbefore : before = true) :
      Ran hash d g id draw P before none
        { g with cache := { g.cache with attempted := some draw.now }, locked := some id }
        (.wait (.fetching policy token kid draw.now))

namespace Ran

variable {g : Gateway H K} {id : Nat} {draw : Draw} {P : Registration → Prop}

/-- A request that is answered. -/
theorem answered (action : FilterAction) :
    Ran hash d g id draw P false none g (.reply (answer action)) :=
  .apart _ rfl rfl rfl (Next.slotless_answer action)

/-- A call on the registry that asks for no registration. -/
theorem asked {call : Runs.Call} {next : Next K} {before : Bool}
    (hcall : call.registration = none) (hverifying : next.verifying = before)
    (hfetching : next.fetching = false) (hreturning : next.returning = none)
    (hslotless : next.Slotless) :
    Ran hash d g id draw P before none (g.made hash call) next := by
  refine .made call next ?_ hverifying hfetching hreturning hslotless
  intro reg hreg
  rw [hcall] at hreg
  cases hreg

/-- It asks the registry one thing at most. -/
theorem calls {before : Bool} {taken : Option String} {g' : Gateway H K} {next : Next K}
    (h : Ran hash d g id draw P before taken g' next) :
    g'.calls = g.calls ∨ ∃ call, g'.calls = g.calls ++ [call] := by
  cases h with
  | made call _ hcall hverifying hfetching hreturning hslotless => exact .inr ⟨call, rfl⟩
  | _ => exact .inl rfl

end Ran

/-! ## The first critical section of a request -/

namespace Gateway

variable (hash) in
theorem ran_registerUnproven (g : Gateway H K) (id : Nat) (draw : Draw) {request : Request}
    {loaded : LoadedRegistrar} {quota : Quota} (hendpoints : d.endpoints = .serving loaded)
    (hpath : request.path = runsPath) (hmethod : request.method = ascii "POST")
    (hquota : loaded.unproven = some quota)
    (hnone : request.headers.containsKey "authorization" = false) :
    Ran hash d g id draw (AsksAtOnce d draw request) false none
      (g.registerUnproven hash draw quota loaded.limits request.headers).1
      (g.registerUnproven hash draw quota loaded.limits request.headers).2 := by
  unfold registerUnproven
  split
  · exact .answered _
  · next hbrowser =>
      split
      · next value hvalue =>
          split
          · exact .answered _
          · next name hname =>
              apply Ran.made
              · intro reg hreg
                cases hreg
                refine ⟨loaded, quota, name, ?_, rfl⟩
                exact ⟨hendpoints, hpath, hmethod, hquota, hnone, Bool.not_eq_true _ ▸ hbrowser,
                  value, hvalue, hname⟩
              · dsimp only
                split <;> rfl
              · dsimp only
                split <;> rfl
              · dsimp only
                split <;> rfl
              · apply Next.slotless_of_none
                dsimp only
                split <;> rfl
      · exact .answered _

variable (hash) in
theorem ran_register (g : Gateway H K) (id : Nat) (draw : Draw) {request : Request}
    {loaded : LoadedRegistrar} (hendpoints : d.endpoints = .serving loaded)
    (hpath : request.path = runsPath) (hmethod : request.method = ascii "POST") :
    Ran hash d g id draw (AsksAtOnce d draw request) false none
      (g.register hash d draw loaded request.headers).1
      (g.register hash d draw loaded request.headers).2 := by
  unfold register
  split
  · next quota hquota hnone =>
      exact g.ran_registerUnproven hash id draw hendpoints hpath hmethod hquota hnone
  · split
    · exact .answered _
    · split
      · exact .answered _
      · next permits hpermits =>
          apply Ran.acquired permits _ hpermits
          · split
            · rfl
            · split <;> rfl
          · split
            · rfl
            · split <;> rfl
          · split
            · rfl
            · split <;> rfl
          · rfl

variable (hash) in
theorem ran_serveRuns (g : Gateway H K) (id : Nat) (draw : Draw) {loaded : Option LoadedRegistrar}
    (request : Request)
    (hloaded : ∀ registrar, loaded = some registrar → d.endpoints = .serving registrar) :
    Ran hash d g id draw (AsksAtOnce d draw request) false none
      (g.serveRuns hash d draw loaded request).1 (g.serveRuns hash d draw loaded request).2 := by
  unfold serveRuns
  split
  · next hpath =>
      split
      · next hmethod =>
          split
          · next registrar =>
              exact g.ran_register hash id draw (hloaded registrar rfl) hpath hmethod
          · exact .answered _
      · exact .answered _
  · split
    · split
      · unfold serveSelf
        split
        · exact .answered _
        · apply Ran.asked rfl
          · dsimp only
            split <;> rfl
          · dsimp only
            split <;> rfl
          · dsimp only
            split <;> rfl
          · apply Next.slotless_of_none
            dsimp only
            split <;> rfl
      · exact .answered _
    · exact .answered _

variable (hash d) in
theorem ran_injected (g : Gateway H K) (id : Nat) (draw : Draw) (request : Request)
    (cluster : String) {P : Registration → Prop} :
    Ran hash d g id draw P false none (g.injected hash d draw request cluster).1
      (g.injected hash d draw request cluster).2 := by
  unfold injected
  split
  · exact .apart _ rfl rfl rfl (Next.slotless_of_none rfl)
  · next name token htoken =>
      split
      · next operator hoperator =>
          split
          · next hfull =>
              exact .exceeded (hash token) operator
                (Operators.lookup_of_authenticate hoperator) hfull.2 rfl
          · next hfree =>
              refine .operated request cluster name token operator htoken hoperator ?_ rfl
              intro hlisted
              exact Nat.lt_of_not_le fun hfull => hfree ⟨hlisted, hfull⟩
      · apply Ran.asked rfl
        · dsimp only
          split <;> rfl
        · dsimp only
          split <;> rfl
        · dsimp only
          split <;> rfl
        · apply Next.slotless_of_none
          dsimp only
          split <;> rfl

variable (hash d) in
/-- The first critical section of a request. -/
theorem ran_onRequest (g : Gateway H K) (id : Nat) (draw : Draw) (request : Request)
    (cluster : Option String) :
    Ran hash d g id draw (AsksAtOnce d draw request) false none
      (g.onRequest hash d draw request cluster).1
      (g.onRequest hash d draw request cluster).2 := by
  unfold onRequest
  split
  · exact .answered _
  split
  · exact .answered _
  split
  · split
    · exact .answered _
    · apply g.ran_serveRuns hash id draw request
      rintro _ ⟨⟩
    · next loaded hendpoints =>
        apply g.ran_serveRuns hash id draw request
        rintro _ ⟨⟩
        exact hendpoints
  split
  · exact .answered _
  split
  · exact .apart _ rfl rfl rfl (Next.slotless_of_none rfl)
  split
  · exact .answered _
  · refine .apart _ rfl rfl rfl ?_
    -- a context that is left is of no caller
    unfold RunTokenFilter.passThrough
    dsimp only
    split
    · exact Next.slotless_of_none rfl
    · split
      · exact Next.slotless_of_none rfl
      · rintro _ slot ⟨⟩ ⟨⟩
  · exact g.ran_injected hash d id draw request _

/-! ## The later ones -/

variable (hash d) in
theorem ran_lookUp (g : Gateway H K) (id : Nat) (draw : Draw) (policy : Policy) (token : Bytes)
    (kid : String) {P : Registration → Prop} :
    Ran hash d g id draw P true none (g.lookUp id draw policy token kid).1
      (g.lookUp id draw policy token kid).2 := by
  unfold lookUp
  split
  · exact .apart _ rfl rfl rfl (Next.slotless_wait _)
  · next hfree =>
      rw [Bool.not_eq_true, Option.isSome_eq_false_iff, Option.isNone_iff_eq_none] at hfree
      dsimp only
      split
      · next found hfresh =>
          refine .called _ _ rfl rfl hfree ?_ rfl rfl rfl
          simp [Mealy.next, Oidc.machine, Oidc.key, hfresh]
      · next hfresh =>
          split
          · next hdue => exact .begun policy token kid hfree hfresh hdue rfl
          · next hsoon =>
              apply Ran.called _ _ rfl rfl hfree
              · simp [Mealy.next, Oidc.machine, Oidc.key, hfresh, hsoon]
              · cases g.cache.answer kid draw.now <;> rfl
              · cases g.cache.answer kid draw.now <;> rfl
              · cases g.cache.answer kid draw.now <;> rfl

variable (hash d) in
/-- No other caller than the run is in the context it may leave. -/
theorem ran_admitRun (g : Gateway H K) (id : Nat) (draw : Draw) (request : Request)
    (cluster : String) (key : RunKey) (now : Instant) {P : Registration → Prop} :
    Ran hash d g id draw P false none (g.admitRun hash d request cluster key now).1
      (g.admitRun hash d request cluster key now).2 := by
  unfold admitRun
  dsimp only
  refine .asked rfl rfl rfl rfl ?_
  split
  · exact Next.slotless_of_none rfl
  · exact Next.slotless_of_none rfl
  · split
    · exact Next.slotless_of_none rfl
    · rintro _ slot ⟨⟩ ⟨⟩

variable (hash d) in
theorem ran_operate (g : Gateway H K) (id : Nat) (draw : Draw) (request : Request)
    (key : RunKey) (now : Instant) {P : Registration → Prop} :
    Ran hash d g id draw P false none (g.operate hash draw request key now).1
      (g.operate hash draw request key now).2 := by
  unfold operate
  split
  · exact .asked rfl rfl rfl rfl (Next.slotless_answer _)
  · exact .asked rfl rfl rfl rfl (Next.slotless_answer _)

variable (hash d) in
theorem ran_registerIdentity (g : Gateway H K) (id : Nat) (draw : Draw) (identity : RunIdentity) :
    Ran hash d g id draw (Asks d draw (.registering identity)) true none
      (g.registerIdentity hash d draw identity).1
      (g.registerIdentity hash d draw identity).2 := by
  unfold registerIdentity
  split
  · next loaded hendpoints =>
      refine .made _ _ ?_ rfl rfl rfl (Next.slotless_wait _)
      intro reg hreg
      cases hreg
      exact ⟨loaded, identity, hendpoints, rfl, rfl⟩
  · exact .apart _ rfl rfl rfl (Next.slotless_wait _)
  · exact .apart _ rfl rfl rfl (Next.slotless_wait _)

variable (hash d) in
/-- Any later one, but for that of a task that waits for the key set, which has none. -/
theorem ran_advance (g : Gateway H K) (id : Nat) (draw : Draw) (task : Task K)
    (hwaits : (Next.wait task.stage).fetching = false) :
    Ran hash d g id draw (Asks d draw task.stage) task.stage.verifying task.stage.returned
      (g.advance hash d id draw task).1 (g.advance hash d id draw task).2 := by
  obtain ⟨request, cluster, stage⟩ := task
  cases stage with
  | self key now => exact g.ran_operate hash d id draw request key now
  | authenticated cluster key now => exact g.ran_admitRun hash d id draw request cluster key now
  | returning name => exact .returned name rfl
  | counting admitted action => exact .counted admitted action rfl
  | locking policy token kid => exact g.ran_lookUp hash d id draw policy token kid
  | fetching policy token kid start => cases hwaits
  | decoding policy token found =>
      apply Ran.apart
      · show Next.verifying (.wait _) = true
        split <;> rfl
      · show Next.fetching (.wait _) = false
        split <;> rfl
      · show Next.returning (.wait _) = none
        split <;> rfl
      · exact Next.slotless_wait _
  | registering identity => exact g.ran_registerIdentity hash d id draw identity
  | answering action => exact .released action rfl

/-- A task that waits for the key set has no critical section of its own. -/
theorem advance_of_fetching (g : Gateway H K) (id : Nat) (draw : Draw) {task : Task K}
    (h : (Next.wait task.stage).fetching = true) :
    g.advance hash d id draw task = (g, .wait task.stage) := by
  obtain ⟨request, cluster, stage⟩ := task
  cases stage with
  | fetching policy token kid start => rfl
  | _ => cases h

/-! ## The acts that run none -/

variable (hash d) in
/-- The end of a fetch is seen by no one but those that wait for the key cache. -/
theorem step_fetched (g : Gateway H K) (id : Nat) (keys : Option (Assoc String K)) (draw : Draw) :
    (g.step hash d (.fetched id keys draw)).1.shared = g.shared ∧
      (g.step hash d (.fetched id keys draw)).1.calls = g.calls := by
  unfold step fetched
  dsimp only
  split
  · exact ⟨rfl, rfl⟩
  · split <;> exact ⟨rfl, rfl⟩

variable (hash d) in
/-- Nor is the drop of a task, but by those that want a permit. -/
theorem step_cancel (g : Gateway H K) (id : Nat) (draw : Draw) :
    (g.step hash d (.cancel id draw)).1.shared = g.shared ∧
      (g.step hash d (.cancel id draw)).1.calls = g.calls := by
  unfold step cancelled
  dsimp only
  split
  · exact ⟨rfl, rfl⟩
  · split <;> exact ⟨rfl, rfl⟩

end Gateway

end CredentialBroker.Tasks
