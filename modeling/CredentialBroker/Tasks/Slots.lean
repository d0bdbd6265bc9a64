import CredentialBroker.Tasks.Authority
import CredentialBroker.Tasks.Config

/-!
# The slots of the operators

An operator has a request in flight for each context that was left for one of its requests, from when
the request is admitted until its response ends or the context is dropped, and for a moment for each
request that is refused as one too many, which is counted before it is known to be. `SlotStep` is what
an act may do to the operators, the contexts and those counts, and each of the five ways keeps the
account.
-/

namespace CredentialBroker

/-- A context that holds a slot of the operator of that name. -/
def Metered.holds (name : String) (metered : Metered) : Bool :=
  match metered.caller with
  | some (.operator slot) => decide (slot.name = name)
  | some (.run _) | none => false

theorem Metered.holds_answered (success : Bool) (metered : Metered) (name : String) :
    (metered.answered success).holds name = metered.holds name := by
  obtain ⟨mode, provider, success', caller⟩ := metered
  cases caller with
  | none => rfl
  | some caller => cases caller <;> rfl

/-- An admitted request takes a slot of its operator. -/
theorem Operator.admitRequest_ok {operator operator' : Operator} {cluster : String} {slot : Slot}
    (h : operator.admitRequest cluster = (operator', .ok slot)) :
    operator' = { operator with inFlight := operator.inFlight + 1 } ∧ slot.name = operator.name := by
  unfold Operator.admitRequest at h
  split at h
  · cases h
  · split at h
    · cases h
    · cases h
      exact ⟨rfl, rfl⟩

/-- An operator has an identity. -/
theorem Operator.isEmpty_subject (operator : Operator) : operator.subject.isEmpty = false := by
  rw [Bool.eq_false_iff, ne_eq, String.isEmpty_iff]
  unfold Operator.subject
  rw [String.append_eq_empty_iff]
  rintro ⟨h, -⟩
  exact absurd h (by decide)

namespace Tasks

open RunTokenFilter

variable {H K : Type} [DecidableEq H] {hash : Bytes → H} {d : Deployed K}

/-! ## The account -/

/-- How many contexts hold a slot of the operator of that name. -/
def slotsHeld (s : FilterState H) (name : String) : Nat := s.contexts.countVals (Metered.holds name)

/-- How many requests of it were counted as one too many, and are yet to take that back. -/
def returnsDue (tasks : Assoc Nat (Task K)) (name : String) : Nat :=
  tasks.countVals (fun task => decide (task.stage.returned = some name))

/-- What an operator has in flight is the contexts that hold a slot of it and the counts that are to
be taken back, and no more contexts do than it may have requests. -/
structure Exact (s : FilterState H) (due : String → Nat) : Prop where
  inFlight : ∀ h operator, s.operators.lookup h = some operator →
    operator.inFlight = slotsHeld s operator.name + due operator.name
  within : ∀ h operator, s.operators.lookup h = some operator →
    slotsHeld s operator.name ≤ operator.concurrency

/-- **Everything an act can do** to the slots, and to what is to be taken back. -/
inductive SlotStep (s s' : FilterState H) (due due' : String → Nat) : Prop where
  | kept (hoperators : s'.operators = s.operators)
      (hheld : ∀ name, slotsHeld s' name = slotsHeld s name) (hdue : ∀ name, due' name = due name)
  | taken (h : H) (operator : Operator) (hfound : s.operators.lookup h = some operator)
      (hfree : operator.inFlight < operator.concurrency)
      (hoperators : s'.operators =
        s.operators.insert h { operator with inFlight := operator.inFlight + 1 })
      (hheld : ∀ name, slotsHeld s' name =
        slotsHeld s name + if operator.name = name then 1 else 0)
      (hdue : ∀ name, due' name = due name)
  | exceeded (h : H) (operator : Operator) (hfound : s.operators.lookup h = some operator)
      (hoperators : s'.operators =
        s.operators.insert h { operator with inFlight := operator.inFlight + 1 })
      (hheld : ∀ name, slotsHeld s' name = slotsHeld s name)
      (hdue : ∀ name, due' name = due name + if operator.name = name then 1 else 0)
  | returned (name : String) (hoperators : s'.operators = s.operators.release name)
      (hheld : ∀ other, slotsHeld s' other = slotsHeld s other)
      (hdue : ∀ other, due other = due' other + if name = other then 1 else 0)
  | released (name : String) (hoperators : s'.operators = s.operators.release name)
      (hheld : ∀ other, slotsHeld s other = slotsHeld s' other + if name = other then 1 else 0)
      (hdue : ∀ other, due' other = due other)

/-- One request more of an operator is in flight. -/
theorem inFlight_insert {operators : Operators H} (counted counted' : String → Nat)
    (h : ∀ h operator, operators.lookup h = some operator →
      operator.inFlight = counted operator.name)
    (hdistinct : ∀ h h' operator operator', operators.lookup h = some operator →
      operators.lookup h' = some operator' → operator.name = operator'.name → h = h')
    {key : H} {operator : Operator} (hfound : operators.lookup key = some operator)
    (hcounted : ∀ name, counted' name = counted name + if operator.name = name then 1 else 0)
    (other : H) (operator' : Operator)
    (hlookup : (operators.insert key { operator with inFlight := operator.inFlight + 1 }).lookup
      other = some operator') : operator'.inFlight = counted' operator'.name := by
  rw [Assoc.lookup_insert_eq] at hlookup
  rw [hcounted]
  split at hlookup
  · cases hlookup
    rw [if_pos rfl]
    exact congrArg (· + 1) (h key operator hfound)
  · next hne =>
      have hname : operator.name ≠ operator'.name := by
        intro heq
        exact hne (hdistinct _ _ _ _ hlookup hfound heq.symm)
      rw [if_neg hname]
      exact h other operator' hlookup

/-- One is not any more. -/
theorem inFlight_release {operators : Operators H} (counted counted' : String → Nat)
    (h : ∀ h operator, operators.lookup h = some operator →
      operator.inFlight = counted operator.name) {name : String}
    (hcounted : ∀ other, counted other = counted' other + if name = other then 1 else 0)
    (key : H) (operator : Operator) (hlookup : (operators.release name).lookup key = some operator) :
    operator.inFlight = counted' operator.name := by
  unfold Operators.release at hlookup
  rw [Assoc.lookup_mapVals] at hlookup
  obtain ⟨old, hold, rfl⟩ := Option.map_eq_some_iff.mp hlookup
  have hcount := hcounted old.name
  rw [← h key old hold] at hcount
  split
  · next heq =>
      rw [if_pos heq.symm] at hcount
      show old.inFlight - 1 = counted' old.name
      omega
  · next hne =>
      rw [if_neg (Ne.symm hne)] at hcount
      exact hcount

/-- What an operator may have is as the tokens file has it. -/
theorem within_release {operators : Operators H} (held held' : String → Nat)
    (h : ∀ h operator, operators.lookup h = some operator →
      held operator.name ≤ operator.concurrency) {name : String}
    (hheld : ∀ other, held' other ≤ held other) (key : H) (operator : Operator)
    (hlookup : (operators.release name).lookup key = some operator) :
    held' operator.name ≤ operator.concurrency := by
  unfold Operators.release at hlookup
  rw [Assoc.lookup_mapVals] at hlookup
  obtain ⟨old, hold, rfl⟩ := Option.map_eq_some_iff.mp hlookup
  have hwithin := (hheld old.name).trans (h key old hold)
  split <;> exact hwithin

/-- **Step**, of the account: whichever way it goes, it is kept. -/
theorem Exact.step {s s' : FilterState H} {due due' : String → Nat} (h : Exact s due)
    (hstep : SlotStep s s' due due')
    (hdistinct : ∀ h h' operator operator', s.operators.lookup h = some operator →
      s.operators.lookup h' = some operator' → operator.name = operator'.name → h = h') :
    Exact s' due' := by
  cases hstep with
  | kept hoperators hheld hdue =>
      constructor
      · intro key operator hoperator
        rw [hoperators] at hoperator
        rw [hheld, hdue]
        exact h.inFlight key operator hoperator
      · intro key operator hoperator
        rw [hoperators] at hoperator
        rw [hheld]
        exact h.within key operator hoperator
  | taken key operator hfound hfree hoperators hheld hdue =>
      constructor
      · rw [hoperators]
        apply inFlight_insert (fun name => slotsHeld s name + due name)
          (fun name => slotsHeld s' name + due' name) h.inFlight hdistinct hfound
        intro name
        have hheld := hheld name
        have hdue := hdue name
        omega
      · intro other operator' hoperator'
        rw [hoperators, Assoc.lookup_insert_eq] at hoperator'
        rw [hheld]
        split at hoperator'
        · cases hoperator'
          rw [if_pos rfl]
          -- what is in flight is no less than what is held
          have hin := h.inFlight key operator hfound
          show slotsHeld s operator.name + 1 ≤ operator.concurrency
          omega
        · next hne =>
            have hname : operator.name ≠ operator'.name := by
              intro heq
              exact hne (hdistinct _ _ _ _ hoperator' hfound heq.symm)
            rw [if_neg hname]
            exact h.within other operator' hoperator'
  | exceeded key operator hfound hoperators hheld hdue =>
      constructor
      · rw [hoperators]
        apply inFlight_insert (fun name => slotsHeld s name + due name)
          (fun name => slotsHeld s' name + due' name) h.inFlight hdistinct hfound
        intro name
        have hheld := hheld name
        have hdue := hdue name
        omega
      · intro other operator' hoperator'
        rw [hoperators, Assoc.lookup_insert_eq] at hoperator'
        rw [hheld]
        split at hoperator'
        · cases hoperator'
          exact h.within key operator hfound
        · exact h.within other operator' hoperator'
  | returned name hoperators hheld hdue =>
      constructor
      · rw [hoperators]
        apply inFlight_release (fun name => slotsHeld s name + due name)
          (fun name => slotsHeld s' name + due' name) h.inFlight
        intro other
        have hheld := hheld other
        have hdue := hdue other
        omega
      · rw [hoperators]
        exact within_release (slotsHeld s) (slotsHeld s') h.within fun other => (hheld other).le
  | released name hoperators hheld hdue =>
      constructor
      · rw [hoperators]
        apply inFlight_release (fun name => slotsHeld s name + due name)
          (fun name => slotsHeld s' name + due' name) h.inFlight
        intro other
        have hheld := hheld other
        have hdue := hdue other
        omega
      · rw [hoperators]
        apply within_release (slotsHeld s) (slotsHeld s') h.within
        intro other
        rw [hheld other]
        exact Nat.le_add_right _ _

/-! ## What an act does -/

/-- A context without a slot holds none of any operator. -/
theorem Next.Slotless.holds {next : Next K} (h : next.Slotless) (name : String) :
    next.metered.any (Metered.holds name) = false := by
  cases hmetered : next.metered with
  | none => rfl
  | some metered =>
      have hcaller := fun slot => h metered slot hmetered
      show metered.holds name = false
      unfold Metered.holds
      split
      · next slot heq => exact absurd heq (hcaller slot)
      · rfl
      · rfl

/-- What a critical section does to the slots, before its context is there, if it has the count of an
operator to take back or none. -/
inductive Took (d : Deployed K) (g g' : Gateway H K) (next : Next K) : Option String → Prop where
  | nothing (hcontexts : g'.shared.contexts = g.shared.contexts)
      (hoperators : g'.shared.operators = g.shared.operators)
      (hnext : ∀ name, next.metered.any (Metered.holds name) = false)
      (hreturning : next.returning = none) : Took d g g' next none
  | slot (hcontexts : g'.shared.contexts = g.shared.contexts) (h : H) (operator : Operator)
      (hfound : g.shared.operators.lookup h = some operator)
      (hfree : operator.inFlight < operator.concurrency)
      (hoperators : g'.shared.operators =
        g.shared.operators.insert h { operator with inFlight := operator.inFlight + 1 })
      (hnext : ∀ name, next.metered.any (Metered.holds name) = decide (operator.name = name))
      (hreturning : next.returning = none) : Took d g g' next none
  | exceeded (hcontexts : g'.shared.contexts = g.shared.contexts) (h : H) (operator : Operator)
      (hfound : g.shared.operators.lookup h = some operator)
      (hoperators : g'.shared.operators =
        g.shared.operators.insert h { operator with inFlight := operator.inFlight + 1 })
      (hnext : next = .wait (.returning operator.name)) : Took d g g' next none
  | returned (hcontexts : g'.shared.contexts = g.shared.contexts) (name : String)
      (hoperators : g'.shared.operators = g.shared.operators.release name)
      (hnext : next = .reply (busy d)) : Took d g g' next (some name)

/-- An operator that is admitted takes a slot. -/
theorem took_operated (g : Gateway H K) (draw : Draw) {request : Request} (cluster : String)
    {name : String} {token : Bytes} {operator : Operator}
    (htoken : d.base.token request.headers = some (name, token))
    (hoperator : g.shared.operators.authenticate hash token = some operator) :
    Took d g
      { g with shared := { g.shared with
          operators :=
            (d.base.injected hash g.shared.world draw.alone request cluster).1.operators } }
      (.reply (d.base.injected hash g.shared.world draw.alone request cluster).2) none := by
  unfold RunTokenFilter.injected RunTokenFilter.admitRequest
  rw [htoken]
  dsimp only
  rw [show g.shared.world.operators = g.shared.operators from rfl, hoperator]
  dsimp only
  cases hadm : operator.admitRequest cluster with
  | mk admitted result =>
      cases result with
      | error refusal =>
          cases refusal <;> exact .nothing rfl rfl (Next.slotless_of_none rfl).holds rfl
      | ok slot =>
          obtain ⟨rfl, hslot⟩ := Operator.admitRequest_ok hadm
          dsimp only
          rw [operator.isEmpty_subject, if_neg Bool.false_ne_true]
          refine .slot rfl (hash token) operator (Operators.lookup_of_authenticate hoperator)
            (Operator.admit_ok hadm).2 rfl ?_ rfl
          intro name
          show decide (slot.name = name) = _
          rw [hslot]

theorem Ran.took {g g' : Gateway H K} {id : Nat} {draw : Draw} {P : Registration → Prop}
    {before : Bool} {taken : Option String} {next : Next K}
    (h : Ran hash d g id draw P before taken g' next) : Took d g g' next taken := by
  cases h with
  | apart _ hverifying hfetching hreturning hslotless =>
      exact .nothing rfl rfl hslotless.holds hreturning
  | made call _ hcall hverifying hfetching hreturning hslotless =>
      exact .nothing rfl rfl hslotless.holds hreturning
  | counted admitted action hbefore =>
      exact .nothing rfl rfl (Next.slotless_answer action).holds rfl
  | operated request cluster name token operator htoken hoperator hfree hbefore =>
      exact took_operated g draw cluster htoken hoperator
  | exceeded key operator hfound hfull hbefore => exact .exceeded rfl key operator hfound rfl rfl
  | returned name hbefore =>
      refine .returned ?_ name ?_ rfl
      · rfl
      · rfl
  | acquired permits stage hpermits hverifying hfetching hreturning hbefore =>
      exact .nothing rfl rfl (Next.slotless_wait stage).holds hreturning
  | released action hbefore => exact .nothing rfl rfl (Next.slotless_answer action).holds rfl
  | called call stage hstart hfinish hfree hcache hverifying hfetching hreturning =>
      exact .nothing rfl rfl (Next.slotless_wait stage).holds hreturning
  | begun policy token kid hfree hfresh hdue hbefore =>
      exact .nothing rfl rfl (Next.slotless_wait _).holds rfl

variable (hash d) in
theorem took_onRequest (g : Gateway H K) (draw : Draw) (request : Request)
    (cluster : Option String) :
    Took d g (g.onRequest hash d draw request cluster).1
      (g.onRequest hash d draw request cluster).2 none :=
  (g.ran_onRequest hash d 0 draw request cluster).took

variable (hash d) in
theorem took_advance (g : Gateway H K) (id : Nat) (draw : Draw) (task : Task K) :
    Took d g (g.advance hash d id draw task).1 (g.advance hash d id draw task).2
      task.stage.returned := by
  cases hwaits : (Next.wait task.stage).fetching with
  | false => exact (g.ran_advance hash d id draw task hwaits).took
  | true =>
      rw [g.advance_of_fetching id draw hwaits, Stage.returned_of_fetching hwaits]
      exact .nothing rfl rfl (Next.slotless_wait _).holds (Stage.returned_of_fetching hwaits)

theorem Took.contexts {g g' : Gateway H K} {next : Next K} {taken : Option String}
    (h : Took d g g' next taken) : g'.shared.contexts = g.shared.contexts := by
  cases h with
  | nothing hcontexts hoperators hnext hreturning => exact hcontexts
  | slot hcontexts key operator hfound hfree hoperators hnext hreturning => exact hcontexts
  | exceeded hcontexts key operator hfound hoperators hnext => exact hcontexts
  | returned hcontexts name hoperators hnext => exact hcontexts

/-- What becomes of the contexts once a critical section is over. -/
theorem Gateway.contexts_settled (g : Gateway H K) (id : Nat) (request : Request)
    (cluster : Option String) (next : Next K) :
    (g.settled id request cluster next).1.shared.contexts =
      match next.metered with
      | some metered => g.shared.contexts.insert id metered
      | none => g.shared.contexts := by
  cases next <;> rfl

/-- What is to be taken back once it is over. -/
theorem Gateway.due_settled {g : Gateway H K} {id : Nat} {request : Request}
    {cluster : Option String} {next : Next K} (name : String) :
    returnsDue (g.settled id request cluster next).1.tasks name +
        (if (g.tasks.lookup id).bind (fun task => task.stage.returned) = some name then 1 else 0) =
      returnsDue g.tasks name + if next.returning = some name then 1 else 0 := by
  unfold returnsDue
  rw [Assoc.countVals_eq_erase_add _ g.tasks id]
  have hold : ((g.tasks.lookup id).any
      (fun task => decide (task.stage.returned = some name)) = true) ↔
      (g.tasks.lookup id).bind (fun task => task.stage.returned) = some name := by
    cases g.tasks.lookup id <;> simp
  simp only [hold]
  cases next with
  | wait stage =>
      show Assoc.countVals _ (g.tasks.insert id ⟨request, cluster, stage⟩) + _ =
        _ + if stage.returned = some name then 1 else 0
      rw [Assoc.countVals_insert_eq]
      simp only [decide_eq_true_eq]
      exact Nat.add_right_comm _ _ _
  | reply reply => exact Nat.add_right_comm _ 0 _

/-- A critical section leaves a context for a request that had none. -/
theorem Took.slotStep {g g' : Gateway H K} {next : Next K} {taken : Option String}
    (h : Took d g g' next taken) {id : Nat} (htasks : g'.tasks = g.tasks)
    (htaken : (g.tasks.lookup id).bind (fun task => task.stage.returned) = taken)
    (hnone : g.shared.contexts.lookup id = none) (request : Request) (cluster : Option String) :
    SlotStep g.shared (g'.settled id request cluster next).1.shared (returnsDue g.tasks)
      (returnsDue (g'.settled id request cluster next).1.tasks) := by
  have hoperators : (g'.settled id request cluster next).1.shared.operators =
      g'.shared.operators := by
    cases next <;> rfl
  have hheld : ∀ name, slotsHeld (g'.settled id request cluster next).1.shared name =
      slotsHeld g.shared name + if next.metered.any (Metered.holds name) then 1 else 0 := by
    intro name
    unfold slotsHeld
    rw [Gateway.contexts_settled, h.contexts]
    cases next.metered with
    | none => rfl
    | some metered => exact Assoc.countVals_insert metered hnone
  have hdue : ∀ name, returnsDue (g'.settled id request cluster next).1.tasks name +
        (if taken = some name then 1 else 0) =
      returnsDue g.tasks name + if next.returning = some name then 1 else 0 := by
    intro name
    rw [← htaken, ← htasks]
    exact Gateway.due_settled name
  cases h with
  | nothing hcontexts hsame hnext hreturning =>
      apply SlotStep.kept (hoperators.trans hsame)
      · intro name
        rw [hheld, hnext]
        rfl
      · intro name
        have hcount := hdue name
        rw [hreturning] at hcount
        exact hcount
  | slot hcontexts key operator hfound hfree hinsert hnext hreturning =>
      apply SlotStep.taken key operator hfound hfree (hoperators.trans hinsert)
      · intro name
        rw [hheld, hnext]
        simp only [decide_eq_true_eq]
      · intro name
        have hcount := hdue name
        rw [hreturning] at hcount
        exact hcount
  | exceeded hcontexts key operator hfound hinsert hnext =>
      subst hnext
      apply SlotStep.exceeded key operator hfound (hoperators.trans hinsert)
      · intro name
        rw [hheld]
        rfl
      · intro name
        have hcount := hdue name
        rw [if_neg (by simp)] at hcount
        simpa [Next.returning, Stage.returned] using hcount
  | returned hcontexts name hrelease hnext =>
      subst hnext
      apply SlotStep.returned name (hoperators.trans hrelease)
      · intro other
        rw [hheld]
        rfl
      · intro other
        have hcount := hdue other
        simpa [Next.returning] using hcount.symm

/-! ## The callbacks -/

theorem slotStep_onResponse (s : FilterState H) (id : Nat) (head : Option ResponseHead)
    (unix : UInt64) (due : String → Nat) : SlotStep s (s.onResponse id head unix) due due := by
  unfold FilterState.onResponse
  split
  · exact .kept rfl (fun _ => rfl) fun _ => rfl
  · next metered hmetered =>
      refine .kept rfl ?_ fun _ => rfl
      intro name
      have hcount := Assoc.countVals_replace (p := Metered.holds name)
        (metered.answered (head.any ResponseHead.isSuccess)) hmetered
      rw [Metered.holds_answered] at hcount
      exact Nat.add_right_cancel hcount

/-- A context that is over holds no slot any more. -/
theorem slotStep_over {s s' : FilterState H} {id : Nat} {metered : Metered}
    (h : s.contexts.lookup id = some metered) (hcontexts : s'.contexts = s.contexts.erase id)
    (hoperators : s'.operators =
      match metered.caller with
      | some (.operator slot) => s.operators.release slot.name
      | some (.run _) | none => s.operators) (due : String → Nat) : SlotStep s s' due due := by
  have hcount : ∀ name, slotsHeld s name =
      slotsHeld s' name + if metered.holds name then 1 else 0 := by
    intro name
    unfold slotsHeld
    rw [hcontexts]
    exact Assoc.countVals_erase h
  obtain ⟨mode, provider, success, caller⟩ := metered
  cases caller with
  | none => exact .kept hoperators (fun name => (hcount name).symm) fun _ => rfl
  | some caller =>
      cases caller with
      | run admission => exact .kept hoperators (fun name => (hcount name).symm) fun _ => rfl
      | operator slot =>
          refine .released slot.name hoperators ?_ fun _ => rfl
          intro name
          rw [hcount name]
          simp only [Metered.holds, decide_eq_true_eq]

theorem slotStep_onResponseBody (s : FilterState H) (id : Nat) (endOfStream : Bool)
    (metadata : TokenMetadata) (unix : UInt64) (due : String → Nat) :
    SlotStep s (s.onResponseBody id endOfStream metadata unix) due due := by
  unfold FilterState.onResponseBody
  split
  · exact .kept rfl (fun _ => rfl) fun _ => rfl
  · next metered hmetered =>
      split
      · apply slotStep_over hmetered
        · unfold FilterState.settle
          dsimp only
          split <;> rfl
        · unfold FilterState.settle
          dsimp only
          split
          · next heq => rw [heq]
          · next heq => rw [heq]
          · next heq => rw [heq]
      · exact .kept rfl (fun _ => rfl) fun _ => rfl

theorem slotStep_onDrop (s : FilterState H) (id : Nat) (due : String → Nat) :
    SlotStep s (s.onDrop id) due due := by
  unfold FilterState.onDrop
  split
  · exact .kept rfl (fun _ => rfl) fun _ => rfl
  · next metered hmetered =>
      apply slotStep_over hmetered
      · dsimp only
        split <;> rfl
      · dsimp only
        split
        · next heq => rw [heq]
        · next heq => rw [heq]
        · next heq => rw [heq]

/-! ## Every act -/

/-- A context is of a request that was answered. -/
def Left (g : Gateway H K) : Prop :=
  ∀ id metered, g.shared.contexts.lookup id = some metered → Gone g id

/-- A context is there before an act, or is of the request that the act answers. -/
theorem contexts_step {g : Gateway H K} {act : Act K} {id : Nat} {metered : Metered}
    (h : (g.step hash d act).1.shared.contexts.lookup id = some metered) :
    (∃ old, g.shared.contexts.lookup id = some old) ∨
      (∃ reply, (g.step hash d act).2 = some reply) ∧ act.about g = id := by
  have hsettled : ∀ {g' : Gateway H K} {next : Next K} {other : Nat}
      (request : Request) (cluster : Option String), g'.shared.contexts = g.shared.contexts →
      (g'.settled other request cluster next).1.shared.contexts.lookup id = some metered →
      (∃ old, g.shared.contexts.lookup id = some old) ∨
        (∃ reply, (g'.settled other request cluster next).2 = some reply) ∧ other = id := by
    intro g' next other request cluster hcontexts hlookup
    rw [Gateway.contexts_settled, hcontexts] at hlookup
    cases next with
    | wait stage => exact .inl ⟨metered, hlookup⟩
    | reply reply =>
        by_cases hid : other = id
        · exact .inr ⟨⟨reply, rfl⟩, hid⟩
        · left
          split at hlookup
          · rw [Assoc.lookup_insert_eq, if_neg (Ne.symm hid)] at hlookup
            exact ⟨metered, hlookup⟩
          · exact ⟨metered, hlookup⟩
  have herase : ∀ other, (g.shared.contexts.erase other).lookup id = some metered →
      ∃ old, g.shared.contexts.lookup id = some old := by
    intro other hlookup
    rw [Assoc.lookup_erase_eq] at hlookup
    split at hlookup
    · cases hlookup
    · exact ⟨metered, hlookup⟩
  cases act with
  | request draw request cluster =>
      exact hsettled request cluster (took_onRequest hash d g.arrive draw request cluster).contexts h
  | resume other draw =>
      unfold Gateway.step at h ⊢
      dsimp only at h ⊢
      cases htask : g.tasks.lookup other with
      | none =>
          rw [htask] at h
          exact .inl ⟨metered, h⟩
      | some task =>
          rw [htask] at h
          exact hsettled task.request task.cluster (took_advance hash d g other draw task).contexts h
  | fetched other keys draw =>
      left
      rw [(g.step_fetched hash d other keys draw).1] at h
      exact ⟨metered, h⟩
  | cancel other draw =>
      left
      rw [(g.step_cancel hash d other draw).1] at h
      exact ⟨metered, h⟩
  | response other head draw =>
      left
      have hlookup : (g.shared.onResponse other head draw.unix).contexts.lookup id = some metered := h
      unfold FilterState.onResponse at hlookup
      split at hlookup
      · exact ⟨metered, hlookup⟩
      · next old hold =>
          dsimp only at hlookup
          rw [Assoc.lookup_insert_eq] at hlookup
          split at hlookup
          · next heq => exact ⟨old, heq ▸ hold⟩
          · exact ⟨metered, hlookup⟩
  | body other endOfStream metadata draw =>
      left
      have hlookup : (g.shared.onResponseBody other endOfStream metadata draw.unix).contexts.lookup
          id = some metered := h
      unfold FilterState.onResponseBody at hlookup
      split at hlookup
      · exact ⟨metered, hlookup⟩
      · split at hlookup
        · unfold FilterState.settle at hlookup
          dsimp only at hlookup
          split at hlookup <;> exact herase other hlookup
        · exact ⟨metered, hlookup⟩
  | drop other draw =>
      left
      have hlookup : (g.shared.onDrop other).contexts.lookup id = some metered := h
      unfold FilterState.onDrop at hlookup
      split at hlookup
      · exact ⟨metered, hlookup⟩
      · dsimp only at hlookup
        split at hlookup <;> exact herase other hlookup

/-- **Step.** No act leaves a context for a request that is under way. -/
theorem Left.step {g : Gateway H K} (h : Left g) (hi : InStep hash g) (act : Act K) :
    Left (g.step hash d act).1 := by
  intro id metered hmetered
  rcases contexts_step hmetered with ⟨old, hold⟩ | ⟨⟨reply, hreply⟩, rfl⟩
  · exact Gone.step hash d (h id old hold) act
  · exact (Gone.of_reply hi hreply).2

/-- A task that has no count to take back goes on without. -/
theorem returnsDue_insert {tasks : Assoc Nat (Task K)} {id : Nat} {task task' : Task K}
    (htask : tasks.lookup id = some task) (hold : task.stage.returned = none)
    (hnew : task'.stage.returned = none) (name : String) :
    returnsDue (tasks.insert id task') name = returnsDue tasks name := by
  have hcount := Assoc.countVals_replace
    (p := fun task : Task K => decide (task.stage.returned = some name)) task' htask
  simp only [hold, hnew, reduceCtorEq, decide_false, Bool.false_eq_true, if_false,
    Nat.add_zero] at hcount
  exact hcount

/-- Or is over. -/
theorem returnsDue_erase {tasks : Assoc Nat (Task K)} {id : Nat} {task : Task K}
    (htask : tasks.lookup id = some task) (hold : task.stage.returned = none) (name : String) :
    returnsDue (tasks.erase id) name = returnsDue tasks name := by
  have hcount := Assoc.countVals_erase
    (p := fun task : Task K => decide (task.stage.returned = some name)) htask
  simp only [hold, reduceCtorEq, decide_false, Bool.false_eq_true, if_false, Nat.add_zero] at hcount
  exact hcount.symm

theorem returned_keyed (policy : Oidc.Policy) (token : Bytes) (result : Except OidcError K) :
    (keyed policy token result).returned = none := by
  cases result <;> rfl

variable (hash d) in
/-- The end of a fetch takes nothing back, -/
theorem due_fetched (g : Gateway H K) (id : Nat) (keys : Option (Assoc String K)) (draw : Draw)
    (name : String) :
    returnsDue (g.step hash d (.fetched id keys draw)).1.tasks name = returnsDue g.tasks name := by
  unfold Gateway.step
  dsimp only
  split
  · rfl
  · next task htask =>
      obtain ⟨request, cluster, stage⟩ := task
      cases stage with
      | fetching policy token kid start =>
          exact returnsDue_insert htask rfl (returned_keyed _ _ _) name
      | _ => rfl

variable (hash d) in
/-- nor does the drop of a task. -/
theorem due_cancel (g : Gateway H K) (id : Nat) (draw : Draw) (name : String) :
    returnsDue (g.step hash d (.cancel id draw)).1.tasks name = returnsDue g.tasks name := by
  unfold Gateway.step
  dsimp only
  split
  · rfl
  · next task htask =>
      obtain ⟨request, cluster, stage⟩ := task
      cases stage with
      | locking policy token kid => exact returnsDue_erase htask rfl name
      | fetching policy token kid start => exact returnsDue_erase htask rfl name
      | _ => rfl

/-- **Everything an act does** to the slots. -/
theorem slotStep_step {g : Gateway H K} (hi : InStep hash g) (hleft : Left g) (act : Act K) :
    SlotStep g.shared (g.step hash d act).1.shared (returnsDue g.tasks)
      (returnsDue (g.step hash d act).1.tasks) := by
  have hkept : ∀ {g' : Gateway H K}, g'.shared = g.shared →
      (∀ name, returnsDue g'.tasks name = returnsDue g.tasks name) →
      SlotStep g.shared g'.shared (returnsDue g.tasks) (returnsDue g'.tasks) := by
    intro g' hshared hdue
    rw [hshared]
    exact .kept rfl (fun _ => rfl) hdue
  cases act with
  | request draw request cluster =>
      have hnone : g.shared.contexts.lookup g.shared.arrived = none := by
        rw [Option.eq_none_iff_forall_ne_some]
        intro metered hmetered
        exact Nat.lt_irrefl _ (hleft _ metered hmetered).arrived
      have hnew : g.tasks.lookup g.shared.arrived = none := by
        rw [Option.eq_none_iff_forall_ne_some]
        intro task htask
        exact Nat.lt_irrefl _ (hi.numbered _ task htask)
      have hfresh : (g.arrive.tasks.lookup g.shared.arrived).bind
          (fun task => task.stage.returned) = none := by
        rw [show g.arrive.tasks = g.tasks from rfl, hnew]
        rfl
      have hstep := (took_onRequest hash d g.arrive draw request cluster).slotStep
        (g.arrive.section_onRequest hash d 0 draw request cluster).tasks hfresh hnone request cluster
      -- a number for the request is no slot
      cases hstep with
      | kept hoperators hheld hdue => exact .kept hoperators hheld hdue
      | taken key operator hfound hfree hoperators hheld hdue =>
          exact .taken key operator hfound hfree hoperators hheld hdue
      | exceeded key operator hfound hoperators hheld hdue =>
          exact .exceeded key operator hfound hoperators hheld hdue
      | returned name hoperators hheld hdue => exact .returned name hoperators hheld hdue
      | released name hoperators hheld hdue => exact .released name hoperators hheld hdue
  | resume id draw =>
      unfold Gateway.step
      dsimp only
      split
      · exact hkept rfl fun _ => rfl
      · next task htask =>
          have hnone : g.shared.contexts.lookup id = none := by
            rw [Option.eq_none_iff_forall_ne_some]
            intro metered hmetered
            have hended := (hleft id metered hmetered).ended
            rw [htask] at hended
            cases hended
          refine (took_advance hash d g id draw task).slotStep
            (g.tasks_advance hash d id draw task) ?_ hnone _ _
          rw [htask]
          rfl
  | fetched id keys draw =>
      exact hkept (g.step_fetched hash d id keys draw).1
        fun name => due_fetched hash d g id keys draw name
  | cancel id draw =>
      exact hkept (g.step_cancel hash d id draw).1 fun name => due_cancel hash d g id draw name
  | response id head draw => exact slotStep_onResponse g.shared id head draw.unix _
  | body id endOfStream metadata draw =>
      exact slotStep_onResponseBody g.shared id endOfStream metadata draw.unix _
  | drop id draw => exact slotStep_onDrop g.shared id _

section Run

variable {operators : Operators H} {usage : UsageRegistry} {injected : List String}

variable (hash d operators usage) in
/-- **Run**, of the contexts: they are of requests that were answered. -/
theorem left_run (acts : List (Act K)) : Left ((gateway hash d operators usage).run acts) := by
  induction acts using List.reverseRecOn with
  | nil =>
      intro id metered hmetered
      cases hmetered
  | append_singleton acts act ih =>
      rw [Mealy.run_concat]
      exact ih.step (inStep_run hash d operators usage acts) act

variable (hash d usage) in
/-- **Run**, of the account: it is kept from the operators of a tokens file on. -/
theorem exact_run (hparsed : Operators.Parsed injected operators) (acts : List (Act K)) :
    Exact ((gateway hash d operators usage).run acts).shared
      (returnsDue ((gateway hash d operators usage).run acts).tasks) := by
  induction acts using List.reverseRecOn with
  | nil =>
      constructor
      · intro h operator hoperator
        exact (hparsed.valid h operator hoperator).inFlight
      · intro h operator hoperator
        exact Nat.zero_le _
  | append_singleton acts act ih =>
      rw [Mealy.run_concat]
      apply ih.step (slotStep_step (inStep_run hash d operators usage acts)
        (left_run hash d operators usage acts) act)
      -- the names are those of the tokens file
      intro h h' operator operator' hoperator hoperator' hname
      have hsame := (accounted_run hash d operators usage acts).operators
      obtain ⟨old, hold, hidle⟩ := hsame h operator hoperator
      obtain ⟨old', hold', hidle'⟩ := hsame h' operator' hoperator'
      apply hparsed.distinct h h' old old' hold hold'
      calc old.name = old.idle.name := rfl
        _ = operator.idle.name := by rw [hidle]
        _ = operator'.idle.name := hname
        _ = old'.idle.name := by rw [hidle']

end Run

/-- An injected request goes straight to its admission. -/
theorem Gateway.onRequest_injected {request : Request} {cluster : Option String} {name : String}
    (h : ForInjection d request cluster name) (g : Gateway H K) (draw : Draw) :
    g.onRequest hash d draw request cluster = g.injected hash d draw request name := by
  unfold Gateway.onRequest
  rw [if_neg h.forwardable.usage, if_neg h.forwardable.grant,
    if_neg (not_or.mpr ⟨h.forwardable.runs, h.forwardable.underRuns⟩),
    if_neg (Nat.not_lt.mpr h.forwardable.single), if_neg h.path, h.cluster]
  simp only [Option.bind_some, h.mode, Option.map_some]

variable (hash d) in
/-- A request with the token of an operator, for one of its clusters. -/
structure OfOperator (g : Gateway H K) (request : Request) (cluster : Option String)
    (operator : Operator) : Prop where
  asks : ∃ name header token, ForInjection d request cluster name ∧
    d.base.token request.headers = some (header, token) ∧
    g.shared.operators.authenticate hash token = some operator ∧ name ∈ operator.clusters

section OfOperator

variable {g : Gateway H K} {request : Request} {cluster : Option String} {operator : Operator}

theorem OfOperator.inFlight_eq (h : OfOperator hash d g request cluster operator)
    {due : String → Nat} (hexact : Exact g.shared due) :
    operator.inFlight = slotsHeld g.shared operator.name + due operator.name := by
  obtain ⟨name, header, token, -, -, hoperator, -⟩ := h.asks
  exact hexact.inFlight _ _ (Operators.lookup_of_authenticate hoperator)

/-- One that is one too many is counted all the same. -/
theorem OfOperator.step_of_full (h : OfOperator hash d g request cluster operator)
    (hfull : operator.concurrency ≤ operator.inFlight) (draw : Draw) :
    (g.step hash d (.request draw request cluster)).1.tasks.lookup g.shared.arrived =
        some ⟨request, cluster, .returning operator.name⟩ ∧
      (g.step hash d (.request draw request cluster)).2 = none := by
  obtain ⟨name, header, token, hinjection, htoken, hoperator, hlisted⟩ := h.asks
  unfold Gateway.step
  dsimp only
  rw [Gateway.onRequest_injected hinjection]
  unfold Gateway.injected
  rw [htoken]
  dsimp only
  rw [show g.arrive.shared.operators = g.shared.operators from rfl, hoperator]
  dsimp only
  rw [if_pos ⟨hlisted, hfull⟩]
  exact ⟨AList.lookup_insert _, rfl⟩

/-- One that is not goes on at once. -/
theorem OfOperator.step_of_free (h : OfOperator hash d g request cluster operator)
    (hfree : operator.inFlight < operator.concurrency) (draw : Draw) :
    ∃ context, (g.step hash d (.request draw request cluster)).2 = some (context, .ok .proceed) ∧
      context.identity = some operator.subject := by
  obtain ⟨name, header, token, hinjection, htoken, hoperator, hlisted⟩ := h.asks
  have hinjected : ∃ context, (d.base.injected hash g.shared.world draw.alone request name).2 =
      (context, .ok .proceed) ∧ context.identity = some operator.subject := by
    unfold RunTokenFilter.injected RunTokenFilter.admitRequest
    rw [htoken]
    dsimp only
    rw [show g.shared.world.operators = g.shared.operators from rfl, hoperator]
    dsimp only
    unfold Operator.admitRequest
    rw [if_neg (not_not.mpr hlisted), if_neg (Nat.not_le.mpr hfree)]
    dsimp only
    rw [operator.isEmpty_subject, if_neg Bool.false_ne_true]
    exact ⟨_, rfl, rfl⟩
  obtain ⟨context, hreply, hidentity⟩ := hinjected
  refine ⟨context, ?_, hidentity⟩
  unfold Gateway.step
  dsimp only
  rw [Gateway.onRequest_injected hinjection]
  unfold Gateway.injected
  rw [htoken]
  dsimp only
  rw [show g.arrive.shared.operators = g.shared.operators from rfl, hoperator]
  dsimp only
  rw [if_neg fun hfull => Nat.not_le.mpr hfree hfull.2]
  exact congrArg some hreply

end OfOperator

/-- What is promised of the operators' slots. -/
structure OperatorSlots (hash : Bytes → H) (d : Deployed K) (operators : Operators H)
    (usage : UsageRegistry) (acts : List (Act K)) : Prop where
  /-- An operator has in flight what contexts hold of it, no more than it may, and what was counted
  as one too many and is yet to be taken back. -/
  exact : Exact ((gateway hash d operators usage).run acts).shared
    (returnsDue ((gateway hash d operators usage).run acts).tasks)
  /-- While both together are less than it may have, its next request goes on at once; -/
  goesOn : ∀ before draw request cluster operator,
    before ++ [.request draw request cluster] <+: acts →
    OfOperator hash d ((gateway hash d operators usage).run before) request cluster operator →
    slotsHeld ((gateway hash d operators usage).run before).shared operator.name +
        returnsDue ((gateway hash d operators usage).run before).tasks operator.name <
      operator.concurrency →
    ∃ context, (((gateway hash d operators usage).run before).step hash d
        (.request draw request cluster)).2 = some (context, .ok .proceed) ∧
      context.identity = some operator.subject
  /-- else it is counted as one too many, -/
  exceeds : ∀ before draw request cluster operator,
    before ++ [.request draw request cluster] <+: acts →
    OfOperator hash d ((gateway hash d operators usage).run before) request cluster operator →
    operator.concurrency ≤ slotsHeld ((gateway hash d operators usage).run before).shared
        operator.name +
      returnsDue ((gateway hash d operators usage).run before).tasks operator.name →
    (((gateway hash d operators usage).run before).step hash d
        (.request draw request cluster)).1.tasks.lookup
          ((gateway hash d operators usage).run before).shared.arrived =
        some ⟨request, cluster, .returning operator.name⟩ ∧
      (((gateway hash d operators usage).run before).step hash d
        (.request draw request cluster)).2 = none
  /-- and refused by the act that takes the count back. -/
  refused : ∀ before id draw request cluster name, before ++ [.resume id draw] <+: acts →
    ((gateway hash d operators usage).run before).tasks.lookup id =
      some ⟨request, cluster, .returning name⟩ →
    (((gateway hash d operators usage).run before).step hash d (.resume id draw)).2 = some (busy d)

/-- **The slots of the operators.** However the requests of a gateway interleave with the ends of
their responses, contexts hold no more slots of an operator of the tokens file than it may have, and
with the counts that refused requests are yet to take back they are what it has in flight. One more
is refused exactly when these together are all it may have. -/
theorem operator_slots (hash : Bytes → H) (outer : Outer H) (config : Config) (built : Built H)
    (hbuilt : fromConfig outer config = .ok built) (jwt : JwtLibrary K) (issuedAfter : UInt64)
    (usage : UsageRegistry) (acts : List (Act K)) :
    OperatorSlots hash (built.deployed jwt issuedAfter) built.operators usage acts := by
  have hparsed := (builtFrom_of_fromConfig hbuilt).parsed
  constructor
  · exact exact_run hash (built.deployed jwt issuedAfter) usage hparsed acts
  · intro before draw request cluster operator _ h hfree
    have hexact := exact_run hash (built.deployed jwt issuedAfter) usage hparsed before
    exact h.step_of_free ((h.inFlight_eq hexact).trans_lt hfree) draw
  · intro before draw request cluster operator _ h hfull
    have hexact := exact_run hash (built.deployed jwt issuedAfter) usage hparsed before
    exact h.step_of_full (hfull.trans_eq (h.inFlight_eq hexact).symm) draw
  · intro before id draw request cluster name _ htask
    unfold Gateway.step
    dsimp only
    rw [htask]
    rfl

/-! ## One operator, with one slot -/

def operatorToken : Bytes := ascii "praxis-operator-one"

/-- Its SHA-256, -/
def operatorDigest : Bytes :=
  [19, 242, 193, 10, 62, 228, 6, 219, 72, 95, 150, 109, 45, 86, 137, 50, 163, 217, 161, 137, 110,
    32, 71, 103, 81, 209, 102, 238, 157, 219, 166, 67]

/-- in hex, -/
def operatorHex : String := "13f2c10a3ee406db485f966d2d568932a3d9a1896e20476751d166ee9ddba643"

/-- and in a tokens file. -/
def operatorText : String :=
  "operators:\n- name: one\n  token_sha256: " ++ operatorHex ++
    "\n  clusters: [anthropic]\n  concurrency: 1\n"

def operatorHash (bytes : Bytes) : Bytes :=
  if bytes = operatorToken then operatorDigest else bytes

def operatorOuter : Outer Bytes where
  files := fun path => if path = "operators.yaml" then .text operatorText else .notFound
  headerName := .ok
  policyYaml := fun _ => .error "missing field"
  tokensYaml := fun text =>
    if text = operatorText then .ok ⟨[⟨"one", operatorHex, ["anthropic"], 1, .priv⟩]⟩
    else .error "missing field"
  budgetYaml := fun _ => .error "missing field"
  decode := fun text => if text = operatorHex then some operatorDigest else none
  quoted := String.quote
  display := toString
  client := .ok ()

def operatorConfig : Config where
  credentials := [⟨"anthropic", .injected⟩].toAList
  operators := some "operators.yaml"

def operatorBuilt : Built Bytes where
  base :=
    { tokenHeaders := ["authorization"]
      publicPaths := []
      usageFreePaths := []
      credentials := [⟨"anthropic", .injected⟩].toAList
      usageCorsOrigins := [utf8 defaultUsageOrigin]
      endpoints := .absent
      budget := none }
  endpoints := .absent
  operators := [⟨operatorDigest, ⟨"one", ["anthropic"], 1, .priv, 0⟩⟩].toAList
  registry := defaultRegistry
  spend := false

/-- The file is read. -/
private theorem operatorBuilt_eq : fromConfig operatorOuter operatorConfig = .ok operatorBuilt := by
  have htokens : operatorOuter.tokensYaml operatorText =
      .ok ⟨[⟨"one", operatorHex, ["anthropic"], 1, .priv⟩]⟩ := by
    simp only [operatorOuter, if_true]
  have hdecode : operatorOuter.decode operatorHex = some operatorDigest := by
    simp only [operatorOuter, if_true]
  have hentry : Operators.parseEntry operatorOuter.decode operatorOuter.quoted
      operatorConfig.injected ⟨∅, []⟩ ⟨"one", operatorHex, ["anthropic"], 1, .priv⟩ =
        .ok ⟨operatorBuilt.operators, ["one"]⟩ := by
    unfold Operators.parseEntry
    dsimp only
    rw [hdecode]
    rfl
  have hparse : Operators.parse operatorOuter.tokensYaml operatorOuter.decode operatorOuter.quoted
      operatorConfig.injected operatorText = .ok operatorBuilt.operators := by
    unfold Operators.parse
    rw [htokens]
    simp only [bind, Except.bind, List.foldlM_cons, List.foldlM_nil, hentry, maxOperators]
    rfl
  have hload : Operators.load operatorOuter operatorConfig.injected "operators.yaml" =
      .ok operatorBuilt.operators := by
    unfold Operators.load
    rw [show operatorOuter.files "operators.yaml" = .text operatorText by
      simp only [operatorOuter, if_true]]
    dsimp only
    rw [hparse]
    rfl
  unfold fromConfig
  rw [show loadOperators operatorOuter operatorConfig.injected operatorConfig.operators =
    .ok operatorBuilt.operators by
      unfold loadOperators
      rw [show operatorConfig.operators = some "operators.yaml" from rfl]
      dsimp only
      rw [hload]
      rfl]
  rfl

/-- A request with the operator's token. -/
def operatorAct : Act Unit :=
  .request ⟨1, 0, Runs.sampleDraw 1⟩
    ⟨ascii "POST", ascii "/anthropic/v1/messages", none,
      [("authorization", ascii "Bearer " ++ operatorToken)]⟩ (some "anthropic")

/-- No token of a job is well formed. -/
def operatorJwt : JwtLibrary Unit := ⟨fun _ => none, fun _ _ _ _ => .error true⟩

/-- A second request comes while the first is in flight, and the first ends before the second has
taken its count back. -/
def operatorActs : List (Act Unit) :=
  [operatorAct, operatorAct, .drop 0 ⟨2, 0, Runs.sampleDraw 2⟩]

/-- So a third is refused, though no slot is held. -/
theorem operator_slots_sample :
    OperatorSlots operatorHash (operatorBuilt.deployed operatorJwt 0) operatorBuilt.operators
        (.new 0) (operatorActs ++ [operatorAct, .resume 2 ⟨3, 0, Runs.sampleDraw 3⟩]) ∧
      slotsHeld ((gateway operatorHash (operatorBuilt.deployed operatorJwt 0)
        operatorBuilt.operators (.new 0)).run operatorActs).shared "one" = 0 ∧
      (((gateway operatorHash (operatorBuilt.deployed operatorJwt 0) operatorBuilt.operators
          (.new 0)).run (operatorActs ++ [operatorAct])).step operatorHash
            (operatorBuilt.deployed operatorJwt 0) (.resume 2 ⟨3, 0, Runs.sampleDraw 3⟩)).2 =
        some (busy (operatorBuilt.deployed operatorJwt 0)) :=
  ⟨operator_slots operatorHash operatorOuter operatorConfig operatorBuilt operatorBuilt_eq
    operatorJwt 0 (.new 0) _, rfl, rfl⟩

end Tasks

end CredentialBroker
