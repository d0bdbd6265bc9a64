import CredentialBroker.Operators
import CredentialBroker.Util.Assoc
import CredentialBroker.Util.Mealy

/-!
# Requests of one operator at once

`Operator::admit` takes no lock. It counts a request first, and takes that back if the operator had
as many in flight already as it may, so a request that is refused is counted for a moment and may
have another refused.

`Admitting` is an operator with the calls of `admit` under way and the slots they returned, and an
`Act` is one atomic step of one of them: any interleaving of any number of calls and drops is a list
of acts. The counter is a natural number, for a process has no room for as many calls as would
overflow it.

* `Admitting.Counted` is the invariant: what is in flight are the slots alive and the refused calls
  that did not take back yet.
* `admit_alone` is the refinement: a call no other comes between is `Operator.admitRequest`.
-/

namespace CredentialBroker

namespace Operator

/-! ## Calls and slots -/

/-- How far a call of `admit` is. -/
inductive Phase where
  /-- It looks its cluster up next. -/
  | entered
  /-- It counts itself next. -/
  | listed
  /-- It found the operator at its limit, and takes its count back next. -/
  | refused
  /-- It returned a slot, which is not dropped yet. -/
  | admitted
  deriving DecidableEq, Repr

structure Call where
  cluster : String
  phase : Phase
  deriving DecidableEq, Repr

/-- An operator, with the calls under way and the slots alive. -/
structure Admitting where
  operator : Operator
  calls : Assoc Nat Call
  /-- Calls so far: the number of the next. -/
  count : Nat

inductive Act where
  | call (cluster : String)
  /-- The next atomic step of a call. -/
  | advance (id : Nat)
  /-- The slot a call returned is dropped. -/
  | drop (id : Nat)
  deriving DecidableEq, Repr

/-- `in_flight.fetch_add(1)`. -/
def fetchAdd (operator : Operator) : Operator :=
  { operator with inFlight := operator.inFlight + 1 }

/-- `in_flight.fetch_sub(1)`. -/
def fetchSub (operator : Operator) : Operator :=
  { operator with inFlight := operator.inFlight - 1 }

namespace Admitting

/-- A call that goes on. -/
def reach (s : Admitting) (id : Nat) (call : Call) (phase : Phase) : Admitting :=
  { s with calls := s.calls.insert id { call with phase := phase } }

/-- A call that returned without a slot, or whose slot is dropped. -/
def forget (s : Admitting) (id : Nat) : Admitting := { s with calls := s.calls.erase id }

/-- The next atomic step of a call of `admit`, and what it returns if it does. -/
def advance (s : Admitting) (id : Nat) (call : Call) : Admitting × Option (Except Refusal Slot) :=
  match call.phase with
  | .entered =>
    if call.cluster ∉ s.operator.clusters then (s.forget id, some (.error .forbidden))
    else (s.reach id call .listed, none)
  | .listed =>
    let counted := { s with operator := s.operator.fetchAdd }
    -- `fetch_add` returns what there was before
    if s.operator.concurrency ≤ s.operator.inFlight then (counted.reach id call .refused, none)
    else
      (counted.reach id call .admitted,
        some (.ok ⟨s.operator.name, s.operator.consumer, false⟩))
  | .refused => ({ s with operator := s.operator.fetchSub }.forget id, some (.error .busy))
  | .admitted => (s, none)

def step (s : Admitting) : Act → Admitting × Option (Except Refusal Slot)
  | .call cluster =>
      ({ s with calls := s.calls.insert s.count ⟨cluster, .entered⟩, count := s.count + 1 }, none)
  | .advance id =>
    match s.calls.lookup id with
    | some call => s.advance id call
    | none => (s, none)
  | .drop id =>
    match s.calls.lookup id with
    | some ⟨_, .admitted⟩ => ({ s with operator := s.operator.fetchSub }.forget id, none)
    | _ => (s, none)

/-- How many calls are in a phase. -/
def inPhase (s : Admitting) (phase : Phase) : Nat :=
  s.calls.countVals fun call => decide (call.phase = phase)

/-- The slots alive. -/
def slots (s : Admitting) : Nat := s.inPhase .admitted

/-- The refused calls between their `fetch_add` and their `fetch_sub`. -/
def refusals (s : Admitting) : Nat := s.inPhase .refused

/-- No call is in progress: all that is left are slots. -/
def Idle (s : Admitting) : Prop :=
  ∀ id call, s.calls.lookup id = some call → call.phase = .admitted

/-- The cluster of the call an act is of. -/
def cluster (s : Admitting) : Act → Option String
  | .call cluster => some cluster
  | .advance id | .drop id => (s.calls.lookup id).map Call.cluster

/-- The act is a `fetch_sub`. -/
def subtracts (s : Admitting) : Act → Bool
  | .call _ => false
  | .advance id => (s.calls.lookup id).any fun call => decide (call.phase = .refused)
  | .drop id => (s.calls.lookup id).any fun call => decide (call.phase = .admitted)

end Admitting

/-- An operator of the tokens file, from when it is loaded. -/
def admitting (entry : Operators.Entry) : Mealy Admitting Act (Option (Except Refusal Slot)) :=
  ⟨⟨entry.operator, ∅, 0⟩, Admitting.step⟩

/-! ## The invariant -/

/-- What a call counts for in flight. -/
def Phase.counted : Phase → Nat
  | refused | admitted => 1
  | entered | listed => 0

theorem Phase.counted_eq (phase : Phase) :
    phase.counted = (if phase = .admitted then 1 else 0) + if phase = .refused then 1 else 0 := by
  cases phase <;> rfl

namespace Admitting

theorem inPhase_reach {s : Admitting} {id : Nat} {call : Call}
    (h : s.calls.lookup id = some call) (next phase : Phase) :
    (s.reach id call next).inPhase phase + (if call.phase = phase then 1 else 0) =
      s.inPhase phase + if next = phase then 1 else 0 := by
  have hreplace := Assoc.countVals_replace (p := fun call : Call => decide (call.phase = phase))
    { call with phase := next } h
  simp only [decide_eq_true_eq] at hreplace
  exact hreplace

theorem inPhase_forget {s : Admitting} {id : Nat} {call : Call}
    (h : s.calls.lookup id = some call) (phase : Phase) :
    s.inPhase phase = (s.forget id).inPhase phase + if call.phase = phase then 1 else 0 := by
  have herase := Assoc.countVals_erase (p := fun call : Call => decide (call.phase = phase)) h
  simp only [decide_eq_true_eq] at herase
  exact herase

/-- What is in flight once a call goes on. -/
theorem counted_reach {s : Admitting} {id : Nat} {call : Call}
    (h : s.calls.lookup id = some call) (next : Phase) :
    (s.reach id call next).slots + (s.reach id call next).refusals + call.phase.counted =
      s.slots + s.refusals + next.counted := by
  have hslots := inPhase_reach h next .admitted
  have hrefusals := inPhase_reach h next .refused
  rw [Phase.counted_eq, Phase.counted_eq]
  unfold slots refusals
  omega

/-- What is in flight once a call is over. -/
theorem counted_forget {s : Admitting} {id : Nat} {call : Call}
    (h : s.calls.lookup id = some call) :
    (s.forget id).slots + (s.forget id).refusals + call.phase.counted = s.slots + s.refusals := by
  have hslots := inPhase_forget h .admitted
  have hrefusals := inPhase_forget h .refused
  rw [Phase.counted_eq]
  unfold slots refusals
  omega

/-- What holds of the calls under way. -/
structure Known (clusters : List String) (s : Admitting) : Prop where
  /-- Whoever passed the first check is for a cluster of the operator's. -/
  listed : ∀ id call, s.calls.lookup id = some call → call.phase ≠ .entered →
    call.cluster ∈ clusters
  fresh : ∀ id, s.count ≤ id → s.calls.lookup id = none

/-- What holds of an operator while it admits. -/
structure Counted (entry : Operators.Entry) (s : Admitting) : Prop extends
    Known entry.clusters s where
  /-- Only what is in flight changes, and it is the slots alive and the refused calls. -/
  operator : s.operator = { entry.operator with inFlight := s.slots + s.refusals }
  bounded : s.slots ≤ entry.concurrency

theorem Known.call {clusters : List String} {s : Admitting} (h : Known clusters s)
    (cluster : String) : Known clusters (s.step (.call cluster)).1 := by
  refine ⟨?_, ?_⟩
  · intro id call hcall hphase
    change (s.calls.insert s.count ⟨cluster, .entered⟩).lookup id = some call at hcall
    rw [Assoc.lookup_insert_eq] at hcall
    split at hcall
    · cases hcall
      exact absurd rfl hphase
    · exact h.listed id call hcall hphase
  · intro id hid
    show (s.calls.insert s.count ⟨cluster, .entered⟩).lookup id = none
    have hlt : s.count < id := hid
    rw [Assoc.lookup_insert_eq, if_neg (Nat.ne_of_gt hlt)]
    exact h.fresh id (Nat.le_of_lt hlt)

theorem Known.reach {clusters : List String} {s : Admitting} (h : Known clusters s) {id : Nat}
    {call : Call} (hcall : s.calls.lookup id = some call) {phase : Phase}
    (hlisted : call.cluster ∈ clusters) : Known clusters (s.reach id call phase) := by
  refine ⟨?_, ?_⟩
  · intro id' call' hcall' hphase
    change (s.calls.insert id { call with phase := phase }).lookup id' = some call' at hcall'
    rw [Assoc.lookup_insert_eq] at hcall'
    split at hcall'
    · cases hcall'
      exact hlisted
    · exact h.listed id' call' hcall' hphase
  · intro id' hid
    show (s.calls.insert id { call with phase := phase }).lookup id' = none
    have hne : id' ≠ id := by
      intro heq
      rw [heq] at hid
      simp [h.fresh id hid] at hcall
    rw [Assoc.lookup_insert_eq, if_neg hne]
    exact h.fresh id' hid

theorem Known.forget {clusters : List String} {s : Admitting} (h : Known clusters s) (id : Nat) :
    Known clusters (s.forget id) := by
  refine ⟨?_, ?_⟩
  · intro id' call hcall hphase
    change (s.calls.erase id).lookup id' = some call at hcall
    rw [Assoc.lookup_erase_eq] at hcall
    split at hcall
    · cases hcall
    · exact h.listed id' call hcall hphase
  · intro id' hid
    show (s.calls.erase id).lookup id' = none
    rw [Assoc.lookup_erase_eq]
    split
    · rfl
    · exact h.fresh id' hid

variable {entry : Operators.Entry} {s : Admitting}

theorem Counted.init : Counted entry (admitting entry).init := by
  refine ⟨⟨?_, ?_⟩, rfl, Nat.zero_le _⟩
  · intro id call h
    cases h
  · intro id _
    rfl

/-- A call begins. -/
theorem Counted.call (h : Counted entry s) (cluster : String) :
    Counted entry (s.step (.call cluster)).1 := by
  have hkept : ∀ phase, phase ≠ .entered →
      (s.step (.call cluster)).1.inPhase phase = s.inPhase phase := by
    intro phase hphase
    refine (Assoc.countVals_insert _ (h.fresh s.count (Nat.le_refl _))).trans ?_
    simp [inPhase, hphase.symm]
  refine ⟨h.toKnown.call cluster, ?_, ?_⟩
  · unfold slots refusals
    rw [hkept .admitted nofun, hkept .refused nofun]
    exact h.operator
  · unfold slots
    rw [hkept .admitted nofun]
    exact h.bounded

theorem Counted.inFlight (h : Counted entry s) : s.operator.inFlight = s.slots + s.refusals :=
  congrArg Operator.inFlight h.operator

/-- A step is in order if it leaves in flight what is counted by then. -/
theorem Counted.next (h : Counted entry s) {s' : Admitting} (hknown : Known entry.clusters s')
    {inFlight : Nat} (hoperator : s'.operator = { s.operator with inFlight := inFlight })
    (hcount : inFlight = s'.slots + s'.refusals) (hbounded : s'.slots ≤ entry.concurrency) :
    Counted entry s' := by
  refine ⟨hknown, ?_, hbounded⟩
  rw [hoperator, h.operator, hcount]

/-- A call goes on, counting itself if its next phase counts. -/
theorem Counted.reach (h : Counted entry s) {id : Nat} {call : Call}
    (hcall : s.calls.lookup id = some call) (hlisted : call.cluster ∈ entry.clusters)
    {inFlight : Nat} {phase : Phase}
    (hinFlight : inFlight + call.phase.counted = s.operator.inFlight + phase.counted)
    (hfree : phase = .admitted → s.slots < entry.concurrency) :
    Counted entry
      ({ s with operator := { s.operator with inFlight := inFlight } }.reach id call phase) := by
  have hknown : Known entry.clusters
      { s with operator := { s.operator with inFlight := inFlight } } := ⟨h.listed, h.fresh⟩
  refine h.next (hknown.reach hcall hlisted) rfl ?_ ?_
  · show inFlight = (s.reach id call phase).slots + (s.reach id call phase).refusals
    have hreach := counted_reach hcall phase
    have hbefore := h.inFlight
    omega
  · show (s.reach id call phase).slots ≤ entry.concurrency
    have hslots : (s.reach id call phase).slots + _ = s.slots + _ :=
      inPhase_reach hcall phase .admitted
    have hbounded := h.bounded
    by_cases hphase : phase = .admitted
    · have hlt := hfree hphase
      rw [if_pos hphase] at hslots
      omega
    · rw [if_neg hphase] at hslots
      omega

/-- A call is over, and what it counted for is taken back. -/
theorem Counted.forget (h : Counted entry s) {id : Nat} {call : Call}
    (hcall : s.calls.lookup id = some call) {inFlight : Nat}
    (hinFlight : inFlight + call.phase.counted = s.operator.inFlight) :
    Counted entry
      ({ s with operator := { s.operator with inFlight := inFlight } }.forget id) := by
  have hknown : Known entry.clusters
      { s with operator := { s.operator with inFlight := inFlight } } := ⟨h.listed, h.fresh⟩
  refine h.next (hknown.forget id) rfl ?_ ?_
  · show inFlight = (s.forget id).slots + (s.forget id).refusals
    have hforget := counted_forget hcall
    have hbefore := h.inFlight
    omega
  · show (s.forget id).slots ≤ entry.concurrency
    have hslots : s.slots = (s.forget id).slots + _ := inPhase_forget hcall .admitted
    have hbounded := h.bounded
    omega

/-- Whoever is counted is one of those in flight. -/
theorem Counted.counted_le (h : Counted entry s) {id : Nat} {call : Call}
    (hcall : s.calls.lookup id = some call) : call.phase.counted ≤ s.operator.inFlight := by
  have hforget := counted_forget hcall
  have hinFlight := h.inFlight
  omega

/-- A call takes its next step. -/
theorem Counted.advance (h : Counted entry s) {id : Nat} {call : Call}
    (hcall : s.calls.lookup id = some call) : Counted entry (s.advance id call).1 := by
  have hclusters : s.operator.clusters = entry.clusters := by rw [h.operator]; rfl
  have hconcurrency : s.operator.concurrency = entry.concurrency := by rw [h.operator]; rfl
  have hcounted := h.counted_le hcall
  unfold Admitting.advance
  split
  · next hphase =>
      rw [hclusters]
      split
      · exact h.forget hcall (by rw [hphase]; rfl)
      · next hlisted => exact h.reach hcall (not_not.mp hlisted) (by rw [hphase]; rfl) nofun
  · next hphase =>
      have hlisted : call.cluster ∈ entry.clusters := h.listed id call hcall (by simp [hphase])
      rw [hconcurrency]
      dsimp only
      split
      · exact h.reach hcall hlisted (by rw [hphase]; rfl) nofun
      · next hfree =>
          -- no more slots are alive than requests in flight, and they were under the limit
          refine h.reach hcall hlisted (by rw [hphase]; rfl) fun _ => ?_
          have hinFlight := h.inFlight
          omega
  · next hphase =>
      rw [hphase] at hcounted
      refine h.forget hcall ?_
      rw [hphase]
      exact Nat.sub_add_cancel hcounted
  · exact h

/-- A slot is dropped. -/
theorem Counted.drop (h : Counted entry s) (id : Nat) : Counted entry (s.step (.drop id)).1 := by
  unfold Admitting.step
  dsimp only
  split
  · next cluster hcall => exact h.forget hcall (Nat.sub_add_cancel (h.counted_le hcall))
  · exact h

/-- **Step.** Whichever call goes on, what is in flight stays the slots alive and the refused
calls. -/
theorem Counted.step (h : Counted entry s) (act : Act) : Counted entry (s.step act).1 := by
  cases act with
  | call cluster => exact h.call cluster
  | advance id =>
      unfold Admitting.step
      dsimp only
      split
      · next call hcall => exact h.advance hcall
      · exact h
  | drop id => exact h.drop id

/-- **Run.** So it is in every interleaving. -/
theorem counted_run (entry : Operators.Entry) (acts : List Act) :
    Counted entry ((admitting entry).run acts) := by
  induction acts using List.reverseRecOn with
  | nil => exact Counted.init
  | append_singleton acts act ih =>
      rw [Mealy.run_concat]
      exact ih.step act

/-! ## What is promised -/

theorem Counted.concurrency (h : Counted entry s) : s.operator.concurrency = entry.concurrency := by
  rw [h.operator]
  rfl

/-- Whoever counted itself is counted when it takes that back. -/
theorem Counted.pos_of_subtracts (h : Counted entry s) {act : Act} (hact : s.subtracts act = true) :
    0 < s.operator.inFlight := by
  have hphase : ∀ id call, s.calls.lookup id = some call → call.phase.counted = 1 →
      0 < s.operator.inFlight := by
    intro id call hcall hcounted
    have hle := h.counted_le hcall
    omega
  cases act with
  | call cluster => cases hact
  | advance id =>
      obtain ⟨call, hcall, hrefused⟩ := (Option.any_eq_true _ _).mp hact
      exact hphase id call hcall (by rw [of_decide_eq_true hrefused]; rfl)
  | drop id =>
      obtain ⟨call, hcall, hadmitted⟩ := (Option.any_eq_true _ _).mp hact
      exact hphase id call hcall (by rw [of_decide_eq_true hadmitted]; rfl)

theorem Counted.refusals_of_idle {s : Admitting} (hidle : s.Idle) : s.refusals = 0 := by
  apply Assoc.countVals_eq_zero
  intro id call hcall
  rw [hidle id call hcall]
  rfl

/-- A call for a cluster that is not the operator's is never counted. -/
theorem Counted.operator_of_unlisted (h : Counted entry s) {act : Act} {cluster : String}
    (hcluster : s.cluster act = some cluster) (hunlisted : cluster ∉ entry.clusters) :
    (s.step act).1.operator = s.operator := by
  have hentered : ∀ id call, s.calls.lookup id = some call → call.cluster = cluster →
      call.phase = .entered := by
    intro id call hcall heq
    by_contra hphase
    exact hunlisted (heq ▸ h.listed id call hcall hphase)
  cases act with
  | call cluster => rfl
  | advance id =>
      obtain ⟨call, hcall, heq⟩ := Option.map_eq_some_iff.mp hcluster
      simp only [Admitting.step, hcall, Admitting.advance, hentered id call hcall heq]
      split <;> rfl
  | drop id =>
      obtain ⟨call, hcall, heq⟩ := Option.map_eq_some_iff.mp hcluster
      have hphase := hentered id call hcall heq
      obtain ⟨other, phase⟩ := call
      cases hphase
      simp only [Admitting.step, hcall]

end Admitting

/-- What is promised of an operator after any acts. -/
structure WithinConcurrency (entry : Operators.Entry) (s : Admitting) : Prop where
  slots_le : s.slots ≤ entry.concurrency
  inFlight : s.operator.inFlight = s.slots + s.refusals
  /-- It never underflows. -/
  pos : ∀ act, s.subtracts act = true → 0 < s.operator.inFlight
  idle : s.Idle → s.operator.inFlight = s.slots
  unlisted : ∀ act cluster, s.cluster act = some cluster → cluster ∉ entry.clusters →
    (s.step act).1.operator = s.operator

/-- **An operator never exceeds its concurrency**, whatever calls and drops there are, in whatever
order they take their atomic steps. -/
theorem within_concurrency (entry : Operators.Entry) (acts : List Act) :
    WithinConcurrency entry ((admitting entry).run acts) := by
  have h := Admitting.counted_run entry acts
  refine ⟨h.bounded, h.inFlight, fun act => h.pos_of_subtracts, ?_, ?_⟩
  · intro hidle
    rw [h.inFlight, Admitting.Counted.refusals_of_idle hidle, Nat.add_zero]
  · intro act cluster hcluster hunlisted
    exact h.operator_of_unlisted hcluster hunlisted

/-- A call whose steps no other comes between. One that returned takes no more. -/
def aloneActs (id : Nat) (cluster : String) : List Act :=
  [.call cluster, .advance id, .advance id, .advance id]

/-- **Refinement.** Such a call is `admitRequest`, in what it does to the operator and in what it
returns. -/
theorem admit_alone (entry : Operators.Entry) (s : Admitting) (cluster : String) :
    ((admitting entry).runFrom s (aloneActs s.count cluster)).operator =
        (s.operator.admitRequest cluster).1 ∧
      ((admitting entry).traceFrom s (aloneActs s.count cluster)).filterMap
          (fun event => (event.1.step event.2).2) =
        [(s.operator.admitRequest cluster).2] := by
  by_cases hlisted : cluster ∈ s.operator.clusters
  · by_cases hfull : s.operator.concurrency ≤ s.operator.inFlight
    · simp [aloneActs, Mealy.runFrom, Mealy.traceFrom, Mealy.next, admitting, Admitting.step,
        Admitting.advance, Admitting.reach, Admitting.forget, fetchAdd, fetchSub, admitRequest,
        hlisted, hfull]
    · simp [aloneActs, Mealy.runFrom, Mealy.traceFrom, Mealy.next, admitting, Admitting.step,
        Admitting.advance, Admitting.reach, fetchAdd, admitRequest, hlisted, hfull]
  · simp [aloneActs, Mealy.runFrom, Mealy.traceFrom, Mealy.next, admitting, Admitting.step,
      Admitting.advance, Admitting.forget, admitRequest, hlisted]

end Operator

end CredentialBroker
