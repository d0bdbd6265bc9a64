import CredentialBroker.Runs.Step

/-!
# Concurrency slots and who holds them

An `Admission` is held outside the registry, for as long as its response takes, and gives its slot
back through its key alone. To say whose slot that is, `System` puts the registry next to the
admissions that are alive, and numbers registrations: `current` is the number of the registration a
key's run is of, and each admission remembers the number it was admitted for. The numbers are
bookkeeping of this file only; the registry never reads them.

Keys are forgotten and registered anew while an admission of the old registration may still be
alive. `Harmless` is exactly what such a late admission must then satisfy, and `own_slots_iff` shows
that nothing else can go wrong; `heldAcross` is a history where it does.
-/

namespace CredentialBroker.Runs

/-! ## The registry and its admissions -/

/-- An admission that is alive, with the number of the registration it was admitted for. -/
structure Held where
  admission : Admission
  registration : Nat
  deriving DecidableEq, Repr

/-- The registry, the admissions alive, and the numbering of registrations. -/
structure System (H : Type) where
  registry : State H
  held : Assoc Nat Held
  current : RunKey → Nat
  /-- Steps so far: the next admission's identity, and the next registration's number. -/
  count : Nat

/-- The operations callers have: `settle` is private to admissions. -/
def Call.isExported (call : Call) : Bool :=
  match call.op with
  | .settle .. => false
  | _ => true

/-- A step of the system: a call, or the next event in an admission's life. -/
inductive Act where
  | call (call : Call) (exported : call.isExported = true)
  /-- The filter notes what it learned of the response or of the endpoint. -/
  | note (id : Nat) (success usageFree : Bool)
  /-- `Admission::settle`, which consumes the admission. -/
  | settle (id : Nat) (reported : Option Usage)
  /-- The admission is dropped unsettled. -/
  | drop (id : Nat)

def Held.note (success usageFree : Bool) (held : Held) : Held :=
  { held with admission := { held.admission with success := success, usageFree := usageFree } }

variable {H : Type} [DecidableEq H]

/-- A system nothing was registered with. -/
def System.empty : System H := ⟨.empty, ∅, fun _ => 0, 0⟩

/-- The identity and value of the admission an act ends, with its outcome. -/
def System.ending (sys : System H) : Act → Option (Nat × Held × Outcome)
  | .settle id reported =>
      (sys.held.lookup id).map (fun held => (id, held, held.admission.settled reported))
  | .drop id => (sys.held.lookup id).map (fun held => (id, held, held.admission.dropped))
  | _ => none

variable (hash : Bytes → H)

/-- A call to the registry; an admission it answers with is alive from then on. -/
def System.call (sys : System H) (call : Call) : System H where
  registry := (step hash sys.registry call).1
  held :=
    match (step hash sys.registry call).2 with
    | .admitted (.ok admission) =>
        sys.held.insert sys.count ⟨admission, sys.current admission.key⟩
    | _ => sys.held
  current :=
    match granted hash sys.registry call with
    | some reg => Function.update sys.current reg.key sys.count
    | none => sys.current
  count := sys.count + 1

/-- The end of an admission. -/
def System.finish (sys : System H) (id : Nat) (held : Held) (outcome : Outcome) : System H :=
  { sys with
    registry := settle sys.registry held.admission.key outcome
    held := sys.held.erase id
    count := sys.count + 1 }

/-- One step of the system. -/
def System.step (sys : System H) (act : Act) : System H :=
  match act with
  | .call call _ => sys.call hash call
  | .note id success usageFree =>
      { sys with
        held := sys.held.modify id (Held.note success usageFree)
        count := sys.count + 1 }
  | act =>
    match sys.ending act with
    | some (id, held, outcome) => sys.finish id held outcome
    | none => { sys with count := sys.count + 1 }

/-- The system, from empty. -/
def system : Mealy (System H) Act Unit := ⟨.empty, fun sys act => (sys.step hash act, ())⟩

/-- Whether an admission is of the registration that a key's run is of. -/
def System.owns (sys : System H) (k : RunKey) (held : Held) : Bool :=
  decide (held.admission.key = k ∧ held.registration = sys.current k)

/-- The admissions alive of the registration that a key's run is of. -/
def System.live (sys : System H) (k : RunKey) : Nat := sys.held.countVals (sys.owns k)

/-! ## What an admission may do late -/

/-- What keeps the slots straight when an act ends an admission: the run under its key, if there is
one, is of the admission's own registration, or the act has nothing to release and nothing to
record. -/
def Harmless (sys : System H) (act : Act) : Prop :=
  ∀ id held outcome run, sys.ending act = some (id, held, outcome) →
    sys.registry.runs.lookup held.admission.key = some run →
      sys.current held.admission.key = held.registration ∨ run.inFlight = 0 ∧ outcome = .failed

/-- What is owed to every run by a list of acts. -/
structure OwnSlots (acts : List Act) : Prop where
  /-- A run counts the admissions of its own registration that are alive, -/
  exact : ∀ pre, pre <+: acts → ∀ k run,
    ((system hash).run pre).registry.runs.lookup k = some run →
      run.inFlight = ((system hash).run pre).live k
  /-- no more of them than its registration allows, -/
  bounded : ∀ pre, pre <+: acts → ∀ k run,
    ((system hash).run pre).registry.runs.lookup k = some run →
      ((system hash).run pre).live k ≤ run.concurrency
  /-- and is charged the outcomes of these alone. -/
  recorded : ∀ pre act, pre ++ [act] <+: acts → ∀ id held outcome k run run',
    ((system hash).run pre).ending act = some (id, held, outcome) →
    ((system hash).run pre).registry.runs.lookup k = some run →
    ((system hash).run (pre ++ [act])).registry.runs.lookup k = some run' →
    run'.record ≠ run.record →
      k = held.admission.key ∧ ((system hash).run pre).current k = held.registration

variable {hash}

/-! ## Counting admissions -/

omit [DecidableEq H] in
/-- The admission an act ends is alive before it. -/
theorem lookup_of_ending {sys : System H} {act : Act} {id : Nat} {held : Held} {outcome : Outcome}
    (h : sys.ending act = some (id, held, outcome)) : sys.held.lookup id = some held := by
  cases act with
  | call call exported => cases h
  | note id success usageFree => cases h
  | settle id reported =>
      obtain ⟨held', hheld, heq⟩ := Option.map_eq_some_iff.mp h
      cases heq
      exact hheld
  | drop id =>
      obtain ⟨held', hheld, heq⟩ := Option.map_eq_some_iff.mp h
      cases heq
      exact hheld

theorem step_of_ending {sys : System H} {act : Act} {id : Nat} {held : Held} {outcome : Outcome}
    (h : sys.ending act = some (id, held, outcome)) :
    (system hash).next sys act = sys.finish id held outcome := by
  cases act with
  | call call exported => cases h
  | note id success usageFree => cases h
  | settle id reported => simp only [system, Mealy.next, System.step, h]
  | drop id => simp only [system, Mealy.next, System.step, h]

omit [DecidableEq H] in
theorem live_congr {sys sys' : System H} {k : RunKey} (hheld : sys'.held = sys.held)
    (hcurrent : sys'.current k = sys.current k) : sys'.live k = sys.live k := by
  unfold System.live System.owns
  rw [hheld, hcurrent]

omit [DecidableEq H] in
/-- Ending an admission frees a slot of its own registration only. -/
theorem live_finish {sys : System H} {id : Nat} {held : Held} (outcome : Outcome)
    (h : sys.held.lookup id = some held) (k : RunKey) :
    sys.live k = (sys.finish id held outcome).live k + if sys.owns k held then 1 else 0 :=
  Assoc.countVals_erase h

omit [DecidableEq H] in
/-- What the end of an admission does to the run under a key. -/
theorem lookup_finish (sys : System H) (id : Nat) (held : Held) (outcome : Outcome) (k : RunKey) :
    (sys.finish id held outcome).registry.runs.lookup k =
      if k = held.admission.key then (sys.registry.runs.lookup k).map (release outcome)
      else sys.registry.runs.lookup k :=
  Assoc.lookup_modify _ _ _ _

/-! ## The invariant -/

/-- What is kept for one key: its run counts the admissions of its own registration. -/
structure KeyInOrder (sys : System H) (k : RunKey) (run : Run H) : Prop where
  numbered : sys.current k < sys.count
  exact : run.inFlight = sys.live k
  bounded : sys.live k ≤ run.concurrency

/-- What is kept for the system: its numbers are of the past, and every run counts right. -/
structure InOrder (sys : System H) : Prop where
  numbered : ∀ id held, sys.held.lookup id = some held →
    id < sys.count ∧ held.registration < sys.count
  keys : ∀ k run, sys.registry.runs.lookup k = some run → KeyInOrder sys k run

/-- Two states of a run with the same slots. -/
def SameSlots (run run' : Run H) : Prop :=
  run'.inFlight = run.inFlight ∧ run'.concurrency = run.concurrency

omit [DecidableEq H] in
theorem sameSlots_expire (now : Instant) (run : Run H) : SameSlots run (expire now run) :=
  ⟨inFlight_expire now run, congrArg Terms.concurrency (terms_expire now run)⟩

omit [DecidableEq H] in
theorem sameSlots_endRun (unix : UInt64) (run : Run H) : SameSlots run (endRun unix run) :=
  ⟨inFlight_endRun unix run, congrArg Terms.concurrency (terms_endRun unix run)⟩

omit [DecidableEq H] in
theorem KeyInOrder.congr {sys sys' : System H} {k : RunKey} {run run' : Run H}
    (h : KeyInOrder sys k run) (hslots : SameSlots run run') (hheld : sys'.held = sys.held)
    (hcurrent : sys'.current k = sys.current k) (hcount : sys.count ≤ sys'.count) :
    KeyInOrder sys' k run' where
  numbered := by rw [hcurrent]; exact h.numbered.trans_le hcount
  exact := by rw [hslots.1, live_congr hheld hcurrent, h.exact]
  bounded := by rw [hslots.2, live_congr hheld hcurrent]; exact h.bounded

/-- A run still there after pruning counts right. -/
theorem InOrder.of_prune {sys : System H} (hi : InOrder sys) {now : Instant} {k : RunKey}
    {run : Run H} (h : (sys.registry.prune now).runs.lookup k = some run) :
    KeyInOrder sys k run := by
  obtain ⟨old, hold, -, rfl⟩ := lookup_prune_eq_some.mp h
  exact (hi.keys k old hold).congr (sameSlots_expire now old) rfl rfl le_rfl

/-- A call that hands out no admission and starts no registration, and leaves the slots of the runs
it keeps alone, keeps the system in order. -/
theorem InOrder.keep {sys sys' : System H} (hi : InOrder sys) (now : Instant)
    (hruns : ∀ k run', sys'.registry.runs.lookup k = some run' →
      ∃ run, (sys.registry.prune now).runs.lookup k = some run ∧ SameSlots run run')
    (hheld : sys'.held = sys.held) (hcurrent : sys'.current = sys.current)
    (hcount : sys.count ≤ sys'.count) : InOrder sys' where
  numbered id held h := by
    obtain ⟨hid, hreg⟩ := hi.numbered id held (hheld ▸ h)
    exact ⟨hid.trans_le hcount, hreg.trans_le hcount⟩
  keys k run' h := by
    obtain ⟨run, hrun, hslots⟩ := hruns k run' h
    exact (hi.of_prune hrun).congr hslots hheld (congrFun hcurrent k) hcount

omit [DecidableEq H] in
/-- Runs changed in place without their slots keep them. -/
theorem sameSlots_of_modify {runs runs' : Assoc RunKey (Run H)} {key : RunKey} {f : Run H → Run H}
    (hf : ∀ run, SameSlots run (f run)) (hruns : runs' = runs.modify key f) (k : RunKey)
    (run' : Run H) (h : runs'.lookup k = some run') :
    ∃ run, runs.lookup k = some run ∧ SameSlots run run' := by
  rw [hruns, Assoc.lookup_modify] at h
  split at h
  · obtain ⟨run, hrun, rfl⟩ := Option.map_eq_some_iff.mp h
    exact ⟨run, hrun, hf run⟩
  · exact ⟨run', h, rfl, rfl⟩

theorem held_call {sys : System H} {call : Call}
    (h : ∀ admission, (step hash sys.registry call).2 ≠ .admitted (.ok admission)) :
    (sys.call hash call).held = sys.held := by
  unfold System.call
  dsimp only
  split
  · next heq => exact absurd heq (h _)
  · rfl

theorem current_call {sys : System H} {call : Call} (h : granted hash sys.registry call = none) :
    (sys.call hash call).current = sys.current := by
  simp [System.call, h]

/-- A registration is not answered with an admission. -/
theorem not_admitted_of_minted {s : State H} {call : Call} {m : RunKey × Bytes}
    (h : minted hash s call = some m) (admission : Admission) :
    (step hash s call).2 ≠ .admitted (.ok admission) := by
  intro heq
  simp [minted, heq] at h

/-- A fresh registration starts with no admission, and takes none from another run. -/
private theorem InOrder.fresh {sys : System H} (hi : InOrder sys) {call : Call}
    {reg : Registration} {run : Run H} (hgranted : granted hash sys.registry call = some reg)
    (hheld : (sys.call hash call).held = sys.held) (hfl : run.inFlight = 0)
    (hruns : (sys.call hash call).registry.runs =
      (sys.registry.prune call.now).runs.insert reg.key run) : InOrder (sys.call hash call) where
  numbered id held h := by
    obtain ⟨hid, hreg⟩ := hi.numbered id held (hheld ▸ h)
    exact ⟨hid.trans (Nat.lt_succ_self _), hreg.trans (Nat.lt_succ_self _)⟩
  keys k run' h := by
    have hcurrent : (sys.call hash call).current =
        Function.update sys.current reg.key sys.count := by
      simp [System.call, hgranted]
    rw [hruns, Assoc.lookup_insert_eq] at h
    split at h
    · next hk =>
        cases h
        subst hk
        have hnow : (sys.call hash call).current reg.key = sys.count := by
          rw [hcurrent, Function.update_self]
        -- nothing alive carries a number that is only given out now
        have hlive : (sys.call hash call).live reg.key = 0 := by
          apply Assoc.countVals_eq_zero
          intro id held hid
          obtain ⟨-, hreg⟩ := hi.numbered id held (hheld ▸ hid)
          simp [System.owns, hnow, hreg.ne]
        refine ⟨?_, hfl.trans hlive.symm, hlive ▸ Nat.zero_le _⟩
        rw [hnow]
        exact Nat.lt_succ_self _
    · next hk =>
        refine (hi.of_prune h).congr ⟨rfl, rfl⟩ hheld ?_ (Nat.le_succ _)
        rw [hcurrent, Function.update_of_ne hk]

/-- The admissions alive after one more are those before and it. -/
theorem held_taken {sys : System H} {call : Call} {key : RunKey} {admission : Admission}
    (hkey : admission.key = key)
    (hanswer : (step hash sys.registry call).2 = .admitted (.ok admission)) :
    (sys.call hash call).held = sys.held.insert sys.count ⟨admission, sys.current key⟩ := by
  simp [System.call, hanswer, hkey]

/-- It is live for the run that is registered for its key, and no other. -/
private theorem live_taken {sys : System H} (hi : InOrder sys) {call : Call} {key : RunKey}
    {admission : Admission} (hkey : admission.key = key)
    (hgranted : granted hash sys.registry call = none)
    (hanswer : (step hash sys.registry call).2 = .admitted (.ok admission)) (k : RunKey) :
    (sys.call hash call).live k = sys.live k + if k = key then 1 else 0 := by
  have hnew : sys.held.lookup sys.count = none := by
    rw [Option.eq_none_iff_forall_ne_some]
    intro held h
    exact absurd (hi.numbered _ held h).1 (Nat.lt_irrefl _)
  have howns : (sys.call hash call).owns k = sys.owns k := by
    unfold System.owns
    rw [current_call hgranted]
  have hif : (sys.owns k ⟨admission, sys.current key⟩ = true) ↔ k = key := by
    unfold System.owns
    rw [decide_eq_true_eq, hkey]
    constructor
    · intro h
      exact h.1.symm
    · rintro rfl
      exact ⟨rfl, rfl⟩
  unfold System.live
  rw [held_taken hkey hanswer, howns, Assoc.countVals_insert _ hnew]
  simp only [hif]

/-- An admission takes one slot, of the run that it is for. -/
private theorem InOrder.taken {sys : System H} (hi : InOrder sys) {call : Call} {key : RunKey}
    {run : Run H} {admission : Admission}
    (hrun : (sys.registry.prune call.now).runs.lookup key = some run)
    (hfree : run.inFlight < run.concurrency) (hkey : admission.key = key)
    (hgranted : granted hash sys.registry call = none)
    (hanswer : (step hash sys.registry call).2 = .admitted (.ok admission))
    (hruns : (sys.call hash call).registry.runs =
      (sys.registry.prune call.now).runs.modify key takeSlot) : InOrder (sys.call hash call) := by
  have hcurrent := current_call hgranted
  have hlive := live_taken hi hkey hgranted hanswer
  refine ⟨?_, ?_⟩
  · intro id held h
    rw [held_taken hkey hanswer, Assoc.lookup_insert_eq] at h
    split at h
    · next hid =>
        cases h
        exact ⟨by rw [hid]; exact Nat.lt_succ_self _,
          (hi.of_prune hrun).numbered.trans (Nat.lt_succ_self _)⟩
    · obtain ⟨hid, hreg⟩ := hi.numbered id held h
      exact ⟨hid.trans (Nat.lt_succ_self _), hreg.trans (Nat.lt_succ_self _)⟩
  · intro k run' h
    rw [hruns, Assoc.lookup_modify] at h
    have hnumbered : sys.current k < sys.count → (sys.call hash call).current k < sys.count + 1 :=
      fun hlt => by rw [hcurrent]; exact hlt.trans (Nat.lt_succ_self _)
    split at h
    · next hk =>
        subst hk
        rw [hrun, Option.map_some, Option.some.injEq] at h
        subst h
        obtain ⟨hnum, hexact, hbounded⟩ := hi.of_prune hrun
        have hk := hlive k
        rw [if_pos rfl] at hk
        refine ⟨hnumbered hnum, ?_, ?_⟩
        · rw [hk, ← hexact]
          rfl
        · rw [hk, ← hexact]
          exact hfree
    · next hk =>
        obtain ⟨hnum, hexact, hbounded⟩ := hi.of_prune h
        have heq := hlive k
        rw [if_neg hk, Nat.add_zero] at heq
        exact ⟨hnumbered hnum, hexact.trans heq.symm, heq ▸ hbounded⟩

/-- A call keeps the system in order. -/
theorem InOrder.call {sys : System H} (hi : InOrder sys) {call : Call}
    (exported : call.isExported = true) : InOrder (sys.call hash call) := by
  cases transition hash sys.registry call with
  | quiet hminted hgranted hop hadm hruns htokens =>
      refine hi.keep call.now (fun k run h => ⟨run, ?_, rfl, rfl⟩) (held_call hadm)
        (current_call hgranted) (Nat.le_succ _)
      rw [← hruns]
      exact h
  | fresh reg token run hcall hminted hgranted habsent hroom hterms hactive hhash hfl hruns
      htokens =>
      exact hi.fresh hgranted (held_call (not_admitted_of_minted hminted)) hfl hruns
  | replaced key token run hminted hgranted hrun hactive hruns htokens =>
      refine hi.keep call.now (sameSlots_of_modify (f := setHash (hash token)) ?_ hruns)
        (held_call (not_admitted_of_minted hminted)) (current_call hgranted) (Nat.le_succ _)
      intro run
      exact ⟨rfl, rfl⟩
  | ended key unix hcall hruns htokens =>
      refine hi.keep call.now (sameSlots_of_modify (sameSlots_endRun unix) hruns) (held_call ?_)
        (current_call ?_) (Nat.le_succ _)
      · simp [step, hcall]
      · simp [granted, Call.registration, hcall]
  | taken key run hcall hrun hactive hfree hanswer hruns htokens =>
      refine hi.taken hrun hfree rfl ?_ hanswer hruns
      simp [granted, Call.registration, hcall]
  | released key outcome hcall hruns htokens =>
      simp [Call.isExported, hcall] at exported

omit [DecidableEq H] in
/-- Noting something on an admission keeps the system in order. -/
theorem InOrder.note {sys : System H} (hi : InOrder sys) (id : Nat) (success usageFree : Bool) :
    InOrder { sys with
      held := sys.held.modify id (Held.note success usageFree), count := sys.count + 1 } where
  numbered id' held h := by
    rw [Assoc.lookup_modify] at h
    have hold : ∃ old, sys.held.lookup id' = some old ∧ held.registration = old.registration := by
      split at h
      · obtain ⟨old, hold, rfl⟩ := Option.map_eq_some_iff.mp h
        exact ⟨old, hold, rfl⟩
      · exact ⟨held, h, rfl⟩
    obtain ⟨old, hold, heq⟩ := hold
    obtain ⟨hid, hreg⟩ := hi.numbered id' old hold
    exact ⟨hid.trans (Nat.lt_succ_self _), heq ▸ hreg.trans (Nat.lt_succ_self _)⟩
  keys k run h := by
    obtain ⟨hnum, hexact, hbounded⟩ := hi.keys k run h
    have hlive : Assoc.countVals (sys.owns k) (sys.held.modify id (Held.note success usageFree)) =
        sys.live k := Assoc.countVals_modify fun held => rfl
    exact ⟨hnum.trans (Nat.lt_succ_self _), hexact.trans hlive.symm, hlive.trans_le hbounded⟩

omit [DecidableEq H] in
/-- The end of an admission that is harmless keeps the system in order. -/
theorem InOrder.finish {sys : System H} (hi : InOrder sys) {id : Nat} {held : Held}
    {outcome : Outcome} (hheld : sys.held.lookup id = some held)
    (hharmless : ∀ run, sys.registry.runs.lookup held.admission.key = some run →
      sys.current held.admission.key = held.registration ∨ run.inFlight = 0 ∧ outcome = .failed) :
    InOrder (sys.finish id held outcome) where
  numbered id' held' h := by
    change (sys.held.erase id).lookup id' = some held' at h
    rw [Assoc.lookup_erase_eq] at h
    split at h
    · cases h
    · obtain ⟨hid, hreg⟩ := hi.numbered id' held' h
      exact ⟨hid.trans (Nat.lt_succ_self _), hreg.trans (Nat.lt_succ_self _)⟩
  keys k run' h := by
    have hlive := live_finish outcome hheld k
    rw [lookup_finish] at h
    split at h
    · next hk =>
        subst hk
        obtain ⟨run, hrun, rfl⟩ := Option.map_eq_some_iff.mp h
        obtain ⟨hnum, hexact, hbounded⟩ := hi.keys _ run hrun
        refine ⟨hnum.trans (Nat.lt_succ_self _), ?_, (hlive ▸ Nat.le_add_right _ _).trans hbounded⟩
        show run.inFlight - 1 = _
        rcases hharmless run hrun with hown | ⟨hidle, -⟩
        · have howns : sys.owns held.admission.key held = true := by simp [System.owns, hown]
          rw [howns, if_pos rfl] at hlive
          omega
        · omega
    · next hk =>
        obtain ⟨hnum, hexact, hbounded⟩ := hi.keys k run' h
        have howns : sys.owns k held = false := by simp [System.owns, Ne.symm hk]
        rw [howns, if_neg Bool.false_ne_true, Nat.add_zero] at hlive
        exact ⟨hnum.trans (Nat.lt_succ_self _), hexact.trans hlive, hlive ▸ hbounded⟩

/-- **Step.** Every harmless act keeps the system in order. -/
theorem InOrder.step {sys : System H} (hi : InOrder sys) {act : Act} (h : Harmless sys act) :
    InOrder ((system hash).next sys act) := by
  have hend : ∀ {id held outcome}, sys.ending act = some (id, held, outcome) →
      InOrder ((system hash).next sys act) := by
    intro id held outcome hending
    rw [step_of_ending hending]
    exact hi.finish (lookup_of_ending hending) fun run hrun => h id held outcome run hending hrun
  cases hact : sys.ending act with
  | some ending => exact hend hact
  | none =>
      have hidle : InOrder { sys with count := sys.count + 1 } :=
        ⟨fun id held hid => by
          obtain ⟨hlt, hreg⟩ := hi.numbered id held hid
          exact ⟨hlt.trans (Nat.lt_succ_self _), hreg.trans (Nat.lt_succ_self _)⟩,
        fun k run hrun => (hi.keys k run hrun).congr ⟨rfl, rfl⟩ rfl rfl (Nat.le_succ _)⟩
      cases act with
      | call call exported => exact hi.call exported
      | note id success usageFree => exact hi.note id success usageFree
      | settle id reported =>
          simp only [system, Mealy.next, System.step, hact]
          exact hidle
      | drop id =>
          simp only [system, Mealy.next, System.step, hact]
          exact hidle

/-- **Run.** The system is in order after every list of harmless acts. -/
theorem inOrder_run {acts : List Act}
    (h : ∀ pre act, pre ++ [act] <+: acts → Harmless ((system hash).run pre) act) :
    InOrder ((system hash).run acts) := by
  induction acts using List.reverseRecOn with
  | nil =>
      refine ⟨?_, ?_⟩
      · intro id held hid
        simp [system, System.empty] at hid
      · intro k run hrun
        simp [system, System.empty, State.empty] at hrun
  | append_singleton acts act ih =>
      rw [Mealy.run_concat]
      apply (ih fun pre a hpre => h pre a (hpre.trans (List.prefix_append _ _))).step
      exact h acts act (List.prefix_refl _)

/-! ## Exactly when the slots are a run's own -/

/-- Only an outcome that is not a failure changes a record. -/
theorem record_outcome_ne {outcome : Outcome} (h : outcome ≠ .failed) (record : RunRecord) :
    outcome.record record ≠ record := by
  cases outcome with
  | metered usage =>
      intro heq
      have hreq := congrArg RunRecord.requests heq
      have hadd : (record.add usage).requests = record.requests + 1 := by
        unfold RunRecord.add
        dsimp only
        repeat' split
        all_goals rfl
      rw [Outcome.record, hadd] at hreq
      omega
  | unmetered =>
      intro heq
      have hreq := congrArg RunRecord.unmetered heq
      simp [Outcome.record] at hreq
  | failed => exact absurd rfl h

/-- **A run's slots are its own exactly as long as** no admission ends while the registry holds a
later registration of its key — unless that run has no request in flight and there is nothing to
record. -/
theorem own_slots_iff (hash : Bytes → H) (acts : List Act) :
    OwnSlots hash acts ↔
      ∀ pre act, pre ++ [act] <+: acts → Harmless ((system hash).run pre) act := by
  constructor
  · intro hown pre act hpre id held outcome run hending hrun
    by_cases hcurrent :
        ((system hash).run pre).current held.admission.key = held.registration
    · exact Or.inl hcurrent
    -- the run under the key is of a later registration: its slot must not have changed
    refine Or.inr ⟨?_, ?_⟩
    · have hbefore := hown.exact pre ((List.prefix_append _ _).trans hpre) _ run hrun
      have hafter := hown.exact (pre ++ [act]) hpre held.admission.key (release outcome run)
      rw [Mealy.run_concat, step_of_ending hending, lookup_finish, if_pos rfl, hrun] at hafter
      have hlive := live_finish outcome (lookup_of_ending hending) held.admission.key
      have howns : ((system hash).run pre).owns held.admission.key held = false := by
        simp [System.owns, Ne.symm hcurrent]
      rw [howns, if_neg Bool.false_ne_true, Nat.add_zero] at hlive
      have hreleased : run.inFlight - 1 = _ := hafter rfl
      omega
    · by_contra hfailed
      refine hcurrent (hown.recorded pre act hpre id held outcome held.admission.key run
        (release outcome run) hending hrun ?_ ?_).2
      · rw [Mealy.run_concat, step_of_ending hending, lookup_finish, if_pos rfl, hrun]
        rfl
      · exact record_outcome_ne hfailed run.record
  · intro h
    have hrun : ∀ pre, pre <+: acts → InOrder ((system hash).run pre) := fun pre hpre =>
      inOrder_run fun pre' act hact => h pre' act (hact.trans hpre)
    refine ⟨fun pre hpre k run hk => ((hrun pre hpre).keys k run hk).exact,
      fun pre hpre k run hk => ((hrun pre hpre).keys k run hk).bounded, ?_⟩
    intro pre act hpre id held outcome k run run' hending hk hk' hne
    rw [Mealy.run_concat, step_of_ending hending, lookup_finish] at hk'
    split at hk'
    · next hkey =>
        subst hkey
        rw [hk, Option.map_some, Option.some.injEq] at hk'
        subst hk'
        rcases h pre act hpre id held outcome run hending hk with hcurrent | ⟨-, rfl⟩
        · exact ⟨rfl, hcurrent⟩
        · exact absurd rfl hne
    · rw [hk, Option.some.injEq] at hk'
      exact absurd (congrArg Run.record hk'.symm) hne

/-- A response held across the forgetting of its run: the job registers anew, and the late
admission gives back a slot of the new run. -/
def heldAcross : List Act :=
  let late : Instant := Duration.fromSecs 600 + retention
  let again : RunIdentity := { sampleJob with jti := "jti-8" }
  [.call ⟨0, .register sampleJob ⟨Duration.fromSecs 600, 1⟩ (sampleDraw 0) 0⟩ rfl,
    .call ⟨0, .admitRequest sampleJob.key⟩ rfl,
    .call ⟨late, .register again ⟨Duration.fromSecs 600, 1⟩ (sampleDraw 1) 0⟩ rfl,
    .call ⟨late, .admitRequest sampleJob.key⟩ rfl,
    .drop 1,
    .call ⟨late, .admitRequest sampleJob.key⟩ rfl]

/-- Two requests of a run registered for one at a time. -/
theorem not_own_slots_heldAcross : ¬ OwnSlots id heldAcross := by
  intro h
  obtain ⟨run, hrun, hconcurrency⟩ : ∃ run,
      ((system id).run heldAcross).registry.runs.lookup sampleJob.key = some run ∧
        run.concurrency = 1 := by
    refine ⟨_, Option.some_get (by decide +kernel) |>.symm, ?_⟩
    decide +kernel
  have hlive : ((system id).run heldAcross).live sampleJob.key = 2 := by decide +kernel
  have hbounded := h.bounded heldAcross (List.prefix_refl _) _ run hrun
  omega

end CredentialBroker.Runs
