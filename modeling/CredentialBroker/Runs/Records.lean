import CredentialBroker.Runs.Figures
import CredentialBroker.Runs.Slots

/-!
# A record is the fold of what was settled

Over every history of calls and admissions, `records_fold` says of each remembered run that its
record shows the settlements on its key since the key was last registered anew (`settledSince`), and
of each admission that it is settled or dropped once.

* `RecordStep` is what one act can do to the record of one key.
* `EndOnce` follows the admissions from when they are handed out.
-/

namespace CredentialBroker.Runs

/-! ## Histories -/

variable {H : Type} [DecidableEq H]

/-- The settlement an act is. -/
def System.settlement (sys : System H) : Act → Option Settlement
  | .settle id reported =>
      (sys.held.lookup id).map fun held => ⟨held.admission, .settled reported⟩
  | .drop id => (sys.held.lookup id).map fun held => ⟨held.admission, .dropped⟩
  | _ => none

variable (hash : Bytes → H)

/-- The registration an act starts. -/
def System.registration (sys : System H) : Act → Option Registration
  | .call call _ => granted hash sys.registry call
  | _ => none

/-- The settlements on `k` since its registration, after one event more. -/
def sinceStep (k : RunKey) (settlements : List Settlement) (event : System H × Act) :
    List Settlement :=
  if (event.1.registration hash event.2).any fun reg => reg.key = k then []
  else
    settlements ++
      (event.1.settlement event.2).toList.filter fun settlement => settlement.admission.key = k

/-- The settlements on `k` since it was last registered anew. -/
def settledSince (k : RunKey) (trace : List (System H × Act)) : List Settlement :=
  trace.foldl (sinceStep hash k) []

/-- The admission an act hands out. -/
def System.admitted (sys : System H) : Act → Option Nat
  | .call call _ =>
    match (Runs.step hash sys.registry call).2 with
    | .admitted (.ok _) => some sys.count
    | _ => none
  | _ => none

/-- The admission an act ends. -/
def System.ended (sys : System H) (act : Act) : Option Nat :=
  (sys.ending act).map fun ending => ending.1

variable {hash}

omit [DecidableEq H] in
/-- A settlement is the end of its admission, with its outcome. -/
theorem ending_of_settlement {sys : System H} {act : Act} {settlement : Settlement}
    (h : sys.settlement act = some settlement) :
    ∃ id held, sys.ending act = some (id, held, settlement.outcome) ∧
      held.admission = settlement.admission := by
  cases act with
  | call call exported => cases h
  | note id success usageFree => cases h
  | settle id reported =>
      obtain ⟨held, hheld, rfl⟩ := Option.map_eq_some_iff.mp h
      exact ⟨id, held, by rw [System.ending, hheld]; rfl, rfl⟩
  | drop id =>
      obtain ⟨held, hheld, rfl⟩ := Option.map_eq_some_iff.mp h
      exact ⟨id, held, by rw [System.ending, hheld]; rfl, rfl⟩

omit [DecidableEq H] in
theorem ending_eq_none {sys : System H} {act : Act} (h : sys.settlement act = none) :
    sys.ending act = none := by
  cases act with
  | call call exported => rfl
  | note id success usageFree => rfl
  | settle id reported =>
      rw [System.ending, Option.map_eq_none_iff.mp h]
      rfl
  | drop id =>
      rw [System.ending, Option.map_eq_none_iff.mp h]
      rfl

/-- An act that settles nothing and makes no call leaves the registry alone. -/
theorem registry_of_idle {sys : System H} {act : Act} (hnone : sys.ending act = none)
    (hcall : ∀ call exported, act ≠ .call call exported) :
    ((system hash).next sys act).registry = sys.registry := by
  cases act with
  | call call exported => exact absurd rfl (hcall call exported)
  | note id success usageFree => rfl
  | settle id reported =>
      show (sys.step hash (.settle id reported)).registry = _
      simp only [System.step, hnone]
  | drop id =>
      show (sys.step hash (.drop id)).registry = _
      simp only [System.step, hnone]

theorem registration_of_idle {sys : System H} {act : Act}
    (hcall : ∀ call exported, act ≠ .call call exported) : sys.registration hash act = none := by
  cases act with
  | call call exported => exact absurd rfl (hcall call exported)
  | _ => rfl

private theorem forall_of_eq_none {α : Type} {p : α → Prop} {o : Option α} (h : o = none) :
    ∀ a, o = some a → p a := by
  intro a ha
  rw [h] at ha
  cases ha

theorem registration_of_settlement {sys : System H} {act : Act} {settlement : Settlement}
    (h : sys.settlement act = some settlement) : sys.registration hash act = none := by
  cases act with
  | call call exported => cases h
  | _ => rfl

omit [DecidableEq H] in
theorem settles_of_isExported {call : Call} (h : call.isExported = true) :
    call.settles = false := by
  obtain ⟨now, op⟩ := call
  cases op with
  | settle key outcome => cases h
  | _ => rfl

variable (hash) in
/-- What an act makes of the record of the run under `k`, which is `run'` after it. -/
inductive RecordStep (sys : System H) (act : Act) (k : RunKey) (run' : Run H) : Prop where
  /-- The run is registered by it. -/
  | registered (reg : Registration) (hreg : sys.registration hash act = some reg)
      (hkey : reg.key = k) (hfigures : run'.record.figures = {})
  /-- An admission of the key is settled or dropped. -/
  | settled (settlement : Settlement) (run : Run H) (hreg : sys.registration hash act = none)
      (hsettlement : sys.settlement act = some settlement) (hkey : settlement.admission.key = k)
      (hrun : sys.registry.runs.lookup k = some run)
      (hrecord : run'.record = settlement.outcome.record run.record)
  /-- Neither, and the figures stay as they are. -/
  | kept (run : Run H) (hreg : ∀ reg, sys.registration hash act = some reg → reg.key ≠ k)
      (hsettlement : ∀ settlement, sys.settlement act = some settlement →
        settlement.admission.key ≠ k)
      (hrun : sys.registry.runs.lookup k = some run)
      (hfigures : run'.record.figures = run.record.figures)

theorem RecordStep.of_idle {sys : System H} {act : Act} {k : RunKey} {run' : Run H}
    (hnone : sys.settlement act = none) (hcall : ∀ call exported, act ≠ .call call exported)
    (h : ((system hash).next sys act).registry.runs.lookup k = some run') :
    RecordStep hash sys act k run' := by
  rw [registry_of_idle (ending_eq_none hnone) hcall] at h
  exact .kept run' (forall_of_eq_none (registration_of_idle hcall)) (forall_of_eq_none hnone) h rfl

/-- **Step.** Every act is one of these for every key. -/
theorem recordStep {sys : System H} {act : Act} {k : RunKey} {run' : Run H}
    (h : ((system hash).next sys act).registry.runs.lookup k = some run') :
    RecordStep hash sys act k run' := by
  cases hsettlement : sys.settlement act with
  | some settlement =>
      obtain ⟨id, held, hending, hadmission⟩ := ending_of_settlement hsettlement
      have hreg : sys.registration hash act = none := registration_of_settlement hsettlement
      rw [step_of_ending hending, lookup_finish, hadmission] at h
      split at h
      · next hkey =>
          obtain ⟨run, hrun, rfl⟩ := Option.map_eq_some_iff.mp h
          exact .settled settlement run hreg hsettlement hkey.symm hrun rfl
      · next hkey =>
          refine .kept run' (forall_of_eq_none hreg) ?_ h rfl
          intro other hother
          rw [hsettlement] at hother
          cases hother
          exact Ne.symm hkey
  | none =>
      cases act with
      | call call exported =>
          rcases figures_next (settles_of_isExported exported) h with
            ⟨hreg, run, hrun, hfigures⟩ | ⟨⟨reg, hreg, hkey⟩, hzero⟩
          · exact .kept run hreg (forall_of_eq_none hsettlement) hrun hfigures
          · exact .registered reg hreg hkey hzero
      | _ =>
          apply RecordStep.of_idle hsettlement _ h
          intro call exported heq
          cases heq

theorem settledSince_concat (k : RunKey) (trace : List (System H × Act))
    (event : System H × Act) :
    settledSince hash k (trace ++ [event]) =
      sinceStep hash k (settledSince hash k trace) event := by
  unfold settledSince
  rw [List.foldl_append]
  rfl

/-- An act that neither registers the key nor settles on it leaves its settlements. -/
theorem sinceStep_of_kept {k : RunKey} (settlements : List Settlement) {sys : System H} {act : Act}
    (hreg : ∀ reg, sys.registration hash act = some reg → reg.key ≠ k)
    (hsettlement : ∀ settlement, sys.settlement act = some settlement →
      settlement.admission.key ≠ k) :
    sinceStep hash k settlements (sys, act) = settlements := by
  have hnot : ¬ ((sys.registration hash act).any fun reg => reg.key = k) = true := by
    rw [Option.any_eq_true]
    rintro ⟨reg, hsome, hkey⟩
    exact hreg reg hsome (of_decide_eq_true hkey)
  unfold sinceStep
  rw [if_neg hnot, List.filter_eq_nil_iff.mpr, List.append_nil]
  intro settlement hmem
  simpa using hsettlement settlement (Option.mem_toList.mp hmem)

/-- **Run.** Every remembered run shows the settlements on its key since its registration. -/
theorem recorded_run (acts : List Act) (k : RunKey) (run : Run H)
    (h : ((system hash).run acts).registry.runs.lookup k = some run) :
    Recorded (settledSince hash k ((system hash).trace acts)) run.record := by
  induction acts using List.reverseRecOn generalizing run with
  | nil => simp [system, System.empty, State.empty] at h
  | append_singleton acts act ih =>
      rw [Mealy.run_concat] at h
      rw [Mealy.trace_concat, settledSince_concat]
      cases recordStep h with
      | registered reg hreg hkey hfigures =>
          unfold sinceStep
          rw [hreg, if_pos (by simp [hkey])]
          exact .fresh hfigures
      | settled settlement before hreg hsettlement hkey hrun hrecord =>
          unfold sinceStep
          rw [hreg, if_neg (by simp), hsettlement, hrecord]
          simp only [Option.toList_some, List.filter_singleton, hkey, decide_true]
          exact (ih before hrun).add settlement
      | kept before hreg hsettlement hrun hfigures =>
          rw [sinceStep_of_kept _ hreg hsettlement]
          exact (ih before hrun).congr hfigures

/-! ## Every admission ends once -/

/-- Admissions are numbered as they are handed out, and each is alive until it ends. -/
structure EndOnce (handedOut ended : List Nat) (sys : System H) : Prop where
  numbered : ∀ id ∈ handedOut, id < sys.count
  nodup : handedOut.Nodup
  alive : (ended ++ sys.held.keys).Perm handedOut

variable (hash) in
/-- The admissions that a history hands out. -/
def handedOut (trace : List (System H × Act)) : List Nat :=
  trace.filterMap fun event => event.1.admitted hash event.2

/-- The admissions that a history ends. -/
def endedIn (trace : List (System H × Act)) : List Nat :=
  trace.filterMap fun event => event.1.ended event.2

omit [DecidableEq H] in
theorem EndOnce.idle {given ended : List Nat} {sys sys' : System H} (h : EndOnce given ended sys)
    (hkeys : sys'.held.keys = sys.held.keys) (hcount : sys.count ≤ sys'.count) :
    EndOnce given ended sys' :=
  ⟨fun id hid => (h.numbered id hid).trans_le hcount, h.nodup, hkeys ▸ h.alive⟩

omit [DecidableEq H] in
theorem EndOnce.lt_count {given ended : List Nat} {sys : System H} (h : EndOnce given ended sys)
    {id : Nat} (hid : id ∈ sys.held.keys) : id < sys.count :=
  h.numbered id (h.alive.mem_iff.mp (List.mem_append_right _ hid))

theorem admitted_of_answer {sys : System H} {call : Call} (exported : call.isExported = true)
    {admission : Admission}
    (h : (Runs.step hash sys.registry call).2 = .admitted (.ok admission)) :
    sys.admitted hash (.call call exported) = some sys.count := by
  unfold System.admitted
  dsimp only
  rw [h]

theorem admitted_eq_none {sys : System H} {call : Call} (exported : call.isExported = true)
    (h : ∀ admission, (Runs.step hash sys.registry call).2 ≠ .admitted (.ok admission)) :
    sys.admitted hash (.call call exported) = none := by
  unfold System.admitted
  dsimp only
  split
  · next admission heq => exact absurd heq (h admission)
  · rfl

omit [DecidableEq H] in
/-- An admission that is alive ends. -/
theorem EndOnce.finish {given ended : List Nat} {sys : System H} (h : EndOnce given ended sys)
    {id : Nat} (hid : id ∈ sys.held.keys) (held : Held) (outcome : Outcome) :
    EndOnce given (ended ++ [id]) (sys.finish id held outcome) where
  numbered := fun other hother => (h.numbered other hother).trans (Nat.lt_succ_self _)
  nodup := h.nodup
  alive := by
    show (ended ++ [id] ++ (sys.held.erase id).keys).Perm _
    rw [AList.keys_erase, List.append_assoc]
    exact ((List.perm_cons_erase hid).symm.append_left ended).trans h.alive

omit [DecidableEq H] in
/-- An admission more is handed out, under the next number. -/
theorem EndOnce.admit {given ended : List Nat} {sys sys' : System H} (h : EndOnce given ended sys)
    (hkeys : sys'.held.keys = sys.count :: sys.held.keys) (hcount : sys'.count = sys.count + 1) :
    EndOnce (given ++ [sys.count]) ended sys' where
  numbered := by
    intro id hid
    rw [hcount]
    rcases List.mem_append.mp hid with hid | hid
    · exact (h.numbered id hid).trans (Nat.lt_succ_self _)
    · rw [List.mem_singleton.mp hid]
      exact Nat.lt_succ_self _
  nodup := by
    rw [List.nodup_append]
    refine ⟨h.nodup, List.nodup_singleton _, ?_⟩
    rintro id hid _ hlast rfl
    rw [List.mem_singleton.mp hlast] at hid
    exact absurd (h.numbered _ hid) (Nat.lt_irrefl _)
  alive := by
    rw [hkeys]
    refine List.perm_middle.trans ?_
    exact (h.alive.cons sys.count).trans (List.perm_append_singleton _ _).symm

/-- **Step.** An act hands out one admission more, ends one, or does neither. -/
theorem EndOnce.step {given ended : List Nat} {sys : System H} (h : EndOnce given ended sys)
    (act : Act) :
    EndOnce (given ++ (sys.admitted hash act).toList) (ended ++ (sys.ended act).toList)
      ((system hash).next sys act) := by
  cases hending : sys.ending act with
  | some ending =>
      obtain ⟨id, held, outcome⟩ := ending
      have hadmitted : sys.admitted hash act = none := by
        cases act with
        | call call exported => cases hending
        | _ => rfl
      have hmem : id ∈ sys.held.keys :=
        AList.mem_keys.mpr (AList.lookup_isSome.mp (by rw [lookup_of_ending hending]; rfl))
      rw [System.ended, hending, hadmitted, step_of_ending hending, Option.toList_none,
        List.append_nil]
      exact h.finish hmem held outcome
  | none =>
      rw [System.ended, hending, Option.map_none, Option.toList_none, List.append_nil]
      have hidle : ∀ {sys' : System H}, sys'.held.keys = sys.held.keys →
          sys.count ≤ sys'.count → EndOnce (given ++ []) ended sys' := by
        intro sys' hkeys hcount
        rw [List.append_nil]
        exact h.idle hkeys hcount
      cases act with
      | note id success usageFree => exact hidle (Assoc.keys_modify _ _ _) (Nat.le_succ _)
      | settle id reported =>
          apply hidle <;> simp [system, Mealy.next, System.step, hending]
      | drop id =>
          apply hidle <;> simp [system, Mealy.next, System.step, hending]
      | call call exported =>
          show EndOnce _ ended (sys.call hash call)
          by_cases hanswer : ∃ admission,
              (Runs.step hash sys.registry call).2 = .admitted (.ok admission)
          · obtain ⟨admission, hanswer⟩ := hanswer
            have hnew : sys.held.lookup sys.count = none :=
              AList.lookup_eq_none.mpr fun hmem =>
                absurd (h.lt_count (AList.mem_keys.mp hmem)) (Nat.lt_irrefl _)
            have hkeys : (sys.call hash call).held.keys = sys.count :: sys.held.keys := by
              rw [held_taken rfl hanswer, Assoc.keys_insert _ hnew]
            rw [admitted_of_answer exported hanswer]
            exact h.admit hkeys rfl
          · have hnone : ∀ admission,
                (Runs.step hash sys.registry call).2 ≠ .admitted (.ok admission) :=
              fun admission heq => hanswer ⟨admission, heq⟩
            rw [admitted_eq_none exported hnone]
            exact hidle (congrArg AList.keys (held_call hnone)) (Nat.le_succ _)

private theorem filterMap_singleton {α β : Type} (f : α → Option β) (a : α) :
    [a].filterMap f = (f a).toList := by
  cases hf : f a <;> simp [hf]

/-- **Run.** Every admission handed out is alive or was ended, once. -/
theorem endOnce_run (acts : List Act) :
    EndOnce (handedOut hash ((system hash).trace acts)) (endedIn ((system hash).trace acts))
      ((system hash).run acts) := by
  induction acts using List.reverseRecOn with
  | nil => exact ⟨by simp [handedOut], List.nodup_nil, .nil⟩
  | append_singleton acts act ih =>
      unfold handedOut endedIn at ih ⊢
      rw [Mealy.trace_concat, Mealy.run_concat, List.filterMap_append, List.filterMap_append]
      have hadmitted := filterMap_singleton
        (fun event : System H × Act => event.1.admitted hash event.2) ((system hash).run acts, act)
      have hended := filterMap_singleton
        (fun event : System H × Act => event.1.ended event.2) ((system hash).run acts, act)
      rw [hadmitted, hended]
      exact ih.step act

/-! ## Every record of every history -/

variable (hash) in
/-- What is promised of the records of a history. -/
structure RecordsFold (acts : List Act) : Prop where
  /-- A remembered run shows the settlements on its key since it was registered. -/
  recorded : ∀ k run, ((system hash).run acts).registry.runs.lookup k = some run →
    Recorded (settledSince hash k ((system hash).trace acts)) run.record
  /-- Every admission handed out has ended, once, or is alive. -/
  once : (endedIn ((system hash).trace acts) ++ ((system hash).run acts).held.keys).Perm
      (handedOut hash ((system hash).trace acts)) ∧
    (handedOut hash ((system hash).trace acts)).Nodup
  /-- An act that neither registers a key nor settles on it leaves its figures: no run's end, no
  expiry and no new token changes them. -/
  unchanged : ∀ act k run run',
    (∀ reg, ((system hash).run acts).registration hash act = some reg → reg.key ≠ k) →
    (∀ settlement, ((system hash).run acts).settlement act = some settlement →
      settlement.admission.key ≠ k) →
    ((system hash).run acts).registry.runs.lookup k = some run →
    ((system hash).run (acts ++ [act])).registry.runs.lookup k = some run' →
      run'.record.figures = run.record.figures
  /-- The totals do not depend on the order of the settlements. -/
  unordered : ∀ acts' k run run',
    ((system hash).run acts).registry.runs.lookup k = some run →
    ((system hash).run acts').registry.runs.lookup k = some run' →
    (settledSince hash k ((system hash).trace acts)).Perm
        (settledSince hash k ((system hash).trace acts')) →
      run.record.totals = run'.record.totals

/-- **A run's record is the fold of what was settled on it**, in every history. -/
theorem records_fold (hash : Bytes → H) (acts : List Act) : RecordsFold hash acts where
  recorded := recorded_run acts
  once := ⟨(endOnce_run acts).alive, (endOnce_run acts).nodup⟩
  unchanged := by
    intro act k run run' hreg hsettlement hrun hrun'
    rw [Mealy.run_concat] at hrun'
    cases recordStep hrun' with
    | registered reg hsome hkey hfigures => exact absurd hkey (hreg reg hsome)
    | settled settlement before hnone hsome hkey hbefore hrecord =>
        exact absurd hkey (hsettlement settlement hsome)
    | kept before _ _ hbefore hfigures =>
        rw [hrun] at hbefore
        cases hbefore
        exact hfigures
  unordered := by
    intro acts' k run run' hrun hrun' hperm
    exact (recorded_run acts k run hrun).totals_eq (recorded_run acts' k run' hrun') hperm

end CredentialBroker.Runs
