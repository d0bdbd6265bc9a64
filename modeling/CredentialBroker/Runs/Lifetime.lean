import CredentialBroker.Runs.Step

/-!
# No second budget and no longer life for a job

The registry pruned lazily, inside every call but `settle`, still gives each registration exactly
the life it was granted. The reading of the trace that says so is `lastGranted`: the last *fresh*
registration of a key. A remembered run carries that registration's terms, whatever later retries
passed, and a key that is no longer remembered has outlived them; from there on everything asked of
a history with non-decreasing times follows.
-/

namespace CredentialBroker.Runs

variable {H : Type} [DecidableEq H] {hash : Bytes → H}

/-! ## What a call does to one key -/

/-- A run's state stays, or leaves `active`, once. -/
def Moves (a b : RunState) : Prop := b = a ∨ a = .active

theorem Moves.trans {a b c : RunState} (hab : Moves a b) (hbc : Moves b c) : Moves a c := by
  rcases hab with rfl | h
  · exact hbc
  · exact Or.inr h

omit [DecidableEq H] in
theorem moves_expire (now : Instant) (run : Run H) :
    Moves run.record.state (expire now run).record.state := by
  unfold expire
  split
  · next h => exact Or.inr h.1
  · exact Or.inl rfl

omit [DecidableEq H] in
theorem moves_endRun (unix : UInt64) (run : Run H) :
    Moves run.record.state (endRun unix run).record.state := by
  unfold endRun
  split
  · next h => exact Or.inr h
  · exact Or.inl rfl

variable (hash) in
/-- One key's view of a call: a fresh registration, a run kept on its terms, or no run. -/
inductive KeyStep (s : State H) (call : Call) (k : RunKey) : Prop where
  | fresh (reg : Registration) (run : Run H) (hgranted : granted hash s call = some reg)
      (hcall : call.registration = some reg) (hkey : reg.key = k)
      (habsent : ∀ old, s.runs.lookup k = some old → old.retainUntil ≤ call.now)
      (hrun : ((machine hash).next s call).runs.lookup k = some run)
      (hterms : run.terms = reg.terms)
  | kept (old run : Run H) (hgranted : ∀ reg, granted hash s call = some reg → reg.key ≠ k)
      (hold : s.runs.lookup k = some old)
      (hrun : ((machine hash).next s call).runs.lookup k = some run)
      (hterms : run.terms = old.terms) (hmoves : Moves old.record.state run.record.state)
  | absent (hgranted : ∀ reg, granted hash s call = some reg → reg.key ≠ k)
      (hold : ∀ old, s.runs.lookup k = some old → old.retainUntil ≤ call.now)
      (hnone : ((machine hash).next s call).runs.lookup k = none)

/-- A key that a call only prunes, and then perhaps changes in place. -/
private theorem KeyStep.of_prune {s : State H} {call : Call} {k : RunKey} {f : Run H → Run H}
    (hgranted : ∀ reg, granted hash s call = some reg → reg.key ≠ k)
    (hterms : ∀ run, (f run).terms = run.terms)
    (hmoves : ∀ run : Run H, Moves run.record.state (f run).record.state)
    (h : ((machine hash).next s call).runs.lookup k =
      ((s.prune call.now).runs.lookup k).map f) : KeyStep hash s call k := by
  cases hp : (s.prune call.now).runs.lookup k with
  | none =>
      rw [hp] at h
      exact .absent hgranted (lookup_prune_eq_none.mp hp) h
  | some run =>
      rw [hp] at h
      obtain ⟨old, hold, -, rfl⟩ := lookup_prune_eq_some.mp hp
      refine .kept old _ hgranted hold h ?_ ((moves_expire call.now old).trans (hmoves _))
      rw [hterms, terms_expire]

variable (hash) in
theorem keyStep (s : State H) (call : Call) (k : RunKey) : KeyStep hash s call k := by
  have hsame : ∀ a : RunState, Moves a a := fun a => Or.inl rfl
  cases transition hash s call with
  | quiet hminted hgranted hop hadm hruns htokens =>
      apply KeyStep.of_prune (f := id) (by simp [hgranted]) (fun _ => rfl) (fun _ => hsame _)
      rw [hruns, Option.map_id_fun, id]
  | fresh reg token run hcall hminted hgranted habsent hroom hterms hactive hhash hfl hruns
      htokens =>
      by_cases hk : k = reg.key
      · subst hk
        refine .fresh reg run hgranted hcall rfl (lookup_prune_eq_none.mp habsent) ?_ hterms
        rw [hruns, Assoc.lookup_insert_eq, if_pos rfl]
      · -- for every other key, a registration is only the pruning that comes with it
        refine .of_prune (f := id) ?_ (fun _ => rfl) (fun _ => hsame _) ?_
        · rw [hgranted]
          rintro _ ⟨⟩
          exact Ne.symm hk
        · rw [hruns, Assoc.lookup_insert_eq, if_neg hk, Option.map_id_fun, id]
  | replaced key token run hminted hgranted hrun hactive hruns htokens =>
      refine .of_prune (f := if k = key then setHash (hash token) else id) (by simp [hgranted])
        ?_ ?_ ?_
      · intro run; split <;> rfl
      · intro run; split <;> exact hsame _
      · rw [hruns, Assoc.lookup_modify]
        split <;> simp
  | ended key unix hcall hruns htokens =>
      have hgranted : granted hash s call = none := by simp [granted, Call.registration, hcall]
      refine .of_prune (f := if k = key then endRun unix else id) (by simp [hgranted]) ?_ ?_ ?_
      · intro run; split <;> simp
      · intro run; split
        · exact moves_endRun unix run
        · exact hsame _
      · rw [hruns, Assoc.lookup_modify]
        split <;> simp
  | taken key run hcall hrun hactive hfree hanswer hruns htokens =>
      have hgranted : granted hash s call = none := by simp [granted, Call.registration, hcall]
      refine .of_prune (f := if k = key then takeSlot else id) (by simp [hgranted]) ?_ ?_ ?_
      · intro run; split <;> rfl
      · intro run; split <;> exact hsame _
      · rw [hruns, Assoc.lookup_modify]
        split <;> simp
  | released key outcome hcall hruns htokens =>
      -- the one call that does not prune: a run is kept even past its retention
      have hgranted : granted hash s call = none := by simp [granted, Call.registration, hcall]
      cases hold : s.runs.lookup k with
      | none =>
          apply KeyStep.absent (by simp [hgranted]) (by simp [hold])
          rw [hruns, Assoc.lookup_modify, hold]
          simp
      | some old =>
          by_cases hk : k = key
          · refine .kept old (release outcome old) (by simp [hgranted]) hold ?_ (by simp) ?_
            · rw [hruns, Assoc.lookup_modify, if_pos hk, hold, Option.map_some]
            · exact Or.inl (state_outcome outcome old.record)
          · refine .kept old old (by simp [hgranted]) hold ?_ rfl (hsame _)
            rw [hruns, Assoc.lookup_modify, if_neg hk, hold]

/-! ## Granted registrations of a trace -/

variable (hash) in
/-- The fresh registrations of a trace, in order. -/
def grants (tr : List (State H × Call)) : List Registration :=
  tr.filterMap (fun e => granted hash e.1 e.2)

variable (hash) in
/-- The last fresh registration of `k`. -/
def lastGranted (k : RunKey) (tr : List (State H × Call)) : Option Registration :=
  ((grants hash tr).filter (fun reg => reg.key = k)).getLast?

theorem grants_concat (tr : List (State H × Call)) (e : State H × Call) :
    grants hash (tr ++ [e]) = grants hash tr ++ (granted hash e.1 e.2).toList := by
  unfold grants
  cases h : granted hash e.1 e.2 <;> simp [h]

theorem lastGranted_concat_of_eq {k : RunKey} {tr : List (State H × Call)} {e : State H × Call}
    {reg : Registration} (h : granted hash e.1 e.2 = some reg) (hk : reg.key = k) :
    lastGranted hash k (tr ++ [e]) = some reg := by
  unfold lastGranted
  rw [grants_concat, h]
  simp [hk]

theorem lastGranted_concat_of_ne {k : RunKey} {tr : List (State H × Call)} {e : State H × Call}
    (h : ∀ reg, granted hash e.1 e.2 = some reg → reg.key ≠ k) :
    lastGranted hash k (tr ++ [e]) = lastGranted hash k tr := by
  unfold lastGranted
  rw [grants_concat]
  cases hg : granted hash e.1 e.2 with
  | none => simp
  | some reg => simp [h reg hg]

/-- A registration is granted at the time of its call. -/
theorem time_of_granted {s : State H} {call : Call} {reg : Registration}
    (h : granted hash s call = some reg) : reg.time = call.now := by
  unfold granted Call.registration at h
  split at h
  · next hreg _ =>
      split at h
      · cases h
        split at hreg <;> cases hreg <;> rfl
      · cases h
  · cases h

/-! ## The invariant -/

/-- The times of the calls never decrease. -/
def NonDecreasing (calls : List Call) : Prop := calls.Pairwise (fun c c' => c.now ≤ c'.now)

instance (calls : List Call) : Decidable (NonDecreasing calls) :=
  inferInstanceAs (Decidable (List.Pairwise _ _))

/-- `r'` registers after all that `r` was granted is over. -/
def Apart (r r' : Registration) : Prop :=
  r.key = r'.key → r.time + r.limits.ttl + retention ≤ r'.time

variable (hash) in
/-- What the registry remembers of a trace: each run is on the terms of the last fresh registration
of its key, and a registration whose run it does not hold is over, whatever time it is now. -/
structure Remembers (tr : List (State H × Call)) (s : State H) : Prop where
  terms : ∀ k run, s.runs.lookup k = some run →
    ∃ reg, lastGranted hash k tr = some reg ∧ run.terms = reg.terms
  outlived : ∀ reg ∈ grants hash tr,
    (∃ run, s.runs.lookup reg.key = some run ∧ run.terms = reg.terms) ∨
      ∀ t, (∀ e ∈ tr, e.2.now ≤ t) → reg.terms.retainUntil ≤ t
  apart : (grants hash tr).Pairwise Apart

/-- A registration granted before a call is over if its key is not remembered at the call. -/
theorem Remembers.retainUntil_le {tr : List (State H × Call)} {s : State H}
    (hi : Remembers hash tr s) {reg : Registration} (hreg : reg ∈ grants hash tr) {t : Instant}
    (htime : ∀ e ∈ tr, e.2.now ≤ t)
    (habsent : ∀ run, s.runs.lookup reg.key = some run → run.retainUntil ≤ t) :
    reg.terms.retainUntil ≤ t := by
  rcases hi.outlived reg hreg with ⟨run, hrun, hterms⟩ | hover
  · rw [← hterms]
    exact habsent run hrun
  · exact hover t htime

/-- **Step.** A call no earlier than those before it keeps what is remembered in order. -/
theorem Remembers.step {tr : List (State H × Call)} {s : State H} (hi : Remembers hash tr s)
    (call : Call) (htime : ∀ e ∈ tr, e.2.now ≤ call.now) :
    Remembers hash (tr ++ [(s, call)]) ((machine hash).next s call) where
  terms k run hrun := by
    cases keyStep hash s call k with
    | fresh reg run' hgranted hcall hkey habsent hrun' hterms =>
        rw [hrun', Option.some.injEq] at hrun
        subst hrun
        exact ⟨reg, lastGranted_concat_of_eq hgranted hkey, hterms⟩
    | kept old run' hgranted hold hrun' hterms hmoves =>
        rw [hrun', Option.some.injEq] at hrun
        subst hrun
        obtain ⟨reg, hreg, heq⟩ := hi.terms k old hold
        exact ⟨reg, (lastGranted_concat_of_ne hgranted).trans hreg, hterms.trans heq⟩
    | absent hgranted hold hnone =>
        rw [hnone] at hrun
        cases hrun
  outlived reg hreg := by
    rw [grants_concat, List.mem_append, Option.mem_toList] at hreg
    rcases hreg with hreg | hreg
    · -- a registration from before is over by now if its run is gone
      have hover : (∀ old, s.runs.lookup reg.key = some old → old.retainUntil ≤ call.now) →
          ∀ t, (∀ e ∈ tr ++ [(s, call)], e.2.now ≤ t) → reg.terms.retainUntil ≤ t := by
        intro hold t ht
        refine (hi.retainUntil_le hreg htime hold).trans (ht (s, call) ?_)
        exact List.mem_append_right _ (List.mem_singleton.mpr rfl)
      cases keyStep hash s call reg.key with
      | fresh reg' run' hgranted hcall hkey habsent hrun' hterms =>
          exact Or.inr (hover habsent)
      | kept old run' hgranted hold hrun' hterms hmoves =>
          rcases hi.outlived reg hreg with ⟨run, hrun, heq⟩ | hgone
          · rw [hold, Option.some.injEq] at hrun
            subst hrun
            exact Or.inl ⟨run', hrun', hterms.trans heq⟩
          · exact Or.inr fun t ht => hgone t fun e he => ht e (List.mem_append_left _ he)
      | absent hgranted hold hnone => exact Or.inr (hover hold)
    · cases keyStep hash s call reg.key with
      | fresh reg' run' hgranted hcall hkey habsent hrun' hterms =>
          obtain rfl : reg' = reg := Option.some.inj (hgranted.symm.trans hreg)
          exact Or.inl ⟨run', hrun', hterms⟩
      | kept old run' hgranted hold hrun' hterms hmoves => exact absurd rfl (hgranted reg hreg)
      | absent hgranted hold hnone => exact absurd rfl (hgranted reg hreg)
  apart := by
    rw [grants_concat, List.pairwise_append]
    refine ⟨hi.apart, ?_, ?_⟩
    · cases granted hash s call <;> simp
    · intro r hr r' hr' hkey
      rw [Option.mem_toList] at hr'
      rw [time_of_granted hr']
      cases keyStep hash s call r.key with
      | fresh reg' run' hgranted hcall hkey' habsent hrun' hterms =>
          exact hi.retainUntil_le hr htime habsent
      | kept old run' hgranted hold hrun' hterms hmoves =>
          exact absurd hkey.symm (hgranted r' hr')
      | absent hgranted hold hnone => exact absurd hkey.symm (hgranted r' hr')

variable (hash) in
/-- **Run.** What is remembered is in order after every list of calls at non-decreasing times. -/
theorem remembers_run {calls : List Call} (h : NonDecreasing calls) :
    Remembers hash ((machine hash).trace calls) ((machine hash).run calls) := by
  refine Mealy.invariant (P := Remembers hash) ?_ ?_ calls (Mealy.along_of_pairwise h)
  · refine ⟨?_, ?_, List.Pairwise.nil⟩
    · intro k run hk
      simp [machine, State.empty] at hk
    · intro reg hreg
      simp [grants] at hreg
  · intro is call hi htime
    exact hi.step call htime

/-- A run that is there before and after calls that grant its key nothing is the same run: on the
same terms, and at most moved out of `active`. -/
theorem kept_of_no_grant {k : RunKey} {calls : List Call} :
    ∀ {s : State H} {run run' : Run H}, s.runs.lookup k = some run →
      ((machine hash).runFrom s calls).runs.lookup k = some run' →
      (∀ reg ∈ grants hash ((machine hash).traceFrom s calls), reg.key ≠ k) →
        run'.terms = run.terms ∧ Moves run.record.state run'.record.state := by
  induction calls using List.reverseRecOn with
  | nil =>
      intro s run run' hrun hrun' _
      have heq : some run = some run' := hrun.symm.trans hrun'
      cases heq
      exact ⟨rfl, Or.inl rfl⟩
  | append_singleton calls call ih =>
      intro s run run' hrun hrun' hno
      rw [Mealy.runFrom_append] at hrun'
      rw [Mealy.traceFrom_append] at hno
      have htrace : (machine hash).traceFrom ((machine hash).runFrom s calls) [call] =
        [((machine hash).runFrom s calls, call)] := rfl
      rw [htrace, grants_concat] at hno
      cases keyStep hash ((machine hash).runFrom s calls) call k with
      | fresh reg _ hgranted hcall hkey habsent _ hterms =>
          refine absurd hkey (hno reg (List.mem_append_right _ ?_))
          rw [Option.mem_toList]
          exact hgranted
      | kept old new hgranted hold hnew hterms hmoves =>
          have heq : some new = some run' := hnew.symm.trans hrun'
          cases heq
          obtain ⟨ht, hm⟩ := ih hrun hold fun reg hreg => hno reg (List.mem_append_left _ hreg)
          exact ⟨hterms.trans ht, hm.trans hmoves⟩
      | absent hgranted hold hnone =>
          have heq : none = some run' := hnone.symm.trans hrun'
          cases heq

/-! ## A whole history -/

/-- What a job gets out of a list of calls, whatever retries it makes. -/
structure OneLife (hash : Bytes → H) (calls : List Call) : Prop where
  /-- A key registers afresh only when everything granted to it before is over. -/
  apart : (grants hash ((machine hash).trace calls)).Pairwise Apart
  /-- A remembered run is on the terms of its last fresh registration. -/
  terms : ∀ k run, ((machine hash).run calls).runs.lookup k = some run →
    ∃ reg, lastGranted hash k ((machine hash).trace calls) = some reg ∧ run.terms = reg.terms
  /-- Between two fresh registrations of its key a run keeps its terms and leaves `active` at most
  once. -/
  kept : ∀ pre mid, pre ++ mid <+: calls → ∀ k run run',
    ((machine hash).run pre).runs.lookup k = some run →
    ((machine hash).run (pre ++ mid)).runs.lookup k = some run' →
    (∀ reg ∈ grants hash ((machine hash).traceFrom ((machine hash).run pre) mid), reg.key ≠ k) →
      run'.terms = run.terms ∧ Moves run.record.state run'.record.state
  /-- Requests are admitted only for an active run, before its lifetime is over. -/
  admits : ∀ k now admission, (admitRequest ((machine hash).run calls) k now).2 = .ok admission →
    ∃ reg run, lastGranted hash k ((machine hash).trace calls) = some reg ∧
      (((machine hash).run calls).prune now).runs.lookup k = some run ∧
      run.record.state = .active ∧ now < reg.time + reg.limits.ttl
  /-- Registering a remembered job again succeeds exactly for an active run, with the OIDC token
  that registered it. -/
  retries : ∀ identity limits random unix now run,
    (((machine hash).run calls).prune now).runs.lookup identity.key = some run →
    ∃ reg, lastGranted hash identity.key ((machine hash).trace calls) = some reg ∧
      ((∃ answer, (register hash ((machine hash).run calls) identity limits random unix now).2 =
          .ok answer) ↔ run.record.state = .active ∧ reg.jti = some identity.jti)
  /-- Registering a remembered name again never does. -/
  unproven_once : ∀ name limits quota random unix now,
    ((((machine hash).run calls).prune now).runs.lookup (.unproven name)).isSome = true →
      (registerUnproven hash ((machine hash).run calls) name limits quota random unix now).2 =
        .error .alreadyRegistered

/-- **No second budget and no longer life for a job.** -/
theorem one_life (hash : Bytes → H) (calls : List Call) (h : NonDecreasing calls) :
    OneLife hash calls := by
  have hi := remembers_run hash h
  refine ⟨hi.apart, hi.terms, ?_, ?_, ?_, ?_⟩
  · intro pre mid _ k run run' hrun hrun' hno
    rw [Mealy.run_append] at hrun'
    exact kept_of_no_grant hrun hrun' hno
  · intro k now admission hadm
    unfold admitRequest at hadm
    dsimp only at hadm
    split at hadm
    · cases hadm
    · next run hrun =>
        split at hadm
        · cases hadm
        · next hactive =>
            rw [not_not] at hactive
            obtain ⟨old, hold, -, rfl⟩ := lookup_prune_eq_some.mp hrun
            obtain ⟨reg, hreg, hterms⟩ := hi.terms k old hold
            refine ⟨reg, _, hreg, hrun, hactive, ?_⟩
            have hexp : old.expires = reg.time + reg.limits.ttl :=
              congrArg Terms.expires hterms
            rw [← hexp]
            exact lt_expires_of_active hactive
  · intro identity limits random unix now run hrun
    obtain ⟨old, hold, -, rfl⟩ := lookup_prune_eq_some.mp hrun
    obtain ⟨reg, hreg, hterms⟩ := hi.terms identity.key old hold
    refine ⟨reg, hreg, ?_⟩
    have hjti : (expire now old).jti = reg.jti :=
      congrArg Terms.jti ((terms_expire now old).trans hterms)
    unfold register
    dsimp only
    rw [hrun]
    dsimp only
    rw [hjti]
    by_cases hc : reg.jti ≠ some identity.jti ∨ (expire now old).record.state ≠ .active
    · rw [if_pos hc]
      simp only [reduceCtorEq, exists_false, false_iff, not_and]
      intro hactive heq
      rcases hc with hc | hc
      · exact hc heq
      · exact hc hactive
    · rw [if_neg hc]
      rw [not_or, not_not, not_not] at hc
      simp [hc.1, hc.2]
  · intro name limits quota random unix now hsome
    unfold registerUnproven
    dsimp only
    rw [if_pos hsome]

/-- A retry that asks for other limits leaves the run on those it registered with. -/
theorem one_life_retry : NonDecreasing retryCalls ∧ OneLife id retryCalls ∧
    (((machine id).run retryCalls).runs.lookup sampleJob.key).map Run.concurrency = some 2 :=
  ⟨by decide, one_life id retryCalls (by decide), by decide +kernel⟩

end CredentialBroker.Runs
