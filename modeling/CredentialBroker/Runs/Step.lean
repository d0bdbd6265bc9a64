import CredentialBroker.Runs.Basic

/-!
# What one call can do

Every invariant of the registry is about one key or about the two maps, and every operation does the
same few things to them: prune, then at most one of insert a run, give a run a new token, end it,
take or release one of its slots. `Transition` says that once, with everything a later proof may ask
of each case, and `transition` proves it of every call; no invariant unfolds an operation again.

Two readings of a call made in a state go with it. `granted` is the registration it starts, if it
starts one, and `minted` the token it hands out, if any: a retry that replaces a lost token mints
but is granted nothing.
-/

namespace CredentialBroker

/-! ## The terms of a registration -/

/-- What a run keeps from its registration until it is forgotten. -/
structure Terms where
  proof : Proof
  jti : Option String
  consumer : Consumer
  concurrency : Nat
  expires : Instant
  retainUntil : Instant
  deriving DecidableEq

/-- The terms a run was registered on. -/
def Run.terms {H : Type} (run : Run H) : Terms :=
  ⟨run.record.proof, run.jti, run.consumer, run.concurrency, run.expires, run.retainUntil⟩

/-- A registration: who registers, with which limits, and when. -/
structure Registration where
  key : RunKey
  proof : Proof
  jti : Option String
  consumer : Consumer
  limits : Limits
  time : Instant
  deriving DecidableEq

/-- The terms a registration fixes. -/
def Registration.terms (reg : Registration) : Terms where
  proof := reg.proof
  jti := reg.jti
  consumer := reg.consumer
  concurrency := reg.limits.concurrency
  expires := reg.time + reg.limits.ttl
  retainUntil := reg.time + reg.limits.ttl + retention

namespace Runs

variable {H : Type}

@[simp] theorem terms_expire (now : Instant) (run : Run H) :
    (expire now run).terms = run.terms := by
  unfold expire; split <;> rfl

@[simp] theorem terms_endRun (unix : UInt64) (run : Run H) :
    (endRun unix run).terms = run.terms := by
  unfold endRun; split <;> rfl

/-- Adding usage touches only the counts. -/
@[simp] theorem proof_add (record : RunRecord) (usage : Usage) :
    (record.add usage).proof = record.proof := by
  unfold RunRecord.add; dsimp only; repeat' split
  all_goals rfl

@[simp] theorem state_add (record : RunRecord) (usage : Usage) :
    (record.add usage).state = record.state := by
  unfold RunRecord.add; dsimp only; repeat' split
  all_goals rfl

@[simp] theorem proof_outcome (outcome : Outcome) (record : RunRecord) :
    (outcome.record record).proof = record.proof := by
  cases outcome <;> simp [Outcome.record]

@[simp] theorem state_outcome (outcome : Outcome) (record : RunRecord) :
    (outcome.record record).state = record.state := by
  cases outcome <;> simp [Outcome.record]

@[simp] theorem terms_release (outcome : Outcome) (run : Run H) :
    (release outcome run).terms = run.terms := by
  simp [release, Run.terms]

@[simp] theorem retainUntil_expire (now : Instant) (run : Run H) :
    (expire now run).retainUntil = run.retainUntil :=
  congrArg Terms.retainUntil (terms_expire now run)

@[simp] theorem tokenHash_expire (now : Instant) (run : Run H) :
    (expire now run).tokenHash = run.tokenHash := by
  unfold expire; split <;> rfl

@[simp] theorem tokenHash_endRun (unix : UInt64) (run : Run H) :
    (endRun unix run).tokenHash = run.tokenHash := by
  unfold endRun; split <;> rfl

@[simp] theorem tokenHash_release (outcome : Outcome) (run : Run H) :
    (release outcome run).tokenHash = run.tokenHash := rfl

@[simp] theorem tokenHash_takeSlot (run : Run H) : (takeSlot run).tokenHash = run.tokenHash := rfl

@[simp] theorem tokenHash_setHash (hash : H) (run : Run H) :
    (setHash hash run).tokenHash = hash := rfl

@[simp] theorem inFlight_expire (now : Instant) (run : Run H) :
    (expire now run).inFlight = run.inFlight := by
  unfold expire; split <;> rfl

@[simp] theorem inFlight_endRun (unix : UInt64) (run : Run H) :
    (endRun unix run).inFlight = run.inFlight := by
  unfold endRun; split <;> rfl

/-- After pruning at `now` an active run has not reached its deadline. -/
theorem lt_expires_of_active {now : Instant} {run : Run H}
    (h : (expire now run).record.state = .active) : now < run.expires := by
  unfold expire at h
  split at h
  · cases h
  · next hc =>
      rw [not_and] at hc
      exact Nat.not_le.mp (hc h)

variable [DecidableEq H]

/-! ## Pruning -/

theorem lookup_prune (s : State H) (now : Instant) (k : RunKey) :
    (s.prune now).runs.lookup k =
      ((s.runs.lookup k).map (expire now)).filter (fun run => decide (now < run.retainUntil)) := by
  simp [State.prune]

/-- A run is still there after pruning exactly if it was there and is to be retained. -/
theorem lookup_prune_eq_some {s : State H} {now : Instant} {k : RunKey} {run : Run H} :
    (s.prune now).runs.lookup k = some run ↔
      ∃ old, s.runs.lookup k = some old ∧ now < old.retainUntil ∧ run = expire now old := by
  rw [lookup_prune]
  cases hk : s.runs.lookup k with
  | none => simp
  | some old =>
      simp only [Option.map_some, Option.some.injEq, exists_eq_left', Option.filter_eq_some_iff,
        decide_eq_true_eq]
      constructor
      · rintro ⟨rfl, hlt⟩
        exact ⟨by simpa using hlt, rfl⟩
      · rintro ⟨hlt, rfl⟩
        exact ⟨rfl, by simpa using hlt⟩

/-- A run is gone after pruning exactly if it was not there or its retention is over. -/
theorem lookup_prune_eq_none {s : State H} {now : Instant} {k : RunKey} :
    (s.prune now).runs.lookup k = none ↔
      ∀ old, s.runs.lookup k = some old → old.retainUntil ≤ now := by
  rw [Option.eq_none_iff_forall_ne_some]
  constructor
  · intro h old hold
    by_contra hlt
    exact h _ (lookup_prune_eq_some.mpr ⟨old, hold, Nat.not_le.mp hlt, rfl⟩)
  · intro h run hrun
    obtain ⟨old, hold, hlt, -⟩ := lookup_prune_eq_some.mp hrun
    exact absurd (h old hold) (Nat.not_le.mpr hlt)

/-- A key is remembered at `now`: pruning then would keep its run. -/
def Remembered (s : State H) (k : RunKey) (now : Instant) : Prop :=
  ((s.prune now).runs.lookup k).isSome = true

omit [DecidableEq H] in
/-- The tokens pruning removes are those of the runs it forgets. -/
private theorem mem_forgotten {s : State H} {now : Instant} {h : H} :
    h ∈ (((s.runs.mapVals (fun _ run => expire now run)).retain
        (fun _ run => !decide (now < run.retainUntil))).values.map Run.tokenHash) ↔
      ∃ k run, s.runs.lookup k = some run ∧ run.retainUntil ≤ now ∧ run.tokenHash = h := by
  rw [List.mem_map]
  constructor
  · rintro ⟨run, hrun, rfl⟩
    obtain ⟨k, hk⟩ := Assoc.mem_values.mp hrun
    rw [Assoc.lookup_retain, Assoc.lookup_mapVals, Option.filter_eq_some_iff] at hk
    obtain ⟨hk, hlt⟩ := hk
    obtain ⟨old, hold, rfl⟩ := Option.map_eq_some_iff.mp hk
    exact ⟨k, old, hold, by simpa using hlt, by simp⟩
  · rintro ⟨k, run, hk, hle, rfl⟩
    refine ⟨expire now run, Assoc.mem_values.mpr ⟨k, ?_⟩, by simp⟩
    rw [Assoc.lookup_retain, Assoc.lookup_mapVals, hk, Option.map_some, Option.filter_eq_some_iff]
    exact ⟨rfl, by simpa using hle⟩

/-- A token survives pruning exactly if no run that carries its hash is forgotten. -/
theorem lookup_tokens_prune {s : State H} {now : Instant} {h : H} {k : RunKey} :
    (s.prune now).tokens.lookup h = some k ↔
      s.tokens.lookup h = some k ∧
        ∀ k' run, s.runs.lookup k' = some run → run.tokenHash = h → now < run.retainUntil := by
  show (s.tokens.eraseAll _).lookup h = _ ↔ _
  rw [Assoc.lookup_eraseAll]
  split
  · next hf =>
      obtain ⟨k', run, hk', hle, rfl⟩ := mem_forgotten.mp hf
      simp only [reduceCtorEq, false_iff, not_and, not_forall]
      intro _
      exact ⟨k', run, hk', rfl, Nat.not_lt.mpr hle⟩
  · next hf =>
      refine ⟨fun hk => ⟨hk, fun k' run hk' hrun => ?_⟩, And.left⟩
      by_contra hlt
      exact hf (mem_forgotten.mpr ⟨k', run, hk', Nat.not_lt.mp hlt, hrun⟩)

/-! ## Granted registrations and minted tokens -/

/-- The registration a call asks for. -/
def Call.registration (call : Call) : Option Registration :=
  match call.op with
  | .register identity limits _ _ =>
      some ⟨identity.key, identity.proof, some identity.jti, identity.consumer, limits, call.now⟩
  | .registerUnproven name limits _ _ _ =>
      some ⟨.unproven name, .unproven name, none, .priv, limits, call.now⟩
  | _ => none

variable (hash : Bytes → H)

/-- The key a call made in `s` mints a token for, and the token. -/
def minted (s : State H) (call : Call) : Option (RunKey × Bytes) :=
  match call.registration, (step hash s call).2 with
  | some reg, .registered (.ok (token, _)) => some (reg.key, token)
  | _, _ => none

/-- The registration a call made in `s` starts: one that is answered with a token, for a key that is
not remembered at that time. -/
def granted (s : State H) (call : Call) : Option Registration :=
  match call.registration, (step hash s call).2 with
  | some reg, .registered (.ok _) =>
      if ((s.prune call.now).runs.lookup reg.key).isNone then some reg else none
  | _, _ => none

/-- **Everything a call can do** to the two maps. -/
inductive Transition (s : State H) (call : Call) (s' : State H) : Prop where
  /-- Nothing but prune: reads and refusals. -/
  | quiet (hminted : minted hash s call = none) (hgranted : granted hash s call = none)
      (hop : ∀ key outcome, call.op ≠ .settle key outcome)
      (hadm : ∀ admission, (step hash s call).2 ≠ .admitted (.ok admission))
      (hruns : s'.runs = (s.prune call.now).runs) (htokens : s'.tokens = (s.prune call.now).tokens)
  /-- A fresh registration. -/
  | fresh (reg : Registration) (token : Bytes) (run : Run H)
      (hcall : call.registration = some reg)
      (hminted : minted hash s call = some (reg.key, token))
      (hgranted : granted hash s call = some reg)
      (habsent : (s.prune call.now).runs.lookup reg.key = none)
      (hroom : (s.prune call.now).runs.size < maxRuns)
      (hterms : run.terms = reg.terms) (hactive : run.record.state = .active)
      (hhash : run.tokenHash = hash token) (hinFlight : run.inFlight = 0)
      (hruns : s'.runs = (s.prune call.now).runs.insert reg.key run)
      (htokens : s'.tokens = (s.prune call.now).tokens.insert (hash token) reg.key)
  /-- A lost token replaced. -/
  | replaced (key : RunKey) (token : Bytes) (run : Run H)
      (hminted : minted hash s call = some (key, token)) (hgranted : granted hash s call = none)
      (hrun : (s.prune call.now).runs.lookup key = some run)
      (hactive : run.record.state = .active)
      (hruns : s'.runs = (s.prune call.now).runs.modify key (setHash (hash token)))
      (htokens : s'.tokens = ((s.prune call.now).tokens.erase run.tokenHash).insert
        (hash token) key)
  /-- A run ended by `finish`. -/
  | ended (key : RunKey) (unix : UInt64) (hcall : call.op = .finish key unix)
      (hruns : s'.runs = (s.prune call.now).runs.modify key (endRun unix))
      (htokens : s'.tokens = (s.prune call.now).tokens)
  /-- A slot of an active run taken by `admitRequest`. -/
  | taken (key : RunKey) (run : Run H) (hcall : call.op = .admitRequest key)
      (hrun : (s.prune call.now).runs.lookup key = some run)
      (hactive : run.record.state = .active) (hfree : run.inFlight < run.concurrency)
      (hanswer : (step hash s call).2 = .admitted (.ok ⟨key, run.consumer, false, false⟩))
      (hruns : s'.runs = (s.prune call.now).runs.modify key takeSlot)
      (htokens : s'.tokens = (s.prune call.now).tokens)
  /-- A slot released by `settle`, which does not prune. -/
  | released (key : RunKey) (outcome : Outcome) (hcall : call.op = .settle key outcome)
      (hruns : s'.runs = s.runs.modify key (release outcome)) (htokens : s'.tokens = s.tokens)

/-- A call answered without a token mints and grants nothing. -/
private theorem minted_granted_of_answer {s s' : State H} {call : Call} {answer : Answer}
    (hstep : step hash s call = (s', answer)) (h : ∀ r, answer ≠ .registered (.ok r)) :
    minted hash s call = none ∧ granted hash s call = none := by
  unfold minted granted
  rw [hstep]
  constructor
  · split
    · next heq => exact absurd heq (h _)
    · rfl
  · split
    · next heq => exact absurd heq (h _)
    · rfl

/-- A refused or reading call only prunes. -/
private theorem Transition.of_quiet {s s' : State H} {call : Call} {answer : Answer}
    (hstep : step hash s call = (s', answer)) (h : ∀ r, answer ≠ .registered (.ok r))
    (hadm : ∀ a, answer ≠ .admitted (.ok a)) (hop : ∀ key outcome, call.op ≠ .settle key outcome)
    (hruns : s'.runs = (s.prune call.now).runs)
    (htokens : s'.tokens = (s.prune call.now).tokens) : Transition hash s call s' := by
  obtain ⟨hminted, hgranted⟩ := minted_granted_of_answer hash hstep h
  exact .quiet hminted hgranted hop (by rw [hstep]; exact hadm) hruns htokens

private theorem transition_register (s : State H) (now : Instant) (identity : RunIdentity)
    (limits : Limits) (random : Vector UInt8 32) (unix : UInt64) :
    Transition hash s ⟨now, .register identity limits random unix⟩
      (step hash s ⟨now, .register identity limits random unix⟩).1 := by
  cases hk : (s.prune now).runs.lookup identity.key with
  | some run =>
      by_cases hc : run.jti ≠ some identity.jti ∨ run.record.state ≠ .active
      · have hstep : step hash s ⟨now, .register identity limits random unix⟩ =
            (s.prune now, .registered (.error .alreadyRegistered)) := by
          simp [step, register, hk, hc]
        rw [hstep]
        exact .of_quiet hash hstep (by simp) (by simp) (by simp) rfl rfl
      · have hactive : run.record.state = .active := by
          by_contra hne
          exact hc (Or.inr hne)
        have hanswer : (step hash s ⟨now, .register identity limits random unix⟩).2 =
            .registered (.ok (newToken random, run.record)) := by
          simp [step, register, hk, hc]
        refine .replaced identity.key (newToken random) run ?_ ?_ hk hactive ?_ ?_
        · simp [minted, Call.registration, hanswer]
        · simp [granted, Call.registration, hanswer, hk]
        · simp [step, register, hk, hc]
        · simp [step, register, hk, hc]
  | none =>
      by_cases hfull : maxRuns ≤ (s.prune now).runs.size
      · have hstep : step hash s ⟨now, .register identity limits random unix⟩ =
            (s.prune now, .registered (.error .full)) := by
          simp [step, register, hk, hfull]
        rw [hstep]
        exact .of_quiet hash hstep (by simp) (by simp) (by simp) rfl rfl
      · have hanswer : (step hash s ⟨now, .register identity limits random unix⟩).2 =
            .registered (.ok (newToken random, newRecord identity.proof limits unix)) := by
          simp [step, register, hk, hfull]
        refine .fresh _ (newToken random)
          (NewRun.start ⟨identity.key, identity.proof, some identity.jti, identity.consumer,
            hash (newToken random)⟩ limits unix now)
          rfl ?_ ?_ hk (Nat.not_le.mp hfull) rfl rfl rfl rfl ?_ ?_
        · simp [minted, Call.registration, hanswer]
        · simp [granted, Call.registration, hanswer, hk]
        · simp [step, register, hk, hfull, State.insert]
        · simp [step, register, hk, hfull, State.insert]

private theorem transition_registerUnproven (s : State H) (now : Instant) (name : RunName)
    (limits : Limits) (quota : Quota) (random : Vector UInt8 32) (unix : UInt64) :
    Transition hash s ⟨now, .registerUnproven name limits quota random unix⟩
      (step hash s ⟨now, .registerUnproven name limits quota random unix⟩).1 := by
  cases hk : (s.prune now).runs.lookup (.unproven name) with
  | some run =>
      have hstep : step hash s ⟨now, .registerUnproven name limits quota random unix⟩ =
          (s.prune now, .registered (.error .alreadyRegistered)) := by
        simp [step, registerUnproven, hk]
      rw [hstep]
      exact .of_quiet hash hstep (by simp) (by simp) (by simp) rfl rfl
  | none =>
      -- every later refusal has trimmed the queue as well, which `Transition` does not speak of
      by_cases hquota : quota.max ≤ (inWindow quota now (s.prune now).unproven).length
      · have hstep : step hash s ⟨now, .registerUnproven name limits quota random unix⟩ =
            ({ s.prune now with unproven := inWindow quota now (s.prune now).unproven },
              .registered (.error .overQuota)) := by
          simp [step, registerUnproven, hk, hquota]
        rw [hstep]
        exact .of_quiet hash hstep (by simp) (by simp) (by simp) rfl rfl
      by_cases hfull : maxUnprovenRuns ≤ (s.prune now).runs.countKeys RunKey.isUnproven ∨
          maxRuns ≤ (s.prune now).runs.size
      · have hstep : step hash s ⟨now, .registerUnproven name limits quota random unix⟩ =
            ({ s.prune now with unproven := inWindow quota now (s.prune now).unproven },
              .registered (.error .full)) := by
          simp [step, registerUnproven, hk, hquota, hfull]
        rw [hstep]
        exact .of_quiet hash hstep (by simp) (by simp) (by simp) rfl rfl
      · have hanswer : (step hash s ⟨now, .registerUnproven name limits quota random unix⟩).2 =
            .registered (.ok (newToken random, newRecord (.unproven name) limits unix)) := by
          simp [step, registerUnproven, hk, hquota, hfull]
        refine .fresh _ (newToken random)
          (NewRun.start ⟨.unproven name, .unproven name, none, .priv, hash (newToken random)⟩
            limits unix now)
          rfl ?_ ?_ hk (Nat.not_le.mp (not_or.mp hfull).2) rfl rfl rfl rfl ?_ ?_
        · simp [minted, Call.registration, hanswer]
        · simp [granted, Call.registration, hanswer, hk]
        · simp [step, registerUnproven, hk, hquota, hfull, State.insert]
        · simp [step, registerUnproven, hk, hquota, hfull, State.insert]

private theorem transition_admitRequest (s : State H) (now : Instant) (key : RunKey) :
    Transition hash s ⟨now, .admitRequest key⟩ (step hash s ⟨now, .admitRequest key⟩).1 := by
  cases hk : (s.prune now).runs.lookup key with
  | none =>
      have hstep : step hash s ⟨now, .admitRequest key⟩ =
          (s.prune now, .admitted (.error .closed)) := by
        simp [step, admitRequest, hk]
      rw [hstep]
      exact .of_quiet hash hstep (by simp) (by simp) (by simp) rfl rfl
  | some run =>
      by_cases hactive : run.record.state = .active
      · by_cases hbusy : run.concurrency ≤ run.inFlight
        · have hstep : step hash s ⟨now, .admitRequest key⟩ =
              (s.prune now, .admitted (.error .busy)) := by
            simp [step, admitRequest, hk, hactive, hbusy]
          rw [hstep]
          exact .of_quiet hash hstep (by simp) (by simp) (by simp) rfl rfl
        · refine .taken key run rfl hk hactive (Nat.not_le.mp hbusy) ?_ ?_ ?_
          · simp [step, admitRequest, hk, hactive, hbusy]
          · simp [step, admitRequest, hk, hactive, hbusy]
          · simp [step, admitRequest, hk, hactive, hbusy]
      · have hstep : step hash s ⟨now, .admitRequest key⟩ =
            (s.prune now, .admitted (.error .closed)) := by
          simp [step, admitRequest, hk, hactive]
        rw [hstep]
        exact .of_quiet hash hstep (by simp) (by simp) (by simp) rfl rfl

/-- Every call is one of the transitions. -/
theorem transition (s : State H) (call : Call) :
    Transition hash s call ((machine hash).next s call) := by
  show Transition hash s call (step hash s call).1
  obtain ⟨now, op⟩ := call
  cases op with
  | register identity limits random unix =>
      exact transition_register hash s now identity limits random unix
  | registerUnproven name limits quota random unix =>
      exact transition_registerUnproven hash s now name limits quota random unix
  | authenticate token =>
      have hstep : step hash s ⟨now, .authenticate token⟩ =
        (s.prune now, .authenticated ((s.prune now).tokens.lookup (hash token))) := rfl
      exact .of_quiet hash hstep (by simp) (by simp) (by simp) rfl rfl
  | record key =>
      have hstep : step hash s ⟨now, .record key⟩ =
        (s.prune now, .record (((s.prune now).runs.lookup key).map Run.record)) := rfl
      exact .of_quiet hash hstep (by simp) (by simp) (by simp) rfl rfl
  | finish key unix => exact .ended key unix rfl rfl rfl
  | admitRequest key => exact transition_admitRequest hash s now key
  | settle key outcome => exact .released key outcome rfl rfl rfl

/-! ## Keys that are not registered -/

variable {hash}

/-- A key that is not registered stays so until a registration of it is granted. -/
theorem lookup_none_of_no_grant {k : RunKey} {s : State H} (hk : s.runs.lookup k = none)
    (call : Call) (h : ∀ reg, granted hash s call = some reg → reg.key ≠ k) :
    ((machine hash).next s call).runs.lookup k = none := by
  have hp : (s.prune call.now).runs.lookup k = none := by
    rw [lookup_prune_eq_none, hk]
    simp
  cases transition hash s call with
  | quiet hminted hgranted hop hadm hruns htokens => rw [hruns, hp]
  | fresh reg token run hcall hminted hgranted habsent hroom hterms hactive hhash hfl hruns
      htokens => rw [hruns, Assoc.lookup_insert_eq, if_neg (h reg hgranted).symm, hp]
  | replaced key token run hminted hgranted hrun hactive hruns htokens =>
      rw [hruns, Assoc.lookup_modify, hp]
      simp
  | ended key unix hcall hruns htokens =>
      rw [hruns, Assoc.lookup_modify, hp]
      simp
  | taken key run hcall hrun hactive hfree hanswer hruns htokens =>
      rw [hruns, Assoc.lookup_modify, hp]
      simp
  | released key outcome hcall hruns htokens =>
      rw [hruns, Assoc.lookup_modify, hk]
      simp

/-- A granted registration is handed a token. -/
theorem minted_of_granted {s : State H} {call : Call} {reg : Registration}
    (h : granted hash s call = some reg) : ∃ token, minted hash s call = some (reg.key, token) := by
  unfold granted at h
  unfold minted
  split at h
  · next reg' token hcall hanswer =>
      split at h
      · cases h
        exact ⟨token.1, by simp [hcall, hanswer]⟩
      · cases h
  · cases h

end Runs

end CredentialBroker
