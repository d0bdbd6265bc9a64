import CredentialBroker.Runs.Tokens

/-!
# Runs are isolated

Every operation names at most one key, and does nothing to the run of another beyond what pruning
at that time does. For the runs this is read off `Transition`, in any state at all. For the tokens
it is not: pruning and the replacement of a lost token remove entries of one shared map by hash,
and a new token is inserted under its hash, whosever it was. That none of this touches a token of
another run rests on the two maps being inverse to each other, before the call and after it.
-/

namespace CredentialBroker.Runs

/-- The key an operation is on. Authentication is on none: it asks which. -/
def Op.key : Op → Option RunKey
  | .register identity _ _ _ => some identity.key
  | .registerUnproven name _ _ _ _ => some (.unproven name)
  | .authenticate _ => none
  | .record key => some key
  | .finish key _ => some key
  | .admitRequest key => some key
  | .settle key _ => some key

variable {H : Type} [DecidableEq H]

/-- What is left of a state by the pruning a call does: `settle` takes the lock without pruning. -/
def Call.pruned (call : Call) (s : State H) : State H :=
  match call.op with
  | .settle _ _ => s
  | _ => s.prune call.now

theorem Call.pruned_of_ne {call : Call} (h : ∀ key outcome, call.op ≠ .settle key outcome)
    (s : State H) : call.pruned s = s.prune call.now := by
  unfold Call.pruned
  split
  · next key outcome hop => exact absurd hop (h key outcome)
  · rfl

theorem Call.pruned_settle {call : Call} {key : RunKey} {outcome : Outcome}
    (h : call.op = .settle key outcome) (s : State H) : call.pruned s = s := by
  unfold Call.pruned
  rw [h]

theorem Inverse.pruned {s : State H} (hi : Inverse s) (call : Call) : Inverse (call.pruned s) := by
  unfold Call.pruned
  split
  · exact hi
  · exact hi.prune call.now

variable {hash : Bytes → H}

/-- The key a token is minted for is the one the call is on. -/
theorem key_of_minted {s : State H} {call : Call} {m : RunKey × Bytes}
    (h : minted hash s call = some m) : call.op.key = some m.1 := by
  unfold minted at h
  split at h
  · next reg token record hreg hanswer =>
      cases h
      obtain ⟨now, op⟩ := call
      cases op with
      | register identity limits random unix => cases hreg; rfl
      | registerUnproven name limits quota random unix => cases hreg; rfl
      | _ => cases hreg
  · cases h

theorem ne_settle_of_minted {s : State H} {call : Call} {m : RunKey × Bytes}
    (h : minted hash s call = some m) (key : RunKey) (outcome : Outcome) :
    call.op ≠ .settle key outcome := by
  intro hop
  simp [minted, Call.registration, hop] at h

/-- **One call leaves another key's run as pruning leaves it**, in any state. -/
theorem lookup_next_of_ne (s : State H) {call : Call} {j : RunKey} (hj : call.op.key ≠ some j) :
    ((machine hash).next s call).runs.lookup j = (call.pruned s).runs.lookup j := by
  cases transition hash s call with
  | quiet hminted hgranted hop hadm hruns htokens => rw [hruns, Call.pruned_of_ne hop]
  | fresh reg token run hcall hminted hgranted habsent hroom hterms hactive hhash hfl hruns
      htokens =>
      have hkey : j ≠ reg.key := by
        rintro rfl
        exact hj (key_of_minted hminted)
      rw [hruns, Assoc.lookup_insert_eq, if_neg hkey, Call.pruned_of_ne (ne_settle_of_minted hminted)]
  | replaced key token run hminted hgranted hrun hactive hruns htokens =>
      have hkey : j ≠ key := by
        rintro rfl
        exact hj (key_of_minted hminted)
      rw [hruns, Assoc.lookup_modify, if_neg hkey, Call.pruned_of_ne (ne_settle_of_minted hminted)]
  | ended key unix hcall hruns htokens =>
      have hkey : j ≠ key := by
        rintro rfl
        exact hj (by rw [hcall]; rfl)
      rw [hruns, Assoc.lookup_modify, if_neg hkey, Call.pruned_of_ne (by simp [hcall])]
  | taken key run hcall hrun hactive hfree hanswer hruns htokens =>
      have hkey : j ≠ key := by
        rintro rfl
        exact hj (by rw [hcall]; rfl)
      rw [hruns, Assoc.lookup_modify, if_neg hkey, Call.pruned_of_ne (by simp [hcall])]
  | released key outcome hcall hruns htokens =>
      have hkey : j ≠ key := by
        rintro rfl
        exact hj (by rw [hcall]; rfl)
      rw [hruns, Assoc.lookup_modify, if_neg hkey, Call.pruned_settle hcall]

/-- With inverse maps, which tokens are a key's is decided by its run alone. -/
theorem Inverse.token_iff {s s' : State H} (hi : Inverse s) (hi' : Inverse s') {j : RunKey}
    (h : s'.runs.lookup j = s.runs.lookup j) (d : H) :
    s'.tokens.lookup d = some j ↔ s.tokens.lookup d = some j := by
  rw [hi' d j, hi d j, h]

theorem lookup_prune_congr {s s' : State H} {j : RunKey}
    (h : s'.runs.lookup j = s.runs.lookup j) (now : Instant) :
    (s'.prune now).runs.lookup j = (s.prune now).runs.lookup j := by
  rw [lookup_prune, lookup_prune, h]

/-- A registration without proof touches no run that is remembered, not even one of its own
name. -/
theorem lookup_registerUnproven {s : State H} {name : RunName} {limits : Limits} {quota : Quota}
    {random : Vector UInt8 32} {unix : UInt64} {now : Instant} {j : RunKey}
    (hj : Remembered s j now) :
    (registerUnproven hash s name limits quota random unix now).1.runs.lookup j =
      (s.prune now).runs.lookup j := by
  unfold registerUnproven
  dsimp only
  split
  · rfl
  · next habsent =>
      split
      · rfl
      · split
        · rfl
        · have hne : j ≠ .unproven name := by
            rintro rfl
            exact habsent hj
          show ((s.prune now).runs.insert _ _).lookup j = _
          rw [Assoc.lookup_insert_eq, if_neg hne]

/-- All a registration without proof is told is what it brought. -/
theorem registerUnproven_ok {s : State H} {name : RunName} {limits : Limits} {quota : Quota}
    {random : Vector UInt8 32} {unix : UInt64} {now : Instant} {answer : Bytes × RunRecord}
    (h : (registerUnproven hash s name limits quota random unix now).2 = .ok answer) :
    answer = (newToken random, newRecord (.unproven name) limits unix) := by
  unfold registerUnproven at h
  dsimp only at h
  split at h
  · cases h
  · split at h
    · cases h
    · split at h
      · cases h
      · cases h
        rfl

/-- What a call made after a list of calls leaves of the run of `j`. -/
structure LeavesAlone (hash : Bytes → H) (calls : List Call) (call : Call) (j : RunKey) :
    Prop where
  /-- The run is what pruning alone makes of it, in all its fields, or as gone. -/
  run : ((machine hash).next ((machine hash).run calls) call).runs.lookup j =
    (call.pruned ((machine hash).run calls)).runs.lookup j
  /-- So are its entries in the map of tokens. -/
  tokens : DistinctTokens hash (calls ++ [call]) → ∀ d,
    (((machine hash).next ((machine hash).run calls) call).tokens.lookup d = some j ↔
      (call.pruned ((machine hash).run calls)).tokens.lookup d = some j)
  /-- And so are the tokens that authenticate as it, then and at any other time. -/
  authenticates : DistinctTokens hash (calls ++ [call]) → ∀ token now,
    ((authenticate hash ((machine hash).next ((machine hash).run calls) call) token now).2 =
        some j ↔
      (authenticate hash (call.pruned ((machine hash).run calls)) token now).2 = some j)

/-- What a registration without proof does to the runs that are remembered when it comes. -/
structure KeepsOff (hash : Bytes → H) (calls : List Call) (name : RunName) (limits : Limits)
    (quota : Quota) (random : Vector UInt8 32) (unix : UInt64) (now : Instant) : Prop where
  /-- Nothing, also if the name is that of a run. -/
  run : ∀ j, Remembered ((machine hash).run calls) j now →
    (registerUnproven hash ((machine hash).run calls) name limits quota random unix
        now).1.runs.lookup j = (((machine hash).run calls).prune now).runs.lookup j
  /-- And it is told nothing of them. -/
  answer : ∀ answer,
    (registerUnproven hash ((machine hash).run calls) name limits quota random unix now).2 =
        .ok answer →
      answer = (newToken random, newRecord (.unproven name) limits unix)

theorem DistinctTokens.of_append {calls calls' : List Call}
    (h : DistinctTokens hash (calls ++ calls')) : DistinctTokens hash calls := by
  unfold DistinctTokens at h ⊢
  rw [Mealy.trace_append, mints_append, List.map_append, List.nodup_append] at h
  exact h.1

/-- **Runs are isolated.** -/
theorem runs_isolated (hash : Bytes → H) (calls : List Call) :
    (∀ call j, call.op.key ≠ some j → LeavesAlone hash calls call j) ∧
      ∀ name limits quota random unix now,
        KeepsOff hash calls name limits quota random unix now := by
  constructor
  · intro call j hj
    have hrun : ((machine hash).next ((machine hash).run calls) call).runs.lookup j =
        (call.pruned ((machine hash).run calls)).runs.lookup j := lookup_next_of_ne _ hj
    have hinverse : DistinctTokens hash (calls ++ [call]) →
        Inverse (call.pruned ((machine hash).run calls)) ∧
          Inverse ((machine hash).next ((machine hash).run calls) call) := by
      intro hd
      have hnext := (tokensInStep_run hd).inverse
      rw [Mealy.run_concat] at hnext
      exact ⟨(tokensInStep_run hd.of_append).inverse.pruned call, hnext⟩
    refine ⟨hrun, ?_, ?_⟩
    · intro hd d
      obtain ⟨hi, hi'⟩ := hinverse hd
      exact hi.token_iff hi' hrun d
    · intro hd token now
      obtain ⟨hi, hi'⟩ := hinverse hd
      exact (hi.prune now).token_iff (hi'.prune now) (lookup_prune_congr hrun now) (hash token)
  · intro name limits quota random unix now
    exact ⟨fun j => lookup_registerUnproven, fun answer => registerUnproven_ok⟩

/-- A run without proof that registers after a job's retry leaves the job its token. -/
theorem runs_isolated_retry :
    DistinctTokens id (retryCalls ++
        [⟨2, .registerUnproven ⟨"a", rfl⟩ ⟨600, 2⟩ ⟨1, 10⟩ (sampleDraw 2) 0⟩]) ∧
      (authenticate id ((machine id).next ((machine id).run retryCalls)
        ⟨2, .registerUnproven ⟨"a", rfl⟩ ⟨600, 2⟩ ⟨1, 10⟩ (sampleDraw 2) 0⟩)
        (newToken (sampleDraw 1)) 3).2 = some sampleJob.key := by
  have hd : DistinctTokens id (retryCalls ++
      [⟨2, .registerUnproven ⟨"a", rfl⟩ ⟨600, 2⟩ ⟨1, 10⟩ (sampleDraw 2) 0⟩]) := by
    decide +kernel
  refine ⟨hd, (((runs_isolated id retryCalls).1 _ sampleJob.key ?_).authenticates hd _ 3).mpr ?_⟩
  · decide
  · decide +kernel

end CredentialBroker.Runs
