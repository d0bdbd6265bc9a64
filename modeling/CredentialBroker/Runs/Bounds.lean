import CredentialBroker.Runs.Quota
import CredentialBroker.Runs.Tokens

/-!
# The registry is bounded, and runs without proof cannot fill it

Two limits nest in the registry: so many runs at all, and so many of them registered without proof.
A run enters in one place only, with both limits checked before, and pruning only takes runs out, so
both hold whatever is called, at whatever times and with whatever random draws. That the map of
tokens has exactly as many entries is the counting side of `Inverse`: two maps inverse to each other
have the same size.
-/

namespace CredentialBroker.Runs

variable {H : Type} [DecidableEq H] {hash : Bytes → H}

/-! ## The two limits -/

/-- The registry is within both of its limits. -/
structure Bounded (s : State H) : Prop where
  size_le : s.runs.size ≤ maxRuns
  unproven_le : s.runs.countKeys RunKey.isUnproven ≤ maxUnprovenRuns

theorem countKeys_prune_le (p : RunKey → Bool) (s : State H) (now : Instant) :
    (s.prune now).runs.countKeys p ≤ s.runs.countKeys p :=
  Assoc.countKeys_retain_mapVals_le p _ _ s.runs

theorem size_prune_le (s : State H) (now : Instant) : (s.prune now).runs.size ≤ s.runs.size := by
  rw [Assoc.size_eq_countKeys, Assoc.size_eq_countKeys]
  exact countKeys_prune_le _ s now

theorem Bounded.prune {s : State H} (hb : Bounded s) (now : Instant) : Bounded (s.prune now) where
  size_le := (size_prune_le s now).trans hb.size_le
  unproven_le := (countKeys_prune_le _ s now).trans hb.unproven_le

omit [DecidableEq H] in
theorem Bounded.modify {s s' : State H} (hb : Bounded s) {key : RunKey} {f : Run H → Run H}
    (hruns : s'.runs = s.runs.modify key f) : Bounded s' := by
  constructor
  · rw [hruns, Assoc.size_eq_countKeys, Assoc.countKeys_modify, ← Assoc.size_eq_countKeys]
    exact hb.size_le
  · rw [hruns, Assoc.countKeys_modify]
    exact hb.unproven_le

/-- A run without proof enters only where the limit on such runs leaves room. -/
theorem room_of_granted {s : State H} {call : Call} {reg : Registration}
    (hgranted : granted hash s call = some reg) (hkey : reg.key.isUnproven = true) :
    (s.prune call.now).runs.countKeys RunKey.isUnproven < maxUnprovenRuns := by
  obtain ⟨now, op⟩ := call
  cases op with
  | register identity limits random unix =>
      rw [granted_register] at hgranted
      split at hgranted
      · cases hgranted
      · split at hgranted
        · cases hgranted
        · cases hgranted
          cases hkey
  | registerUnproven name limits quota random unix =>
      rw [granted_registerUnproven] at hgranted
      unfold State.refusal at hgranted
      split at hgranted
      · cases hgranted
      · next hrefusal =>
          split at hrefusal
          · cases hrefusal
          · split at hrefusal
            · cases hrefusal
            · split at hrefusal
              · cases hrefusal
              · next hroom => exact Nat.not_le.mp (not_or.mp hroom).1
  | authenticate token => cases hgranted
  | record key => cases hgranted
  | finish key unix => cases hgranted
  | admitRequest key => cases hgranted
  | settle key outcome => cases hgranted

/-- **Step.** No call takes the registry over a limit. -/
theorem Bounded.step {s : State H} (hb : Bounded s) (call : Call) :
    Bounded ((machine hash).next s call) := by
  have hp := hb.prune call.now
  cases transition hash s call with
  | quiet hminted hgranted hop hadm hruns htokens =>
      exact ⟨hruns ▸ hp.size_le, hruns ▸ hp.unproven_le⟩
  | fresh reg token run hcall hminted hgranted habsent hroom hterms hactive hhash hfl hruns
      htokens =>
      constructor
      · rw [Assoc.size_eq_countKeys] at hroom
        rw [hruns, Assoc.size_eq_countKeys, Assoc.countKeys_insert run habsent]
        exact hroom
      · rw [hruns, Assoc.countKeys_insert run habsent]
        split
        · next hkey => exact room_of_granted hgranted hkey
        · exact hp.unproven_le
  | replaced key token run hminted hgranted hrun hactive hruns htokens => exact hp.modify hruns
  | ended key unix hcall hruns htokens => exact hp.modify hruns
  | taken key run hcall hrun hactive hfree hanswer hruns htokens => exact hp.modify hruns
  | released key outcome hcall hruns htokens => exact hb.modify hruns

/-- **Run.** Every reachable registry is within its limits, whatever the random draws. -/
theorem bounded_run (hash : Bytes → H) (calls : List Call) :
    Bounded ((machine hash).run calls) := by
  refine Mealy.invariant (m := machine hash) (G := fun _ _ => True) (P := fun _ s => Bounded s)
    ?_ ?_ calls (Mealy.along_true calls)
  · exact ⟨Nat.zero_le _, Nat.zero_le _⟩
  · intro is call hb _
    exact hb.step call

/-! ## Refusals -/

/-- A refused registration with proof has only pruned. -/
theorem register_error {s : State H} {identity : RunIdentity} {limits : Limits}
    {random : Vector UInt8 32} {unix : UInt64} {now : Instant} {e : RegisterError}
    (h : (register hash s identity limits random unix now).2 = .error e) :
    (register hash s identity limits random unix now).1 = s.prune now := by
  unfold register at h ⊢
  dsimp only at h ⊢
  split
  · next run hk =>
      rw [hk] at h
      dsimp only at h
      split
      · rfl
      · next hc =>
          rw [if_neg hc] at h
          cases h
  · next hk =>
      rw [hk] at h
      dsimp only at h
      split
      · rfl
      · next hroom =>
          rw [if_neg hroom] at h
          cases h

/-- A refused registration without proof has pruned and perhaps dropped old quota entries. -/
theorem registerUnproven_error {s : State H} {name : RunName} {limits : Limits} {quota : Quota}
    {random : Vector UInt8 32} {unix : UInt64} {now : Instant} {e : RegisterError}
    (h : (registerUnproven hash s name limits quota random unix now).2 = .error e) :
    (registerUnproven hash s name limits quota random unix now).1.runs = (s.prune now).runs ∧
      (registerUnproven hash s name limits quota random unix now).1.tokens =
        (s.prune now).tokens := by
  unfold registerUnproven at h ⊢
  dsimp only at h ⊢
  split
  · exact ⟨rfl, rfl⟩
  · next habsent =>
      rw [if_neg habsent] at h
      split
      · exact ⟨rfl, rfl⟩
      · next hquota =>
          rw [if_neg hquota] at h
          split
          · exact ⟨rfl, rfl⟩
          · next hroom =>
              rw [if_neg hroom] at h
              cases h

/-- Only a registry at its limit refuses a registration with proof as full. -/
theorem size_of_register_full {s : State H} {identity : RunIdentity} {limits : Limits}
    {random : Vector UInt8 32} {unix : UInt64} {now : Instant}
    (h : (register hash s identity limits random unix now).2 = .error .full) :
    maxRuns ≤ (s.prune now).runs.size := by
  unfold register at h
  dsimp only at h
  split at h
  · split at h
    · cases h
    · cases h
  · split at h
    · next hfull => exact hfull
    · cases h

/-- What the registry owes every list of calls that mints distinct hashes. -/
structure BoundedRegistry (hash : Bytes → H) (calls : List Call) : Prop where
  /-- Not too many runs, at any time. -/
  runs_le : ((machine hash).run calls).runs.size ≤ maxRuns
  /-- Nor too many of them without proof. -/
  unproven_le : ((machine hash).run calls).runs.countKeys RunKey.isUnproven ≤ maxUnprovenRuns
  /-- One token for each run. -/
  tokens_eq : ((machine hash).run calls).tokens.size = ((machine hash).run calls).runs.size
  /-- A registration with proof is refused as full only by runs with proof. -/
  full : ∀ identity limits random unix now,
    (register hash ((machine hash).run calls) identity limits random unix now).2 = .error .full →
      maxRuns - maxUnprovenRuns ≤
        (((machine hash).run calls).prune now).runs.countKeys (fun k => !k.isUnproven)
  /-- A refused registration with proof leaves what pruning leaves. -/
  register_unchanged : ∀ identity limits random unix now e,
    (register hash ((machine hash).run calls) identity limits random unix now).2 = .error e →
      (register hash ((machine hash).run calls) identity limits random unix now).1.runs =
          (((machine hash).run calls).prune now).runs ∧
        (register hash ((machine hash).run calls) identity limits random unix now).1.tokens =
          (((machine hash).run calls).prune now).tokens
  /-- So does a refused registration without proof. -/
  registerUnproven_unchanged : ∀ name limits quota random unix now e,
    (registerUnproven hash ((machine hash).run calls) name limits quota random unix now).2 =
        .error e →
      (registerUnproven hash ((machine hash).run calls) name limits quota random unix now).1.runs =
          (((machine hash).run calls).prune now).runs ∧
        (registerUnproven hash ((machine hash).run calls) name limits quota random unix
            now).1.tokens = (((machine hash).run calls).prune now).tokens

/-- **The registry is bounded, and runs without proof cannot fill it.** -/
theorem bounded_registry (hash : Bytes → H) (calls : List Call) (hd : DistinctTokens hash calls) :
    BoundedRegistry hash calls := by
  have hb := bounded_run hash calls
  refine ⟨hb.size_le, hb.unproven_le, ?_, ?_, ?_, ?_⟩
  · exact Assoc.size_eq_of_inverse Run.tokenHash (tokensInStep_run hd).inverse
  · intro identity limits random unix now hfull
    have hsize := size_of_register_full hfull
    have hunproven := (hb.prune now).unproven_le
    rw [Assoc.size_eq_add RunKey.isUnproven] at hsize
    omega
  · intro identity limits random unix now e he
    rw [register_error he]
    exact ⟨rfl, rfl⟩
  · intro name limits quota random unix now e he
    exact registerUnproven_error he

/-- A retried registration keeps one run and one token. -/
theorem bounded_registry_retry : DistinctTokens id retryCalls ∧ BoundedRegistry id retryCalls := by
  have hd : DistinctTokens id retryCalls := by decide +kernel
  exact ⟨hd, bounded_registry id retryCalls hd⟩

end CredentialBroker.Runs
