import CredentialBroker.Runs.Lifetime
import CredentialBroker.Util.SlidingWindow

/-!
# The quota of registrations without proof

The registry decides about a registration from what it keeps: two maps that are pruned lazily and a
queue of times that is trimmed only by the calls that get as far as the quota. None of that is
visible in its decisions. They are a function of the *history*, the list of fresh registrations so
far (`grants`):

* a key is remembered exactly if a registration of it is still `alive`, and the runs kept are
  counted by the registrations that are (`Remembers.remembered_iff`, `Remembers.countKeys_prune`);
* the queue has an entry for each registration without proof in the window (`QueueInStep`);
* so a registration is refused as the history says, by `refusalOf` (`refusal_eq`).

Everything about the quota is then about lists of registrations: no window holds more than its
share, `OverQuota` is answered exactly when the window is full, and calls that add nothing to the
history may be left out of it.
-/

namespace CredentialBroker

/-- Whether a registration is still remembered at `now`. -/
def Registration.alive (now : Instant) (reg : Registration) : Bool :=
  decide (now < reg.time + reg.limits.ttl + retention)

namespace Runs

variable {H : Type} [DecidableEq H] {hash : Bytes → H}

/-! ## What is remembered, from the history -/

theorem mem_grants_of_lastGranted {k : RunKey} {tr : List (State H × Call)} {reg : Registration}
    (h : lastGranted hash k tr = some reg) : reg ∈ grants hash tr ∧ reg.key = k := by
  have hmem := List.mem_of_getLast? h
  rwa [List.mem_filter, decide_eq_true_eq] at hmem

/-- A registration is granted at the time of one of the calls. -/
theorem time_le_of_mem_grants {tr : List (State H × Call)} {now : Instant}
    (htime : ∀ e ∈ tr, e.2.now ≤ now) {reg : Registration} (h : reg ∈ grants hash tr) :
    reg.time ≤ now := by
  obtain ⟨e, he, hgranted⟩ := List.mem_filterMap.mp h
  rw [time_of_granted hgranted]
  exact htime e he

/-- A key is remembered exactly if a registration of it is alive. -/
theorem Remembers.remembered_iff {tr : List (State H × Call)} {s : State H}
    (hi : Remembers hash tr s) {now : Instant} (htime : ∀ e ∈ tr, e.2.now ≤ now) (k : RunKey) :
    ((s.prune now).runs.lookup k).isSome = true ↔
      ∃ reg ∈ grants hash tr, reg.key = k ∧ reg.alive now = true := by
  constructor
  · intro h
    obtain ⟨run, hrun⟩ := Option.isSome_iff_exists.mp h
    obtain ⟨old, hold, hlt, -⟩ := lookup_prune_eq_some.mp hrun
    obtain ⟨reg, hreg, hterms⟩ := hi.terms k old hold
    obtain ⟨hmem, hkey⟩ := mem_grants_of_lastGranted hreg
    have hretain : old.retainUntil = reg.time + reg.limits.ttl + retention :=
      congrArg Terms.retainUntil hterms
    exact ⟨reg, hmem, hkey, decide_eq_true (hretain ▸ hlt)⟩
  · rintro ⟨reg, hmem, rfl, halive⟩
    have hlt : now < reg.terms.retainUntil := of_decide_eq_true halive
    by_contra hgone
    rw [Option.not_isSome_iff_eq_none, lookup_prune_eq_none] at hgone
    exact absurd (hi.retainUntil_le hmem htime hgone) (Nat.not_le.mpr hlt)

/-- The runs kept are counted by the registrations alive. -/
theorem Remembers.countKeys_prune {tr : List (State H × Call)} {s : State H}
    (hi : Remembers hash tr s) {now : Instant} (htime : ∀ e ∈ tr, e.2.now ≤ now)
    (p : RunKey → Bool) :
    (s.prune now).runs.countKeys p =
      (grants hash tr).countP (fun reg => p reg.key && reg.alive now) := by
  rw [List.countP_eq_length_filter, ← List.length_map (f := Registration.key)]
  refine Assoc.countKeys_eq_length ?_ ?_
  · -- of two registrations of one key the earlier was over when the later came
    rw [List.Nodup, List.pairwise_map]
    apply (hi.apart.sublist List.filter_sublist).imp_of_mem
    intro r r' hr hr' hapart hkey
    rw [List.mem_filter, Bool.and_eq_true] at hr hr'
    have halive : now < r.time + r.limits.ttl + retention := of_decide_eq_true hr.2.2
    have htime' := time_le_of_mem_grants htime hr'.1
    exact absurd (halive.trans_le ((hapart hkey).trans htime')) (Nat.lt_irrefl _)
  · intro k
    rw [hi.remembered_iff htime k, List.mem_map]
    constructor
    · rintro ⟨reg, hreg, rfl⟩
      rw [List.mem_filter, Bool.and_eq_true] at hreg
      exact ⟨hreg.2.1, reg, hreg.1, rfl, hreg.2.2⟩
    · rintro ⟨hp, reg, hmem, rfl, halive⟩
      refine ⟨reg, List.mem_filter.mpr ⟨hmem, ?_⟩, rfl⟩
      rw [hp, halive]
      rfl

/-! ## What decides a registration without proof -/

/-- Why `register_unproven` refuses, if it does. -/
def State.refusal (s : State H) (name : RunName) (quota : Quota) (now : Instant) :
    Option RegisterError :=
  if ((s.prune now).runs.lookup (.unproven name)).isSome = true then some .alreadyRegistered
  else if quota.max ≤ (inWindow quota now s.unproven).length then some .overQuota
  else if maxUnprovenRuns ≤ (s.prune now).runs.countKeys RunKey.isUnproven ∨
      maxRuns ≤ (s.prune now).runs.size then some .full
  else none

theorem registerUnproven_answer (s : State H) (name : RunName) (limits : Limits) (quota : Quota)
    (random : Vector UInt8 32) (unix : UInt64) (now : Instant) :
    (registerUnproven hash s name limits quota random unix now).2 =
      match s.refusal name quota now with
      | some e => .error e
      | none => .ok (newToken random, newRecord (.unproven name) limits unix) := by
  unfold registerUnproven State.refusal
  dsimp only
  split
  · rfl
  · have hq : (s.prune now).unproven = s.unproven := rfl
    rw [hq]
    split
    · rfl
    · split <;> rfl

variable (hash) in
theorem registerUnproven_queue (s : State H) (name : RunName) (limits : Limits) (quota : Quota)
    (random : Vector UInt8 32) (unix : UInt64) (now : Instant) :
    (registerUnproven hash s name limits quota random unix now).1.unproven =
      match s.refusal name quota now with
      | some .alreadyRegistered => s.unproven
      | some _ => inWindow quota now s.unproven
      | none => inWindow quota now s.unproven ++ [now] := by
  unfold registerUnproven State.refusal
  dsimp only
  split
  · rfl
  · have hq : (s.prune now).unproven = s.unproven := rfl
    rw [hq]
    split
    · rfl
    · split <;> rfl

variable (hash) in
/-- An unproven registration is granted unless it is refused. -/
theorem granted_registerUnproven (s : State H) (now : Instant) (name : RunName) (limits : Limits)
    (quota : Quota) (random : Vector UInt8 32) (unix : UInt64) :
    granted hash s ⟨now, .registerUnproven name limits quota random unix⟩ =
      match s.refusal name quota now with
      | some _ => none
      | none => some ⟨.unproven name, .unproven name, none, .priv, limits, now⟩ := by
  have hanswer : (step hash s ⟨now, .registerUnproven name limits quota random unix⟩).2 =
      .registered (registerUnproven hash s name limits quota random unix now).2 := rfl
  unfold granted
  rw [hanswer, registerUnproven_answer]
  cases hr : s.refusal name quota now with
  | some e => rfl
  | none =>
      have habsent : ((s.prune now).runs.lookup (.unproven name)).isSome = false := by
        unfold State.refusal at hr
        split at hr
        · cases hr
        · next h => simpa using h
      simp only [Call.registration, Option.isNone_iff_eq_none]
      rw [if_pos (by simpa using habsent)]

/-- A registration with an OIDC token is granted unless its key is remembered or the registry is
full. -/
theorem granted_register (s : State H) (now : Instant) (identity : RunIdentity) (limits : Limits)
    (random : Vector UInt8 32) (unix : UInt64) :
    granted hash s ⟨now, .register identity limits random unix⟩ =
      if ((s.prune now).runs.lookup identity.key).isSome = true then none
      else if maxRuns ≤ (s.prune now).runs.size then none
      else some ⟨identity.key, identity.proof, some identity.jti, identity.consumer, limits,
        now⟩ := by
  cases hk : (s.prune now).runs.lookup identity.key with
  | some run =>
      by_cases hc : run.jti ≠ some identity.jti ∨ run.record.state ≠ .active <;>
        simp [granted, Call.registration, step, register, hk, hc]
  | none =>
      by_cases hfull : maxRuns ≤ (s.prune now).runs.size <;>
        simp [granted, Call.registration, step, register, hk, hfull]

/-! ## The decisions, from the history -/

/-- When the registrations without proof of a history were. -/
def unprovenTimes (history : List Registration) : List Instant :=
  (history.filter (fun reg => reg.key.isUnproven)).map Registration.time

/-- Why a registration without proof is refused after a history, if it is. -/
def refusalOf (quota : Quota) (history : List Registration) (name : RunName) (now : Instant) :
    Option RegisterError :=
  if history.any (fun reg => decide (reg.key = .unproven name) && reg.alive now) = true then
    some .alreadyRegistered
  else if quota.max ≤
      (unprovenTimes history).countP (fun t => decide (now < t + quota.window)) then
    some .overQuota
  else if maxUnprovenRuns ≤
        history.countP (fun reg => reg.key.isUnproven && reg.alive now) ∨
      maxRuns ≤ history.countP (fun reg => reg.alive now) then
    some .full
  else none

/-- A call registers without proof only within `quota`. -/
def Call.UsesQuota (quota : Quota) (call : Call) : Prop :=
  match call.op with
  | .registerUnproven _ _ q _ _ => q = quota
  | _ => True

instance (quota : Quota) (call : Call) : Decidable (call.UsesQuota quota) := by
  unfold Call.UsesQuota
  split <;> infer_instance

variable (hash) in
/-- The registry follows the history: runs and queue are what is left of it. -/
structure Follows (quota : Quota) (tr : List (State H × Call)) (s : State H) : Prop where
  remembers : Remembers hash tr s
  trimmed : ∀ t, (∀ e ∈ tr, e.2.now ≤ t) →
    SlidingWindow.Trimmed quota.window t (unprovenTimes (grants hash tr)) s.unproven
  admitted : SlidingWindow.Admitted quota.max quota.window (unprovenTimes (grants hash tr))

theorem le_of_mem_unprovenTimes {tr : List (State H × Call)} {now : Instant}
    (htime : ∀ e ∈ tr, e.2.now ≤ now) {t : Instant} (h : t ∈ unprovenTimes (grants hash tr)) :
    t ≤ now := by
  obtain ⟨reg, hreg, rfl⟩ := List.mem_map.mp h
  exact time_le_of_mem_grants htime (List.mem_filter.mp hreg).1

/-- What is left in the queue at a call, and how much of it. -/
theorem Follows.inWindow {quota : Quota} {tr : List (State H × Call)} {s : State H}
    (hf : Follows hash quota tr s) {now : Instant} (htime : ∀ e ∈ tr, e.2.now ≤ now) :
    SlidingWindow.Trimmed quota.window now (unprovenTimes (grants hash tr))
        (inWindow quota now s.unproven) ∧
      (inWindow quota now s.unproven).length =
        (unprovenTimes (grants hash tr)).countP (fun t => decide (now < t + quota.window)) :=
  (hf.trimmed now htime).drop hf.admitted.pairwise fun _ => le_of_mem_unprovenTimes htime

/-- **Refinement.** The registry refuses as the history says. -/
theorem Follows.refusal_eq {quota : Quota} {tr : List (State H × Call)} {s : State H}
    (hf : Follows hash quota tr s) {now : Instant} (htime : ∀ e ∈ tr, e.2.now ≤ now)
    (name : RunName) : s.refusal name quota now = refusalOf quota (grants hash tr) name now := by
  have hremembered : ((s.prune now).runs.lookup (.unproven name)).isSome = true ↔
      (grants hash tr).any (fun reg => decide (reg.key = .unproven name) && reg.alive now) =
        true := by
    rw [hf.remembers.remembered_iff htime]
    simp
  unfold State.refusal refusalOf
  rw [(hf.inWindow htime).2, hf.remembers.countKeys_prune htime, Assoc.size_eq_countKeys,
    hf.remembers.countKeys_prune htime]
  simp only [hremembered, Bool.true_and]

/-- The history after a call that registers nobody without proof has the same times. -/
private theorem unprovenTimes_concat_of {tr : List (State H × Call)} {e : State H × Call}
    (h : ∀ reg, granted hash e.1 e.2 = some reg → reg.key.isUnproven = false) :
    unprovenTimes (grants hash (tr ++ [e])) = unprovenTimes (grants hash tr) := by
  rw [grants_concat]
  cases hg : granted hash e.1 e.2 with
  | none => simp
  | some reg => simp [unprovenTimes, h reg hg]

/-- A call that neither touches the queue nor registers anybody without proof keeps in step. -/
private theorem Follows.same {quota : Quota} {tr : List (State H × Call)} {s : State H}
    (hf : Follows hash quota tr s) {call : Call} (htime : ∀ e ∈ tr, e.2.now ≤ call.now)
    (hgranted : ∀ reg, granted hash s call = some reg → reg.key.isUnproven = false)
    (hqueue : ((machine hash).next s call).unproven = s.unproven) :
    Follows hash quota (tr ++ [(s, call)]) ((machine hash).next s call) := by
  refine ⟨hf.remembers.step call htime, ?_, ?_⟩
  · intro t ht
    rw [unprovenTimes_concat_of hgranted, hqueue]
    exact hf.trimmed t fun e he => ht e (List.mem_append_left _ he)
  · rw [unprovenTimes_concat_of hgranted]
    exact hf.admitted

/-- A registration with a token is not in the queue. -/
private theorem isUnproven_of_granted_register {s : State H} {now : Instant}
    {identity : RunIdentity} {limits : Limits} {random : Vector UInt8 32} {unix : UInt64}
    {reg : Registration}
    (h : granted hash s ⟨now, .register identity limits random unix⟩ = some reg) :
    reg.key.isUnproven = false := by
  rw [granted_register] at h
  split at h
  · cases h
  · split at h
    · cases h
    · cases h
      rfl

/-- And leaves it alone. -/
private theorem register_queue (s : State H) (identity : RunIdentity) (limits : Limits)
    (random : Vector UInt8 32) (unix : UInt64) (now : Instant) :
    (register hash s identity limits random unix now).1.unproven = s.unproven := by
  unfold register
  dsimp only
  split <;> split <;> rfl

private theorem admitRequest_queue (s : State H) (key : RunKey) (now : Instant) :
    (admitRequest s key now).1.unproven = s.unproven := by
  unfold admitRequest
  dsimp only
  split
  · rfl
  · split
    · rfl
    · split <;> rfl

/-- A registration without proof keeps in step, whether it is granted or refused. -/
private theorem Follows.step_registerUnproven {quota : Quota} {tr : List (State H × Call)}
    {s : State H} (hf : Follows hash quota tr s) (now : Instant) (name : RunName) (limits : Limits)
    (random : Vector UInt8 32) (unix : UInt64) (htime : ∀ e ∈ tr, e.2.now ≤ now) :
    Follows hash quota (tr ++ [(s, ⟨now, .registerUnproven name limits quota random unix⟩)])
      ((machine hash).next s ⟨now, .registerUnproven name limits quota random unix⟩) := by
  have hlast : ∀ t, (∀ e ∈ tr ++ [(s, ⟨now, .registerUnproven name limits quota random unix⟩)],
      e.2.now ≤ t) → now ≤ t := fun t ht =>
    ht _ (List.mem_append_right _ (List.mem_singleton.mpr rfl))
  obtain ⟨htrim, hlength⟩ := hf.inWindow htime
  have hqueue := registerUnproven_queue hash s name limits quota random unix now
  have hgrant := granted_registerUnproven hash s now name limits quota random unix
  have hnext :
      ((machine hash).next s ⟨now, .registerUnproven name limits quota random unix⟩).unproven =
    (registerUnproven hash s name limits quota random unix now).1.unproven := rfl
  cases hr : s.refusal name quota now with
  | some e =>
      -- refused: the queue is at most trimmed
      rw [hr] at hqueue hgrant
      refine ⟨hf.remembers.step _ htime, ?_, ?_⟩
      · intro t ht
        rw [unprovenTimes_concat_of (by simp [hgrant]), hnext, hqueue]
        split
        · exact hf.trimmed t fun e he => ht e (List.mem_append_left _ he)
        · exact htrim.mono (hlast t ht)
        · next h => cases h
      · rw [unprovenTimes_concat_of (by simp [hgrant])]
        exact hf.admitted
  | none =>
      -- granted: both the queue and the history get one more time
      rw [hr] at hqueue hgrant
      have htimes : unprovenTimes (grants hash (tr ++ [(s, ⟨now, .registerUnproven name limits
          quota random unix⟩)])) = unprovenTimes (grants hash tr) ++ [now] := by
        rw [grants_concat]
        dsimp only
        rw [hgrant]
        simp [unprovenTimes, RunKey.isUnproven]
      refine ⟨hf.remembers.step _ htime, ?_, ?_⟩
      · intro t ht
        rw [htimes, hnext, hqueue]
        exact (htrim.mono (hlast t ht)).concat
      · -- the call was not over its quota
        rw [htimes]
        apply hf.admitted.concat (fun _ => le_of_mem_unprovenTimes htime)
        rw [← hlength]
        by_contra hover
        unfold State.refusal at hr
        split at hr
        · cases hr
        · rw [if_pos (Nat.not_lt.mp hover)] at hr
          cases hr

/-- **Step.** Every call no earlier than those before it, within the quota, keeps in step. -/
theorem Follows.step {quota : Quota} {tr : List (State H × Call)} {s : State H}
    (hf : Follows hash quota tr s) (call : Call) (htime : ∀ e ∈ tr, e.2.now ≤ call.now)
    (hquota : call.UsesQuota quota) :
    Follows hash quota (tr ++ [(s, call)]) ((machine hash).next s call) := by
  obtain ⟨now, op⟩ := call
  cases op with
  | register identity limits random unix =>
      exact hf.same htime (fun reg hreg => isUnproven_of_granted_register hreg)
        (register_queue s identity limits random unix now)
  | registerUnproven name limits q random unix =>
      obtain rfl : q = quota := hquota
      exact hf.step_registerUnproven now name limits random unix htime
  | authenticate token => exact hf.same htime (by simp [granted, Call.registration]) rfl
  | record key => exact hf.same htime (by simp [granted, Call.registration]) rfl
  | finish key unix => exact hf.same htime (by simp [granted, Call.registration]) rfl
  | admitRequest key =>
      exact hf.same htime (by simp [granted, Call.registration]) (admitRequest_queue s key now)
  | settle key outcome => exact hf.same htime (by simp [granted, Call.registration]) rfl

variable (hash) in
/-- **Run.** The registry follows the history of every list of calls at non-decreasing times within
one quota. -/
theorem follows_run {quota : Quota} {calls : List Call} (h : NonDecreasing calls)
    (hquota : ∀ call ∈ calls, call.UsesQuota quota) :
    Follows hash quota ((machine hash).trace calls) ((machine hash).run calls) := by
  have hguard : (machine hash).Along (fun _ call => call.UsesQuota quota) calls :=
    fun pre call hpre => hquota call (hpre.subset (by simp))
  refine Mealy.invariant (P := Follows hash quota) ?_ ?_ calls
    ((Mealy.along_of_pairwise h).and hguard)
  · refine ⟨remembers_run hash List.Pairwise.nil, fun t _ => ⟨[], rfl, by simp⟩, ?_⟩
    exact SlidingWindow.admitted_nil
  · intro is call hf hg
    exact hf.step call hg.1 hg.2

/-- What `OverQuota` says about the history. -/
theorem refusalOf_eq_overQuota {quota : Quota} {history : List Registration} {name : RunName}
    {now : Instant} :
    refusalOf quota history name now = some .overQuota ↔
      ¬ (∃ reg ∈ history, reg.key = .unproven name ∧ reg.alive now = true) ∧
        quota.max ≤ (unprovenTimes history).countP (fun t => decide (now < t + quota.window)) := by
  unfold refusalOf
  have hany : history.any (fun reg => decide (reg.key = .unproven name) && reg.alive now) = true ↔
      ∃ reg ∈ history, reg.key = .unproven name ∧ reg.alive now = true := by
    simp
  split
  · next h => simp [hany.mp h]
  · next h =>
      rw [hany] at h
      split
      · next hover => exact ⟨fun _ => ⟨h, hover⟩, fun _ => rfl⟩
      · next hover =>
          constructor
          · intro heq
            split at heq <;> cases heq
          · intro hboth
            exact absurd hboth.2 hover

theorem registerUnproven_eq_error {s : State H} {name : RunName} {limits : Limits} {quota : Quota}
    {random : Vector UInt8 32} {unix : UInt64} {now : Instant} {e : RegisterError} :
    (registerUnproven hash s name limits quota random unix now).2 = .error e ↔
      s.refusal name quota now = some e := by
  rw [registerUnproven_answer]
  cases s.refusal name quota now <;> simp

/-! ## Calls that leave the history alone -/

/-- The registration a history grants a call, if any. -/
def grantOf (quota : Quota) (history : List Registration) (call : Call) : Option Registration :=
  match call.op with
  | .register identity _ _ _ =>
      if history.any (fun reg => decide (reg.key = identity.key) && reg.alive call.now) = true then
        none
      else if maxRuns ≤ history.countP (fun reg => reg.alive call.now) then none
      else call.registration
  | .registerUnproven name _ _ _ _ =>
      match refusalOf quota history name call.now with
      | some _ => none
      | none => call.registration
  | _ => none

/-- The registry grants as the history says. -/
theorem Follows.granted_eq {quota : Quota} {tr : List (State H × Call)} {s : State H}
    (hf : Follows hash quota tr s) {call : Call} (htime : ∀ e ∈ tr, e.2.now ≤ call.now)
    (hquota : call.UsesQuota quota) :
    granted hash s call = grantOf quota (grants hash tr) call := by
  obtain ⟨now, op⟩ := call
  cases op with
  | register identity limits random unix =>
      have hremembered : ((s.prune now).runs.lookup identity.key).isSome = true ↔
          (grants hash tr).any (fun reg => decide (reg.key = identity.key) && reg.alive now) =
            true := by
        rw [hf.remembers.remembered_iff htime]
        simp
      rw [granted_register, Assoc.size_eq_countKeys, hf.remembers.countKeys_prune htime]
      simp only [hremembered, Bool.true_and]
      rfl
  | registerUnproven name limits q random unix =>
      obtain rfl : q = quota := hquota
      rw [granted_registerUnproven, hf.refusal_eq htime]
      rfl
  | authenticate token => rfl
  | record key => rfl
  | finish key unix => rfl
  | admitRequest key => rfl
  | settle key outcome => rfl

variable (hash) in
/-- A registration answered with a refusal. -/
def isRefused (s : State H) (call : Call) : Bool :=
  match (Runs.step hash s call).2 with
  | .registered (.error _) => true
  | _ => false

/-- A registration with an OIDC token. -/
def Call.isProven (call : Call) : Bool :=
  match call.op with
  | .register .. => true
  | _ => false

variable (hash) in
/-- A registration that is refused or comes with an OIDC token. -/
def isLeftOut (s : State H) (call : Call) : Bool := isRefused hash s call || call.isProven

variable (hash) in
/-- A list of calls without the registrations that are refused or come with an OIDC token. -/
def strip (calls : List Call) : List Call :=
  (((machine hash).trace calls).filter (fun e => !isLeftOut hash e.1 e.2)).map Prod.snd

theorem strip_concat (calls : List Call) (call : Call) :
    strip hash (calls ++ [call]) = strip hash calls ++
      if isLeftOut hash ((machine hash).run calls) call = true then [] else [call] := by
  unfold strip
  rw [Mealy.trace_concat, List.filter_append, List.map_append]
  congr 1
  cases h : isLeftOut hash ((machine hash).run calls) call <;> simp [h]

theorem strip_sublist (calls : List Call) : (strip hash calls).Sublist calls := by
  have h := (List.filter_sublist (p := fun e => !isLeftOut hash e.1 e.2)
    (l := (machine hash).trace calls)).map Prod.snd
  rwa [Mealy.map_snd_trace] at h

theorem granted_eq_none_of_refused {s : State H} {call : Call} (h : isRefused hash s call = true) :
    granted hash s call = none := by
  unfold isRefused at h
  unfold granted
  split
  · next heq => rw [heq] at h; cases h
  · rfl

/-- Registrations with proof do not count towards what refuses those without, but for a registry
that is full altogether. -/
theorem refusalOf_filter {quota : Quota} {history : List Registration} {name : RunName}
    {now : Instant} (h : refusalOf quota history name now = none) :
    refusalOf quota (history.filter (fun reg => reg.key.isUnproven)) name now = none := by
  have hsame : (history.filter (fun reg => reg.key.isUnproven)).any
        (fun reg => decide (reg.key = .unproven name) && reg.alive now) =
      history.any (fun reg => decide (reg.key = .unproven name) && reg.alive now) := by
    rw [List.any_filter]
    refine congrArg (List.any history) (funext fun reg => ?_)
    by_cases hk : reg.key = .unproven name <;> simp [hk, RunKey.isUnproven]
  have htimes : unprovenTimes (history.filter (fun reg => reg.key.isUnproven)) =
      unprovenTimes history := by
    simp [unprovenTimes, List.filter_filter]
  have hkept : (history.filter (fun reg => reg.key.isUnproven)).countP
        (fun reg => reg.key.isUnproven && reg.alive now) =
      history.countP (fun reg => reg.key.isUnproven && reg.alive now) := by
    rw [List.countP_filter]
    apply List.countP_congr
    intro reg _
    simp
    tauto
  have hall : (history.filter (fun reg => reg.key.isUnproven)).countP (fun reg => reg.alive now) =
      history.countP (fun reg => reg.key.isUnproven && reg.alive now) := by
    rw [List.countP_filter]
    apply List.countP_congr
    intro reg _
    rw [Bool.and_comm]
  unfold refusalOf at h ⊢
  rw [hsame, htimes, hkept, hall]
  split at h
  · cases h
  · next hfresh =>
      rw [if_neg hfresh]
      split at h
      · cases h
      · next hquota =>
          rw [if_neg hquota]
          split at h
          · cases h
          · next hroom =>
              have hsmall : maxUnprovenRuns ≤ maxRuns := by decide
              rw [if_neg]
              omega

/-- Whether the quota is used up depends on the registrations without proof alone. -/
theorem overQuota_filter {quota : Quota} {history : List Registration} {name : RunName}
    {now : Instant} :
    refusalOf quota (history.filter (fun reg => reg.key.isUnproven)) name now = some .overQuota ↔
      refusalOf quota history name now = some .overQuota := by
  have htimes : unprovenTimes (history.filter (fun reg => reg.key.isUnproven)) =
      unprovenTimes history := by
    simp [unprovenTimes, List.filter_filter]
  rw [refusalOf_eq_overQuota, refusalOf_eq_overQuota, htimes]
  refine and_congr_left fun _ => not_congr ⟨?_, ?_⟩
  · rintro ⟨reg, hreg, hkey, halive⟩
    exact ⟨reg, (List.mem_filter.mp hreg).1, hkey, halive⟩
  · rintro ⟨reg, hreg, hkey, halive⟩
    exact ⟨reg, List.mem_filter.mpr ⟨hreg, by rw [hkey]; rfl⟩, hkey, halive⟩

/-- In calls at non-decreasing times, none of a trace's is later than one that comes next. -/
theorem trace_now_le {calls : List Call} {now : Instant} (h : ∀ call ∈ calls, call.now ≤ now) :
    ∀ e ∈ (machine hash).trace calls, e.2.now ≤ now :=
  fun e he => h e.2 ((machine hash).mem_of_mem_trace he)

/-- What is left out registers nobody without proof. -/
theorem filter_granted_of_leftOut {s : State H} {call : Call} (h : isLeftOut hash s call = true) :
    (granted hash s call).toList.filter (fun reg => reg.key.isUnproven) = [] := by
  rcases (Bool.or_eq_true _ _).mp h with hrefused | hproven
  · rw [granted_eq_none_of_refused hrefused]
    rfl
  · obtain ⟨now, op⟩ := call
    cases op with
    | register identity limits random unix =>
        rw [granted_register]
        split
        · rfl
        · split
          · rfl
          · rfl
    | _ => cases hproven

/-- What is not left out is granted alike when only registrations without proof came before, and
if it registers anybody then without proof. -/
theorem Follows.grantOf_filter {quota : Quota} {tr : List (State H × Call)} {s : State H}
    (hf : Follows hash quota tr s) {call : Call} (htime : ∀ e ∈ tr, e.2.now ≤ call.now)
    (hquota : call.UsesQuota quota) (h : isLeftOut hash s call = false) :
    (grantOf quota ((grants hash tr).filter (fun reg => reg.key.isUnproven)) call).toList =
      (granted hash s call).toList.filter (fun reg => reg.key.isUnproven) := by
  obtain ⟨hrefused, hproven⟩ := Bool.or_eq_false_iff.mp h
  obtain ⟨now, op⟩ := call
  cases op with
  | register identity limits random unix => cases hproven
  | registerUnproven name limits q random unix =>
      obtain rfl : q = quota := hquota
      have haccepted : s.refusal name q now = none := by
        have hanswer : (Runs.step hash s ⟨now, .registerUnproven name limits q random unix⟩).2 =
            .registered (registerUnproven hash s name limits q random unix now).2 := rfl
        unfold isRefused at hrefused
        rw [hanswer, registerUnproven_answer] at hrefused
        cases hr : s.refusal name q now with
        | none => rfl
        | some e => rw [hr] at hrefused; cases hrefused
      rw [granted_registerUnproven, haccepted]
      rw [hf.refusal_eq htime] at haccepted
      simp only [grantOf, refusalOf_filter haccepted]
      rfl
  | authenticate token => rfl
  | record key => rfl
  | finish key unix => rfl
  | admitRequest key => rfl
  | settle key outcome => rfl

/-- Leaving out the refused registrations and those with proof leaves the rest of the history. -/
theorem grants_strip {quota : Quota} {calls : List Call} (h : NonDecreasing calls)
    (hquota : ∀ call ∈ calls, call.UsesQuota quota) :
    grants hash ((machine hash).trace (strip hash calls)) =
      (grants hash ((machine hash).trace calls)).filter (fun reg => reg.key.isUnproven) := by
  induction calls using List.reverseRecOn with
  | nil => rfl
  | append_singleton calls call ih =>
      obtain ⟨hcalls, -, hlast⟩ := List.pairwise_append.mp h
      have hle : ∀ c ∈ calls, c.now ≤ call.now := fun c hc => hlast c hc call (by simp)
      have hq : ∀ c ∈ calls, c.UsesQuota quota := fun c hc => hquota c (List.mem_append_left _ hc)
      have hsub : (strip hash calls).Sublist calls := strip_sublist calls
      have ih := ih hcalls hq
      rw [strip_concat, Mealy.trace_concat, grants_concat, List.filter_append]
      cases hout : isLeftOut hash ((machine hash).run calls) call with
      | true =>
          rw [if_pos rfl, List.append_nil, ih, filter_granted_of_leftOut hout, List.append_nil]
      | false =>
          -- the registry that saw less decides from the same registrations without proof
          have hstripped := (follows_run hash (hcalls.sublist hsub)
            fun c hc => hq c (hsub.subset hc)).granted_eq
              (trace_now_le fun c hc => hle c (hsub.subset hc)) (hquota call (by simp))
          rw [ih] at hstripped
          rw [if_neg Bool.false_ne_true, Mealy.trace_concat, grants_concat, ih, hstripped]
          exact congrArg _ ((follows_run hash hcalls hq).grantOf_filter (trace_now_le hle)
            (hquota call (by simp)) hout)

/-- Leaving out one refused registration leaves the history. -/
theorem grants_remove {quota : Quota} {pre post : List Call} {call : Call}
    (h : NonDecreasing (pre ++ call :: post))
    (hquota : ∀ c ∈ pre ++ call :: post, c.UsesQuota quota)
    (hrefused : isRefused hash ((machine hash).run pre) call = true) :
    grants hash ((machine hash).trace (pre ++ post)) =
      grants hash ((machine hash).trace (pre ++ call :: post)) := by
  induction post using List.reverseRecOn with
  | nil =>
      rw [List.append_nil, Mealy.trace_concat, grants_concat, granted_eq_none_of_refused hrefused]
      simp
  | append_singleton post next ih =>
      have happ : pre ++ call :: (post ++ [next]) = (pre ++ call :: post) ++ [next] := by simp
      rw [happ] at h hquota
      obtain ⟨hcalls, -, hlast⟩ := List.pairwise_append.mp h
      have hle : ∀ c ∈ pre ++ call :: post, c.now ≤ next.now :=
        fun c hc => hlast c hc next (by simp)
      have hq : ∀ c ∈ pre ++ call :: post, c.UsesQuota quota :=
        fun c hc => hquota c (List.mem_append_left _ hc)
      have hsub : (pre ++ post).Sublist (pre ++ call :: post) :=
        (List.Sublist.refl pre).append (List.sublist_cons_self call post)
      have hgrant := (follows_run hash hcalls hq).granted_eq (trace_now_le hle)
        (hquota next (by simp))
      have hgrant' := (follows_run hash (hcalls.sublist hsub)
        fun c hc => hq c (hsub.subset hc)).granted_eq
          (trace_now_le fun c hc => hle c (hsub.subset hc)) (hquota next (by simp))
      rw [← List.append_assoc, happ, Mealy.trace_concat, Mealy.trace_concat, grants_concat,
        grants_concat, hgrant, hgrant', ih hcalls hq]

/-! ## The quota -/

/-- What the quota promises about a list of calls. -/
structure ExactWindow (hash : Bytes → H) (quota : Quota) (calls : List Call) : Prop where
  /-- No half-open interval as long as the window has more successful registrations without proof
  than the quota. -/
  windows : ∀ a,
    (unprovenTimes (grants hash ((machine hash).trace calls))).countP
        (fun t => decide (a ≤ t ∧ t < a + quota.window)) ≤ quota.max ∧
      (unprovenTimes (grants hash ((machine hash).trace calls))).countP
        (fun t => decide (a < t ∧ t ≤ a + quota.window)) ≤ quota.max
  /-- A name that is not remembered is over quota exactly if the window that ends now is used up. -/
  overQuota : ∀ name limits random unix now, (∀ call ∈ calls, call.now ≤ now) →
    ((registerUnproven hash ((machine hash).run calls) name limits quota random unix now).2 =
        .error .overQuota ↔
      ¬ Remembered ((machine hash).run calls) (.unproven name) now ∧
        quota.max ≤ (unprovenTimes (grants hash ((machine hash).trace calls))).countP
          (fun t => decide (now < t + quota.window ∧ t ≤ now)))
  /-- Without the refused registrations and those with an OIDC token the same names are over
  quota, -/
  stripped : ∀ name limits random unix now, (∀ call ∈ calls, call.now ≤ now) →
    ((registerUnproven hash ((machine hash).run (strip hash calls)) name limits quota random unix
        now).2 = .error .overQuota ↔
      (registerUnproven hash ((machine hash).run calls) name limits quota random unix now).2 =
        .error .overQuota)
  /-- and without any one refused registration alone. -/
  removed : ∀ pre call post, calls = pre ++ call :: post →
    isRefused hash ((machine hash).run pre) call = true →
    ∀ name limits random unix now, (∀ c ∈ calls, c.now ≤ now) →
      ((registerUnproven hash ((machine hash).run (pre ++ post)) name limits quota random unix
          now).2 = .error .overQuota ↔
        (registerUnproven hash ((machine hash).run calls) name limits quota random unix now).2 =
          .error .overQuota)

/-- **The registration quota is an exact sliding window.** -/
theorem exact_window (hash : Bytes → H) (quota : Quota) (calls : List Call)
    (h : NonDecreasing calls) (hquota : ∀ call ∈ calls, call.UsesQuota quota) :
    ExactWindow hash quota calls := by
  have hf := follows_run hash h hquota
  refine ⟨fun a => ⟨hf.admitted.countP_le a, ?_⟩, ?_, ?_, ?_⟩
  · refine le_trans (List.countP_mono_left fun t _ ht => ?_) (hf.admitted.countP_le (a + 1))
    rw [decide_eq_true_eq] at ht ⊢
    exact ⟨ht.1, ht.2.trans_lt (by rw [Nat.add_right_comm]; exact Nat.lt_succ_self _)⟩
  · intro name limits random unix now hle
    have htime : ∀ e ∈ (machine hash).trace calls, e.2.now ≤ now := trace_now_le hle
    rw [registerUnproven_eq_error, hf.refusal_eq htime, refusalOf_eq_overQuota, Remembered,
      hf.remembers.remembered_iff htime]
    apply and_congr_right
    intro _
    rw [List.countP_congr (q := fun t => decide (now < t + quota.window ∧ t ≤ now))]
    intro t ht
    have hnow := le_of_mem_unprovenTimes htime ht
    simp [hnow]
  · intro name limits random unix now hle
    have hsub : (strip hash calls).Sublist calls := strip_sublist calls
    have hstripped := follows_run hash (h.sublist hsub)
      fun c hc => hquota c (hsub.subset hc)
    rw [registerUnproven_eq_error, registerUnproven_eq_error,
      hstripped.refusal_eq (trace_now_le fun c hc => hle c (hsub.subset hc)),
      hf.refusal_eq (trace_now_le hle), grants_strip h hquota, overQuota_filter]
  · rintro pre call post rfl hrefused name limits random unix now hle
    have hsub : (pre ++ post).Sublist (pre ++ call :: post) :=
      (List.Sublist.refl pre).append (List.sublist_cons_self call post)
    have hremoved := follows_run hash (h.sublist hsub)
      fun c hc => hquota c (hsub.subset hc)
    rw [registerUnproven_eq_error, registerUnproven_eq_error,
      hremoved.refusal_eq (trace_now_le fun c hc => hle c (hsub.subset hc)),
      hf.refusal_eq (trace_now_le hle), grants_remove h hquota hrefused]

/-- A caller that registers twice at once under names of its own, within a quota of one. -/
def quotaCalls : List Call :=
  [⟨0, .registerUnproven ⟨"a", by decide⟩ ⟨600, 2⟩ ⟨1, 10⟩ (sampleDraw 0) 0⟩,
    ⟨5, .registerUnproven ⟨"b", by decide⟩ ⟨600, 2⟩ ⟨1, 10⟩ (sampleDraw 1) 0⟩]

/-- The second is over quota until the window has moved on. -/
theorem exact_window_sample : NonDecreasing quotaCalls ∧ ExactWindow id ⟨1, 10⟩ quotaCalls ∧
    isRefused id ((machine id).run (quotaCalls.take 1)) ⟨5, .registerUnproven ⟨"b", by decide⟩
      ⟨600, 2⟩ ⟨1, 10⟩ (sampleDraw 1) 0⟩ = true :=
  ⟨by decide, exact_window id ⟨1, 10⟩ quotaCalls (by decide) (by decide), by decide +kernel⟩

end Runs

end CredentialBroker
