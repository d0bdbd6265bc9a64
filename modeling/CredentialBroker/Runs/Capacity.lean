import CredentialBroker.Runs.Quota

/-!
# An accepted quota finds its part of the registry free

`UnprovenConfig.quota` accepts a quota only if the runs it admits, remembered for their lifetime and
a day, stay within the registry's part for them. The bound it computes counts windows: a run is
remembered for `ttl + retention`, which is covered by `⌈(ttl + retention) / window⌉` windows of the
quota. The proof is that covering, with the registration that is being decided already counted in.
-/

namespace CredentialBroker

/-- The longest a policy may let a run last, or a quota's window be. -/
def maxSecs : Nat := 30 * 24 * 3600

/-- Registration without an identity token, as a policy file admits it. -/
structure UnprovenConfig where
  maxRegistrations : Nat
  windowSecs : UInt64
  deriving DecidableEq, Repr

/-- `UnprovenConfig::quota`: the quota this asks for, for runs that each last `ttl`. -/
def UnprovenConfig.quota (config : UnprovenConfig) (ttl : Duration) : Except String Quota :=
  if config.maxRegistrations = 0 then .error "unproven.max_registrations must be positive"
  else if ¬ (1 ≤ config.windowSecs.toNat ∧ config.windowSecs.toNat ≤ maxSecs) then
    .error ("unproven.window_secs must be from 1 to " ++ toString maxSecs)
  else
    let quota : Quota := ⟨config.maxRegistrations, Duration.fromSecs config.windowSecs.toNat⟩
    let remembered := quota.mostRemembered ttl
    if remembered > maxUnprovenRuns then
      .error ("unproven: at this rate up to " ++ toString remembered ++
        " runs would be remembered at once, and at most " ++ toString maxUnprovenRuns ++
        " are; lower max_registrations or lengthen window_secs")
    else .ok quota

/-- An accepted quota: it admits somebody, its window is not empty, and the windows that cover a
run's remembering hold no more runs than the registry's part. -/
theorem UnprovenConfig.quota_ok {config : UnprovenConfig} {ttl : Duration} {quota : Quota}
    (h : config.quota ttl = .ok quota) :
    0 < quota.max ∧ 0 < quota.window ∧ quota.mostRemembered ttl ≤ maxUnprovenRuns := by
  unfold UnprovenConfig.quota at h
  split at h
  · cases h
  · next hmax =>
      split at h
      · cases h
      · next hwindow =>
          dsimp only at h
          split at h
          · cases h
          · next hroom =>
              cases h
              refine ⟨Nat.pos_of_ne_zero hmax, ?_, Nat.not_lt.mp hroom⟩
              rw [not_not] at hwindow
              exact Nat.mul_pos hwindow.1 (by decide)

/-- Rounded up, a quotient covers what was divided. -/
private theorem le_divCeil_mul (a : Nat) {b : Nat} (hb : 0 < b) : a ≤ (a + (b - 1)) / b * b := by
  have hdiv := Nat.lt_div_mul_add (a := a + (b - 1)) hb
  omega

/-- As long as it does not saturate, `most_remembered` is a number of windows that cover the time a
run is remembered, times the quota. -/
theorem Quota.mostRemembered_cover {quota : Quota} {ttl : Duration} (hwindow : 0 < quota.window)
    (hmax : 0 < quota.max) (h : quota.mostRemembered ttl ≤ maxUnprovenRuns) :
    ∃ n, ttl + retention ≤ n * quota.window ∧ quota.mostRemembered ttl = n * quota.max := by
  have hw : Nat.max quota.window 1 = quota.window := Nat.max_eq_left hwindow
  have hlimit : maxUnprovenRuns < usizeMax := by decide
  refine ⟨(ttl + retention + (quota.window - 1)) / quota.window,
    le_divCeil_mul (ttl + retention) hwindow, ?_⟩
  · unfold Quota.mostRemembered at h ⊢
    dsimp only at h ⊢
    rw [hw] at h ⊢
    generalize (ttl + retention + (quota.window - 1)) / quota.window = n at *
    by_cases hn : n ≤ usizeMax
    · rw [if_pos hn] at h ⊢
      rcases Nat.le_total (n * quota.max) usizeMax with hle | hle
      · exact Nat.min_eq_left hle
      · rw [Nat.min_eq_right hle] at h
        omega
    · -- more windows than `usize` holds would not have been accepted
      rw [if_neg hn, Nat.min_eq_right (Nat.le_mul_of_pos_right usizeMax hmax)] at h
      omega

namespace Runs

variable {H : Type} [DecidableEq H] {hash : Bytes → H}

/-- A call registers without proof only within `quota`, for `ttl`. -/
def Call.UsesQuotaFor (quota : Quota) (ttl : Duration) (call : Call) : Prop :=
  match call.op with
  | .registerUnproven _ limits q _ _ => q = quota ∧ limits.ttl = ttl
  | _ => True

theorem Call.UsesQuotaFor.usesQuota {quota : Quota} {ttl : Duration} {call : Call}
    (h : call.UsesQuotaFor quota ttl) : call.UsesQuota quota := by
  unfold Call.UsesQuotaFor at h
  unfold Call.UsesQuota
  split
  · next hop =>
      rw [hop] at h
      exact h.1
  · trivial

/-- Whoever such a call registers without proof lasts `ttl`. -/
theorem ttl_of_granted {quota : Quota} {ttl : Duration} {s : State H} {call : Call}
    (h : call.UsesQuotaFor quota ttl) {reg : Registration}
    (hgranted : granted hash s call = some reg)
    (hkey : reg.key.isUnproven = true) : reg.limits.ttl = ttl := by
  obtain ⟨now, op⟩ := call
  cases op with
  | register identity limits random unix =>
      rw [granted_register] at hgranted
      split at hgranted
      · cases hgranted
      · split at hgranted
        · cases hgranted
        · cases hgranted
          cases hkey
  | registerUnproven name limits q random unix =>
      rw [granted_registerUnproven] at hgranted
      split at hgranted
      · cases hgranted
      · cases hgranted
        exact h.2
  | authenticate token => cases hgranted
  | record key => cases hgranted
  | finish key unix => cases hgranted
  | admitRequest key => cases hgranted
  | settle key outcome => cases hgranted

theorem alive_iff {ttl : Duration} {reg : Registration} (h : reg.limits.ttl = ttl) (now : Instant) :
    reg.alive now = true ↔ now < reg.time + (ttl + retention) := by
  unfold Registration.alive
  generalize retention = r
  rw [decide_eq_true_eq, h, Nat.add_assoc]

/-- The runs remembered without proof are counted by the times they registered at. -/
theorem countKeys_isUnproven {quota : Quota} {ttl : Duration} {calls : List Call}
    (h : NonDecreasing calls) (hquota : ∀ call ∈ calls, call.UsesQuotaFor quota ttl)
    {now : Instant} (hle : ∀ call ∈ calls, call.now ≤ now) :
    (((machine hash).run calls).prune now).runs.countKeys RunKey.isUnproven =
      (unprovenTimes (grants hash ((machine hash).trace calls))).countP
        (fun t => decide (now < t + (ttl + retention))) := by
  rw [(remembers_run hash h).countKeys_prune (trace_now_le hle), unprovenTimes, List.countP_map,
    List.countP_filter]
  apply List.countP_congr
  intro reg hreg
  rw [Bool.and_comm, Bool.and_eq_true, Bool.and_eq_true, Function.comp, decide_eq_true_eq]
  refine and_congr_left fun hkey => alive_iff ?_ now
  obtain ⟨e, he, hgranted⟩ := List.mem_filterMap.mp hreg
  exact ttl_of_granted (hquota e.2 ((machine hash).mem_of_mem_trace he)) hgranted hkey

/-- What an accepted quota is promised over a list of calls. -/
structure RoomForQuota (hash : Bytes → H) (quota : Quota) (ttl : Duration) (calls : List Call) :
    Prop where
  /-- At no moment are more runs without proof remembered than was computed. -/
  remembered_le : ∀ now, (∀ call ∈ calls, call.now ≤ now) →
    (((machine hash).run calls).prune now).runs.countKeys RunKey.isUnproven ≤
      quota.mostRemembered ttl
  /-- A registration that gets past the quota finds the registry's part for it free. -/
  room : ∀ name now, (∀ call ∈ calls, call.now ≤ now) →
    ¬ Remembered ((machine hash).run calls) (.unproven name) now →
    (inWindow quota now ((machine hash).run calls).unproven).length < quota.max →
      (((machine hash).run calls).prune now).runs.countKeys RunKey.isUnproven < maxUnprovenRuns
  /-- So only registrations with proof can fill the registry. -/
  full : ∀ name limits random unix now, (∀ call ∈ calls, call.now ≤ now) →
    (registerUnproven hash ((machine hash).run calls) name limits quota random unix now).2 =
        .error .full →
      maxRuns - maxUnprovenRuns <
        (((machine hash).run calls).prune now).runs.countKeys (fun k => !k.isUnproven)

/-- **An accepted quota never finds its part of the registry full.** -/
theorem room_for_quota (hash : Bytes → H) (config : UnprovenConfig) (quota : Quota) (ttl : Duration)
    (calls : List Call) (hconfig : config.quota ttl = .ok quota) (h : NonDecreasing calls)
    (hquota : ∀ call ∈ calls, call.UsesQuotaFor quota ttl) :
    RoomForQuota hash quota ttl calls := by
  obtain ⟨hmax, hwindow, haccepted⟩ := UnprovenConfig.quota_ok hconfig
  obtain ⟨n, hcover, hmost⟩ := Quota.mostRemembered_cover hwindow hmax haccepted
  have hf := follows_run hash h fun call hc => (hquota call hc).usesQuota
  have hroom : ∀ now, (∀ call ∈ calls, call.now ≤ now) →
      (inWindow quota now ((machine hash).run calls).unproven).length < quota.max →
        (((machine hash).run calls).prune now).runs.countKeys RunKey.isUnproven <
          maxUnprovenRuns := by
    intro now hle hlength
    have htimes : ∀ t ∈ unprovenTimes (grants hash ((machine hash).trace calls)), t ≤ now :=
      fun t => le_of_mem_unprovenTimes (trace_now_le hle)
    rw [(hf.inWindow (trace_now_le hle)).2] at hlength
    -- one more at `now` would still be within the quota
    have htimes' : ∀ t ∈ unprovenTimes (grants hash ((machine hash).trace calls)) ++ [now],
        t ≤ now := by
      intro t ht
      rcases List.mem_append.mp ht with ht | ht
      · exact htimes t ht
      · exact (List.mem_singleton.mp ht).le
    have hspan := (hf.admitted.concat htimes hlength).countP_span_le htimes' hcover
    rw [List.countP_append, List.countP_singleton, if_pos (decide_eq_true ?_),
      ← countKeys_isUnproven h hquota hle] at hspan
    · exact Nat.lt_of_succ_le (hspan.trans (hmost ▸ haccepted))
    · exact Nat.lt_add_of_pos_right (Nat.add_pos_right ttl (by decide))
  refine ⟨?_, fun name now hle _ hlength => hroom now hle hlength, ?_⟩
  · intro now hle
    rw [countKeys_isUnproven h hquota hle, hmost]
    exact hf.admitted.countP_span_le (fun t => le_of_mem_unprovenTimes (trace_now_le hle)) hcover
  · intro name limits random unix now hle hfull
    rw [registerUnproven_eq_error] at hfull
    unfold State.refusal at hfull
    split at hfull
    · cases hfull
    · split at hfull
      · cases hfull
      · next hlength =>
          have hkept := hroom now hle (Nat.not_le.mp hlength)
          split at hfull
          · next hboth =>
              have hpart : maxUnprovenRuns ≤ maxRuns := by decide
              rw [Assoc.size_eq_add RunKey.isUnproven] at hboth
              omega
          · cases hfull

/-- Two an hour for runs of six hours: a name taken twice, a third caller within the hour, and the
first two again once their runs are forgotten. -/
def sixHourCalls : List Call :=
  let limits : Limits := ⟨Duration.fromSecs 21600, 2⟩
  let quota : Quota := ⟨2, Duration.fromSecs 3600⟩
  let late := Duration.fromSecs 21600 + retention + 5
  [⟨0, .registerUnproven ⟨"a", rfl⟩ limits quota (sampleDraw 0) 0⟩,
    ⟨1, .registerUnproven ⟨"a", rfl⟩ limits quota (sampleDraw 1) 0⟩,
    ⟨2, .registerUnproven ⟨"b", rfl⟩ limits quota (sampleDraw 2) 0⟩,
    ⟨3, .registerUnproven ⟨"c", rfl⟩ limits quota (sampleDraw 3) 0⟩,
    ⟨late, .registerUnproven ⟨"a", rfl⟩ limits quota (sampleDraw 4) 0⟩,
    ⟨late, .registerUnproven ⟨"b", rfl⟩ limits quota (sampleDraw 5) 0⟩]

/-- That is a quota that is accepted, and keeps its promise: the second and the fourth call are
refused, and the last two find room. -/
theorem room_for_quota_sample :
    (UnprovenConfig.mk 2 3600).quota (Duration.fromSecs 21600) =
        .ok ⟨2, Duration.fromSecs 3600⟩ ∧
      (grants id ((machine id).trace sixHourCalls)).map Registration.key =
        [.unproven ⟨"a", rfl⟩, .unproven ⟨"b", rfl⟩, .unproven ⟨"a", rfl⟩, .unproven ⟨"b", rfl⟩] ∧
      RoomForQuota id ⟨2, Duration.fromSecs 3600⟩ (Duration.fromSecs 21600) sixHourCalls := by
  have hconfig : (UnprovenConfig.mk 2 3600).quota (Duration.fromSecs 21600) =
      .ok ⟨2, Duration.fromSecs 3600⟩ := by decide +kernel
  have hgrants : (grants id ((machine id).trace sixHourCalls)).map Registration.key =
      [.unproven ⟨"a", rfl⟩, .unproven ⟨"b", rfl⟩, .unproven ⟨"a", rfl⟩, .unproven ⟨"b", rfl⟩] := by
    decide +kernel
  have hquota : ∀ call ∈ sixHourCalls,
      call.UsesQuotaFor ⟨2, Duration.fromSecs 3600⟩ (Duration.fromSecs 21600) := by
    intro call hcall
    simp only [sixHourCalls, List.mem_cons, List.not_mem_nil, or_false] at hcall
    rcases hcall with rfl | rfl | rfl | rfl | rfl | rfl <;> exact ⟨rfl, rfl⟩
  have hordered : NonDecreasing sixHourCalls := by
    unfold NonDecreasing
    decide +kernel
  exact ⟨hconfig, hgrants, room_for_quota id _ _ _ sixHourCalls hconfig hordered hquota⟩

end Runs

end CredentialBroker
