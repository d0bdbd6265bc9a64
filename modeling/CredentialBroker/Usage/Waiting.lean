import CredentialBroker.Usage.Grants
import CredentialBroker.Usage.Trailing

/-!
# Waiting never starts a hold

Between two responses only time passes, and every part of a grant that depends on the time moves
towards release: what is allowed of a paced window grows, a window grows stale and so stops holding
more than its pool, a restored window is gone at its reset, and what Mistral's week sums to falls.
-/

namespace CredentialBroker

/-! ## What time does -/

/-- The part of a span of `secs` since `start` that is over, and the lead, grows. -/
private theorem elapsed_le {now now' : UInt64} (h : now ≤ now') (start secs : UInt64) :
    min 1 (((now.satSub start).toNat : ℚ) / secs.toNat + 1 / 10) ≤
      min 1 (((now'.satSub start).toNat : ℚ) / secs.toNat + 1 / 10) := by
  have hle : (now.satSub start).toNat ≤ (now'.satSub start).toNat := by
    rw [UInt64.toNat_satSub, UInt64.toNat_satSub]
    exact Nat.sub_le_sub_right (UInt64.le_iff_toNat_le.mp h) _
  gcongr

theorem Reading.pace_le (reading : Reading) {now now' : UInt64} (h : now ≤ now') :
    reading.pace now ≤ reading.pace now' := by
  unfold Reading.pace
  split
  · exact elapsed_le h _ _
  · exact le_rfl

theorem MistralSpend.pace_le (spend : MistralSpend) {now now' : UInt64} (h : now ≤ now') :
    spend.pace now ≤ spend.pace now' :=
  elapsed_le h _ _

namespace Attributed

variable {window : Attributed} {now now' : UInt64}

theorem Counts.of_le (h : window.Counts now') (hle : now ≤ now') : window.Counts now :=
  fun hrestored => UInt64.lt_of_le_of_lt hle (h hrestored)

theorem Stale.of_le (h : window.Stale now) (hle : now ≤ now') : window.Stale now' :=
  h.imp_right fun hold => hold.trans_le (UInt64.le_iff_toNat_le.mp hle)

/-- A window that is over its allowance was over a share of it all along. -/
theorem Over.of_le {consumer : Consumer} {share : ℚ} (h : window.Over consumer share now')
    (hle : now ≤ now') (hshare : 0 ≤ share) : window.Over consumer share now :=
  (mul_le_mul_of_nonneg_left (window.reading.pace_le hle) hshare).trans_lt h

end Attributed

/-! ## Grants over time -/

/-- What a grant reads of a consumer's spend on Mistral. -/
def Spend.mistralAt (spend : Spend) (consumer : Consumer) (now : UInt64) : MistralSpend :=
  ⟨((spend.mistral.get consumer).sum (now.toNat / 3600)).micros, spend.since⟩

/-- Spend over its allowance was over it all along. -/
theorem Spend.over_of_le {spend : Spend} {consumer : Consumer} {cap share : ℚ} {now now' : UInt64}
    (h : (spend.mistralAt consumer now').Over cap share now') (hle : now ≤ now')
    (hshare : 0 ≤ share) (hcap : 0 < cap) : (spend.mistralAt consumer now).Over cap share now := by
  have hhours : now.toNat / 3600 ≤ now'.toNat / 3600 :=
    Nat.div_le_div_right (UInt64.le_iff_toNat_le.mp hle)
  have hmicros : (spend.mistralAt consumer now').micros.toNat ≤
      (spend.mistralAt consumer now).micros.toNat :=
    UInt64.le_iff_toNat_le.mp ((spend.mistral.get consumer).sum_le hhours).micros
  calc share * (spend.mistralAt consumer now).pace now
      ≤ share * (spend.mistralAt consumer now').pace now' :=
        mul_le_mul_of_nonneg_left (MistralSpend.pace_le _ hle) hshare
    _ < (spend.mistralAt consumer now').micros.toNat / (cap * 1000000) * 100 := h
    _ ≤ (spend.mistralAt consumer now).micros.toNat / (cap * 1000000) * 100 := by gcongr

namespace BrokerUsage

/-- What holds a registry's grant. -/
theorem hold_grantAt {usage : BrokerUsage} {budget : Budget} {consumer : Consumer} {now : UInt64} :
    (usage.grantAt budget consumer now).hold = true ↔
      budget.shares consumer = none ∨
        (∃ share cap spend, budget.share consumer .mistral = some share ∧
          budget.mistralWeeklyUsd = some cap ∧ usage.spend = some spend ∧
          (spend.mistralAt consumer now).Over cap share now) ∨
        ∃ index window share, budget.share consumer (windowNames index).1 = some share ∧
          usage.windows.attributed index = some window ∧ window.Counts now ∧
          ¬ window.Stale now ∧ window.Over consumer share now := by
  have hwindows : ∀ (pool : Provider) (name : String) (window : Attributed),
      (pool, name, some window) ∈ ((List.finRange 4).map fun index =>
        ((windowNames index).1, (windowNames index).2, usage.windows.attributed index)) ↔
      ∃ index, (windowNames index).1 = pool ∧ (windowNames index).2 = name ∧
        usage.windows.attributed index = some window := by
    simp
  unfold grantAt
  rw [Budget.hold_grant_iff]
  simp only [hwindows]
  refine or_congr_right ?_
  constructor
  · rintro ⟨pool, share, hshare, ⟨cap, _, ⟨rfl, hcap, hspend⟩, hover⟩ |
      ⟨name, window, ⟨index, rfl, -, hw⟩, hrest⟩⟩
    · obtain ⟨spend, hsome, rfl⟩ := Option.map_eq_some_iff.mp hspend
      exact .inl ⟨share, cap, spend, hshare, hcap, hsome, hover⟩
    · exact .inr ⟨index, window, share, hshare, hw, hrest⟩
  · rintro (⟨share, cap, spend, hshare, hcap, hsome, hover⟩ |
      ⟨index, window, share, hshare, hw, hrest⟩)
    · refine ⟨_, share, hshare, .inl ⟨cap, _, ⟨rfl, hcap, ?_⟩, hover⟩⟩
      rw [hsome]
      rfl
    · exact ⟨_, share, hshare, .inr ⟨_, window, ⟨index, rfl, rfl, hw⟩, hrest⟩⟩

/-- What waiting does to a consumer's grant. -/
structure Releases (usage : BrokerUsage) (budget : Budget) (consumer : Consumer) : Prop where
  /-- A hold was there all along. -/
  hold_before : ∀ now now' : UInt64, now ≤ now' →
    (usage.grantAt budget consumer now').hold = true →
      (usage.grantAt budget consumer now).hold = true
  /-- And five hours after the last response, only spend or no shares at all hold. -/
  only_spend : ∀ now : UInt64, (∀ index window, usage.windows.attributed index = some window →
      window.observedAt.toNat + fiveHours.toNat < now.toNat ∧
        window.loadedAt.toNat + fiveHours.toNat < now.toNat) →
    (usage.grantAt budget consumer now).hold = true →
      budget.shares consumer = none ∨
        ∃ share cap spend, budget.share consumer .mistral = some share ∧
          budget.mistralWeeklyUsd = some cap ∧ usage.spend = some spend ∧
          (spend.mistralAt consumer now).Over cap share now

/-- **Waiting never starts a hold.** -/
theorem waiting_releases (fromYaml : String → Except String BudgetFile) (display : ℚ → String)
    (text : String) (budget : Budget) (hparse : Budget.parse fromYaml display text = .ok budget)
    (usage : BrokerUsage) (consumer : Consumer) : usage.Releases budget consumer := by
  obtain ⟨file, hcheck⟩ := Budget.check_of_parse hparse
  refine ⟨?_, ?_⟩
  · intro now now' hle hhold
    rw [hold_grantAt] at hhold ⊢
    refine hhold.imp_right (Or.imp ?_ ?_)
    · rintro ⟨share, cap, spend, hshare, hcap, hspend, hover⟩
      exact ⟨share, cap, spend, hshare, hcap, hspend, Spend.over_of_le hover hle
        (Budget.share_mem_of_check hcheck hshare).1 (Budget.cap_pos_of_check hcheck hcap)⟩
    · rintro ⟨index, window, share, hshare, hw, hcounts, hstale, hover⟩
      exact ⟨index, window, share, hshare, hw, hcounts.of_le hle,
        fun hbefore => hstale (hbefore.of_le hle),
        hover.of_le hle (Budget.share_mem_of_check hcheck hshare).1⟩
  · intro now hidle hhold
    refine (hold_grantAt.mp hhold).imp_right ?_
    rintro (hspend | ⟨index, window, share, -, hw, -, hstale, -⟩)
    · exact hspend
    · -- every window is stale by now
      obtain ⟨hobserved, hloaded⟩ := hidle index window hw
      refine absurd (.inr ?_) hstale
      rw [← max_add_add_right]
      exact max_lt hobserved hloaded

/-- The public consumer, which used up the short window, was held for it all along. -/
theorem waiting_releases_sample :
    (((BrokerUsage.mk {} none).captures sampleCaptures).grantAt sampleBudget .pub 4000).hold =
        true ∧
      (((BrokerUsage.mk {} none).captures sampleCaptures).grantAt sampleBudget .pub 3000).hold =
        true := by
  have hlater : (((BrokerUsage.mk {} none).captures sampleCaptures).grantAt sampleBudget .pub
      4000).hold = true := by decide +kernel
  exact ⟨hlater, (waiting_releases _ _ _ _ parse_sampleBudgetText _ .pub).hold_before 3000 4000
    (by decide) hlater⟩

end BrokerUsage

end CredentialBroker
