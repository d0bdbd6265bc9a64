import CredentialBroker.Usage.Attribution
import CredentialBroker.Budget.Grant

/-!
# The consumers together cannot pass their shares unnoticed

Three facts meet here: what two consumers have used of a window covers the account's reading of it
(`Sound.covers`), a grant holds when a fresh window is past its share's allowance (`hold_grant`),
and both allowances are the same fraction of the shares. If the reading is past that fraction of the
two shares together, one of the consumers is past its own.
-/

namespace CredentialBroker

/-- The fraction of its share that a consumer may have used of a window at `now`: paced for windows
longer than the short ones. -/
def Reading.pace (reading : Reading) (now : UInt64) : ℚ :=
  if fiveHours < reading.windowSecs then
    min 1 ((now.satSub (reading.resetsAt.satSub reading.windowSecs)).toNat /
      reading.windowSecs.toNat + 1 / 10)
  else 1

theorem Reading.pace_nonneg (reading : Reading) (now : UInt64) : 0 ≤ reading.pace now := by
  unfold Reading.pace
  split
  · exact le_min zero_le_one (by positivity)
  · exact zero_le_one

/-- A window that was observed recently enough, and not first read part-way used. -/
def Attributed.Fresh (window : Attributed) (now : UInt64) : Prop :=
  window.partWay = false ∧ now.satSub window.observedAt ≤ fiveHours

instance (window : Attributed) (now : UInt64) : Decidable (window.Fresh now) :=
  inferInstanceAs (Decidable (_ ∧ _))

/-- A fresh window that was never restored is read for a grant as what its consumer used of it. -/
theorem readWindow_fresh {window : Attributed} {now : UInt64} (h : window.Fresh now)
    (hrestored : window.restored = false) (hloaded : window.loadedAt = 0) (consumer : Consumer) :
    ∃ w, Budget.readWindow consumer window now = some w ∧ w.stale = false ∧
      w.usedPercent = window.used.get consumer ∧
      ∀ share, w.allowed share now = share * window.reading.pace now := by
  have hmax : max window.observedAt window.loadedAt = window.observedAt := by
    rw [hloaded]
    exact UInt64.max_zero _
  refine ⟨⟨window.used.get consumer, window.reading.resetsAt.satSub window.reading.windowSecs,
    window.reading.windowSecs, some window.reading.resetsAt,
    window.partWay || decide (fiveHours < now.satSub window.observedAt)⟩, ?_, ?_, rfl,
    fun share => ?_⟩
  · rw [Budget.readWindow, hrestored, hmax]
    rfl
  · dsimp only
    rw [h.1, Bool.false_or, decide_eq_false_iff_not, UInt64.not_lt]
    exact h.2
  · unfold Window.allowed Reading.pace lead
    dsimp only
    split
    · rw [min_comm]
    · rw [mul_one]

/-- A window of a registry is among those read of its pool. -/
theorem mem_read {usage : BrokerUsage} {budget : Budget} {consumer : Consumer} {now : UInt64}
    {mistral : Option MistralSpend} {index : Fin 4} {window : Attributed} {w : Window}
    (hw : usage.windows.attributed index = some window)
    (hread : Budget.readWindow consumer window now = some w) :
    ((windowNames index).2, w) ∈ budget.read consumer
      ((List.finRange 4).map fun index =>
        ((windowNames index).1, (windowNames index).2, usage.windows.attributed index))
      mistral now (windowNames index).1 := by
  unfold Budget.read
  refine List.mem_append_right _ (List.mem_filterMap.mpr ⟨_, List.mem_map.mpr
    ⟨index, List.mem_finRange index, rfl⟩, ?_⟩)
  dsimp only
  rw [if_pos rfl, hw, Option.bind_some, hread]
  rfl

/-- A consumer past its allowance of a fresh window holds. -/
theorem hold_of_lt {usage : BrokerUsage} {budget : Budget} {consumer : Consumer} {now : UInt64}
    {index : Fin 4} {window : Attributed} {share : ℚ} (hledgered : usage.windows.Ledgered)
    (hw : usage.windows.attributed index = some window) (hfresh : window.Fresh now)
    (hshare : budget.share consumer (windowNames index).1 = some share)
    (hover : share * window.reading.pace now < window.used.get consumer) :
    (usage.grantAt budget consumer now).hold = true := by
  obtain ⟨-, hrestored, hloaded⟩ := hledgered.fresh hw
  obtain ⟨w, hread, hstale, hused, hallowed⟩ :=
    readWindow_fresh hfresh hrestored hloaded consumer
  refine (Budget.hold_grant budget consumer _ _ now).mpr (Or.inr ⟨_, share, hshare, _,
    mem_read hw hread, Budget.holds_iff.mpr ⟨hstale, ?_⟩⟩)
  rw [hallowed, hused]
  exact hover

/-- What two consumers' grants notice of a registry. -/
structure Noticed (budget : Budget) (usage : BrokerUsage) : Prop where
  /-- A fresh reading past the paced part of both shares together holds one of them. -/
  shares : ∀ index now window a b, usage.windows.attributed index = some window →
    window.Fresh now → budget.share .pub (windowNames index).1 = some a →
    budget.share .priv (windowNames index).1 = some b →
    (a + b) * window.reading.pace now < window.reading.usedPercent →
      (usage.grantAt budget .pub now).hold = true ∨ (usage.grantAt budget .priv now).hold = true
  /-- So does one past the paced part of the whole. -/
  whole : ∀ index now window a b, usage.windows.attributed index = some window →
    window.Fresh now → budget.share .pub (windowNames index).1 = some a →
    budget.share .priv (windowNames index).1 = some b →
    100 * window.reading.pace now < window.reading.usedPercent →
      (usage.grantAt budget .pub now).hold = true ∨ (usage.grantAt budget .priv now).hold = true

/-- **The consumers together cannot pass their shares unnoticed.** -/
theorem noticed (fromYaml : String → Except String BudgetFile) (display : ℚ → String)
    (text : String) (budget : Budget) (hparse : Budget.parse fromYaml display text = .ok budget)
    (spend : Option Spend) (captures : List Capture) :
    Noticed budget ((BrokerUsage.mk {} spend).captures captures) := by
  have hledgered := ledgered_captures captures (ledgered_empty spend)
  obtain ⟨file, hcheck⟩ := Budget.check_of_parse hparse
  have hshares : ∀ index now window a b,
      ((BrokerUsage.mk {} spend).captures captures).windows.attributed index = some window →
      window.Fresh now → budget.share .pub (windowNames index).1 = some a →
      budget.share .priv (windowNames index).1 = some b →
      (a + b) * window.reading.pace now < window.reading.usedPercent →
        (((BrokerUsage.mk {} spend).captures captures).grantAt budget .pub now).hold = true ∨
          (((BrokerUsage.mk {} spend).captures captures).grantAt budget .priv now).hold = true := by
    intro index now window a b hw hfresh ha hb hover
    have hcovers := (hledgered.sound hw).covers
    by_cases hpub : a * window.reading.pace now < window.used.get .pub
    · exact Or.inl (hold_of_lt hledgered hw hfresh ha hpub)
    · refine Or.inr (hold_of_lt hledgered hw hfresh hb ?_)
      rw [add_mul] at hover
      linarith [not_lt.mp hpub]
  refine ⟨hshares, ?_⟩
  intro index now window a b hw hfresh ha hb hover
  have htotal := Budget.total_le_of_check hcheck (windowNames index).1 ha hb
  have hpace := window.reading.pace_nonneg now
  exact hshares index now window a b hw hfresh ha hb
    ((mul_le_mul_of_nonneg_right htotal hpace).trans_lt hover)

/-- Two fifths of each pool to each consumer, -/
def sampleBudgetFile : BudgetFile where
  shares _ := some fun pool => if pool = .mistral then none else some (.finite 40)
  mistralWeeklyUsd := none

/-- and the text that says so. -/
def sampleBudgetText : String :=
  "shares:\n  private:\n    anthropic: 40\n    codex: 40\n" ++
    "  public:\n    anthropic: 40\n    codex: 40\n"

/-- Reads that text. -/
def sampleBudgetYaml (text : String) : Except String BudgetFile :=
  if text = sampleBudgetText then .ok sampleBudgetFile else .error "missing field"

def sampleBudget : Budget := ⟨toShares sampleBudgetFile.shares, none⟩

/-- It is accepted. -/
theorem check_sampleBudgetFile : Budget.check sampleBudgetFile = .ok sampleBudget := by
  have hshares : (shareList sampleBudgetFile.shares).find?
      (fun share => (shareOf share.2).isNone) = none := by decide +kernel
  have htotals : Provider.all.filterMap (fun pool =>
      (poolTotal (toShares sampleBudgetFile.shares) pool).map (pool, ·)) =
        [(.anthropic, 80), (.codex, 80)] := by decide +kernel
  have hcap : sampleBudgetFile.mistralWeeklyUsd = none := rfl
  unfold Budget.check
  rw [hshares]
  dsimp only
  rw [htotals, hcap]
  rfl

theorem parse_sampleBudgetText :
    Budget.parse sampleBudgetYaml toString sampleBudgetText = .ok sampleBudget := by
  unfold Budget.parse sampleBudgetYaml
  rw [if_pos rfl]
  show (Budget.check sampleBudgetFile).mapError _ = _
  rw [check_sampleBudgetFile]
  rfl

/-- A short window first read unused, and then used up by the public consumer. -/
def sampleCaptures : List Capture :=
  [⟨.anthropic, .priv, [("anthropic-ratelimit-unified-5h-utilization", ascii "0"),
      ("anthropic-ratelimit-unified-5h-reset", ascii "9000")], 1000⟩,
    ⟨.anthropic, .pub, [("anthropic-ratelimit-unified-5h-utilization", ascii "1"),
      ("anthropic-ratelimit-unified-5h-reset", ascii "9000")], 2000⟩]

/-- The window used up, the public consumer is told to hold. -/
theorem noticed_sample :
    Budget.parse sampleBudgetYaml toString sampleBudgetText = .ok sampleBudget ∧
      ((((BrokerUsage.mk {} none).captures sampleCaptures).grantAt sampleBudget .pub 3000).hold =
          true ∨
        (((BrokerUsage.mk {} none).captures sampleCaptures).grantAt sampleBudget .priv 3000).hold =
          true) := by
  have hw : ((BrokerUsage.mk {} none).captures sampleCaptures).windows.attributed 0 =
      some ⟨⟨100, 9000, 18000⟩, 2000, false, false, 0, ⟨100, 0⟩⟩ := by decide +kernel
  refine ⟨parse_sampleBudgetText,
    (noticed _ _ _ _ parse_sampleBudgetText none sampleCaptures).shares 0 3000 _ 40 40 hw ?_ ?_ ?_ ?_⟩
  all_goals decide +kernel

end CredentialBroker
