import CredentialBroker.Prices.Snapshots
import Mathlib.Tactic.Positivity

/-!
# More use never costs less

The cost of a usage is linear in its tokens but for two things: cache writes are part of the input
and never more than it, and past a threshold the whole prompt is at other rates. It is monotone all
the same because of how the table's rates stand to each other: a write costs no less than plain
input, and the rates of long prompts are no lower than the others. `Rates.InOrder` and
`Price.InOrder` say so, and every price of the table is in order.
-/

namespace CredentialBroker

/-! ## Rates -/

/-- No rate is negative, and a cache write costs no less than input. -/
structure Rates.InOrder (rates : Rates) : Prop where
  input : 0 ≤ rates.input
  cacheRead : 0 ≤ rates.cacheRead
  cacheWrite : rates.input ≤ rates.cacheWrite
  output : 0 ≤ rates.output

/-- Each rate is at most the other's. -/
structure Rates.Below (rates rates' : Rates) : Prop where
  input : rates.input ≤ rates'.input
  cacheRead : rates.cacheRead ≤ rates'.cacheRead
  cacheWrite : rates.cacheWrite ≤ rates'.cacheWrite
  output : rates.output ≤ rates'.output

/-- A usage of no fewer tokens of any kind. -/
structure Usage.Within (u v : Usage) : Prop where
  input : u.tokens.input ≤ v.tokens.input
  cacheRead : u.tokens.cacheRead ≤ v.tokens.cacheRead
  cacheWrite : u.cacheWrite ≤ v.cacheWrite
  output : u.tokens.output ≤ v.tokens.output

/-- The cache writes that are counted: no more than the uncached input. -/
def Usage.written (usage : Usage) : UInt64 := min usage.cacheWrite usage.tokens.input

namespace Usage

theorem toNat_written (usage : Usage) :
    usage.written.toNat = min usage.cacheWrite.toNat usage.tokens.input.toNat :=
  UInt64.toNat_min _ _

theorem written_le (usage : Usage) : usage.written ≤ usage.tokens.input := by
  rw [UInt64.le_iff_toNat_le, toNat_written]
  exact Nat.min_le_right _ _

/-- What is not written is what is left of the input. -/
theorem toNat_unwritten (usage : Usage) :
    (usage.tokens.input - usage.written).toNat + usage.written.toNat =
      usage.tokens.input.toNat := by
  have hle := UInt64.le_iff_toNat_le.mp usage.written_le
  rw [UInt64.toNat_sub_of_le _ _ usage.written_le]
  exact Nat.sub_add_cancel hle

theorem Within.written {u v : Usage} (h : u.Within v) : u.written.toNat ≤ v.written.toNat := by
  rw [toNat_written, toNat_written]
  exact min_le_min (UInt64.le_iff_toNat_le.mp h.cacheWrite) (UInt64.le_iff_toNat_le.mp h.input)

end Usage

/-- All input at its rate, and of what is written the difference on top. -/
theorem Rates.micros_eq (rates : Rates) (usage : Usage) :
    rates.micros usage =
      usage.tokens.input.toNat * rates.input +
        usage.written.toNat * (rates.cacheWrite - rates.input) +
        usage.tokens.cacheRead.toNat * rates.cacheRead +
        usage.tokens.output.toNat * rates.output := by
  have hsplit : (usage.tokens.input.toNat : ℚ) =
      (usage.tokens.input - usage.written).toNat + usage.written.toNat := by
    rw [← usage.toNat_unwritten]
    push_cast
    rfl
  rw [hsplit]
  show ((usage.tokens.input - usage.written).toNat : ℚ) * rates.input +
    usage.written.toNat * rates.cacheWrite + usage.tokens.cacheRead.toNat * rates.cacheRead +
      usage.tokens.output.toNat * rates.output = _
  ring

/-- At rates in order, more tokens cost more. -/
theorem Rates.InOrder.micros_le {rates : Rates} (h : rates.InOrder) {u v : Usage}
    (hwithin : u.Within v) : rates.micros u ≤ rates.micros v := by
  have hinput := UInt64.le_iff_toNat_le.mp hwithin.input
  have hcacheRead := UInt64.le_iff_toNat_le.mp hwithin.cacheRead
  have houtput := UInt64.le_iff_toNat_le.mp hwithin.output
  have hwritten := hwithin.written
  have hextra : 0 ≤ rates.cacheWrite - rates.input := sub_nonneg.mpr h.cacheWrite
  have hrate := h.input
  have hread := h.cacheRead
  have hout := h.output
  rw [rates.micros_eq, rates.micros_eq]
  gcongr

/-- Higher rates cost more. -/
theorem Rates.Below.micros_le {rates rates' : Rates} (h : rates.Below rates') (usage : Usage) :
    rates.micros usage ≤ rates'.micros usage := by
  obtain ⟨hinput, hcacheRead, hcacheWrite, houtput⟩ := h
  unfold Rates.micros
  dsimp only
  gcongr

/-! ## The table -/

/-- A price's rates are in order, and those of long prompts are no lower. -/
structure Price.InOrder (price : Price) : Prop where
  rates : price.rates.InOrder
  long : ∀ above long, price.long = some (above, long) → long.InOrder ∧ price.rates.Below long

theorem Rates.inOrder_iff {rates : Rates} :
    rates.InOrder ↔ 0 ≤ rates.input ∧ 0 ≤ rates.cacheRead ∧ rates.input ≤ rates.cacheWrite ∧
      0 ≤ rates.output :=
  ⟨fun ⟨hi, hr, hw, ho⟩ => ⟨hi, hr, hw, ho⟩, fun ⟨hi, hr, hw, ho⟩ => ⟨hi, hr, hw, ho⟩⟩

theorem Rates.below_iff {rates rates' : Rates} :
    rates.Below rates' ↔ rates.input ≤ rates'.input ∧ rates.cacheRead ≤ rates'.cacheRead ∧
      rates.cacheWrite ≤ rates'.cacheWrite ∧ rates.output ≤ rates'.output :=
  ⟨fun ⟨hi, hr, hw, ho⟩ => ⟨hi, hr, hw, ho⟩, fun ⟨hi, hr, hw, ho⟩ => ⟨hi, hr, hw, ho⟩⟩

theorem Price.inOrder_iff {price : Price} :
    price.InOrder ↔ price.rates.InOrder ∧
      ∀ long ∈ price.long, long.2.InOrder ∧ price.rates.Below long.2 := by
  constructor
  · rintro ⟨hrates, hlong⟩
    exact ⟨hrates, fun long hmem => hlong long.1 long.2 hmem⟩
  · rintro ⟨hrates, hlong⟩
    exact ⟨hrates, fun above long hmem => hlong (above, long) hmem⟩

instance decidableInOrder (rates : Rates) : Decidable rates.InOrder :=
  decidable_of_iff' _ Rates.inOrder_iff

instance decidableBelow (rates rates' : Rates) : Decidable (rates.Below rates') :=
  decidable_of_iff' _ Rates.below_iff

instance Price.decidableInOrder (price : Price) : Decidable price.InOrder :=
  decidable_of_iff' _ Price.inOrder_iff

/-- **Every price of the table is in order.** -/
theorem inOrder_table : ∀ price ∈ Price.table, price.InOrder := by
  decide +kernel

/-- The rates for any prompt are in order. -/
theorem Price.InOrder.ratesFor {price : Price} (h : price.InOrder) (prompt : UInt64) :
    (price.ratesFor prompt).InOrder := by
  unfold Price.ratesFor
  split
  · next above long hlong =>
      split
      · exact (h.long above long hlong).1
      · exact h.rates
  · exact h.rates

theorem Rates.Below.refl (rates : Rates) : rates.Below rates :=
  ⟨le_rfl, le_rfl, le_rfl, le_rfl⟩

/-- The rates for a longer prompt are no lower. -/
theorem Price.InOrder.below {price : Price} (h : price.InOrder) {prompt prompt' : UInt64}
    (hle : prompt ≤ prompt') : (price.ratesFor prompt).Below (price.ratesFor prompt') := by
  unfold Price.ratesFor
  split
  · next above long hlong =>
      by_cases hshort : above < prompt
      · rw [if_pos hshort, if_pos (UInt64.lt_of_lt_of_le hshort hle)]
        exact .refl long
      · rw [if_neg hshort]
        split
        · exact (h.long above long hlong).2
        · exact .refl price.rates
  · exact .refl price.rates

/-! ## Costs -/

theorem Price.mem_table {model : Bytes} {price : Price} (h : Price.ofModel model = some price) :
    price ∈ Price.table := by
  unfold Price.ofModel at h
  split at h
  · next found hfound =>
      cases h
      exact List.mem_of_find?_eq_some hfound
  · obtain ⟨name, -, hfound⟩ := Option.bind_eq_some_iff.mp h
    exact List.mem_of_find?_eq_some hfound

theorem roundMicros_le {micros micros' : ℚ} (h : micros ≤ micros') :
    roundMicros micros ≤ roundMicros micros' := by
  unfold roundMicros
  rw [UInt64.le_iff_toNat_le, UInt64.toNat_ofNat_of_le (min_le_right _ _),
    UInt64.toNat_ofNat_of_le (min_le_right _ _)]
  apply min_le_min_right
  apply Int.toNat_le_toNat
  gcongr

/-- At one price, as many tokens or more cost as much or more. -/
theorem Price.InOrder.cost_le {price : Price} (h : price.InOrder) {u v : Usage}
    (hwithin : u.Within v) :
    (price.ratesFor (u.tokens.input.satAdd u.tokens.cacheRead)).micros u ≤
      (price.ratesFor (v.tokens.input.satAdd v.tokens.cacheRead)).micros v := by
  have hprompt : u.tokens.input.satAdd u.tokens.cacheRead ≤
      v.tokens.input.satAdd v.tokens.cacheRead :=
    UInt64.satAdd_le_satAdd hwithin.input hwithin.cacheRead
  calc (price.ratesFor (u.tokens.input.satAdd u.tokens.cacheRead)).micros u
      ≤ (price.ratesFor (v.tokens.input.satAdd v.tokens.cacheRead)).micros u :=
        (h.below hprompt).micros_le u
    _ ≤ (price.ratesFor (v.tokens.input.satAdd v.tokens.cacheRead)).micros v :=
        (h.ratesFor _).micros_le hwithin

/-- A name is priced if the table has it, or has it without its date. -/
def Priced (model : String) : Prop :=
  InTable model ∨ ∃ name, undated (utf8 model) = some (utf8 name) ∧ InTable name

theorem priced_iff {model : String} : Priced model ↔ Price.ofModel (utf8 model) ≠ none := by
  unfold Priced
  rw [Ne, ofModel_eq_none]
  simp only [undated_eq_some, not_and_or, not_forall, not_not, exists_prop]

theorem cost_eq_none {usage : Usage} :
    cost usage = none ↔ ∀ model, usage.model = some model → ¬ Priced model := by
  cases hmodel : usage.model with
  | none =>
      unfold cost
      rw [hmodel]
      simp
  | some model =>
      rw [cost_of_model hmodel, Option.map_eq_none_iff]
      simp [priced_iff]

/-- What is promised of list-price cost. -/
structure CostMonotone : Prop where
  /-- Of a model that is priced, more tokens of any kind cost as much or more. -/
  monotone : ∀ model u v, u.model = some model → v.model = some model → Priced model →
    u.Within v → ∃ micros micros', cost u = some micros ∧ cost v = some micros' ∧ micros ≤ micros'
  /-- What is subtracted from the input is no more than it. -/
  noUnderflow : ∀ usage : Usage, usage.written ≤ usage.tokens.input ∧
    (usage.tokens.input - usage.written).toNat + usage.written.toNat = usage.tokens.input.toNat
  /-- There is no cost exactly if no model is named, or one that is not priced. -/
  unpriced : ∀ usage, cost usage = none ↔ ∀ model, usage.model = some model → ¬ Priced model

/-- **List-price cost is monotone.** -/
theorem cost_monotone : CostMonotone where
  monotone := by
    intro model u v hu hv hpriced hwithin
    obtain ⟨price, hprice⟩ := Option.ne_none_iff_exists'.mp (priced_iff.mp hpriced)
    rw [cost_of_model hu, cost_of_model hv, hprice]
    refine ⟨_, _, rfl, rfl, roundMicros_le ?_⟩
    exact (inOrder_table price (Price.mem_table hprice)).cost_le hwithin
  noUnderflow := fun usage => ⟨usage.written_le, usage.toNat_unwritten⟩
  unpriced := fun _ => cost_eq_none

end CredentialBroker
