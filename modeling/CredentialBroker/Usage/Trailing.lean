import CredentialBroker.Usage.Registry
import CredentialBroker.Util.RollingSum
import Mathlib.Algebra.Order.BigOperators.Group.List

/-!
# A week's spend is the exact trailing sum

`Week.add` and `Week.sum` are a rolling sum of tallies, with a bucket an hour: tallies add up
component by component, saturating, and so are a commutative monoid. `pairs_add` and `sum_pairs`
say that, and the week's promise is read off the rolling sum's. A charge counts at `effective`
hours: a clock that steps back charges the latest hour.
-/

namespace CredentialBroker

/-! ## Tallies add up -/

instance Tally.instAdd : Add Tally := ⟨Tally.add⟩

instance Tally.instZero : Zero Tally := ⟨{}⟩

instance Tally.addCommMonoid : AddCommMonoid Tally where
  add_assoc a b c := by
    show (a.add b).add c = a.add (b.add c)
    simp only [Tally.add, UInt64.satAdd_assoc]
  zero_add a := by
    show Tally.add {} a = a
    simp only [Tally.add, UInt64.satAdd_comm 0, UInt64.satAdd_zero]
  add_zero a := by
    show Tally.add a {} = a
    simp only [Tally.add, UInt64.satAdd_zero]
  add_comm a b := by
    show a.add b = b.add a
    simp only [Tally.add, UInt64.satAdd_comm]
  nsmul := nsmulRec

theorem Tally.add_eq (a b : Tally) : a + b = a.add b := rfl

/-- What one charge adds. -/
def Charge.tally (charge : Charge) : Tally := Tally.charge {} charge

theorem Tally.charge_eq (tally : Tally) (charge : Charge) :
    tally.charge charge = tally + charge.tally := by
  rw [Tally.add_eq]
  cases charge <;>
    simp [Tally.charge, Charge.tally, Tally.add, UInt64.satAdd_comm 0]

/-- A sum that stops at the largest value. -/
def satSum (amounts : List Nat) : Nat := min amounts.sum UInt64.maxVal

/-- A component of a sum of tallies is the saturating sum of the component. -/
private theorem toNat_sum {component : Tally → UInt64} (hzero : component 0 = 0)
    (hadd : ∀ a b, component (a + b) = (component a).satAdd (component b)) (tallies : List Tally) :
    (component tallies.sum).toNat = satSum (tallies.map fun tally => (component tally).toNat) := by
  unfold satSum
  induction tallies with
  | nil =>
      rw [List.sum_nil, hzero]
      rfl
  | cons tally tallies ih =>
      rw [List.sum_cons, hadd, UInt64.toNat_satAdd, ih, List.map_cons, List.sum_cons]
      omega

theorem Tally.toNat_micros_sum (tallies : List Tally) :
    tallies.sum.micros.toNat = satSum (tallies.map fun tally => tally.micros.toNat) :=
  toNat_sum rfl (fun _ _ => rfl) tallies

theorem Tally.toNat_unpriced_sum (tallies : List Tally) :
    tallies.sum.unpriced.toNat = satSum (tallies.map fun tally => tally.unpriced.toNat) :=
  toNat_sum rfl (fun _ _ => rfl) tallies

theorem Tally.toNat_unmetered_sum (tallies : List Tally) :
    tallies.sum.unmetered.toNat = satSum (tallies.map fun tally => tally.unmetered.toNat) :=
  toNat_sum rfl (fun _ _ => rfl) tallies

/-- Of fewer amounts the sum is no more. -/
theorem satSum_le_of_sublist {amounts amounts' : List Nat} (h : amounts.Sublist amounts') :
    satSum amounts ≤ satSum amounts' := by
  have hle : amounts.sum ≤ amounts'.sum := h.sum_le_sum fun _ _ => Nat.zero_le _
  unfold satSum
  omega

/-! ## A week is a rolling sum -/

namespace Week

/-- The buckets as pairs. -/
def pairs (week : Week) : List (Nat × Tally) := week.map fun bucket => (bucket.hour, bucket.tally)

theorem pairs_expire (week : Week) (hour : Nat) :
    (week.expire hour).pairs = RollingSum.expire spendHours hour week.pairs := by
  unfold expire pairs RollingSum.expire
  rw [List.dropWhile_map]
  rfl

/-- **Refinement.** A charge is an addition of its tally. -/
theorem pairs_add (week : Week) (hour : Nat) (charge : Charge) :
    (week.add hour charge).pairs = RollingSum.add spendHours hour charge.tally week.pairs := by
  unfold add RollingSum.add
  rw [← pairs_expire]
  dsimp only
  have hlast : (week.expire hour).pairs.getLast? =
      (week.expire hour).getLast?.map (fun bucket => (bucket.hour, bucket.tally)) :=
    List.getLast?_map
  rw [hlast]
  cases (week.expire hour).getLast? with
  | none => simp [pairs, Charge.tally]
  | some last =>
      dsimp only [Option.map_some]
      split
      · simp [pairs, Tally.charge_eq, List.map_dropLast]
      · simp [pairs, Charge.tally]

/-- The tallies that are in the week ending with `hour`. -/
def tallies (week : Week) (hour : Nat) : List Tally :=
  (week.filter fun bucket => decide (hour < bucket.hour + spendHours)).map Bucket.tally

theorem sum_eq_tallies (week : Week) (hour : Nat) : week.sum hour = (week.tallies hour).sum := by
  unfold tallies
  rw [List.sum_eq_foldl, List.foldl_map]
  rfl

theorem sum_pairs (week : Week) (hour : Nat) :
    week.sum hour = RollingSum.sum spendHours hour week.pairs := by
  rw [sum_eq_tallies]
  unfold tallies RollingSum.sum pairs
  rw [List.filter_map, List.map_map]
  rfl

/-- A week after a list of charges, each with the hour it came at. -/
def charged (charges : List (Nat × Charge)) : Week :=
  charges.foldl (fun week charge => week.add charge.1 charge.2) []

theorem pairs_charged (charges : List (Nat × Charge)) :
    (charged charges).pairs =
      RollingSum.run spendHours (charges.map fun charge => (charge.1, charge.2.tally)) := by
  unfold charged RollingSum.run
  rw [List.foldl_map]
  exact (List.foldl_hom pairs fun week charge => (pairs_add week charge.1 charge.2).symm).symm

end Week

/-! ## What a week promises -/

/-- Millionths of a USD, and the responses without a price or without usage, of one charge. -/
def Charge.micros : Charge → Nat
  | priced micros => micros.toNat
  | _ => 0

def Charge.unpricedCount : Charge → Nat
  | unpriced => 1
  | _ => 0

def Charge.unmeteredCount : Charge → Nat
  | unmetered => 1
  | _ => 0

namespace Charge

variable (charge : Charge)

theorem toNat_micros_tally : charge.tally.micros.toNat = charge.micros := by
  cases charge <;> simp [tally, Tally.charge, micros, UInt64.satAdd_comm 0]

theorem toNat_unpriced_tally : charge.tally.unpriced.toNat = charge.unpricedCount := by
  cases charge <;> simp [tally, Tally.charge, unpricedCount, UInt64.satAdd_comm 0]

theorem toNat_unmetered_tally : charge.tally.unmetered.toNat = charge.unmeteredCount := by
  cases charge <;> simp [tally, Tally.charge, unmeteredCount, UInt64.satAdd_comm 0]

end Charge

/-- The charges that count in the week ending with `hour`. -/
def counted (charges : List (Nat × Charge)) (hour : Nat) : List Charge :=
  ((RollingSum.effective 0 charges).filter
    (fun charge => decide (hour < charge.1 + spendHours))).map Prod.snd

/-- Nothing of one tally is more than of another. -/
structure Tally.Le (a b : Tally) : Prop where
  micros : a.micros ≤ b.micros
  unpriced : a.unpriced ≤ b.unpriced
  unmetered : a.unmetered ≤ b.unmetered

/-- The sum of a week only falls as time goes on. -/
theorem Week.sum_le (week : Week) {hour hour' : Nat} (h : hour ≤ hour') :
    (week.sum hour').Le (week.sum hour) := by
  have hsublist : (week.tallies hour').Sublist (week.tallies hour) := by
    apply List.Sublist.map
    apply List.monotone_filter_right
    intro bucket hin
    rw [decide_eq_true_eq] at hin ⊢
    exact h.trans_lt hin
  rw [sum_eq_tallies, sum_eq_tallies]
  refine ⟨?_, ?_, ?_⟩
  · rw [UInt64.le_iff_toNat_le, Tally.toNat_micros_sum, Tally.toNat_micros_sum]
    exact satSum_le_of_sublist (hsublist.map _)
  · rw [UInt64.le_iff_toNat_le, Tally.toNat_unpriced_sum, Tally.toNat_unpriced_sum]
    exact satSum_le_of_sublist (hsublist.map _)
  · rw [UInt64.le_iff_toNat_le, Tally.toNat_unmetered_sum, Tally.toNat_unmetered_sum]
    exact satSum_le_of_sublist (hsublist.map _)

/-- The sum of a week is that of the charges that count in it. -/
theorem Week.sum_charged {charges : List (Nat × Charge)} {hour : Nat}
    (h : ∀ charge ∈ charges, charge.1 ≤ hour) :
    (Week.charged charges).sum hour = ((counted charges hour).map Charge.tally).sum := by
  have hk := RollingSum.keeps_run (w := spendHours) (by decide)
    (charges.map fun charge => (charge.1, charge.2.tally))
  have hlatest : RollingSum.latest 0 (charges.map fun charge => (charge.1, charge.2.tally)) ≤
      hour := by
    apply RollingSum.latest_le (Nat.zero_le hour)
    intro entry hentry
    obtain ⟨charge, hcharge, rfl⟩ := List.mem_map.mp hentry
    exact h charge hcharge
  rw [sum_pairs, pairs_charged, hk.sum_eq hour hlatest, RollingSum.effective_map]
  unfold RollingSum.sum counted
  rw [List.filter_map, List.map_map, List.map_map]
  rfl

/-- What a week owes the charges it was given. -/
structure TrailingWeek (charges : List (Nat × Charge)) : Prop where
  /-- The hours of its buckets increase. -/
  ordered : (Week.charged charges).Pairwise (fun a b => a.hour < b.hour)
  /-- There are no more buckets than hours in a week. -/
  length_le : (Week.charged charges).length ≤ spendHours
  /-- From the latest hour on, the sum is of what counts, of all of it and once. -/
  sum_eq : ∀ hour, (∀ charge ∈ charges, charge.1 ≤ hour) →
    ((Week.charged charges).sum hour).micros.toNat =
        satSum ((counted charges hour).map Charge.micros) ∧
      ((Week.charged charges).sum hour).unpriced.toNat =
        satSum ((counted charges hour).map Charge.unpricedCount) ∧
      ((Week.charged charges).sum hour).unmetered.toNat =
        satSum ((counted charges hour).map Charge.unmeteredCount)
  /-- And it only falls as time goes on. -/
  falls : ∀ hour hour', hour ≤ hour' →
    ((Week.charged charges).sum hour').Le ((Week.charged charges).sum hour)

/-- **A week's spend is the exact trailing sum**, whatever hours its charges come at. -/
theorem trailing_week (charges : List (Nat × Charge)) : TrailingWeek charges := by
  have hk := RollingSum.keeps_run (w := spendHours) (by decide)
    (charges.map fun charge => (charge.1, charge.2.tally))
  rw [← Week.pairs_charged] at hk
  refine ⟨?_, ?_, ?_, ?_⟩
  · have hordered := hk.ordered
    rwa [Week.pairs, List.pairwise_map] at hordered
  · have hlength := hk.length_le
    rwa [Week.pairs, List.length_map] at hlength
  · intro hour hhour
    rw [Week.sum_charged hhour, Tally.toNat_micros_sum, Tally.toNat_unpriced_sum,
      Tally.toNat_unmetered_sum, List.map_map, List.map_map, List.map_map]
    refine ⟨congrArg satSum (List.map_congr_left fun charge _ => ?_),
      congrArg satSum (List.map_congr_left fun charge _ => ?_),
      congrArg satSum (List.map_congr_left fun charge _ => ?_)⟩
    · exact charge.toNat_micros_tally
    · exact charge.toNat_unpriced_tally
    · exact charge.toNat_unmetered_tally
  · intro hour hour' hle
    exact (Week.charged charges).sum_le hle

end CredentialBroker
