import Mathlib.Data.Rat.Floor
import Mathlib.Data.Int.Log
import Mathlib.Algebra.Order.Round
import Mathlib.Algebra.Ring.Parity
import Mathlib.Tactic.Linarith
import Mathlib.Tactic.Positivity
import Mathlib.Tactic.FieldSimp

/-!
# Sums and differences in binary64

A finite binary64 number is an integer of at most 53 bits, times a power of two that is at least
`2 ^ -1074`. `round` takes a rational to the nearest of those, and to the even one of two that are as
near. The exponent has no upper bound here, so nothing is said of sums that overflow.

* What is representable stays on its side of what it is compared with (`le_round`).
* A sum or a difference of two numbers is off by no more than its `2 ^ 53`th part
  (`F64.abs_add_sub_le`, `F64.abs_sub_sub_le`): it is never below the least exponent.
* `Within n x y` says that `x` is `y` up to `n` roundings.
-/

namespace Binary64

/-! ## The nearest integer -/

/-- The nearest integer, and the even one of two that are as near. -/
def nearest (q : ℚ) : ℤ :=
  if Int.fract q < 1 / 2 then ⌊q⌋
  else if 1 / 2 < Int.fract q then ⌊q⌋ + 1
  else if Even ⌊q⌋ then ⌊q⌋
  else ⌊q⌋ + 1

theorem nearest_eq_or (q : ℚ) : nearest q = ⌊q⌋ ∨ nearest q = ⌊q⌋ + 1 ∧ 0 < Int.fract q := by
  unfold nearest
  split
  · exact .inl rfl
  · next h =>
      have hpos : 0 < Int.fract q := by linarith
      split
      · exact .inr ⟨rfl, hpos⟩
      · split
        · exact .inl rfl
        · exact .inr ⟨rfl, hpos⟩

theorem le_nearest {n : ℤ} {q : ℚ} (h : n ≤ q) : n ≤ nearest q := by
  have hfloor := Int.le_floor.mpr h
  rcases nearest_eq_or q with heq | ⟨heq, -⟩ <;> omega

theorem nearest_le {n : ℤ} {q : ℚ} (h : q ≤ n) : nearest q ≤ n := by
  rcases nearest_eq_or q with heq | ⟨heq, hfract⟩
  · rw [heq]
    exact_mod_cast (Int.floor_le q).trans h
  · -- it lies strictly above its floor
    have hlt : (⌊q⌋ : ℚ) < n := by
      have hsplit := Int.floor_add_fract q
      linarith
    have hfloor : ⌊q⌋ < n := by exact_mod_cast hlt
    omega

@[simp] theorem nearest_intCast (n : ℤ) : nearest n = n :=
  le_antisymm (nearest_le le_rfl) (le_nearest le_rfl)

theorem abs_nearest_sub_le (q : ℚ) : |(nearest q : ℚ) - q| ≤ 1 / 2 := by
  have hsplit := Int.floor_add_fract q
  have hnonneg := Int.fract_nonneg q
  have hlt := Int.fract_lt_one q
  rw [abs_le]
  unfold nearest
  split
  · constructor <;> linarith
  · split
    · push_cast
      constructor <;> linarith
    · split
      · constructor <;> linarith
      · push_cast
        constructor <;> linarith

/-! ## Rounding -/

/-- The exponent of the last place of what is as large as `x`. -/
def lastPlace (x : ℚ) : ℤ := max (Int.log 2 |x| - 52) (-1074)

/-- The nearest binary64 number. -/
def round (x : ℚ) : ℚ := nearest (x / 2 ^ lastPlace x) * 2 ^ lastPlace x

theorem two_zpow_pos (e : ℤ) : (0 : ℚ) < 2 ^ e := zpow_pos two_pos e

/-- A whole number of last places. -/
def IsMultiple (e : ℤ) (x : ℚ) : Prop := ∃ n : ℤ, x = n * 2 ^ e

theorem IsMultiple.of_le {e e' : ℤ} {x : ℚ} (h : IsMultiple e x) (hle : e' ≤ e) :
    IsMultiple e' x := by
  obtain ⟨n, rfl⟩ := h
  obtain ⟨k, hk⟩ := Int.eq_ofNat_of_zero_le (Int.sub_nonneg.mpr hle)
  refine ⟨n * 2 ^ k, ?_⟩
  have hsum : e = k + e' := by omega
  rw [hsum, zpow_add₀ two_ne_zero, zpow_natCast]
  push_cast
  ring

theorem IsMultiple.add {e : ℤ} {x y : ℚ} (hx : IsMultiple e x) (hy : IsMultiple e y) :
    IsMultiple e (x + y) := by
  obtain ⟨n, rfl⟩ := hx
  obtain ⟨m, rfl⟩ := hy
  refine ⟨n + m, ?_⟩
  push_cast
  ring

theorem IsMultiple.sub {e : ℤ} {x y : ℚ} (hx : IsMultiple e x) (hy : IsMultiple e y) :
    IsMultiple e (x - y) := by
  obtain ⟨n, rfl⟩ := hx
  obtain ⟨m, rfl⟩ := hy
  refine ⟨n - m, ?_⟩
  push_cast
  ring

theorem isMultiple_round (x : ℚ) : IsMultiple (lastPlace x) (round x) := ⟨_, rfl⟩

/-- What is in whole last places is not rounded. -/
theorem round_eq_self {x : ℚ} (h : IsMultiple (lastPlace x) x) : round x = x := by
  obtain ⟨n, hn⟩ := h
  have hne := (two_zpow_pos (lastPlace x)).ne'
  have hquot : x / 2 ^ lastPlace x = n := by
    rw [div_eq_iff hne]
    exact hn
  unfold round
  rw [hquot, nearest_intCast]
  exact hn.symm

theorem lt_zpow_log (x : ℚ) : |x| < 2 ^ (Int.log 2 |x| + 1) := by
  exact_mod_cast Int.lt_zpow_succ_log_self (b := 2) (by decide) |x|

theorem zpow_log_le {x : ℚ} (h : x ≠ 0) : 2 ^ Int.log 2 |x| ≤ |x| := by
  exact_mod_cast Int.zpow_log_le_self (b := 2) (by decide) (abs_pos.mpr h)

/-- What is no larger has no larger a last place. -/
theorem lastPlace_le {x : ℚ} {e : ℤ} (hne : x ≠ 0) (hx : |x| < 2 ^ (e + 53)) (he : -1074 ≤ e) :
    lastPlace x ≤ e := by
  refine max_le ?_ he
  have hlog := (zpow_log_le hne).trans_lt hx
  have hlt := (zpow_lt_zpow_iff_right₀ (one_lt_two (α := ℚ))).mp hlog
  omega

theorem lt_zpow_lastPlace (x : ℚ) : |x| < 2 ^ (lastPlace x + 53) := by
  refine (lt_zpow_log x).trans_le ?_
  apply zpow_le_zpow_right₀ one_le_two
  have hle := le_max_left (Int.log 2 |x| - 52) (-1074)
  unfold lastPlace
  omega

@[simp] theorem round_zero : round 0 = 0 := round_eq_self ⟨0, by simp⟩

theorem le_div_zpow_iff {n : ℤ} {x : ℚ} (e : ℤ) : (n : ℚ) ≤ x / 2 ^ e ↔ n * 2 ^ e ≤ x :=
  le_div_iff₀ (two_zpow_pos e)

theorem div_zpow_le_iff {n : ℤ} {x : ℚ} (e : ℤ) : x / 2 ^ e ≤ n ↔ x ≤ n * 2 ^ e :=
  div_le_iff₀ (two_zpow_pos e)

/-- Rounding keeps its argument's side of any whole number of last places. -/
theorem mul_le_round {n : ℤ} {x : ℚ} (h : n * 2 ^ lastPlace x ≤ x) :
    n * 2 ^ lastPlace x ≤ round x := by
  have hle := le_nearest ((le_div_zpow_iff _).mpr h)
  exact mul_le_mul_of_nonneg_right (by exact_mod_cast hle) (two_zpow_pos _).le

theorem round_le_mul {n : ℤ} {x : ℚ} (h : x ≤ n * 2 ^ lastPlace x) :
    round x ≤ n * 2 ^ lastPlace x := by
  have hle := nearest_le ((div_zpow_le_iff _).mpr h)
  exact mul_le_mul_of_nonneg_right (by exact_mod_cast hle) (two_zpow_pos _).le

theorem round_nonneg {x : ℚ} (h : 0 ≤ x) : 0 ≤ round x := by
  simpa using mul_le_round (n := 0) (x := x) (by simpa using h)

theorem round_nonpos {x : ℚ} (h : x ≤ 0) : round x ≤ 0 := by
  simpa using round_le_mul (n := 0) (x := x) (by simpa using h)

/-- What has no more than 53 bits is not rounded. -/
theorem round_of_isMultiple {x : ℚ} {e : ℤ} (he : -1074 ≤ e) (hx : |x| ≤ 2 ^ (e + 53))
    (hm : IsMultiple e x) : round x = x := by
  by_cases hzero : x = 0
  · rw [hzero, round_zero]
  apply round_eq_self
  rcases hx.lt_or_eq with hlt | heq
  · exact hm.of_le (lastPlace_le hzero hlt he)
  · -- a power of two, which has one bit
    have hplace : lastPlace x ≤ e + 1 := by
      apply lastPlace_le hzero
      · rw [heq]
        exact zpow_lt_zpow_right₀ one_lt_two (by omega)
      · omega
    have hpow : (2 : ℚ) ^ (e + 53) = (2 ^ 52 : ℤ) * 2 ^ (e + 1) := by
      rw [show e + 53 = 52 + (e + 1) by ring, zpow_add₀ two_ne_zero]
      norm_cast
    refine IsMultiple.of_le ?_ hplace
    rcases abs_eq_abs.mp (heq.trans (abs_of_pos (two_zpow_pos (e + 53))).symm) with hx | hx
    · exact ⟨2 ^ 52, hx.trans hpow⟩
    · refine ⟨-2 ^ 52, ?_⟩
      rw [hx, hpow]
      push_cast
      ring

theorem abs_round_le (x : ℚ) : |round x| ≤ 2 ^ (lastPlace x + 53) := by
  have hpow : (2 : ℚ) ^ (lastPlace x + 53) = (2 ^ 53 : ℤ) * 2 ^ lastPlace x := by
    rw [add_comm, zpow_add₀ two_ne_zero]
    push_cast
    rfl
  have hlt := abs_lt.mp (lt_zpow_lastPlace x)
  rw [hpow] at hlt ⊢
  refine abs_le.mpr ⟨?_, round_le_mul hlt.2.le⟩
  have hneg := mul_le_round (n := -2 ^ 53) (x := x) (by push_cast at hlt ⊢; linarith)
  push_cast at hneg ⊢
  linarith

theorem neg_le_lastPlace (x : ℚ) : -1074 ≤ lastPlace x := le_max_right _ _

@[simp] theorem round_round (x : ℚ) : round (round x) = round x :=
  round_of_isMultiple (neg_le_lastPlace x) (abs_round_le x) (isMultiple_round x)

/-- What is representable stays below what it is no larger than. -/
theorem le_round {f x : ℚ} (hf : round f = f) (h : f ≤ x) : f ≤ round x := by
  have hmultiple := isMultiple_round f
  rw [hf] at hmultiple
  by_cases hplace : lastPlace x ≤ lastPlace f
  · obtain ⟨n, hn⟩ := hmultiple.of_le hplace
    rw [hn] at h ⊢
    exact mul_le_round h
  · by_cases hzero : x = 0
    · rw [hzero] at h ⊢
      rwa [round_zero]
    -- its last place is a lower one, so the first place of `x` is between them
    have hlow := neg_le_lastPlace f
    have hhigh : lastPlace x = Int.log 2 |x| - 52 := by
      unfold lastPlace at hplace ⊢
      omega
    rcases lt_or_gt_of_ne hzero with hneg | hpos
    · have habs : |x| ≤ |f| := by
        rw [abs_of_neg hneg, abs_of_neg (h.trans_lt hneg)]
        linarith
      have hlog := Int.log_mono_right (b := 2) (abs_pos.mpr hzero) habs
      exact absurd (max_le_max_right (-1074) (by omega)) hplace
    · have hpow : (2 : ℚ) ^ Int.log 2 |x| = (2 ^ 52 : ℤ) * 2 ^ lastPlace x := by
        rw [show Int.log 2 |x| = 52 + lastPlace x by omega, zpow_add₀ two_ne_zero]
        norm_cast
      have hfirst := zpow_log_le hzero
      rw [abs_of_pos hpos] at hfirst hpow
      have hround := mul_le_round (hpow ▸ hfirst)
      refine (le_abs_self f).trans ((lt_zpow_lastPlace f).le.trans ?_)
      refine le_trans ?_ hround
      rw [← hpow, ← abs_of_pos hpos]
      exact zpow_le_zpow_right₀ one_le_two (by omega)

/-- What is in whole least places is off by no more than its `2 ^ 53`th part. -/
theorem abs_round_sub_le {x : ℚ} (h : IsMultiple (-1074) x) : |round x - x| ≤ |x| / 2 ^ 53 := by
  have hnonneg : 0 ≤ |x| / 2 ^ 53 := div_nonneg (abs_nonneg x) (by norm_num)
  by_cases hzero : x = 0
  · simp [hzero]
  rcases max_choice (Int.log 2 |x| - 52) (-1074) with hlog | hleast
  · have hplace : lastPlace x = Int.log 2 |x| - 52 := hlog
    have hpos := two_zpow_pos (lastPlace x)
    have hsplit : round x - x =
        (nearest (x / 2 ^ lastPlace x) - x / 2 ^ lastPlace x) * 2 ^ lastPlace x := by
      unfold round
      rw [sub_mul, div_mul_cancel₀ _ hpos.ne']
    have hhalf := abs_nearest_sub_le (x / 2 ^ lastPlace x)
    have hpow : (2 : ℚ) ^ lastPlace x = 2 ^ Int.log 2 |x| / 2 ^ 52 := by
      rw [hplace, zpow_sub₀ two_ne_zero]
      norm_cast
    calc |round x - x|
        = |(nearest (x / 2 ^ lastPlace x) : ℚ) - x / 2 ^ lastPlace x| * 2 ^ lastPlace x := by
          rw [hsplit, abs_mul, abs_of_pos hpos]
      _ ≤ 1 / 2 * 2 ^ lastPlace x := mul_le_mul_of_nonneg_right hhalf hpos.le
      _ = 2 ^ Int.log 2 |x| / 2 ^ 53 := by
          rw [hpow]
          ring
      _ ≤ |x| / 2 ^ 53 := div_le_div_of_nonneg_right (zpow_log_le hzero) (by norm_num)
  · have hplace : lastPlace x = -1074 := hleast
    rw [round_eq_self (hplace ▸ h), sub_self, abs_zero]
    exact hnonneg

/-- What is representable is in whole least places. -/
theorem isMultiple_of_round_eq {f : ℚ} (h : round f = f) : IsMultiple (-1074) f := by
  have hm := (isMultiple_round f).of_le (neg_le_lastPlace f)
  rwa [h] at hm

theorem round_intCast {n : ℤ} (h : |n| ≤ 2 ^ 53) : round n = n := by
  apply round_of_isMultiple (e := 0) (by decide)
  · exact_mod_cast h
  · exact ⟨n, by simp⟩

/-! ## The numbers -/

/-- A finite binary64 number. -/
structure F64 where
  val : ℚ
  round_val : round val = val

namespace F64

@[ext] theorem ext {x y : F64} (h : x.val = y.val) : x = y := by
  obtain ⟨x, hx⟩ := x
  obtain ⟨y, hy⟩ := y
  obtain rfl : x = y := h
  rfl

instance : DecidableEq F64 := fun x y => decidable_of_iff (x.val = y.val) ⟨ext, congrArg val⟩

/-- The nearest to a rational. -/
def ofRat (q : ℚ) : F64 := ⟨round q, round_round q⟩

/-- A whole number of at most 53 bits. -/
def ofInt (n : ℤ) (h : |n| ≤ 2 ^ 53) : F64 := ⟨n, round_intCast h⟩

instance : Zero F64 := ⟨0, round_zero⟩

instance : Add F64 := ⟨fun x y => ofRat (x.val + y.val)⟩

instance : Sub F64 := ⟨fun x y => ofRat (x.val - y.val)⟩

/-- The larger of two, as `f64::max` is of numbers. -/
instance : Max F64 := ⟨fun x y => if x.val ≤ y.val then y else x⟩

@[simp] theorem val_zero : (0 : F64).val = 0 := rfl

theorem val_add (x y : F64) : (x + y).val = round (x.val + y.val) := rfl

theorem val_sub (x y : F64) : (x - y).val = round (x.val - y.val) := rfl

@[simp] theorem val_max (x y : F64) : (max x y).val = max x.val y.val := by
  show (if x.val ≤ y.val then y else x).val = max x.val y.val
  split
  · next h => exact (max_eq_right h).symm
  · next h => exact (max_eq_left (not_le.mp h).le).symm

@[simp] theorem add_zero_eq (x : F64) : x + 0 = x := by
  apply ext
  rw [val_add, val_zero, add_zero, x.round_val]

/-- A sum is off by no more than its `2 ^ 53`th part. -/
theorem abs_add_sub_le (x y : F64) :
    |(x + y).val - (x.val + y.val)| ≤ |x.val + y.val| / 2 ^ 53 :=
  abs_round_sub_le ((isMultiple_of_round_eq x.round_val).add (isMultiple_of_round_eq y.round_val))

/-- So is a difference. -/
theorem abs_sub_sub_le (x y : F64) :
    |(x - y).val - (x.val - y.val)| ≤ |x.val - y.val| / 2 ^ 53 :=
  abs_round_sub_le ((isMultiple_of_round_eq x.round_val).sub (isMultiple_of_round_eq y.round_val))

theorem val_sub_nonneg {x y : F64} (h : y.val ≤ x.val) : 0 ≤ (x - y).val :=
  round_nonneg (sub_nonneg.mpr h)

theorem val_sub_nonpos {x y : F64} (h : x.val ≤ y.val) : (x - y).val ≤ 0 :=
  round_nonpos (sub_nonpos.mpr h)

/-- A number that is not negative does not lower what it is added to. -/
theorem le_add (x : F64) {y : F64} (h : 0 ≤ y.val) : x.val ≤ (x + y).val :=
  le_round x.round_val (le_add_of_nonneg_right h)

end F64

/-! ## Up to roundings -/

/-- The most that one rounding takes from a number or adds to it, as a part of it. -/
def unitRoundoff : ℚ := 1 / 2 ^ 53

theorem unitRoundoff_pos : 0 < unitRoundoff := by
  unfold unitRoundoff
  norm_num

theorem unitRoundoff_lt_one : unitRoundoff < 1 := by
  unfold unitRoundoff
  norm_num

/-- What `n` roundings leave of a number at least. -/
def shrink (n : ℕ) : ℚ := (1 - unitRoundoff) ^ n

/-- What they make of it at most. -/
def stretch (n : ℕ) : ℚ := (1 + unitRoundoff) ^ n

theorem shrink_pos (n : ℕ) : 0 < shrink n := pow_pos (sub_pos.mpr unitRoundoff_lt_one) n

theorem stretch_pos (n : ℕ) : 0 < stretch n :=
  pow_pos (add_pos one_pos unitRoundoff_pos) n

theorem shrink_add (m n : ℕ) : shrink (m + n) = shrink n * shrink m :=
  (pow_add _ _ _).trans (mul_comm _ _)

theorem stretch_add (m n : ℕ) : stretch (m + n) = stretch n * stretch m :=
  (pow_add _ _ _).trans (mul_comm _ _)

theorem shrink_le {m n : ℕ} (h : m ≤ n) : shrink n ≤ shrink m :=
  pow_le_pow_of_le_one (sub_nonneg.mpr unitRoundoff_lt_one.le)
    (sub_le_self 1 unitRoundoff_pos.le) h

theorem stretch_le {m n : ℕ} (h : m ≤ n) : stretch m ≤ stretch n :=
  pow_le_pow_right₀ (le_add_of_nonneg_right unitRoundoff_pos.le) h

/-- `x` is no less than `y`, up to `n` roundings. -/
def AtLeast (n : ℕ) (x y : ℚ) : Prop := y * shrink n ≤ x

/-- `x` is no more than `y`, up to `n` roundings. -/
def AtMost (n : ℕ) (x y : ℚ) : Prop := x ≤ y * stretch n

/-- `x` is `y` up to `n` roundings. -/
structure Within (n : ℕ) (x y : ℚ) : Prop where
  atLeast : AtLeast n x y
  atMost : AtMost n x y

variable {m n : ℕ} {x x' y y' z : ℚ}

theorem atLeast_of_le (hy : 0 ≤ y) (h : y ≤ x) : AtLeast n x y := by
  have hle : shrink n ≤ shrink 0 := shrink_le n.zero_le
  exact (mul_le_of_le_one_right hy (by simpa [shrink] using hle)).trans h

theorem AtLeast.mono (h : AtLeast m x y) (hy : 0 ≤ y) (hle : m ≤ n) : AtLeast n x y :=
  (mul_le_mul_of_nonneg_left (shrink_le hle) hy).trans h

theorem AtLeast.add (h : AtLeast n x y) (h' : AtLeast n x' y') :
    AtLeast n (x + x') (y + y') := by
  unfold AtLeast
  rw [add_mul]
  exact add_le_add h h'

theorem AtLeast.trans (h : AtLeast m x y) (h' : AtLeast n y z) : AtLeast (m + n) x z := by
  unfold AtLeast
  calc z * shrink (m + n)
      = z * shrink n * shrink m := by rw [shrink_add, mul_assoc]
    _ ≤ y * shrink m := mul_le_mul_of_nonneg_right h' (shrink_pos m).le
    _ ≤ x := h

theorem AtMost.mono (h : AtMost m x y) (hy : 0 ≤ y) (hle : m ≤ n) : AtMost n x y :=
  h.trans (mul_le_mul_of_nonneg_left (stretch_le hle) hy)

theorem AtMost.add (h : AtMost n x y) (h' : AtMost n x' y') : AtMost n (x + x') (y + y') := by
  unfold AtMost
  rw [add_mul]
  exact add_le_add h h'

theorem AtMost.trans (h : AtMost m x y) (h' : AtMost n y z) : AtMost (m + n) x z := by
  unfold AtMost
  calc x ≤ y * stretch m := h
    _ ≤ z * stretch n * stretch m := mul_le_mul_of_nonneg_right h' (stretch_pos m).le
    _ = z * stretch (m + n) := by rw [stretch_add, mul_assoc]

namespace Within

theorem refl (x : ℚ) : Within 0 x x := by
  constructor
  · simp [AtLeast, shrink]
  · simp [AtMost, stretch]

theorem mono (h : Within m x y) (hy : 0 ≤ y) (hle : m ≤ n) : Within n x y :=
  ⟨h.atLeast.mono hy hle, h.atMost.mono hy hle⟩

theorem add (h : Within n x y) (h' : Within n x' y') : Within n (x + x') (y + y') :=
  ⟨h.atLeast.add h'.atLeast, h.atMost.add h'.atMost⟩

theorem trans (h : Within m x y) (h' : Within n y z) : Within (m + n) x z :=
  ⟨h.atLeast.trans h'.atLeast, h.atMost.trans h'.atMost⟩

/-- What is off by no more than a rounding. -/
theorem of_abs_sub_le (hy : 0 ≤ y) (h : |x - y| ≤ |y| / 2 ^ 53) : Within 1 x y := by
  rw [abs_of_nonneg hy] at h
  obtain ⟨hlow, hhigh⟩ := abs_le.mp h
  constructor
  · unfold AtLeast shrink unitRoundoff
    linarith
  · unfold AtMost stretch unitRoundoff
    linarith

end Within

namespace F64

variable {a b : F64}

/-- A sum is the exact one up to a rounding. -/
theorem within_add (h : 0 ≤ a.val + b.val) : Within 1 (a + b).val (a.val + b.val) :=
  .of_abs_sub_le h (abs_add_sub_le a b)

/-- So is a difference. -/
theorem within_sub (h : b.val ≤ a.val) : Within 1 (a - b).val (a.val - b.val) :=
  .of_abs_sub_le (sub_nonneg.mpr h) (abs_sub_sub_le a b)

end F64

end Binary64
