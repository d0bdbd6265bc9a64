import CredentialBroker.Util.Saturating
import Mathlib.Algebra.Order.Field.Rat
import Mathlib.Data.Rat.Floor

/-!
# Numbers read from text

What a program gets when it parses an unsigned 64-bit integer or a floating-point number from the
bytes of a string. Integers are read exactly, with their overflow. A floating-point number is read
as the *exact* decimal its text spells, a rational, beside the infinities and the not-a-number that
the same grammar has: arithmetic on what was read is then arithmetic of rationals.
-/

namespace Numeral

/-- The value of a decimal digit. -/
def digit (b : UInt8) : Option Nat :=
  if 48 ≤ b ∧ b ≤ 57 then some (b.toNat - 48) else none

/-- The number a list of digits spells. -/
def ofDigits (ds : List Nat) : Nat := ds.foldl (fun n d => 10 * n + d) 0

/-- One or more digits. -/
def digits : List UInt8 → Option (List Nat)
  | [] => none
  | bs => bs.mapM digit

/-- An unsigned 64-bit integer: digits, with an optional plus sign. -/
def parseU64 (bs : List UInt8) : Option UInt64 := do
  let ds ← digits (if bs.head? = some 43 then bs.tail else bs)
  let n := ofDigits ds
  if n ≤ UInt64.maxVal then some (.ofNat n) else none

/-- A floating-point number, the finite ones as rationals. -/
inductive Real64 where
  | nan
  | inf (negative : Bool)
  | finite (q : ℚ)
  deriving DecidableEq, Repr

/-- The lower case of an ASCII letter. -/
def toLower (b : UInt8) : UInt8 := if 65 ≤ b ∧ b ≤ 90 then b + 32 else b

/-- Whether a sign is there and negative, and what follows it. -/
def sign (bs : List UInt8) : Bool × List UInt8 :=
  if bs.head? = some 45 then (true, bs.tail)
  else if bs.head? = some 43 then (false, bs.tail)
  else (false, bs)

/-- An exponent: nothing, or `e` and a signed number. -/
def parseExponent : List UInt8 → Option Int
  | [] => some 0
  | _ :: bs => do
    let (negative, bs) := sign bs
    let ds ← digits bs
    some (if negative then -(ofDigits ds : Int) else ofDigits ds)

/-- A decimal: digits with at most one point among them, at least one digit, and an exponent. -/
def parseDecimal (bs : List UInt8) : Option ℚ := do
  let mantissa := bs.takeWhile (fun b => toLower b != 101)
  let exponent ← parseExponent (bs.dropWhile (fun b => toLower b != 101))
  let whole := mantissa.takeWhile (fun b => b != 46)
  let fraction := (mantissa.dropWhile (fun b => b != 46)).tail
  let ds ← digits (whole ++ fraction)
  some ((ofDigits ds : ℚ) * (10 : ℚ) ^ (exponent - (fraction.length : Int)))

/-- The bytes of the words of the grammar. -/
def nanWord : List UInt8 := [110, 97, 110]
def infWord : List UInt8 := [105, 110, 102]
def infinityWord : List UInt8 := infWord ++ [105, 110, 105, 116, 121]

/-- A floating-point number. -/
def parseReal64 (bs : List UInt8) : Option Real64 :=
  let (negative, rest) := sign bs
  let word := rest.map toLower
  if word = nanWord then some .nan
  else if word = infWord ∨ word = infinityWord then some (.inf negative)
  else (parseDecimal rest).map (fun q => .finite (if negative then -q else q))

/-- The number, if it is finite. -/
def Real64.toRat : Real64 → Option ℚ
  | finite q => some q
  | _ => none

/-- A finite number from `lo` to `hi`. -/
def Real64.inRange (lo hi : ℚ) (x : Real64) : Option ℚ :=
  x.toRat.filter (fun q => decide (lo ≤ q ∧ q ≤ hi))

theorem Real64.inRange_eq_some {lo hi q : ℚ} {x : Real64} :
    x.inRange lo hi = some q ↔ x = .finite q ∧ lo ≤ q ∧ q ≤ hi := by
  unfold inRange
  rw [Option.filter_eq_some_iff, decide_eq_true_eq]
  cases x <;> simp [toRat]

end Numeral
