/-!
Binary floating point values as exact integers, and the decimals that round to them.
-/

namespace ShaderLibrary.Decimal

/-- The finite, nonnegative value `significand * 2 ^ exponent` of binary64. -/
structure Binary where
  significand : Nat
  exponent : Int
  /-- Whether the gap to the value below is half the gap to the value above. -/
  narrowBelow : Bool
deriving DecidableEq, Repr

/-- The number of values of the lower 52 bits, which hold the fraction. -/
def fractions : Nat := 0x10000000000000

/-- The number of values of the 11 bits above them, which hold the exponent. -/
def exponents : Nat := 0x800

/-- The magnitude that the bits of a finite value encode. The sign bit is not looked at. -/
def Binary.ofBits (bits : UInt64) : Binary :=
  let biased : Nat := bits.toNat / fractions % exponents
  let fraction : Nat := bits.toNat % fractions
  if biased = 0 then ⟨fraction, -1074, false⟩
  else ⟨fractions + fraction, (biased : Int) - 1075, fraction == 0 && biased != 1⟩

/-- The decimal `digits * 10 ^ scale`. -/
structure Scaled where
  digits : Nat
  scale : Int
deriving DecidableEq, Repr

/-- Compares `n * 2 ^ i` with `d`, in integers. -/
def compareTo (n : Nat) (i : Int) (d : Scaled) : Ordering :=
  compare (n * Nat.pow 2 i.toNat * Nat.pow 10 (-d.scale).toNat)
    (d.digits * Nat.pow 10 d.scale.toNat * Nat.pow 2 (-i).toNat)

/-- Whether `d` rounds to `x`, to the nearest value with ties to even. The values that do form an
interval around `x`, which has its ends exactly when the significand is even. -/
def Binary.readsBack (x : Binary) (d : Scaled) : Bool :=
  let lower := compareTo (if x.narrowBelow then 4 * x.significand - 1 else 4 * x.significand - 2)
    (x.exponent - 2) d
  let upper := compareTo (4 * x.significand + 2) (x.exponent - 2) d
  let ends := x.significand % 2 == 0
  (lower == .lt || ends && lower == .eq) && (upper == .gt || ends && upper == .eq)

end ShaderLibrary.Decimal
