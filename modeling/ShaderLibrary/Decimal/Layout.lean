import ShaderLibrary.Decimal.Shortest
import ShaderLibrary.Text.Numeral

/-!
How a floating point number is written: the digits of its shortest decimal, with the point where
they need it, or with an exponent if the number is very small or very large.
-/

namespace ShaderLibrary.Decimal

/-- The decisions of a number format. -/
structure Layout where
  /-- The least exponent of the leading digit that is written without an exponent. -/
  plainFrom : Int
  /-- The first exponent of the leading digit, upwards, that is written with an exponent. -/
  plainBelow : Int
  /-- The least number of digits of an exponent. -/
  exponentWidth : Nat
deriving DecidableEq, Repr

/-- An exponent with its sign, filled up with zeros. -/
def Layout.exponent (l : Layout) (e : Int) : Text :=
  let digits := Text.ofNat e.natAbs
  (if e < 0 then '-' else '+') :: List.replicate (l.exponentWidth - digits.length) '0' ++ digits

/-- A positive decimal. A number without a fraction is written with one zero after the point,
unless it has an exponent. -/
def Layout.scaled (l : Layout) (d : Scaled) : Text :=
  let digits := Text.ofNat d.digits
  let point := digits.length + d.scale
  if l.plainFrom ≤ point - 1 ∧ point - 1 < l.plainBelow then
    if point ≤ 0 then
      '0' :: '.' :: List.replicate (-point).toNat '0' ++ digits
    else if 0 ≤ d.scale then
      digits ++ List.replicate d.scale.toNat '0' ++ ['.', '0']
    else
      digits.take point.toNat ++ '.' :: digits.drop point.toNat
  else
    digits.take 1 ++ (if digits.length = 1 then [] else '.' :: digits.drop 1) ++
      'e' :: l.exponent (point - 1)

/-- The text of a number. Zero keeps its sign. -/
def Layout.number (l : Layout) (x : Float) : Text :=
  let sign : Text := if fractions * exponents ≤ x.toBits.toNat then ['-'] else []
  if x.isNaN then "nan".toList
  else if x.isInf then sign ++ "inf".toList
  else if (Binary.ofBits x.toBits).significand = 0 then sign ++ "0.0".toList
  else sign ++ l.scaled (Binary.ofBits x.toBits).shortest

end ShaderLibrary.Decimal
