import ShaderLibrary.Text.Basic

/-!
Integers in decimal: no leading zeros, and a minus sign in front of negative ones. Numbers with very
many digits are not handed in or out.
-/

namespace ShaderLibrary.Text

def ofNat (n : Nat) : Text := Nat.toDigits 10 n

def ofInt : Int → Text
  | .ofNat n => ofNat n
  | .negSucc n => '-' :: ofNat (n + 1)

/-- The greatest number of digits of a number that is read or written. -/
def mostDigits : Nat := 4300

/-- Whether the numeral of an integer is written. -/
def hasNumeral (n : Int) : Bool := decide ((ofNat n.natAbs).length ≤ mostDigits)

end ShaderLibrary.Text
