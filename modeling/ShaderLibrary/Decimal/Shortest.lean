import ShaderLibrary.Decimal.Binary

/-!
The shortest decimal of a binary value: of the decimals that read back as the value, one with the
fewest digits, and of those the nearest. Fewer digits mean a coarser grid of powers of ten, so the
grids are tried from the coarsest on, and on each of them only the two neighbours of the value.
-/

namespace ShaderLibrary.Decimal

/-- The greatest multiple of `10 ^ scale` that is not above the value, divided by `10 ^ scale`. -/
def Binary.floorAt (x : Binary) (scale : Int) : Nat :=
  x.significand * Nat.pow 2 x.exponent.toNat * Nat.pow 10 (-scale).toNat /
    (Nat.pow 2 (-x.exponent).toNat * Nat.pow 10 scale.toNat)

/-- The neighbour of the value on the grid of `10 ^ scale` that reads back as the value. If both
do, the nearer one is taken, and the even one if they are equally near. -/
def Binary.onGrid? (x : Binary) (scale : Int) : Option Scaled :=
  let below : Scaled := ⟨x.floorAt scale, scale⟩
  let above : Scaled := ⟨x.floorAt scale + 1, scale⟩
  match x.readsBack below, x.readsBack above with
  | false, false => none
  | true, false => some below
  | false, true => some above
  | true, true =>
    match compareTo (2 * x.significand) x.exponent ⟨2 * below.digits + 1, scale⟩ with
    | .lt => some below
    | .gt => some above
    | .eq => some (if below.digits % 2 = 0 then below else above)

/-- The grids to try, coarsest first. The greatest binary64 value lies below `10 ^ 309`, and the
finest grid separates the least ones by seventeen digits and more. -/
def scales : List Int := (List.range 660).map fun i : Nat => 310 - (i : Int)

/-- The shortest decimal of the value. On a grid that fails all neighbours the value itself, which
is a decimal too, would be the answer. -/
def Binary.shortest (x : Binary) : Scaled :=
  (scales.findSome? x.onGrid?).getD
    ⟨x.significand * Nat.pow 2 x.exponent.toNat * Nat.pow 5 (-x.exponent).toNat,
      -(-x.exponent).toNat⟩

end ShaderLibrary.Decimal
