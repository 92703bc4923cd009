import Storehouse.Double.Parts

namespace Storehouse.Double

/-- The whole number nearest to `num / den`, a half going to the even neighbour. -/
def roundHalfEven (num den : Nat) : Nat :=
  let q := num / den
  let r := num % den
  if 2 * r < den then q
  else if den < 2 * r then q + 1
  else q + q % 2

/-- The power of two that leaves a mantissa of 53 bits, or the least power that doubles have. -/
def binaryExponent (num den : Nat) : Int :=
  let guess : Int := (num.log2 : Int) - den.log2 - 53
  let scaled := num * 2 ^ (-guess).toNat / (den * 2 ^ guess.toNat)
  max (-1074) (guess + ((scaled.log2 : Int) - 52))

/-- The magnitude nearest to `num / den`, as the bits below the sign: a carry out of the mantissa
runs into the exponent field, and past the largest exponent lies infinity. -/
def nearestMagnitude (num den : Nat) : Nat :=
  if num = 0 then 0
  else
    let q := binaryExponent num den
    let mantissa := roundHalfEven (num * 2 ^ (-q).toNat) (den * 2 ^ q.toNat)
    let field := (q + 1074).toNat
    min (field * 2 ^ 52 + mantissa) (2047 * 2 ^ 52)

/-- The double nearest to `± num / den`. -/
def nearest (negative : Bool) (num den : Nat) : Float :=
  ofFields negative 0 (nearestMagnitude num den)

/-- The double nearest to `± coefficient · 10 ^ exponent`. What lies far outside the range of
doubles is settled by its size, before any power is computed. -/
def nearestDecimal (negative : Bool) (coefficient : Nat) (exponent : Int) : Float :=
  if coefficient = 0 then zero negative
  else
    let size := (Nat.toDigits 10 coefficient).length + exponent
    if 310 < size then infinity negative
    else if size < -330 then zero negative
    else nearest negative (coefficient * 10 ^ exponent.toNat) (10 ^ (-exponent).toNat)

def ofInt (n : Int) : Float :=
  nearest (n < 0) n.natAbs 1

end Storehouse.Double
