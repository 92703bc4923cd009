import Storehouse.Basic

namespace Storehouse.Double

/-- What a double stands for; a finite one is `± mantissa · 2 ^ exponent`. -/
inductive Parts
  | nan
  | infinite (negative : Bool)
  | finite (negative : Bool) (mantissa : Nat) (exponent : Int)
  deriving DecidableEq, Repr

def negative (x : Float) : Bool :=
  2 ^ 63 ≤ x.toBits.toNat

def exponentField (x : Float) : Nat :=
  x.toBits.toNat / 2 ^ 52 % 2 ^ 11

def fractionField (x : Float) : Nat :=
  x.toBits.toNat % 2 ^ 52

/-- The largest exponent field is kept for the infinities and the values that are no number. -/
def finite (x : Float) : Bool :=
  exponentField x != 2047

def parts (x : Float) : Parts :=
  if exponentField x = 2047 then
    if fractionField x = 0 then .infinite (negative x) else .nan
  else if exponentField x = 0 then
    .finite (negative x) (fractionField x) (-1074)
  else
    .finite (negative x) (2 ^ 52 + fractionField x) (exponentField x - 1075)

/-- The double with the given sign, exponent field and fraction field. -/
def ofFields (negative : Bool) (exponent fraction : Nat) : Float :=
  .ofBits (UInt64.ofNat ((if negative then 2 ^ 63 else 0) + exponent * 2 ^ 52 + fraction))

def zero (negative : Bool) : Float := ofFields negative 0 0

def infinity (negative : Bool) : Float := ofFields negative 2047 0

def nan : Float := ofFields false 2047 (2 ^ 51)

/-- A whole number with its fraction dropped; infinities and values that are no number have none.
-/
def Parts.truncate? : Parts → Option Int
  | .finite negative mantissa exponent =>
    let magnitude := mantissa * 2 ^ exponent.toNat / 2 ^ (-exponent).toNat
    some (if negative then -(magnitude : Int) else magnitude)
  | _ => none

/-- The nearest 64-bit word: the fraction is dropped, what is below the range becomes zero, what is
above it the largest word, and a value that is no number becomes zero. -/
def toWord (x : Float) : UInt64 :=
  match parts x with
  | .nan => 0
  | .infinite negative => if negative then 0 else .ofNat (2 ^ 64 - 1)
  | p@(.finite ..) =>
    match p.truncate? with
    | some n => .ofNat (min n.toNat (2 ^ 64 - 1))
    | none => 0

end Storehouse.Double
