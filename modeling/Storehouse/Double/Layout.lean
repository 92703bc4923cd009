import Storehouse.Double.Shortest

namespace Storehouse.Double

structure Layout where
  tie : Tie
  /-- Whether a number whose leading digit has this exponent is written without one. -/
  positional : Int → Bool
  /-- What follows the digits of a whole number written positionally. -/
  wholeMark : String
  /-- What stands between the exponent mark and an exponent that is not negative. -/
  exponentPlus : String

def zeros (n : Nat) : String := .ofList (List.replicate n '0')

def Layout.writePositional (f : Layout) (d : Decimal) : String :=
  let digits := Nat.toDigits 10 d.coefficient
  if 0 ≤ d.exponent then
    .ofList digits ++ zeros d.exponent.toNat ++ f.wholeMark
  else
    let places := (-d.exponent).toNat
    if places < digits.length then
      .ofList (digits.take (digits.length - places)) ++ "."
        ++ .ofList (digits.drop (digits.length - places))
    else
      "0." ++ zeros (places - digits.length) ++ .ofList digits

/-- One digit before the point, the others behind it, and the power of ten. -/
def Layout.writeScientific (f : Layout) (d : Decimal) : String :=
  let digits := Nat.toDigits 10 d.coefficient
  let exponent := d.exponent + digits.length - 1
  let fraction := if digits.length ≤ 1 then "" else "." ++ .ofList (digits.drop 1)
  let sign := if 0 ≤ exponent then f.exponentPlus else ""
  .ofList (digits.take 1) ++ fraction ++ "e" ++ sign ++ exponent.repr

/-- The written form of a double, an infinity and a value that is no number included. -/
def Layout.write (f : Layout) (x : Float) : String :=
  match parts x with
  | .nan => "NaN"
  | .infinite negative => (if negative then "-" else "") ++ "inf"
  | .finite negative mantissa exponent =>
    (if negative then "-" else "") ++
      if mantissa = 0 then "0" ++ f.wholeMark
      else
        let d := shortest f.tie mantissa exponent
        if f.positional (d.exponent + (Nat.toDigits 10 d.coefficient).length - 1) then
          f.writePositional d
        else f.writeScientific d

/-- Every digit is written out, and a whole number is written like an integer. -/
def plain : Layout where
  tie := .up
  positional _ := true
  wholeMark := ""
  exponentPlus := ""

/-- A whole number keeps its fraction, so that it cannot be taken for an integer. -/
def marked : Layout where
  tie := .up
  positional e := -4 ≤ e && e < 16
  wholeMark := ".0"
  exponentPlus := ""

def json : Layout where
  tie := .toEven
  positional e := -5 ≤ e && e < 16
  wholeMark := ".0"
  exponentPlus := "+"

end Storehouse.Double
