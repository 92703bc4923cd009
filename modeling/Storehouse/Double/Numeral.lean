import Storehouse.Double.Nearest
import Storehouse.Basic

namespace Storehouse.Double

structure Numeral where
  negative : Bool
  whole : List Char
  fraction : Option (List Char)
  exponent : Option Int
  deriving DecidableEq, Repr

def Numeral.value (n : Numeral) : Float :=
  let fraction := n.fraction.getD []
  nearestDecimal n.negative (Nat.ofDigitChars 10 (n.whole ++ fraction) 0)
    (n.exponent.getD 0 - fraction.length)

def exponent? (cs : List Char) : Option Int :=
  match cs with
  | '+' :: cs => (Text.digits? cs).map Int.ofNat
  | '-' :: cs => (Text.digits? cs).map fun n => -(n : Int)
  | cs => (Text.digits? cs).map Int.ofNat

/-- Reads a numeral without its sign; which digits may be missing is left to the caller. -/
def Numeral.ofUnsigned? (negative : Bool) (cs : List Char) : Option Numeral :=
  let whole := cs.takeWhile Char.isDigit
  let rest := cs.dropWhile Char.isDigit
  let (fraction, rest) : Option (List Char) × List Char := match rest with
    | '.' :: rest => (some (rest.takeWhile Char.isDigit), rest.dropWhile Char.isDigit)
    | rest => (none, rest)
  match rest with
  | [] => some ⟨negative, whole, fraction, none⟩
  | c :: rest =>
    if c = 'e' ∨ c = 'E' then
      (exponent? rest).map fun e => ⟨negative, whole, fraction, some e⟩
    else none

/-- A numeral with digits on at least one side of the point. -/
def Numeral.ofChars? (negative : Bool) (cs : List Char) : Option Numeral :=
  (ofUnsigned? negative cs).filter fun n => n.whole ≠ [] ∨ n.fraction.getD [] ≠ []

/-- Reads a double from text: a numeral, or in any letter case `inf`, `infinity` or `nan`, each
with an optional sign and nothing around it. -/
def ofText? (s : String) : Option Float :=
  let read (negative : Bool) (cs : List Char) : Option Float :=
    match Text.lower (.ofList cs) with
    | "inf" | "infinity" => some (infinity negative)
    | "nan" => some nan
    | _ => (Numeral.ofChars? negative cs).map Numeral.value
  match s.toList with
  | '-' :: cs => read true cs
  | '+' :: cs => read false cs
  | cs => read false cs

/-- Appends digits to a coefficient as long as it stays below `2 ^ 64`, and counts those that are
left. -/
def appendDigits (coefficient : Nat) : List Char → Nat × Nat
  | [] => (coefficient, 0)
  | c :: cs =>
    let next := Nat.ofDigitChars 10 [c] coefficient
    if next < 2 ^ 64 then appendDigits next cs else (coefficient, cs.length + 1)

def powerOfTen (k : Nat) : Float :=
  nearest false (10 ^ k) 1

/-- Multiplies the double of a machine word by a power of ten. The largest power of ten among the
doubles is `10 ^ 308`: a division by more takes two steps, and one by more than its square has
already reached zero. -/
def scale (x : Float) (exponent : Int) : Float :=
  if x == 0 then x
  else if 308 < exponent then infinity (negative x)
  else if 0 ≤ exponent then x * powerOfTen exponent.toNat
  else if -308 ≤ exponent then x / powerOfTen (-exponent).toNat
  else x / powerOfTen 308 / powerOfTen (min (-exponent - 308).toNat 308)

/-- Digits before the point that do not fit the word still count as powers of ten, and the digits
after it are taken up where they fit again. -/
def Numeral.scaled (n : Numeral) : Float :=
  let fraction := n.fraction.getD []
  let (whole, left) := appendDigits 0 n.whole
  let (coefficient, dropped) := appendDigits whole fraction
  scale (nearest n.negative coefficient 1)
    (n.exponent.getD 0 + left + dropped - fraction.length)

end Storehouse.Double
