import Storehouse.Double.Parts

namespace Storehouse.Double

structure Decimal where
  coefficient : Nat
  exponent : Int
  deriving DecidableEq, Repr

/-- Which of two decimals to take when the value lies halfway between them. -/
inductive Tie
  | up
  | toEven
  deriving DecidableEq, Repr

/-- The interval of a double in quarters of its last binary place: its value and the distances to
its lower and its upper end. Below a power of two the neighbours are twice as dense. -/
structure Interval where
  value : Nat
  below : Nat
  above : Nat
  closed : Bool
  deriving Repr

def Interval.ofMantissa (mantissa : Nat) (exponent : Int) : Interval where
  value := 4 * mantissa
  below := if mantissa = 2 ^ 52 ∧ -1074 < exponent then 1 else 2
  above := 2
  closed := mantissa % 2 = 0

/-- Whether the grid point `point`, at a scale where the value is `value · num` and one grid step
is `den`, rounds to the double. -/
def Interval.readsBack (i : Interval) (num den point : Nat) : Bool :=
  let low := (i.value - i.below) * num
  let high := (i.value + i.above) * num
  if i.closed then low ≤ point * den && point * den ≤ high
  else low < point * den && point * den < high

/-- The grid point to take among the two around the value, if either reads back. -/
def Interval.pick? (i : Interval) (tie : Tie) (num den : Nat) : Option Nat :=
  let lower := i.value * num / den
  let upper := lower + 1
  let left := i.value * num - lower * den
  let right := upper * den - i.value * num
  let nearer :=
    if left < right then lower
    else if right < left then upper
    else match tie with
      | .up => upper
      | .toEven => if lower % 2 = 0 then lower else upper
  let farther := if nearer = lower then upper else lower
  if i.readsBack num den nearer then some nearer
  else if i.readsBack num den farther then some farther
  else none

/-- The exponent of the leading decimal digit of `num / den`, found upwards from a lower bound. -/
def leadingExponent (num den : Nat) : Nat → Int → Int
  | 0, e => e
  | steps + 1, e =>
    let next := e + 1
    if den * 10 ^ next.toNat ≤ num * 10 ^ (-next).toNat then leadingExponent num den steps next
    else e

/-- A lower bound for the leading exponent, a few steps below it at most. -/
def leadingGuess (num den : Nat) : Int :=
  (((num.log2 : Int) - den.log2) * 30103) / 100000 - 2

def trimZeros : Nat → Nat → Int → Decimal
  | 0, coefficient, exponent => ⟨coefficient, exponent⟩
  | steps + 1, coefficient, exponent =>
    if coefficient % 10 = 0 then trimZeros steps (coefficient / 10) (exponent + 1)
    else ⟨coefficient, exponent⟩

/-- Tries the grids of `18 - left` digits and more; seventeen digits tell all doubles apart. -/
def shortestFrom (i : Interval) (tie : Tie) (num den : Nat) (leading : Int) : Nat → Decimal
  | 0 => ⟨0, 0⟩
  | left + 1 =>
    let step := leading - (17 - left : Nat) + 1
    match i.pick? tie (num * 10 ^ (-step).toNat) (den * 10 ^ step.toNat) with
    | some point => trimZeros 18 point step
    | none => shortestFrom i tie num den leading left

/-- The shortest decimal that reads back as `mantissa · 2 ^ exponent`, for a mantissa above zero.
-/
def shortest (tie : Tie) (mantissa : Nat) (exponent : Int) : Decimal :=
  let i := Interval.ofMantissa mantissa exponent
  let quarter := exponent - 2
  let num := 2 ^ quarter.toNat
  let den := 2 ^ (-quarter).toNat
  let leading := leadingExponent (i.value * num) den 6 (leadingGuess (i.value * num) den)
  shortestFrom i tie num den leading 17

end Storehouse.Double
