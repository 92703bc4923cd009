import Storehouse.Double.Numeral
import Storehouse.Json.Basic

namespace Storehouse.Json

/-- A string is `none` where half a surrogate pair stands in it. -/
inductive Source
  | null
  | bool (b : Bool)
  | number (n : Double.Numeral)
  | string (s : Option String)
  | array (items : List Source)
  | object (members : List (Option String × Source))

/-- A numeral without point and exponent is a whole number as long as it fits a 64-bit word, signed
or not; every other one is a double, its quick value, and must not overflow. -/
def Number.ofNumeral? (n : Double.Numeral) : Option Number :=
  let magnitude := Nat.ofDigitChars 10 n.whole 0
  let integral := n.fraction.isNone && n.exponent.isNone
  if h : integral ∧ n.negative = false ∧ magnitude < 2 ^ 64 then
    some (.whole magnitude ⟨by omega, by omega⟩)
  else if h : integral ∧ n.negative ∧ 0 < magnitude ∧ magnitude ≤ 2 ^ 63 then
    some (.whole (-magnitude) ⟨by omega, by omega⟩)
  else if h : Double.finite n.scaled then some (.real n.scaled h)
  else none

namespace Source

mutual

def depth : Source → Nat
  | .array items => depthItems items + 1
  | .object members => depthMembers members + 1
  | _ => 0

def depthItems : List Source → Nat
  | [] => 0
  | v :: rest => max (depth v) (depthItems rest)

def depthMembers : List (Option String × Source) → Nat
  | [] => 0
  | (_, v) :: rest => max (depth v) (depthMembers rest)

end

mutual

/-- The value that is written, if all of it can be represented. -/
def value? : Source → Option Json
  | .null => some .null
  | .bool b => some (.bool b)
  | .number n => (Number.ofNumeral? n).map .number
  | .string s => s.map .string
  | .array items => (valueItems? items).map .array
  | .object members => (valueMembers? members).map fun ms => .object (Named.ofList ms)

def valueItems? : List Source → Option (List Json)
  | [] => some []
  | v :: rest => do
    let first ← value? v
    let others ← valueItems? rest
    return first :: others

def valueMembers? : List (Option String × Source) → Option (List (String × Json))
  | [] => some []
  | (name, v) :: rest => do
    let name ← name
    let first ← value? v
    let others ← valueMembers? rest
    return (name, first) :: others

end

/-- The value of a record with the given field names. Members with other names are passed over
without being judged, and none with a given name may repeat. -/
def record? (names : List String) : Source → Option Json
  | .object members => do
    if members.any (·.1.isNone) then none
    let known := members.filter fun m => names.any (m.1 == some ·)
    if (known.map (·.1)).Nodup then (Source.object known).value? else none
  | s => s.value?

end Source
end Storehouse.Json
