import Storehouse.Double.Nearest
import Storehouse.Named

namespace Storehouse

/-- A number of JSON: a whole one in the range of 64-bit words, signed or not, or a finite double.
-/
inductive Json.Number
  | whole (n : Int) (inRange : -2 ^ 63 ≤ n ∧ n < 2 ^ 64)
  | real (x : Float) (isFinite : Double.finite x = true)

inductive Json
  | null
  | bool (b : Bool)
  | number (n : Json.Number)
  | string (s : String)
  | array (items : List Json)
  | object (members : List (String × Json))
  deriving Inhabited

namespace Json

def Number.toFloat : Number → Float
  | .whole n _ => Double.ofInt n
  | .real x _ => x

/-- The number as a signed integer, if it is a whole one and not too large. -/
def Number.int64? : Number → Option Int64
  | .whole n _ => if n < 2 ^ 63 then some (.ofInt n) else none
  | .real .. => none

def Number.natural? (bound : Nat) : Number → Option Nat
  | .whole n _ => if 0 ≤ n ∧ n < bound then some n.toNat else none
  | .real .. => none

def ofInt64 (n : Int64) : Json :=
  .number (.whole n.toInt ⟨n.le_toInt, by have := n.toInt_lt; omega⟩)

def ofWord (n : UInt64) : Json :=
  .number (.whole n.toNat ⟨by omega, by have := n.toNat_lt; omega⟩)

/-- A double that is not finite has no number in JSON and becomes `null`. -/
def ofFloat (x : Float) : Json :=
  if h : Double.finite x then .number (.real x h) else .null

def bool? : Json → Option Bool
  | .bool b => some b
  | _ => none

def string? : Json → Option String
  | .string s => some s
  | _ => none

def float? : Json → Option Float
  | .number n => some n.toFloat
  | _ => none

def int64? : Json → Option Int64
  | .number n => n.int64?
  | _ => none

def natural? (bound : Nat) : Json → Option Nat
  | .number n => n.natural? bound
  | _ => none

def items? : Json → Option (List Json)
  | .array items => some items
  | _ => none

def get? (name : String) : Json → Option Json
  | .object members => members.lookup name
  | _ => none

/-- A property that passes from the items of an array and from the members of an object to the whole
holds of all values. -/
@[elab_as_elim, induction_eliminator]
theorem induction {motive : Json → Prop} (null : motive .null) (bool : ∀ b, motive (.bool b))
    (number : ∀ n, motive (.number n)) (string : ∀ s, motive (.string s))
    (array : ∀ items, (∀ v ∈ items, motive v) → motive (.array items))
    (object : ∀ members, (∀ m ∈ members, motive m.2) → motive (.object members))
    (v : Json) : motive v := by
  refine Json.rec (motive_1 := motive) (motive_2 := fun items => ∀ v ∈ items, motive v)
    (motive_3 := fun members => ∀ m ∈ members, motive m.2) (motive_4 := fun m => motive m.2)
    null bool number string array object ?_ ?_ ?_ ?_ ?_ v
  · exact fun v hv => by cases hv
  · intro v items hv hitems w hw
    cases hw with
    | head => exact hv
    | tail _ hw => exact hitems w hw
  · exact fun m hm => by cases hm
  · intro m members hm hmembers n hn
    cases hn with
    | head => exact hm
    | tail _ hn => exact hmembers n hn
  · exact fun name v hv => hv

end Json
end Storehouse
