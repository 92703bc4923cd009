import Storehouse.Filter.Basic
import Storehouse.Json.Basic
import Storehouse.Filter.Fault
import Storehouse.Basic

namespace Storehouse

def Scalar.toJson : Scalar → Json
  | .null => .null
  | .bool b => .bool b
  | .int n => .ofInt64 n
  | .float x => .ofFloat x
  | .text s => .string s

def Operand.toJson : Operand → Json
  | .scalar v => v.toJson
  | .list vs => .array (vs.map Scalar.toJson)

def Condition.toJson (c : Condition) : Json :=
  .object [("field", .string c.field), ("operator", .string c.operator.name),
    ("value", c.operand.toJson)]

namespace Filter

mutual

def toJson : Filter → Json
  | .leaf c => c.toJson
  | .group combinator operands =>
    .object [("operands", .array (toItems operands)), ("combinator", .string combinator.name)]

def toItems : List Filter → List Json
  | [] => []
  | f :: rest => toJson f :: toItems rest

end

end Filter

/-- A whole number in the range of 64 bits is an integer, every other number a float. -/
def Scalar.ofNumber (n : Json.Number) : Scalar :=
  match n.int64? with
  | some i => .int i
  | none => .float n.toFloat

def Scalar.ofJson : Json → Except Filter.Fault Scalar
  | .null => .ok .null
  | .bool b => .ok (.bool b)
  | .number n => .ok (.ofNumber n)
  | .string s => .ok (.text s)
  | v => .error (.notScalar v)

def Operand.ofJson : Json → Except Filter.Fault Operand
  | .array items => Operand.list <$> items.mapM Scalar.ofJson
  | v => Operand.scalar <$> Scalar.ofJson v

def Operator.ofName (name : String) : Except Filter.Fault Operator :=
  match Operator.ofName? name with
  | some op => .ok op
  | none => .error (.unknownOperator name)

def Operator.ofJson : Json → Except Filter.Fault Operator
  | .string name => ofName name
  | v => .error (.operatorNotText v)

/-- Combinators are named in any letter case. -/
def Combinator.ofName (name : String) : Except Filter.Fault Combinator :=
  if Text.lower name = "and" then .ok .and
  else if Text.lower name = "or" then .ok .or
  else .error (.unknownCombinator name)

def Combinator.ofJson : Json → Except Filter.Fault Combinator
  | .string name => ofName name
  | _ => .error .combinatorNotText

def Condition.ofParts (field operator operand : Json) : Except Filter.Fault Condition :=
  match field with
  | .string field => do
    let operator ← Operator.ofJson operator
    let operand ← Operand.ofJson operand
    return ⟨field, operator, operand⟩
  | _ => .error .fieldNotText

namespace Filter

mutual

/-- A wrapper is an object with a member `result` and stands for the filter in it; a condition has
the members `field`, `operator` and `value`; a group has `operands` and `combinator`. -/
def ofJson : Json → Except Fault Filter
  | .object members =>
    match ofResult members with
    | some wrapped => wrapped
    | none =>
      match members.lookup "field", members.lookup "operator", members.lookup "value" with
      | some field, some operator, some operand => leaf <$> Condition.ofParts field operator operand
      | _, _, _ =>
        match ofOperands members, members.lookup "combinator" with
        | some operands, some combinator => do
          let combinator ← Combinator.ofJson combinator
          let operands ← operands
          return group combinator operands
        | _, _ => .error (.unknownShape (.object members))
  | v => .error (.notObject v)

/-- What the first member named `result` decodes to, if there is one. -/
def ofResult : List (String × Json) → Option (Except Fault Filter)
  | [] => none
  | (name, v) :: rest => if "result" == name then some (ofJson v) else ofResult rest

/-- What the items of the first member named `operands` decode to, if there is one. -/
def ofOperands : List (String × Json) → Option (Except Fault (List Filter))
  | [] => none
  | (name, .array items) :: rest =>
    if "operands" == name then some (ofItems items) else ofOperands rest
  | (name, _) :: rest =>
    if "operands" == name then some (.error .operandsNotList) else ofOperands rest

def ofItems : List Json → Except Fault (List Filter)
  | [] => .ok []
  | v :: rest => do
    let first ← ofJson v
    let others ← ofItems rest
    return first :: others

end

end Filter
end Storehouse
