import Storehouse.Filter.Json
import Storehouse.Json.Record

namespace Storehouse

/-- The kinds of value are tried in turn. -/
def Scalar.ofJson? (v : Json) : Option Scalar :=
  match v with
  | .null => some .null
  | _ => Scalar.bool <$> v.bool?
    <|> Scalar.int <$> v.int64?
    <|> Scalar.float <$> v.float?
    <|> Scalar.text <$> v.string?

def Operand.ofJson? (v : Json) : Option Operand :=
  Operand.scalar <$> Scalar.ofJson? v
    <|> (do Operand.list <$> (← v.items?).mapM Scalar.ofJson?)

def Operator.ofJson? (v : Json) : Option Operator :=
  v.choice? >>= Operator.ofName?

def Combinator.ofJson? (v : Json) : Option Combinator :=
  match v.choice? with
  | some "and" => some .and
  | some "or" => some .or
  | _ => none

def Condition.ofJson? (v : Json) : Option Condition :=
  match v.fields? ["field", "operator", "value"] with
  | some [some field, some operator, some operand] => do
    let field ← field.string?
    let operator ← Operator.ofJson? operator
    let operand ← Operand.ofJson? operand
    return ⟨field, operator, operand⟩
  | _ => none

/-- A group; its operands are filters read as a whole. -/
def Filter.groupOfJson? (v : Json) : Option Filter :=
  match v.fields? ["operands", "combinator"] with
  | some [some operands, some combinator] => do
    let operands ← (← operands.items?).mapM fun v => (Filter.ofJson v).toOption
    let combinator ← Combinator.ofJson? combinator
    return .group combinator operands
  | _ => none

end Storehouse
