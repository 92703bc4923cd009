import Storehouse.Filter.Clause
import Storehouse.Text.Quoted

namespace Storehouse

def Scalar.describe : Scalar → String
  | .null => "Null"
  | .bool b => "Bool(" ++ (if b then "true" else "false") ++ ")"
  | .int n => "Int(" ++ n.toInt.repr ++ ")"
  | .float x => "Float(" ++ Double.marked.write x ++ ")"
  | .text s => "Text(" ++ Text.quoted s ++ ")"

def Operand.describe : Operand → String
  | .scalar v => "Scalar(" ++ v.describe ++ ")"
  | .list vs => "List([" ++ ", ".intercalate (vs.map Scalar.describe) ++ "])"

def Operator.describe : Operator → String
  | .eq => "Eq"
  | .ne => "Ne"
  | .gt => "Gt"
  | .lt => "Lt"
  | .gte => "Gte"
  | .lte => "Lte"
  | .isIn => "In"
  | .notIn => "Nin"
  | .like => "Like"

def Combinator.describe : Combinator → String
  | .and => "And"
  | .or => "Or"

def Condition.describe (c : Condition) : String :=
  "Condition(Condition \x7b field: " ++ Text.quoted c.field ++ ", operator: " ++ c.operator.describe
    ++ ", value: " ++ c.operand.describe ++ " \x7d)"

namespace Filter

mutual

def describe : Filter → String
  | .leaf c => c.describe
  | .group combinator operands =>
    "Group(ConditionGroup \x7b operands: [" ++ ", ".intercalate (describeAll operands)
      ++ "], combinator: " ++ combinator.describe ++ " \x7d)"

def describeAll : List Filter → List String
  | [] => []
  | f :: rest => describe f :: describeAll rest

end

def Clause.describe : Clause → String
  | ready f => "Node(" ++ f.describe ++ ")"
  | draft _ => "Builder(..)"
  | resolved inner => "Resolved(" ++ inner.describe ++ ")"

end Filter
end Storehouse
