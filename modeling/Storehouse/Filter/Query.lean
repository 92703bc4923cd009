import Storehouse.Filter.Fault

namespace Storehouse

namespace Condition

/-- The field holds exactly the value. -/
def tag (field : String) (v : Scalar) : String :=
  "@" ++ field ++ ":\x7b" ++ v.render ++ "\x7d"

/-- The field holds a number in the range; a parenthesis marks an end that is left out. -/
def range (field low high : String) : String :=
  "@" ++ field ++ ":[" ++ low ++ " " ++ high ++ "]"

def query (c : Condition) : Except Filter.Fault String :=
  match c.operator, c.operand with
  | .isIn, .list vs => .ok (" | ".intercalate (vs.map (tag c.field)))
  | .notIn, .list vs => .ok (" ".intercalate (vs.map fun v => "-" ++ tag c.field v))
  | .eq, .scalar v => .ok (tag c.field v)
  | .ne, .scalar v => .ok ("-" ++ tag c.field v)
  | .gt, .scalar v => .ok (range c.field ("(" ++ v.render) "+inf")
  | .lt, .scalar v => .ok (range c.field "-inf" ("(" ++ v.render ++ ")"))
  | .gte, .scalar v => .ok (range c.field v.render "+inf")
  | .lte, .scalar v => .ok (range c.field "-inf" v.render)
  | .like, .scalar v => .ok ("@" ++ c.field ++ ":/.*" ++ v.render ++ ".*/ ")
  | op, _ => .error (.wrongOperand op c.field)

end Condition

namespace Filter

def matchAll : String := "*"

mutual

/-- The query of a filter, or the fault of its first condition with an operand of the wrong kind.
-/
def query : Filter → Except Fault String
  | .leaf c => c.query
  | .group combinator operands => do
    let parts ← queries operands
    return "(" ++ (" " ++ combinator.keyword ++ " ").intercalate parts ++ ")"

def queries : List Filter → Except Fault (List String)
  | [] => .ok []
  | f :: rest => do
    let first ← query f
    let others ← queries rest
    return first :: others

end

end Filter
end Storehouse
