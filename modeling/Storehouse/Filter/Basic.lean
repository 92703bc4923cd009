import Storehouse.Double.Layout

namespace Storehouse

inductive Scalar
  | null
  | bool (b : Bool)
  | int (n : Int64)
  | float (x : Float)
  | text (s : String)
  deriving BEq

inductive Operand
  | scalar (v : Scalar)
  | list (vs : List Scalar)
  deriving BEq

inductive Operator
  | eq
  | ne
  | gt
  | lt
  | gte
  | lte
  | isIn
  | notIn
  | like
  deriving DecidableEq, Repr

inductive Combinator
  | and
  | or
  deriving DecidableEq, Repr

structure Condition where
  field : String
  operator : Operator
  operand : Operand
  deriving BEq

/-- A condition, or a group of filters of any size under one combinator. -/
inductive Filter
  | leaf (c : Condition)
  | group (combinator : Combinator) (operands : List Filter)

def Scalar.render : Scalar → String
  | .null => "null"
  | .bool b => if b then "true" else "false"
  | .int n => n.toInt.repr
  | .float x => Double.plain.write x
  | .text s => s

namespace Operator

def all : List Operator := [eq, ne, gt, lt, gte, lte, isIn, notIn, like]

def name : Operator → String
  | eq => "eq"
  | ne => "ne"
  | gt => "gt"
  | lt => "lt"
  | gte => "gte"
  | lte => "lte"
  | isIn => "in"
  | notIn => "nin"
  | like => "like"

def ofName? (name : String) : Option Operator :=
  all.find? (·.name = name)

/-- The two membership tests take a list, all others a single value. -/
def takesList : Operator → Bool
  | isIn | notIn => true
  | _ => false

theorem ofName?_name (op : Operator) : ofName? op.name = some op := by
  cases op <;> decide

end Operator

namespace Combinator

def keyword : Combinator → String
  | and => "AND"
  | or => "OR"

def name : Combinator → String
  | and => "and"
  | or => "or"

end Combinator

namespace Condition

def eq (field : String) (v : Scalar) : Condition := ⟨field, .eq, .scalar v⟩

def ne (field : String) (v : Scalar) : Condition := ⟨field, .ne, .scalar v⟩

def gt (field : String) (v : Scalar) : Condition := ⟨field, .gt, .scalar v⟩

def lt (field : String) (v : Scalar) : Condition := ⟨field, .lt, .scalar v⟩

def gte (field : String) (v : Scalar) : Condition := ⟨field, .gte, .scalar v⟩

def lte (field : String) (v : Scalar) : Condition := ⟨field, .lte, .scalar v⟩

def isIn (field : String) (vs : List Scalar) : Condition := ⟨field, .isIn, .list vs⟩

def notIn (field : String) (vs : List Scalar) : Condition := ⟨field, .notIn, .list vs⟩

/-- The field holds the value somewhere inside. -/
def like (field : String) (v : Scalar) : Condition := ⟨field, .like, .scalar v⟩

end Condition

namespace Filter

def and (a b : Filter) : Filter := .group .and [a, b]

def or (a b : Filter) : Filter := .group .or [a, b]

def all (operands : List Filter) : Filter := .group .and operands

def any (operands : List Filter) : Filter := .group .or operands

mutual

/-- Equality of trees; numbers are compared as numbers, so a value that is no number differs from
itself and the two zeros are equal. -/
def same : Filter → Filter → Bool
  | .leaf c, .leaf d => c == d
  | .group c fs, .group d gs => c == d && sameAll fs gs
  | _, _ => false

def sameAll : List Filter → List Filter → Bool
  | [], [] => true
  | f :: fs, g :: gs => same f g && sameAll fs gs
  | _, _ => false

end

instance : BEq Filter := ⟨same⟩

end Filter
end Storehouse
