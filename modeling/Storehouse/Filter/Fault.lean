import Storehouse.Filter.Basic
import Storehouse.Json.Writer

namespace Storehouse.Filter

inductive Fault
  | notObject (found : Json)
  | unknownShape (found : Json)
  | fieldNotText
  | unknownOperator (name : String)
  | operatorNotText (found : Json)
  | notScalar (found : Json)
  | combinatorNotText
  | unknownCombinator (name : String)
  | operandsNotList
  | wrongOperand (operator : Operator) (field : String)

namespace Fault

/-- Whether the fault is the choice of an operator, and not the form of the filter. -/
def ofOperator : Fault → Bool
  | unknownOperator _ | operatorNotText _ => true
  | _ => false

def detail : Fault → String
  | notObject found => "expected an object, got " ++ found.write
  | unknownShape found => "unrecognized node shape " ++ found.write
  | fieldNotText => "field must be a string"
  | unknownOperator name => name
  | operatorNotText found => found.write
  | notScalar found => "expected a scalar value, got " ++ found.write
  | combinatorNotText => "combinator must be a string"
  | unknownCombinator name => "unknown combinator '" ++ name ++ "'"
  | operandsNotList => "operands must be an array"
  | wrongOperand op field =>
    "operator '" ++ op.name ++ "' on field '" ++ field ++ "' expects a "
      ++ (if op.takesList then "list" else "scalar") ++ " value"

def message (f : Fault) : String :=
  (if f.ofOperator then "Unsupported operator: " else "Invalid condition format: ") ++ f.detail

end Fault
end Storehouse.Filter
