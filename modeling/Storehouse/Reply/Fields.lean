import Storehouse.Named
import Storehouse.Reply.Convert

namespace Storehouse

/-- The part of a reply that was not as expected. -/
inductive Expectation
  | integerReply
  | searchReply
  | nonemptySearchReply
  | searchTotal
  | documentKey
  | fieldList
  | evenFieldList
  | fieldName
  | fieldValue
  | aggregateReply
  | nonemptyAggregateReply
  deriving DecidableEq, Repr

/-- The name under which a message reports that the expectation was not met. -/
def Expectation.label : Expectation → String
  | integerReply => "integer reply"
  | searchReply => "search reply"
  | nonemptySearchReply => "empty search reply"
  | searchTotal => "search total"
  | documentKey => "document key"
  | fieldList => "field list"
  | evenFieldList => "odd-length field list"
  | fieldName => "field name"
  | fieldValue => "field value"
  | aggregateReply => "aggregate reply"
  | nonemptyAggregateReply => "empty aggregate reply"

/-- A reply that cannot be read. -/
inductive Unexpected
  | expected (what : Expectation) (found : Reply)
  | mismatch (reason : Reply.Mismatch) (whole : Reply)
  | scan (reason : Reply.Mismatch) (whole : Reply)
  | scores (found : Reply)

def Unexpected.detail : Unexpected → String
  | expected what found => what.label ++ ": " ++ found.describe
  | mismatch reason whole => reason.message ++ ": " ++ whole.describe
  | scan reason whole => "SCAN: " ++ reason.message ++ ": " ++ whole.describe
  | scores found => "expected WITHSCORES reply, got " ++ found.describe

namespace Reply

variable {α : Type}

/-- The items in twos; none if one is left over. -/
def pairUp? : List Reply → Option (List (Reply × Reply))
  | [] => some []
  | [_] => none
  | name :: value :: rest => ((name, value) :: ·) <$> pairUp? rest

/-- The names and values of a field list: a map, or names and values in turn. -/
def pairs (r : Reply) : Except Unexpected (List (Reply × Reply)) :=
  match r with
  | .map entries => .ok entries
  | .array items | .set items =>
    match pairUp? items with
    | some pairs => .ok pairs
    | none => .error (.expected .evenFieldList r)
  | _ => .error (.expected .fieldList r)

/-- A field without a value is left out, whatever its name; a later value replaces an earlier one.
-/
def addField (fields : List (String × String)) (field : Reply × Reply) :
    Except Unexpected (List (String × String)) :=
  match field.2.toOptionalText with
  | .error _ => .error (.expected .fieldValue field.2)
  | .ok none => .ok fields
  | .ok (some value) =>
    match field.1.toText with
    | .error _ => .error (.expected .fieldName field.1)
    | .ok name => .ok (Named.insert name value fields)

/-- The fields of a document or row, in the order of their names. -/
def fields (r : Reply) : Except Unexpected (List (String × String)) := do
  (← r.pairs).foldlM addField []

def count (r : Reply) : Except Unexpected UInt64 :=
  match r.toWord? with
  | some n => .ok n
  | none => .error (.expected .integerReply r)

def items? : Reply → Option (List Reply)
  | .array items => some items
  | .set items => some items
  | _ => none

def readAs (convert : Reply → Except Mismatch α) (r : Reply) : Except Unexpected α :=
  (convert r).mapError (.mismatch · r)

def anyCounted (r : Reply) : Except Unexpected Bool :=
  (fun n => decide (0 < n)) <$> r.count

def ignore (_ : Reply) : Except Unexpected Unit := .ok ()

end Reply
end Storehouse
