import Storehouse.Reply.Fields

namespace Storehouse

namespace Search

structure Hit where
  key : String
  fields : List (String × String)
  deriving DecidableEq, Repr

/-- The number of all matches, and the documents that were returned. -/
structure Page where
  total : UInt64
  hits : List Hit
  deriving DecidableEq

def holdsFields : Reply → Bool
  | .array _ | .map _ => true
  | _ => false

/-- Keys, each followed by the fields of its document or by the next key. -/
def hits : List Reply → Except Unexpected (List Hit)
  | [] => .ok []
  | key :: rest =>
    match key.toText with
    | .error _ => .error (.expected .documentKey key)
    | .ok name =>
      match rest with
      | [] => .ok [⟨name, []⟩]
      | next :: after =>
        if holdsFields next then do
          let fields ← next.fields
          let others ← hits after
          return ⟨name, fields⟩ :: others
        else do
          let others ← hits (next :: after)
          return ⟨name, []⟩ :: others

/-- The reply to a search: the number of matches, then the documents. -/
def Page.ofReply (r : Reply) : Except Unexpected Page :=
  match r.items? with
  | none => .error (.expected .searchReply r)
  | some [] => .error (.expected .nonemptySearchReply r)
  | some (total :: items) =>
    match total.toWord? with
    | none => .error (.expected .searchTotal total)
    | some n => (fun hits => ⟨n, hits⟩) <$> Search.hits items

/-- The reply to an aggregation: the rows after a number that is of no use. -/
def rowsOfReply (r : Reply) : Except Unexpected (List (List (String × String))) :=
  match r.items? with
  | none => .error (.expected .aggregateReply r)
  | some [] => .error (.expected .nonemptyAggregateReply r)
  | some (_ :: rows) => rows.mapM Reply.fields

end Search
end Storehouse
