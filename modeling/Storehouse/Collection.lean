import Storehouse.Exchange.Keyed
import Storehouse.Json.Record

namespace Storehouse
namespace Collection

/-- What can be asked of a hash, with the type of the answer. -/
inductive Hash : Type → Type
  | add (field value : String) : Hash Unit
  | members : Hash (List (String × String))
  | remove (field : String) : Hash Bool
  | length : Hash UInt64
  | clear : Hash Bool
  | get (field : String) : Hash (Option String)
  | contains (field : String) : Hash Bool

def Hash.keyed {α : Type} : Hash α → Keyed α
  | add field value => ⟨"HSET", [field, value], Reply.ignore⟩
  | members => ⟨"HGETALL", [], Reply.fields⟩
  | remove field => ⟨"HDEL", [field], Reply.anyCounted⟩
  | length => ⟨"HLEN", [], Reply.count⟩
  | clear => .delete
  | get field => ⟨"HGET", [field], Reply.readAs Reply.toOptionalText⟩
  | contains field => ⟨"HEXISTS", [field], Reply.readAs Reply.toBool⟩

/-- What can be asked of a set, with the type of the answer. -/
inductive Members : Type → Type
  | add (item : String) : Members Unit
  | members : Members (List String)
  | remove (item : String) : Members Bool
  | length : Members UInt64
  | clear : Members Bool
  | contains (item : String) : Members Bool

def Members.keyed {α : Type} : Members α → Keyed α
  | add item => ⟨"SADD", [item], Reply.ignore⟩
  | members => ⟨"SMEMBERS", [], Reply.readAs Reply.toTexts⟩
  | remove item => ⟨"SREM", [item], Reply.anyCounted⟩
  | length => ⟨"SCARD", [], Reply.count⟩
  | clear => .delete
  | contains item => ⟨"SISMEMBER", [item], Reply.readAs Reply.toBool⟩

/-- What can be asked of a list, with the type of the answer. -/
inductive Sequence : Type → Type
  | add (item : String) : Sequence Unit
  | members : Sequence (List String)
  | remove (item : String) : Sequence Bool
  | length : Sequence UInt64
  | clear : Sequence Bool
  | pushFront (item : String) : Sequence UInt64
  | popFront : Sequence (Option String)
  | popBack : Sequence (Option String)
  | range (start stop : Int64) : Sequence (List String)

/-- The command that asks for it; new items go to the back, and all equal items are removed. -/
def Sequence.keyed {α : Type} : Sequence α → Keyed α
  | add item => ⟨"RPUSH", [item], Reply.ignore⟩
  | members => ⟨"LRANGE", ["0", "-1"], Reply.readAs Reply.toTexts⟩
  | remove item => ⟨"LREM", ["0", item], Reply.anyCounted⟩
  | length => ⟨"LLEN", [], Reply.count⟩
  | clear => .delete
  | pushFront item => ⟨"LPUSH", [item], Reply.count⟩
  | popFront => ⟨"LPOP", [], Reply.readAs Reply.toOptionalText⟩
  | popBack => ⟨"RPOP", [], Reply.readAs Reply.toOptionalText⟩
  | range start stop =>
    ⟨"LRANGE", [start.toInt.repr, stop.toInt.repr], Reply.readAs Reply.toTexts⟩

end Collection

structure ScoredMember where
  member : String
  score : Float

namespace ScoredMember

def shape : List (String × Json.FieldKind) := [("member", .text), ("score", .float)]

def ofShaped? : Json → Option ScoredMember
  | .object [(_, .string member), (_, .number n)] => some ⟨member, n.toFloat⟩
  | _ => none

def ofJson? (v : Json) : Option ScoredMember := v.shaped? shape >>= ofShaped?

def toJson (m : ScoredMember) : Json :=
  .object [("member", .string m.member), ("score", .ofFloat m.score)]

end ScoredMember

namespace Reply

def score (r : Reply) : Except Unexpected Float :=
  match r.toFloat? with
  | some x => .ok x
  | none => .error (.scores r)

/-- A member that is not text is blamed on the reply around it. -/
def scoredMember (whole : Reply) (member score : Reply) : Except Unexpected ScoredMember :=
  match member.toText with
  | .ok name => (fun x => ⟨name, x⟩) <$> score.score
  | .error _ => .error (.scores whole)

def isArray : Reply → Bool
  | .array _ => true
  | _ => false

def scoredPair : Reply → Except Unexpected ScoredMember
  | pair@(.array [member, score]) => scoredMember pair member score
  | r => .error (.scores r)

/-- Members with scores: in turn in one array, or each pair in an array of its own. -/
def scored (r : Reply) : Except Unexpected (List ScoredMember) :=
  match r with
  | .nil => .ok []
  | .array items =>
    if items.all isArray then items.mapM scoredPair
    else
      match pairUp? items with
      | some pairs => pairs.mapM fun (member, score) => scoredMember r member score
      | none => .error (.scores r)
  | _ => .error (.scores r)

def optionalScore (r : Reply) : Except Unexpected (Option Float) :=
  match r with
  | .nil => .ok none
  | _ => some <$> r.score

end Reply

namespace Collection

/-- What can be asked of a sorted set, with the type of the answer. -/
inductive Ranking : Type → Type
  | add (item : ScoredMember) : Ranking Unit
  | members : Ranking (List ScoredMember)
  | remove (member : String) : Ranking Bool
  | length : Ranking UInt64
  | clear : Ranking Bool
  | score (member : String) : Ranking (Option Float)
  | rangeByScore (min max : Float) : Ranking (List ScoredMember)

/-- The command that asks for it; adding a member that is there gives it a new score. -/
def Ranking.keyed {α : Type} : Ranking α → Keyed α
  | add item => ⟨"ZADD", [Double.plain.write item.score, item.member], Reply.ignore⟩
  | members => ⟨"ZRANGE", ["0", "-1", "WITHSCORES"], Reply.scored⟩
  | remove member => ⟨"ZREM", [member], Reply.anyCounted⟩
  | length => ⟨"ZCARD", [], Reply.count⟩
  | clear => .delete
  | score member => ⟨"ZSCORE", [member], Reply.optionalScore⟩
  | rangeByScore min max =>
    ⟨"ZRANGEBYSCORE", [Double.plain.write min, Double.plain.write max, "WITHSCORES"],
      Reply.scored⟩

end Collection
end Storehouse
