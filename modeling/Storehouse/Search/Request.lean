import Storehouse.Filter.Clause

namespace Storehouse.Search

inductive Direction
  | ascending
  | descending
  deriving DecidableEq, Repr

namespace Direction

def keyword : Direction → String
  | ascending => "ASC"
  | descending => "DESC"

/-- Minus one means descending, every other number ascending. -/
def ofInt (n : Int) : Direction :=
  if n = -1 then descending else ascending

end Direction

/-- The functions that turn the rows of a group into one value. -/
inductive Reducer
  | sum
  | count
  | average
  | min
  | max
  deriving DecidableEq, Repr

namespace Reducer

/-- The order in which reductions stand in a command. -/
def all : List Reducer := [sum, count, average, min, max]

def keyword : Reducer → String
  | sum => "SUM"
  | count => "COUNT"
  | average => "AVG"
  | min => "MIN"
  | max => "MAX"

end Reducer

structure Request where
  clause : Option Filter.Clause
  sort : List (String × Direction)
  limit : Option UInt64
  offset : Option UInt64
  groupBy : List String
  sum : Option String
  count : Option String
  average : Option String
  min : Option String
  max : Option String

inductive Setting
  | filter (clause : Filter.Clause)
  | sortBy (field : String) (direction : Direction)
  | limit (n : UInt64)
  | offset (n : UInt64)
  | groupBy (fields : List String)
  | reduce (reducer : Reducer) (field : String)

namespace Request

def empty : Request :=
  ⟨none, [], none, none, [], none, none, none, none, none⟩

def field? (r : Request) : Reducer → Option String
  | .sum => r.sum
  | .count => r.count
  | .average => r.average
  | .min => r.min
  | .max => r.max

/-- Orders accumulate; every other detail replaces an earlier one of its kind. -/
def set (r : Request) : Setting → Request
  | .filter clause => { r with clause := some clause }
  | .sortBy field direction => { r with sort := r.sort ++ [(field, direction)] }
  | .limit n => { r with limit := some n }
  | .offset n => { r with offset := some n }
  | .groupBy fields => { r with groupBy := fields }
  | .reduce .sum field => { r with sum := some field }
  | .reduce .count field => { r with count := some field }
  | .reduce .average field => { r with average := some field }
  | .reduce .min field => { r with min := some field }
  | .reduce .max field => { r with max := some field }

def ofSettings (settings : List Setting) : Request :=
  settings.foldl set empty

/-- The reductions asked for, in the order of a command. -/
def reductions (r : Request) : List (Reducer × String) :=
  Reducer.all.filterMap fun reducer => (r.field? reducer).map (reducer, ·)

end Request
end Storehouse.Search
