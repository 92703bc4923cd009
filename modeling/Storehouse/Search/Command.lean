import Storehouse.Json.Record
import Storehouse.Search.Request

namespace Storehouse.Search

/-- The names under which reductions appear in the result. -/
structure Aliases where
  sum : String
  count : String
  average : String
  min : String
  max : String
  deriving DecidableEq, Repr

namespace Aliases

def default : Aliases := ⟨"totalSum", "count", "average", "min", "max"⟩

def get (a : Aliases) : Reducer → String
  | .sum => a.sum
  | .count => a.count
  | .average => a.average
  | .min => a.min
  | .max => a.max

def ofJson? (v : Json) : Option Aliases :=
  match v.fields? ["sum", "count", "average", "min", "max"] with
  | some [sum, count, average, min, max] => do
    let sum ← Json.orElse default.sum Json.string? sum
    let count ← Json.orElse default.count Json.string? count
    let average ← Json.orElse default.average Json.string? average
    let min ← Json.orElse default.min Json.string? min
    let max ← Json.orElse default.max Json.string? max
    return ⟨sum, count, average, min, max⟩
  | _ => none

end Aliases

structure Index where
  name : String
  aliases : Aliases
  deriving DecidableEq, Repr

namespace Index

def default : Index := ⟨"idx:default", .default⟩

def ofName (name : String) : Index := ⟨name, .default⟩

def ofJson? (v : Json) : Option Index :=
  match v.fields? ["index_name", "aliases"] with
  | some [name, aliases] => do
    let name ← Json.orElse default.name Json.string? name
    let aliases ← Json.orElse default.aliases Aliases.ofJson? aliases
    return ⟨name, aliases⟩
  | _ => none

/-- The verb, the index and the query, with which every command of a search starts. -/
def opening (i : Index) (verb : String) (r : Request) : Except Filter.Fault (List String) :=
  (fun query => [verb, i.name, query]) <$> Filter.Clause.query r.clause

def sortTokens (sort : List (String × Direction)) : List String :=
  sort.flatMap fun (field, direction) => ["SORTBY", field, direction.keyword]

/-- A page is asked for only with a limit, be it zero; without an offset it starts at the front. -/
def pageTokens (offset limit : Option UInt64) : List String :=
  match limit with
  | none => []
  | some limit => ["LIMIT", (offset.getD 0).toNat.repr, limit.toNat.repr]

def findCommand (i : Index) (r : Request) : Except Filter.Fault (List String) := do
  let opening ← i.opening "FT.SEARCH" r
  return opening ++ sortTokens r.sort ++ pageTokens r.offset r.limit

def countCommand (i : Index) (r : Request) : Except Filter.Fault (List String) := do
  let opening ← i.opening "FT.SEARCH" r
  return opening ++ ["LIMIT", "0", "0"]

/-- Asks for at most `limit` keys, without the fields of their documents. -/
def keysCommand (i : Index) (r : Request) (limit : UInt64) :
    Except Filter.Fault (List String) := do
  let opening ← i.opening "FT.SEARCH" r
  return opening ++ ["NOCONTENT", "LIMIT", "0", limit.toNat.repr]

def removeCommand (keys : List String) : List String := "DEL" :: keys

/-- Counting needs no field, every other reducer takes one. -/
def reduceTokens (i : Index) (reducer : Reducer) (field : String) : List String :=
  "REDUCE" :: reducer.keyword ::
    (if reducer = .count then ["0"] else ["1", field]) ++ ["AS", i.aliases.get reducer]

/-- Reductions belong to a grouping and are dropped without one. -/
def groupTokens (i : Index) (r : Request) : List String :=
  match r.groupBy with
  | [] => []
  | fields =>
    "GROUPBY" :: fields.length.repr :: fields
      ++ r.reductions.flatMap fun (reducer, field) => i.reduceTokens reducer field

def rowSortTokens (sort : List (String × Direction)) : List String :=
  sort.flatMap fun (field, direction) => ["SORTBY", "1", field, direction.keyword]

def aggregateCommand (i : Index) (r : Request) : Except Filter.Fault (List String) := do
  let opening ← i.opening "FT.AGGREGATE" r
  return opening ++ i.groupTokens r ++ rowSortTokens r.sort

end Index
end Storehouse.Search
