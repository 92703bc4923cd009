import Storehouse.Proofs.Search.Commands
import Storehouse.Proofs.Search.Part

namespace Storehouse.Search

open Storehouse.Filter (Clause)

namespace Direction

def ofKeyword? : String → Option Direction
  | "ASC" => some ascending
  | "DESC" => some descending
  | _ => none

theorem ofKeyword?_keyword (d : Direction) : ofKeyword? d.keyword = some d := by
  cases d <;> rfl

end Direction

namespace Reducer

def ofKeyword? : String → Option Reducer
  | "SUM" => some sum
  | "COUNT" => some count
  | "AVG" => some average
  | "MIN" => some min
  | "MAX" => some max
  | _ => none

theorem ofKeyword?_keyword (r : Reducer) : ofKeyword? r.keyword = some r := by
  cases r <;> rfl

end Reducer

/-- A reducer with what it is applied to, and the name of its result. -/
structure Reduction where
  reducer : Reducer
  arguments : List String
  name : String
  deriving DecidableEq, Repr

namespace Part

/-- A field and a direction, as behind `SORTBY`. -/
def order : Part (String × Direction) where
  tokens o := [o.1, o.2.keyword]
  read?
    | field :: keyword :: rest => do
      let direction ← Direction.ofKeyword? keyword
      return ((field, direction), rest)
    | _ => none
  read?_tokens o rest := by
    simp only [List.cons_append, Direction.ofKeyword?_keyword]
    rfl
  length_lt {o tokens rest} h := by
    match tokens with
    | [] => cases h
    | [_] => cases h
    | field :: keyword :: others =>
      simp only [Option.bind_eq_bind, Option.bind_eq_some_iff] at h
      obtain ⟨_, _, h⟩ := h
      cases h
      rw [List.length_cons, List.length_cons]
      omega

/-- A reducer, its arguments and the name of the result, as behind `REDUCE`. -/
def reduction : Part Reduction where
  tokens r := r.reducer.keyword :: (counted.tokens r.arguments ++ ["AS", r.name])
  read?
    | [] => none
    | keyword :: rest => do
      let reducer ← Reducer.ofKeyword? keyword
      let (arguments, rest) ← counted.read? rest
      match rest with
      | "AS" :: name :: rest => some (⟨reducer, arguments, name⟩, rest)
      | _ => none
  read?_tokens r rest := by
    rw [List.cons_append, List.append_assoc]
    simp only [Reducer.ofKeyword?_keyword, counted.read?_tokens, bind, Option.bind,
      List.cons_append, List.nil_append]
  length_lt {r tokens rest} h := by
    cases tokens with
    | nil => cases h
    | cons keyword others =>
      simp only [Option.bind_eq_bind, Option.bind_eq_some_iff] at h
      obtain ⟨_, _, ⟨arguments, last⟩, hcounted, h⟩ := h
      have hlength := counted.length_lt hcounted
      split at h
      · next hlast =>
        cases h
        subst hlast
        rw [List.length_cons, List.length_cons] at hlength
        rw [List.length_cons]
        omega
      · cases h

end Part

inductive Command
  | search (index query : String) (sort : List (String × Direction)) (keysOnly : Bool)
    (page : Option (UInt64 × UInt64))
  | aggregate (index query : String) (groupBy : List String) (reductions : List Reduction)
    (sort : List (String × Direction))
  | delete (keys : List String)
  deriving DecidableEq, Repr

namespace Command

/-- Whether only keys are asked for, and the tokens behind. -/
def keysOnly : List String → Bool × List String
  | "NOCONTENT" :: rest => (true, rest)
  | rest => (false, rest)

/-- An offset and a limit, if there are tokens left. -/
def page? : List String → Option (Option (UInt64 × UInt64))
  | [] => some none
  | ["LIMIT", offset, limit] => do
    let offset ← Text.word? offset
    let limit ← Text.word? limit
    return some (offset, limit)
  | _ => none

def grouping? : List String → Option ((List String × List Reduction) × List String)
  | "GROUPBY" :: rest => do
    let (fields, rest) ← Part.counted.read? rest
    let (reductions, rest) ← Part.reduction.all? ["REDUCE"] rest
    return ((fields, reductions), rest)
  | rest => some (([], []), rest)

def ofTokens? : List String → Option Command
  | "FT.SEARCH" :: index :: query :: rest => do
    let (sort, rest) ← Part.order.all? ["SORTBY"] rest
    let (keysOnly, rest) := keysOnly rest
    let page ← page? rest
    return search index query sort keysOnly page
  | "FT.AGGREGATE" :: index :: query :: rest => do
    let ((groupBy, reductions), rest) ← grouping? rest
    let (sort, rest) ← Part.order.all? ["SORTBY", "1"] rest
    if rest = [] then some (aggregate index query groupBy reductions sort) else none
  | "DEL" :: keys => some (delete keys)
  | _ => none

/-- The command is built, and its tokens give back these parts. -/
def ReadsBack (built : Except Filter.Fault (List String)) (c : Command) : Prop :=
  ∃ tokens, built = .ok tokens ∧ ofTokens? tokens = some c

theorem ofTokens?_search (index query : String) (sort : List (String × Direction))
    {rest last : List String} {keys : Bool} {page : Option (UInt64 × UInt64)}
    (hsort : ["SORTBY"].isPrefixOf? rest = none) (hkeys : keysOnly rest = (keys, last))
    (hpage : page? last = some page) :
    ofTokens? ("FT.SEARCH" :: index :: query :: (Index.sortTokens sort ++ rest)) =
      some (search index query sort keys page) := by
  have hall : Part.order.all? ["SORTBY"] (Index.sortTokens sort ++ rest) = some (sort, rest) :=
    Part.order.all?_flatMap sort hsort
  rw [ofTokens?, hall]
  simp only [bind, Option.bind, hkeys, hpage]
  rfl

theorem page?_pageTokens (offset limit : Option UInt64) :
    page? (Index.pageTokens offset limit) = some (limit.map fun n => (offset.getD 0, n)) := by
  cases limit with
  | none => rfl
  | some n =>
    simp only [Index.pageTokens, page?, Text.word?_repr]
    rfl

theorem ofTokens?_aggregate (index query : String) (sort : List (String × Direction))
    {rest groupBy : List String} {reductions : List Reduction}
    (hgroup : grouping? (rest ++ Index.rowSortTokens sort) =
      some ((groupBy, reductions), Index.rowSortTokens sort)) :
    ofTokens? ("FT.AGGREGATE" :: index :: query :: (rest ++ Index.rowSortTokens sort)) =
      some (aggregate index query groupBy reductions sort) := by
  have hall : Part.order.all? ["SORTBY", "1"] (Index.rowSortTokens sort ++ []) =
      some (sort, []) :=
    Part.order.all?_flatMap sort rfl
  rw [List.append_nil] at hall
  rw [ofTokens?, hgroup]
  simp only [bind, Option.bind, hall]
  rfl

end Command

namespace Index

variable {i : Index} {r : Request}

def reduction (i : Index) (reducer : Reducer) (field : String) : Reduction :=
  ⟨reducer, if reducer = .count then [] else [field], i.aliases.get reducer⟩

theorem reduceTokens_eq (i : Index) (reducer : Reducer) (field : String) :
    i.reduceTokens reducer field =
      ["REDUCE"] ++ Part.reduction.tokens (i.reduction reducer field) := by
  have hzero : "0" = (0).repr := by decide
  have hone : "1" = (1).repr := by decide
  rw [reduceTokens, hzero, hone]
  cases reducer <;> rfl

def reductions (i : Index) (r : Request) : List Reduction :=
  [r.sum.map fun field => ⟨.sum, [field], i.aliases.sum⟩,
    r.count.map fun _ => ⟨.count, [], i.aliases.count⟩,
    r.average.map fun field => ⟨.average, [field], i.aliases.average⟩,
    r.min.map fun field => ⟨.min, [field], i.aliases.min⟩,
    r.max.map fun field => ⟨.max, [field], i.aliases.max⟩].filterMap id

theorem reductions_eq_map (i : Index) (r : Request) :
    i.reductions r = r.reductions.map fun (reducer, field) => i.reduction reducer field := by
  have hmap (reducer : Reducer) (field? : Option String) :
      (field?.map (reducer, ·)).map (fun (reducer, field) => i.reduction reducer field) =
        field?.map (i.reduction reducer) := by
    cases field? <;> rfl
  rw [Request.reductions, List.map_filterMap]
  simp only [hmap]
  rfl

theorem grouping?_groupTokens (i : Index) (r : Request) (sort : List (String × Direction)) :
    Command.grouping? (i.groupTokens r ++ rowSortTokens sort) =
      some ((r.groupBy, if r.groupBy = [] then [] else i.reductions r), rowSortTokens sort) := by
  have hend : ["REDUCE"].isPrefixOf? (rowSortTokens sort) = none := by
    cases sort <;> rfl
  have hreductions : (r.reductions.flatMap fun (reducer, field) => i.reduceTokens reducer field) =
      (i.reductions r).flatMap fun a => ["REDUCE"] ++ Part.reduction.tokens a := by
    rw [reductions_eq_map, List.flatMap_map]
    simp only [reduceTokens_eq]
  cases hgroup : r.groupBy with
  | nil =>
    rw [groupTokens, hgroup]
    cases sort <;> rfl
  | cons field fields =>
    have hcounted := Part.counted.read?_tokens (field :: fields)
      ((i.reductions r).flatMap (fun a => ["REDUCE"] ++ Part.reduction.tokens a) ++
        rowSortTokens sort)
    have hall := Part.reduction.all?_flatMap (i.reductions r) hend
    have htokens : i.groupTokens r ++ rowSortTokens sort = "GROUPBY" ::
        (Part.counted.tokens (field :: fields) ++
          ((i.reductions r).flatMap (fun a => ["REDUCE"] ++ Part.reduction.tokens a) ++
            rowSortTokens sort)) := by
      rw [groupTokens, hgroup, hreductions, ← List.append_assoc]
      rfl
    rw [htokens, Command.grouping?, hcounted, if_neg (List.cons_ne_nil _ _)]
    simp only [bind, Option.bind, hall]
    rfl

variable {query : String}

theorem readsBack_find (h : Clause.query r.clause = .ok query) :
    Command.ReadsBack (i.findCommand r) (.search i.name query r.sort false
      (r.limit.map fun limit => (r.offset.getD 0, limit))) := by
  have hbuilt := (i.findCommand_eq_command r).trans (i.command_eq _ _ h)
  have hsort : ["SORTBY"].isPrefixOf? (pageTokens r.offset r.limit) = none := by
    cases r.limit <;> rfl
  have hkeys : Command.keysOnly (pageTokens r.offset r.limit) =
      (false, pageTokens r.offset r.limit) := by
    cases r.limit <;> rfl
  exact ⟨_, hbuilt, Command.ofTokens?_search i.name query r.sort hsort hkeys
    (Command.page?_pageTokens r.offset r.limit)⟩

theorem readsBack_count (h : Clause.query r.clause = .ok query) :
    Command.ReadsBack (i.countCommand r) (.search i.name query [] false (some (0, 0))) := by
  have hbuilt := (i.countCommand_eq_command r).trans (i.command_eq _ _ h)
  have hpage := Command.page?_pageTokens (some 0) (some 0)
  exact ⟨_, hbuilt, Command.ofTokens?_search i.name query [] rfl rfl hpage⟩

theorem readsBack_keys (h : Clause.query r.clause = .ok query) (limit : UInt64) :
    Command.ReadsBack (i.keysCommand r limit)
      (.search i.name query [] true (some (0, limit))) := by
  have hbuilt := (i.keysCommand_eq_command r limit).trans (i.command_eq _ _ h)
  have hpage := Command.page?_pageTokens (some 0) (some limit)
  exact ⟨_, hbuilt, Command.ofTokens?_search i.name query [] rfl rfl hpage⟩

theorem readsBack_aggregate (h : Clause.query r.clause = .ok query) :
    Command.ReadsBack (i.aggregateCommand r) (.aggregate i.name query r.groupBy
      (if r.groupBy = [] then [] else i.reductions r) r.sort) := by
  have hbuilt := (i.aggregateCommand_eq_command r).trans (i.command_eq _ _ h)
  have hgroup := i.grouping?_groupTokens r r.sort
  exact ⟨_, hbuilt, Command.ofTokens?_aggregate i.name query r.sort hgroup⟩

/-- Whatever names a request uses, its commands give back all that they were written from: the order
in the sequence in which it was asked for, the page if there is a limit, and under a grouping the
reductions with their fields and names. -/
theorem commands_read_back (i : Index) (r : Request) (query : String)
    (hquery : Clause.query r.clause = .ok query) (limit : UInt64) (keys : List String) :
    Command.ReadsBack (i.findCommand r) (.search i.name query r.sort false
      (r.limit.map fun limit => (r.offset.getD 0, limit))) ∧
    Command.ReadsBack (i.countCommand r) (.search i.name query [] false (some (0, 0))) ∧
    Command.ReadsBack (i.keysCommand r limit) (.search i.name query [] true (some (0, limit))) ∧
    Command.ReadsBack (.ok (removeCommand keys)) (.delete keys) ∧
    Command.ReadsBack (i.aggregateCommand r) (.aggregate i.name query r.groupBy
      (if r.groupBy = [] then [] else i.reductions r) r.sort) := by
  have hremove : Command.ReadsBack (.ok (removeCommand keys)) (.delete keys) := ⟨_, rfl, rfl⟩
  exact ⟨readsBack_find hquery, readsBack_count hquery, readsBack_keys hquery limit, hremove,
    readsBack_aggregate hquery⟩

/-- A request all of whose names are keywords or numbers. -/
theorem keywords_read_back : ∃ r : Request, r = .ofSettings [.sortBy "LIMIT" .descending,
      .sortBy "SORTBY" .ascending, .limit 10, .groupBy ["REDUCE", "2"], .reduce .max "AS",
      .reduce .count "GROUPBY"] ∧
    Clause.query r.clause = .ok "*" ∧
    Command.ReadsBack (findCommand (.ofName "NOCONTENT") r) (.search "NOCONTENT" "*"
      [("LIMIT", .descending), ("SORTBY", .ascending)] false (some (0, 10))) ∧
    Command.ReadsBack (aggregateCommand (.ofName "NOCONTENT") r) (.aggregate "NOCONTENT" "*"
      ["REDUCE", "2"] [⟨.count, [], "count"⟩, ⟨.max, ["AS"], "max"⟩]
      [("LIMIT", .descending), ("SORTBY", .ascending)]) := by
  obtain ⟨hfind, -, -, -, haggregate⟩ :=
    commands_read_back (.ofName "NOCONTENT") (.ofSettings [.sortBy "LIMIT" .descending,
      .sortBy "SORTBY" .ascending, .limit 10, .groupBy ["REDUCE", "2"], .reduce .max "AS",
      .reduce .count "GROUPBY"]) "*" rfl 1 []
  exact ⟨_, rfl, rfl, hfind, haggregate⟩

end Index
end Storehouse.Search
