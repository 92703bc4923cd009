import Storehouse.Search.Command

namespace Storehouse.Search.Index

open Storehouse.Filter (Clause)

variable {r : Request} {query : String}

/-- The command with the tokens `rest` behind the query; none if the filter does not compile. -/
def command (i : Index) (verb : String) (rest : List String) (r : Request) :
    Except Filter.Fault (List String) :=
  (fun query => verb :: i.name :: query :: rest) <$> Clause.query r.clause

theorem command_eq (i : Index) (verb : String) (rest : List String)
    (h : Clause.query r.clause = .ok query) :
    i.command verb rest r = .ok (verb :: i.name :: query :: rest) := by
  rw [command, h]
  rfl

theorem command_eq_error (i : Index) (verb : String) (rest : List String) {e : Filter.Fault}
    (h : Clause.query r.clause = .error e) : i.command verb rest r = .error e := by
  rw [command, h]
  rfl

theorem opening_append (i : Index) (verb : String) (rest : List String) (r : Request) :
    (do let opening ← i.opening verb r; return opening ++ rest) = i.command verb rest r := by
  rw [opening, command]
  cases Clause.query r.clause <;> rfl

theorem findCommand_eq_command (i : Index) (r : Request) : i.findCommand r =
    i.command "FT.SEARCH" (sortTokens r.sort ++ pageTokens r.offset r.limit) r := by
  rw [← opening_append]
  simp only [findCommand, List.append_assoc]

theorem countCommand_eq_command (i : Index) (r : Request) :
    i.countCommand r = i.command "FT.SEARCH" ["LIMIT", "0", "0"] r := by
  rw [← opening_append]
  rfl

theorem keysCommand_eq_command (i : Index) (r : Request) (limit : UInt64) : i.keysCommand r limit =
    i.command "FT.SEARCH" ["NOCONTENT", "LIMIT", "0", limit.toNat.repr] r := by
  rw [← opening_append]
  rfl

theorem aggregateCommand_eq_command (i : Index) (r : Request) : i.aggregateCommand r =
    i.command "FT.AGGREGATE" (i.groupTokens r ++ rowSortTokens r.sort) r := by
  rw [← opening_append]
  simp only [aggregateCommand, List.append_assoc]

end Storehouse.Search.Index
