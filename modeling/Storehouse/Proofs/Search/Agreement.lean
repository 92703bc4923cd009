import Storehouse.Proofs.Exchange.Tallies
import Storehouse.Proofs.Search.Commands
import Storehouse.Search.Operations

namespace Storehouse

namespace Dialogue

/-- Whatever the executor is, the fault is recorded once and is the result; nothing is sent. -/
def RefusesFilter {α : Type} (d : Dialogue α) (e : Filter.Fault) : Prop :=
  ∀ (σ : Type) (execute : Executor σ) (x : Exchange σ),
    d.run execute x = (.error (.filter e), ⟨x.server, x.events ++ [.compileError]⟩)

variable {α β : Type} {d : Dialogue α} {e : Filter.Fault}

theorem RefusesFilter.bind (h : d.RefusesFilter e) (f : α → Dialogue β) :
    (d >>= f).RefusesFilter e := by
  intro σ execute x
  rw [run_bind, h]

end Dialogue

namespace Search.Index

open Storehouse.Filter (Clause)

variable {i : Index} {r r' : Request}

def commands (i : Index) (r : Request) (limit : UInt64) :
    List (Except Filter.Fault (List String)) :=
  [i.findCommand r, i.countCommand r, i.keysCommand r limit, i.aggregateCommand r]

theorem exists_command_of_mem {limit : UInt64} {built : Except Filter.Fault (List String)}
    (h : built ∈ i.commands r limit) : ∃ verb rest, built = i.command verb rest r := by
  rw [commands, i.findCommand_eq_command, i.countCommand_eq_command, i.keysCommand_eq_command,
    i.aggregateCommand_eq_command] at h
  simp only [List.mem_cons, List.not_mem_nil, or_false] at h
  obtain h | h | h | h := h
  all_goals exact ⟨_, _, h⟩

theorem command_congr (i : Index) (verb : String) (rest : List String)
    (h : r'.clause = r.clause) : i.command verb rest r' = i.command verb rest r := by
  rw [command, h, command]

theorem groupTokens_congr (i : Index) (hgroup : r'.groupBy = r.groupBy)
    (hfield : ∀ reducer, r'.field? reducer = r.field? reducer) :
    i.groupTokens r' = i.groupTokens r := by
  have hreductions : r'.reductions = r.reductions := by
    simp only [Request.reductions, hfield]
  rw [groupTokens, groupTokens, hgroup, hreductions]

theorem compiled_refuses {built : Except Filter.Fault (List String)} {e : Filter.Fault}
    (h : built = .error e) : (compiled built).RefusesFilter e := by
  intro σ execute x
  rw [h]
  rfl

/-- Each command is the same for both requests, as long as they agree on what it is made of. -/
structure CommandsAgree (i : Index) (r r' : Request) : Prop where
  count : i.countCommand r' = i.countCommand r
  keys (limit : UInt64) : i.keysCommand r' limit = i.keysCommand r limit
  find : r'.sort = r.sort → r'.limit = r.limit → r'.offset = r.offset →
    i.findCommand r' = i.findCommand r
  aggregate : r'.sort = r.sort → r'.groupBy = r.groupBy →
    (∀ reducer, r'.field? reducer = r.field? reducer) → i.aggregateCommand r' = i.aggregateCommand r

theorem commandsAgree (i : Index) (h : r'.clause = r.clause) : CommandsAgree i r r' where
  count := by
    rw [countCommand_eq_command, countCommand_eq_command]
    exact i.command_congr _ _ h
  keys limit := by
    rw [keysCommand_eq_command, keysCommand_eq_command]
    exact i.command_congr _ _ h
  find hsort hlimit hoffset := by
    rw [findCommand_eq_command, findCommand_eq_command, hsort, hlimit, hoffset]
    exact i.command_congr _ _ h
  aggregate hsort hgroup hfield := by
    rw [aggregateCommand_eq_command, aggregateCommand_eq_command, hsort,
      i.groupTokens_congr hgroup hfield]
    exact i.command_congr _ _ h

structure Refused (i : Index) (r : Request) (e : Filter.Fault) : Prop where
  find : (i.find r).RefusesFilter e
  count : (i.count r).RefusesFilter e
  remove : (i.remove r).RefusesFilter e
  aggregate : (i.aggregate r).RefusesFilter e

theorem refused (i : Index) {e : Filter.Fault} (h : Clause.query r.clause = .error e) :
    Refused i r e := by
  have herror (verb : String) (rest : List String) : i.command verb rest r = .error e :=
    i.command_eq_error verb rest h
  have hfind := (i.findCommand_eq_command r).trans (herror _ _)
  have hcount := (i.countCommand_eq_command r).trans (herror _ _)
  have haggregate := (i.aggregateCommand_eq_command r).trans (herror _ _)
  have hcounted : (i.count r).RefusesFilter e := ((compiled_refuses hcount).bind _).bind _
  exact {
    find := ((compiled_refuses hfind).bind _).bind _
    count := hcounted
    remove := hcounted.bind _
    aggregate := (compiled_refuses haggregate).bind _ }

/-- The commands of a request name the same index and the same query, or none of them is built; a
command is the same for requests that agree on its details; and every search with a filter that does
not compile fails with its fault, which is recorded and counted once, and sends nothing. -/
theorem searches_agree (i : Index) :
    (∀ r limit query, Clause.query r.clause = .ok query → ∀ built ∈ i.commands r limit,
      ∃ verb rest, built = .ok (verb :: i.name :: query :: rest)) ∧
    (∀ r limit e, Clause.query r.clause = .error e → ∀ built ∈ i.commands r limit,
      built = .error e) ∧
    Clause.query none = .ok "*" ∧
    (∀ r r' : Request, r'.clause = r.clause → CommandsAgree i r r') ∧
    (∀ r e, Clause.query r.clause = .error e → Refused i r e) ∧
    ∀ events, ∃ n, Measure.tally events (.ofEvent .compileError) = .counter n ∧
      Measure.tally (events ++ [.compileError]) (.ofEvent .compileError) = .counter (n + 1) := by
  have hbuilt (r : Request) (limit : UInt64) (query : String)
      (h : Clause.query r.clause = .ok query) : ∀ built ∈ i.commands r limit,
        ∃ verb rest, built = .ok (verb :: i.name :: query :: rest) := by
    intro built hbuilt
    obtain ⟨verb, rest, rfl⟩ := exists_command_of_mem hbuilt
    exact ⟨verb, rest, i.command_eq verb rest h⟩
  have herror (r : Request) (limit : UInt64) (e : Filter.Fault)
      (h : Clause.query r.clause = .error e) : ∀ built ∈ i.commands r limit,
        built = .error e := by
    intro built hbuilt
    obtain ⟨verb, rest, rfl⟩ := exists_command_of_mem hbuilt
    exact i.command_eq_error verb rest h
  have hcounter (events : List Event) :
      ∃ n, Measure.tally events (.ofEvent .compileError) = .counter n ∧
        Measure.tally (events ++ [.compileError]) (.ofEvent .compileError) = .counter (n + 1) :=
    ⟨_, Measure.tally_compileError events, Measure.tally_compileError_append events⟩
  exact ⟨hbuilt, herror, rfl, fun r r' h => i.commandsAgree h, fun r e h => i.refused h, hcounter⟩

/-- A membership test on a single value, which no search accepts. -/
theorem searches_refuse_role : ∃ r e, r.clause =
      some (.ready (.leaf ⟨"role", .notIn, .scalar (.text "guest")⟩)) ∧
    Clause.query r.clause = .error e ∧ Refused (.ofName "idx:users") r e := by
  obtain ⟨-, -, -, -, hrefused, -⟩ := searches_agree (.ofName "idx:users")
  exact ⟨{ Request.empty with clause := _ }, .wrongOperand .notIn "role", rfl, rfl,
    hrefused _ _ rfl⟩

end Search.Index
end Storehouse
