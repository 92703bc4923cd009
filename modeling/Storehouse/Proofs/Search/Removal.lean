import Storehouse.Proofs.Exchange.Turns
import Storehouse.Proofs.Search.Commands
import Storehouse.Search.Operations

namespace Storehouse.Search.Index

open Storehouse.Filter (Clause)

variable {σ : Type} {i : Index} {r : Request} {query : String}

def countTokens (i : Index) (query : String) : List String :=
  ["FT.SEARCH", i.name, query, "LIMIT", "0", "0"]

def keysTokens (i : Index) (query : String) (limit : UInt64) : List String :=
  ["FT.SEARCH", i.name, query, "NOCONTENT", "LIMIT", "0", limit.toNat.repr]

theorem countCommand_eq (h : Clause.query r.clause = .ok query) :
    i.countCommand r = .ok (i.countTokens query) :=
  (i.countCommand_eq_command r).trans (i.command_eq _ _ h)

theorem countCommand_eq_error {e : Filter.Fault} (h : Clause.query r.clause = .error e) :
    i.countCommand r = .error e :=
  (i.countCommand_eq_command r).trans (i.command_eq_error _ _ h)

theorem keysCommand_eq (h : Clause.query r.clause = .ok query) (limit : UInt64) :
    i.keysCommand r limit = .ok (i.keysTokens query limit) :=
  (i.keysCommand_eq_command r limit).trans (i.command_eq _ _ h)

theorem takes_page {command : Except Filter.Fault (List String)} {tokens : List String}
    (hcommand : command = .ok tokens) {reply : Reply} {read : Except Unexpected Page}
    (hread : Page.ofReply reply = read) :
    (page command).Takes [⟨tokens, reply⟩] [] (read.mapError .unexpected) := by
  rw [hcommand, ← hread]
  exact .send (.done _)

theorem takes_page_error {command : Except Filter.Fault (List String)} {e : Filter.Fault}
    (hcommand : command = .error e) :
    (page command).Takes [] [.compileError] (.error (.filter e)) := by
  rw [hcommand]
  exact .record (.done _)

/-- The turns of a removal, the events that it records, and its result. -/
inductive Removal (i : Index) (r : Request) :
    List Turn → List Event → Except Fault UInt64 → Prop
  | notCompiled {e : Filter.Fault} (hquery : Clause.query r.clause = .error e) :
    Removal i r [] [.compileError] (.error (.filter e))
  | notCounted {query : String} {first : Reply} {u : Unexpected}
    (hquery : Clause.query r.clause = .ok query) (hfirst : Page.ofReply first = .error u) :
    Removal i r [⟨i.countTokens query, first⟩] [] (.error (.unexpected u))
  | noneCounted {query : String} {first : Reply} {counted : Page}
    (hquery : Clause.query r.clause = .ok query) (hfirst : Page.ofReply first = .ok counted)
    (htotal : counted.total = 0) :
    Removal i r [⟨i.countTokens query, first⟩] [] (.ok 0)
  | notFound {query : String} {first second : Reply} {counted : Page} {u : Unexpected}
    (hquery : Clause.query r.clause = .ok query) (hfirst : Page.ofReply first = .ok counted)
    (htotal : counted.total ≠ 0) (hsecond : Page.ofReply second = .error u) :
    Removal i r [⟨i.countTokens query, first⟩, ⟨i.keysTokens query counted.total, second⟩] []
      (.error (.unexpected u))
  | noneFound {query : String} {first second : Reply} {counted found : Page}
    (hquery : Clause.query r.clause = .ok query) (hfirst : Page.ofReply first = .ok counted)
    (htotal : counted.total ≠ 0) (hsecond : Page.ofReply second = .ok found)
    (hhits : found.hits = []) :
    Removal i r [⟨i.countTokens query, first⟩, ⟨i.keysTokens query counted.total, second⟩] []
      (.ok 0)
  | deleted {query : String} {first second : Reply} {counted found : Page}
    (hquery : Clause.query r.clause = .ok query) (hfirst : Page.ofReply first = .ok counted)
    (htotal : counted.total ≠ 0) (hsecond : Page.ofReply second = .ok found)
    (hhits : found.hits ≠ []) (third : Reply) :
    Removal i r [⟨i.countTokens query, first⟩, ⟨i.keysTokens query counted.total, second⟩,
      ⟨"DEL" :: found.hits.map Hit.key, third⟩] [] (third.count.mapError .unexpected)

theorem takes_count (hquery : Clause.query r.clause = .ok query) {first : Reply} {counted : Page}
    (hfirst : Page.ofReply first = .ok counted) :
    (i.count r).Takes [⟨i.countTokens query, first⟩] [] (.ok counted.total) :=
  (takes_page (countCommand_eq hquery) hfirst).bind (.done _)

theorem Removal.takes {turns : List Turn} {events : List Event} {result : Except Fault UInt64}
    (h : Removal i r turns events result) : (i.remove r).Takes turns events result := by
  rw [remove]
  cases h with
  | notCompiled hquery =>
    exact ((takes_page_error (countCommand_eq_error hquery)).bind_error _).bind_error _
  | notCounted hquery hfirst =>
    exact ((takes_page (countCommand_eq hquery) hfirst).bind_error _).bind_error _
  | noneCounted hquery hfirst htotal =>
    apply (takes_count hquery hfirst).bind
    rw [if_pos htotal]
    exact .done _
  | notFound hquery hfirst htotal hsecond =>
    apply (takes_count hquery hfirst).bind
    rw [if_neg htotal]
    exact (takes_page (keysCommand_eq hquery _) hsecond).bind_error _
  | noneFound hquery hfirst htotal hsecond hhits =>
    apply (takes_count hquery hfirst).bind
    rw [if_neg htotal]
    apply (takes_page (keysCommand_eq hquery _) hsecond).bind
    rw [hhits]
    exact .done _
  | deleted hquery hfirst htotal hsecond hhits third =>
    apply (takes_count hquery hfirst).bind
    rw [if_neg htotal]
    apply (takes_page (keysCommand_eq hquery _) hsecond).bind
    obtain ⟨hit, hits, hcons⟩ := List.exists_cons_of_ne_nil hhits
    rw [hcons]
    exact (Dialogue.Takes.ask _ third).bind (.done _)

theorem exists_removal {execute : Executor σ}
    (hanswers : ∀ verb arguments s, ∃ reply t, execute (verb :: arguments) s = (.ok reply, t))
    (i : Index) (r : Request) (s : σ) :
    ∃ turns events result t, Removal i r turns events result ∧ Serves execute s turns t := by
  cases hquery : Clause.query r.clause with
  | error e => exact ⟨_, _, _, s, .notCompiled hquery, .nil s⟩
  | ok query =>
    obtain ⟨first, t, ht⟩ := hanswers _ _ s
    cases hfirst : Page.ofReply first with
    | error u => exact ⟨_, _, _, t, .notCounted hquery hfirst, .cons ht (.nil t)⟩
    | ok counted =>
      by_cases htotal : counted.total = 0
      · exact ⟨_, _, _, t, .noneCounted hquery hfirst htotal, .cons ht (.nil t)⟩
      · obtain ⟨second, u, hu⟩ := hanswers _ _ t
        cases hsecond : Page.ofReply second with
        | error e =>
          exact ⟨_, _, _, u, .notFound hquery hfirst htotal hsecond, .cons ht (.cons hu (.nil u))⟩
        | ok found =>
          by_cases hhits : found.hits = []
          · exact ⟨_, _, _, u, .noneFound hquery hfirst htotal hsecond hhits,
              .cons ht (.cons hu (.nil u))⟩
          · obtain ⟨third, v, hv⟩ := hanswers _ _ u
            exact ⟨_, _, _, v, .deleted hquery hfirst htotal hsecond hhits third,
              .cons ht (.cons hu (.cons hv (.nil v)))⟩

/-- The guards of a removal: when each command is sent and what it asks for, when the removal fails,
and what it returns. -/
structure Guarded (i : Index) (r : Request) (turns : List Turn) (result : Except Fault UInt64) :
    Prop where
  length_le : turns.length ≤ 3
  count_sent (command : List String) : turns[0]?.map Turn.command = some command ↔
    ∃ query, Clause.query r.clause = .ok query ∧
      command = ["FT.SEARCH", i.name, query, "LIMIT", "0", "0"]
  keys_sent (command : List String) : turns[1]?.map Turn.command = some command ↔
    ∃ query first counted, Clause.query r.clause = .ok query ∧
      turns[0]?.map Turn.reply = some first ∧ Page.ofReply first = .ok counted ∧
      0 < counted.total ∧ command =
        ["FT.SEARCH", i.name, query, "NOCONTENT", "LIMIT", "0", counted.total.toNat.repr]
  delete_sent (command : List String) : turns[2]?.map Turn.command = some command ↔
    ∃ second found, turns[1]?.map Turn.reply = some second ∧ Page.ofReply second = .ok found ∧
      found.hits ≠ [] ∧ command = "DEL" :: found.hits.map Hit.key
  no_empty_delete : ["DEL"] ∉ turns.map Turn.command
  not_compiled (e : Filter.Fault) : Clause.query r.clause = .error e →
    turns = [] ∧ result = .error (.filter e)
  not_counted (first : Reply) (u : Unexpected) : turns[0]?.map Turn.reply = some first →
    Page.ofReply first = .error u → turns.length = 1 ∧ result = .error (.unexpected u)
  none_counted (first : Reply) (counted : Page) : turns[0]?.map Turn.reply = some first →
    Page.ofReply first = .ok counted → counted.total = 0 → turns.length = 1 ∧ result = .ok 0
  not_found (second : Reply) (u : Unexpected) : turns[1]?.map Turn.reply = some second →
    Page.ofReply second = .error u → turns.length = 2 ∧ result = .error (.unexpected u)
  none_found (second : Reply) (found : Page) : turns[1]?.map Turn.reply = some second →
    Page.ofReply second = .ok found → found.hits = [] → turns.length = 2 ∧ result = .ok 0
  zero_before_delete (n : UInt64) : turns[2]? = none → result = .ok n → n = 0
  result_of_delete (third : Reply) : turns[2]?.map Turn.reply = some third →
    result = third.count.mapError .unexpected

theorem Removal.guarded {turns : List Turn} {events : List Event} {result : Except Fault UInt64}
    (h : Removal i r turns events result) : Guarded i r turns result where
  length_le := by cases h <;> simp
  count_sent command := by cases h <;> simp [*, countTokens, eq_comm]
  keys_sent command := by cases h <;> simp [*, keysTokens, eq_comm, UInt64.pos_iff_ne_zero]
  delete_sent command := by cases h <;> simp [*, eq_comm]
  no_empty_delete := by cases h <;> simp [*, countTokens, keysTokens]
  not_compiled e he := by cases h <;> simp_all
  not_counted first u hfirst hu := by cases h <;> simp_all
  none_counted first counted hfirst hread hzero := by cases h <;> simp_all
  not_found second u hsecond hu := by cases h <;> simp_all
  none_found second found hsecond hread hhits := by cases h <;> simp_all
  zero_before_delete n hnone hresult := by cases h <;> simp_all
  result_of_delete third hthird := by cases h <;> simp_all

theorem remove_eq_of_clause_eq {r' : Request} (h : r'.clause = r.clause) :
    i.remove r' = i.remove r := by
  simp only [remove, count, countCommand, keysCommand, opening, h]

/-- Whatever the replies are, a removal takes them one after the other and keeps its guards; an
order, a page, a grouping or a reduction of the request makes no difference to it. -/
theorem remove_keeps_guards (i : Index) (r : Request) (x : Exchange Script) :
    (∃ turns events result,
      (i.remove r).play x =
        (result, ⟨x.server.receive (turns.map Turn.command), x.events ++ events⟩) ∧
      turns.map Turn.reply = (List.range turns.length).map x.server.reply ∧
      Guarded i r turns result) ∧
    ∀ r' : Request, r'.clause = r.clause → i.remove r' = i.remove r := by
  constructor
  · obtain ⟨turns, events, result, t, hr, hs⟩ := exists_removal Script.answers i r x.server
    obtain ⟨rfl, hreplies⟩ := Script.eq_receive_of_serves hs
    exact ⟨turns, events, result, hr.takes.run_eq hs x.events, hreplies, hr.guarded⟩
  · intro r' h
    exact remove_eq_of_clause_eq h

/-- A removal that counts two documents, finds both and deletes them. -/
theorem remove_two_documents :
    ∃ turns events, (Index.remove (.ofName "idx:users") .empty).play ⟨.ofReplies [.array [.int 2],
        .array [.int 2, .text "user:1", .text "user:2"], .int 2], []⟩ =
        (.ok 2, ⟨⟨[], turns.map Turn.command⟩, events⟩) ∧
      turns[2]?.map Turn.command = some ["DEL", "user:1", "user:2"] ∧
      Guarded (.ofName "idx:users") .empty turns (.ok 2) := by
  have hrun : (Index.remove (.ofName "idx:users") .empty).play ⟨.ofReplies [.array [.int 2],
      .array [.int 2, .text "user:1", .text "user:2"], .int 2], []⟩ =
      (.ok 2, ⟨⟨[], [_, _, ["DEL", "user:1", "user:2"]]⟩, []⟩) := rfl
  obtain ⟨⟨turns, events, result, hplay, -, hguarded⟩, -⟩ := remove_keeps_guards
    (.ofName "idx:users") .empty ⟨.ofReplies [.array [.int 2],
      .array [.int 2, .text "user:1", .text "user:2"], .int 2], []⟩
  obtain ⟨rfl, hend⟩ := Prod.mk.inj (hrun.symm.trans hplay)
  have hcommands : [_, _, ["DEL", "user:1", "user:2"]] = turns.map Turn.command :=
    congrArg (fun y => y.server.commands) hend
  refine ⟨turns, [], ?_, ?_, hguarded⟩
  · rw [← hcommands]
    exact hrun
  · rw [← List.getElem?_map, ← hcommands]
    rfl

end Storehouse.Search.Index
