import Storehouse.Proofs.Cache.Walk
import Storehouse.Proofs.Exchange.History
import Storehouse.Proofs.Exchange.Requests
import Storehouse.Proofs.Search.Commands
import Storehouse.Search.Operations

namespace Storehouse

variable {α β : Type}

namespace Dialogue

/-- Every command has a name, and no result says that one had none. -/
def Proper : Dialogue α → Prop
  | done (.ok _) => True
  | done (.error e) => e ≠ .emptyCommand
  | send command next => command ≠ [] ∧ ∀ reply, (next reply).Proper
  | record _ rest => rest.Proper

theorem Proper.bind {d : Dialogue α} {f : α → Dialogue β} (h : d.Proper)
    (hf : ∀ a, (f a).Proper) : (d >>= f).Proper := by
  change (d.bind f).Proper
  induction d with
  | done result =>
    cases result with
    | ok a => exact hf a
    | error e => exact h
  | send command next ih => exact ⟨h.1, fun reply => ih reply (h.2 reply)⟩
  | record event rest ih => exact ih h

theorem proper_ask (verb : String) (arguments : List String) :
    (ask (verb :: arguments)).Proper :=
  ⟨List.cons_ne_nil verb arguments, fun _ => trivial⟩

theorem proper_expect (read : Except Unexpected α) : (expect read).Proper := by
  cases read with
  | ok a => trivial
  | error u => exact Fault.noConfusion

end Dialogue

/-- What is done with a script: the result, if there is one, and what becomes of the script. -/
abbrev Activity (α : Type) := Exchange Script → Option (Except Fault α) × Exchange Script

/-- A dialogue always comes to a result. -/
def Dialogue.activity (d : Dialogue α) : Activity α := fun x => (some (d.play x).1, (d.play x).2)

/-- Whatever the script is, the activity gives it only commands with a name and does not fail for
want of one. -/
def SendsNamed (activity : Activity α) : Prop :=
  ∀ x, (activity x).1 ≠ some (.error .emptyCommand) ∧
    ∃ commands, [] ∉ commands ∧ (activity x).2.server = x.server.receive commands

theorem Dialogue.Proper.sendsNamed {d : Dialogue α} (h : d.Proper) : SendsNamed d.activity := by
  intro x
  rw [activity, play]
  induction d generalizing x with
  | done result =>
    constructor
    · intro hresult
      cases hresult
      exact h rfl
    · exact ⟨[], List.not_mem_nil, by simp [run, Script.receive]⟩
  | send command next ih =>
    obtain ⟨hcommand, hnext⟩ := h
    obtain ⟨verb, arguments, rfl⟩ := List.exists_cons_of_ne_nil hcommand
    rw [run, Script.execute_cons]
    obtain ⟨hresult, commands, hcommands, hserver⟩ := ih _ (hnext _)
      ⟨x.server.receive [verb :: arguments], x.events⟩
    refine ⟨hresult, (verb :: arguments) :: commands, ?_, ?_⟩
    · simpa using hcommands
    · rw [hserver, Script.receive_receive, List.singleton_append]
  | record event rest ih => exact ih h _

namespace KeyRequest

theorem proper_on (k : Keyed α) (space : Keyspace) (key : String) : (k.on space key).Proper :=
  (Dialogue.proper_ask _ _).bind fun _ => Dialogue.proper_expect _

theorem proper_set (c : Cache) (codec : Codec α) (key : String) (value : α)
    (lifetime : Option Nat) : (c.set codec key value lifetime).Proper := by
  rw [Cache.set]
  split
  · exact Fault.noConfusion
  · exact proper_on _ c.space key

theorem proper {space : Keyspace} {key : String} {d : Dialogue α} (h : KeyRequest space key d) :
    d.Proper := by
  cases h with
  | hash request | sequence request | members request | ranking request =>
    exact proper_on request.keyed space key
  | get lifetime codec =>
    apply (proper_on _ space key).bind
    intro stored
    cases stored with
    | none => trivial
    | some text =>
      dsimp only
      cases codec.decode text with
      | none => exact Fault.noConfusion
      | some value => trivial
  | set lifetime codec value ownLifetime h => exact proper_set _ codec key value ownLifetime
  | delete lifetime => exact proper_on _ space key

end KeyRequest

namespace Search.Index

theorem proper_page (i : Index) (verb : String) (rest : List String) (r : Request) :
    (page (i.command verb rest r)).Proper := by
  cases hquery : Filter.Clause.query r.clause with
  | error e =>
    rw [i.command_eq_error verb rest hquery]
    exact Fault.noConfusion
  | ok query =>
    rw [i.command_eq verb rest hquery]
    exact (Dialogue.proper_ask _ _).bind fun _ => Dialogue.proper_expect _

theorem proper_find (i : Index) (r : Request) : (i.find r).Proper := by
  rw [find, findCommand_eq_command]
  exact (i.proper_page _ _ r).bind fun _ => trivial

theorem proper_count (i : Index) (r : Request) : (i.count r).Proper := by
  rw [count, countCommand_eq_command]
  exact (i.proper_page _ _ r).bind fun _ => trivial

theorem proper_remove (i : Index) (r : Request) : (i.remove r).Proper := by
  rw [remove]
  apply (i.proper_count r).bind
  intro total
  split
  · trivial
  · rw [keysCommand_eq_command]
    apply (i.proper_page _ _ r).bind
    intro found
    split
    · trivial
    · exact (Dialogue.proper_ask _ _).bind fun _ => Dialogue.proper_expect _

theorem proper_aggregate (i : Index) (r : Request) : (i.aggregate r).Proper := by
  rw [aggregate, aggregateCommand_eq_command]
  cases hquery : Filter.Clause.query r.clause with
  | error e =>
    rw [i.command_eq_error _ _ hquery]
    exact Fault.noConfusion
  | ok query =>
    rw [i.command_eq _ _ hquery]
    exact (Dialogue.proper_ask _ _).bind fun _ => Dialogue.proper_expect _

end Search.Index

namespace Cache

theorem Walk.nil_not_mem {c : Cache} {p : Phase} {removed : UInt64} {turns : List Turn}
    {result : Option (Except Unexpected UInt64)} (h : Walk c p removed turns result) :
    [] ∉ turns.map Turn.command := by
  have hcommand (p : Phase) : [] ≠ p.command c := by
    cases p <;> exact (List.cons_ne_nil _ _).symm
  induction h with
  | noParts | failed | outgrown | last => exact fun hmem => hcommand _ (List.mem_singleton.mp hmem)
  | more _ _ _ ih => exact List.not_mem_cons_of_ne_of_not_mem (hcommand _) ih

theorem sendsNamed_clear (c : Cache) : SendsNamed c.clear := by
  intro x
  by_cases hlead : c.space.lead = ""
  · rw [clear_of_lead_eq_empty hlead]
    exact ⟨by simp, [], List.not_mem_nil, by simp [Script.receive]⟩
  · obtain ⟨turns, result, hwalk, -, hclear⟩ := exists_walk_of_clear hlead x
    rw [hclear]
    refine ⟨?_, _, hwalk.nil_not_mem, rfl⟩
    rcases result with _ | _ | _ <;> simp [Except.mapError]

end Cache

/-- What is done with a script: searches, requests about a single key, and clearing. A value without
a text is refused before it is sent. -/
inductive Operation : {α : Type} → Activity α → Prop
  | find (i : Search.Index) (r : Search.Request) : Operation (i.find r).activity
  | count (i : Search.Index) (r : Search.Request) : Operation (i.count r).activity
  | remove (i : Search.Index) (r : Search.Request) : Operation (i.remove r).activity
  | aggregate (i : Search.Index) (r : Search.Request) : Operation (i.aggregate r).activity
  | request {α : Type} {space : Keyspace} {key : String} {d : Dialogue α}
    (h : KeyRequest space key d) : Operation d.activity
  | set {α : Type} (c : Cache) (codec : Codec α) (key : String) (value : α)
    (lifetime : Option Nat) : Operation (c.set codec key value lifetime).activity
  | clear (c : Cache) : Operation c.clear

theorem Operation.sendsNamed {activity : Activity α} (h : Operation activity) :
    SendsNamed activity := by
  cases h with
  | find i r => exact (i.proper_find r).sendsNamed
  | count i r => exact (i.proper_count r).sendsNamed
  | remove i r => exact (i.proper_remove r).sendsNamed
  | aggregate i r => exact (i.proper_aggregate r).sendsNamed
  | request h => exact h.proper.sendsNamed
  | set c codec key value lifetime =>
    exact (KeyRequest.proper_set c codec key value lifetime).sendsNamed
  | clear c => exact c.sendsNamed_clear

/-- Where operations lead, with the replies that are pushed in between. -/
inductive Session (x : Exchange Script) : List Reply → Exchange Script → Prop
  | start : Session x [] x
  | push {pushed : List Reply} {y : Exchange Script} (h : Session x pushed y) (reply : Reply) :
    Session x (pushed ++ [reply]) ⟨y.server.push reply, y.events⟩
  | call {pushed : List Reply} {y : Exchange Script} (h : Session x pushed y) {α : Type}
    {activity : Activity α} (hcall : Operation activity) : Session x pushed (activity y).2

namespace Script

theorem pushed_commands (commands : List (List String)) : pushed (commands.map .command) = [] := by
  rw [pushed, List.filterMap_map]
  exact List.filterMap_eq_nil_iff.mpr fun _ _ => rfl

theorem performAll_commands {commands : List (List String)} (h : [] ∉ commands) (s : Script) :
    s.performAll (commands.map .command) = s.receive commands := by
  induction commands generalizing s with
  | nil => simp [performAll, receive]
  | cons command commands ih =>
    obtain ⟨hcommand, hrest⟩ := List.ne_and_not_mem_of_not_mem_cons h
    obtain ⟨verb, arguments, rfl⟩ := List.exists_cons_of_ne_nil hcommand.symm
    calc s.performAll (((verb :: arguments) :: commands).map .command)
      _ = (execute (verb :: arguments) s).2.performAll (commands.map .command) := rfl
      _ = (s.receive [verb :: arguments]).receive commands := by rw [execute_cons, ih hrest]
      _ = s.receive ((verb :: arguments) :: commands) := receive_receive s _ commands

end Script

/-- A session is a run of acts on the script, none of which is an empty command. -/
theorem Session.exists_acts {x y : Exchange Script} {pushed : List Reply}
    (h : Session x pushed y) : ∃ acts, Script.pushed acts = pushed ∧ .command [] ∉ acts ∧
      y.server = x.server.performAll acts := by
  induction h with
  | start => exact ⟨[], rfl, List.not_mem_nil, rfl⟩
  | push h reply ih =>
    obtain ⟨acts, rfl, hnamed, hserver⟩ := ih
    refine ⟨acts ++ [.push reply], ?_, ?_, ?_⟩
    · rw [Script.pushed_append, Script.pushed_push]
    · simpa using hnamed
    · rw [Script.performAll_append, ← hserver]
      rfl
  | @call pushed y h α activity hcall ih =>
    obtain ⟨acts, hpushed, hnamed, hserver⟩ := ih
    obtain ⟨-, commands, hcommands, hlater⟩ := hcall.sendsNamed y
    -- a call is no more to the script than the commands that it has sent
    refine ⟨acts ++ commands.map .command, ?_, ?_, ?_⟩
    · rw [Script.pushed_append, Script.pushed_commands, List.append_nil, hpushed]
    · simpa using ⟨hnamed, hcommands⟩
    · rw [Script.performAll_append, ← hserver, Script.performAll_commands hcommands, hlater]

/-- A script neither loses nor repeats a reply and keeps both replies and commands in their order,
whatever is done to it. A session is nothing else to it, and no operation on the way fails because a
command was empty. -/
theorem script_keeps_order (replies : List Reply) :
    (∀ acts, Script.Ordered replies acts) ∧
    ∀ (events : List Event) (pushed : List Reply) (y : Exchange Script),
      Session ⟨.ofReplies replies, events⟩ pushed y →
        (∃ acts, Script.pushed acts = pushed ∧ .command [] ∉ acts ∧
          y.server = (Script.ofReplies replies).performAll acts) ∧
        ∀ (α : Type) (activity : Activity α), Operation activity →
          (activity y).1 ≠ some (.error .emptyCommand) := by
  refine ⟨Script.ordered replies, ?_⟩
  intro events pushed y h
  exact ⟨h.exists_acts, fun α activity hcall => (hcall.sendsNamed y).1⟩

/-- A deletion meets a script that has run dry, and after a reply was pushed another one gets it. -/
theorem script_serves_late_reply :
    ∃ y, Session ⟨.ofReplies [], []⟩ [.int 1] y ∧
      ((Cache.delete ⟨⟨"app:"⟩, none⟩ "1").play y).1 = .ok true ∧
      ((Cache.delete ⟨⟨"app:"⟩, none⟩ "1").activity y).1 ≠ some (.error .emptyCommand) ∧
      (Script.ofReplies []).served [.command ["DEL", "app:1"], .push (.int 1)] ++
        y.server.pending = [.int 1] := by
  obtain ⟨hordered, hsession⟩ := script_keeps_order []
  have hdelete : Operation (Cache.delete ⟨⟨"app:"⟩, none⟩ "1").activity := .request (.delete none)
  have h : Session ⟨.ofReplies [], []⟩ ([] ++ [.int 1]) _ :=
    (Session.start.call hdelete).push (.int 1)
  exact ⟨_, h, rfl, (hsession _ _ _ h).2 Bool _ hdelete, (hordered _).served_append_pending⟩

end Storehouse
