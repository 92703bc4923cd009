import Storehouse.Exchange.Script

namespace Storehouse

structure Turn where
  command : List String
  reply : Reply

variable {α β σ : Type} {events : List Event} {turns : List Turn}

namespace Dialogue

/-- Given the replies of these turns, the dialogue sends their commands, records these events and
comes to this result. -/
inductive Takes : Dialogue α → List Turn → List Event → Except Fault α → Prop
  | done (result : Except Fault α) : Takes (.done result) [] [] result
  | send {command : List String} {next : Reply → Dialogue α} {reply : Reply} {turns : List Turn}
    {events : List Event} {result : Except Fault α} (h : Takes (next reply) turns events result) :
    Takes (.send command next) (⟨command, reply⟩ :: turns) events result
  | record {event : Event} {rest : Dialogue α} {turns : List Turn} {events : List Event}
    {result : Except Fault α} (h : Takes rest turns events result) :
    Takes (.record event rest) turns (event :: events) result

namespace Takes

theorem ask (command : List String) (reply : Reply) :
    (Dialogue.ask command).Takes [⟨command, reply⟩] [] (.ok reply) :=
  .send (.done (.ok reply))

theorem expect {read result : Except Unexpected α} (h : read = result) :
    (Dialogue.expect read).Takes [] [] (result.mapError .unexpected) := by
  rw [Dialogue.expect, h]
  exact .done _

theorem bind {d : Dialogue α} {f : α → Dialogue β} {a : α} {later : List Turn}
    {after : List Event} {result : Except Fault β} (h : d.Takes turns events (.ok a))
    (hf : (f a).Takes later after result) :
    (d >>= f).Takes (turns ++ later) (events ++ after) result := by
  change (d.bind f).Takes _ _ _
  generalize ha : Except.ok a = r at h
  induction h with
  | done =>
    subst ha
    exact hf
  | send _ ih => exact .send (ih ha)
  | record _ ih => exact .record (ih ha)

theorem bind_error {d : Dialogue α} {e : Fault} (h : d.Takes turns events (.error e))
    (f : α → Dialogue β) : (d >>= f).Takes turns events (.error e) := by
  change (d.bind f).Takes _ _ _
  generalize he : Except.error e = r at h
  induction h with
  | done =>
    subst he
    exact .done (.error e)
  | send _ ih => exact .send (ih he)
  | record _ ih => exact .record (ih he)

end Takes
end Dialogue

/-- From the first state on, the executor answers the commands with these replies, and the last
state is reached. -/
inductive Serves (execute : Executor σ) : σ → List Turn → σ → Prop
  | nil (s : σ) : Serves execute s [] s
  | cons {command : List String} {reply : Reply} {s t u : σ} {turns : List Turn}
    (h : execute command s = (.ok reply, t)) (hs : Serves execute t turns u) :
    Serves execute s (⟨command, reply⟩ :: turns) u

theorem Serves.append {execute : Executor σ} {later : List Turn} {s t u : σ}
    (h : Serves execute s turns t) (hlater : Serves execute t later u) :
    Serves execute s (turns ++ later) u := by
  induction h with
  | nil => exact hlater
  | cons h _ ih => exact .cons h (ih hlater)

theorem Dialogue.Takes.run_eq {execute : Executor σ} {d : Dialogue α} {result : Except Fault α}
    (h : d.Takes turns events result) {s t : σ} (hs : Serves execute s turns t)
    (earlier : List Event) :
    d.run execute ⟨s, earlier⟩ = (result, ⟨t, earlier ++ events⟩) := by
  induction h generalizing s earlier with
  | done =>
    cases hs
    rw [run, List.append_nil]
  | send _ ih =>
    cases hs with
    | cons hreply hs =>
      rw [run, hreply]
      exact ih hs earlier
  | record _ ih =>
    rw [run, ih hs, List.append_assoc, List.singleton_append]

namespace Script

/-- The reply to the command after the next `k` ones. -/
def reply (s : Script) (k : Nat) : Reply := s.pending.getD k .nil

/-- The script after some commands, each of which has taken a reply as long as there was one. -/
def receive (s : Script) (commands : List (List String)) : Script :=
  ⟨s.pending.drop commands.length, s.commands ++ commands⟩

theorem execute_cons (verb : String) (arguments : List String) (s : Script) :
    execute (verb :: arguments) s = (.ok (s.reply 0), s.receive [verb :: arguments]) := by
  obtain ⟨pending, commands⟩ := s
  cases pending <;> rfl

theorem answers (verb : String) (arguments : List String) (s : Script) :
    ∃ reply t, execute (verb :: arguments) s = (.ok reply, t) :=
  ⟨_, _, execute_cons verb arguments s⟩

theorem reply_receive (s : Script) (commands : List (List String)) (k : Nat) :
    (s.receive commands).reply k = s.reply (commands.length + k) := by
  simp [reply, receive, List.getD_eq_getElem?_getD]

theorem receive_receive (s : Script) (first second : List (List String)) :
    (s.receive first).receive second = s.receive (first ++ second) := by
  simp [receive]

/-- A script that serves some turns has given its replies in order and kept the commands. -/
theorem eq_receive_of_serves {s t : Script} (h : Serves execute s turns t) :
    t = s.receive (turns.map Turn.command) ∧
      turns.map Turn.reply = (List.range turns.length).map s.reply := by
  induction h with
  | nil s => simp [receive]
  | @cons command reply s t u turns hreply hs ih =>
    cases command with
    | nil => cases hreply
    | cons verb arguments =>
      rw [execute_cons] at hreply
      cases hreply
      obtain ⟨rfl, hreplies⟩ := ih
      constructor
      · rw [receive_receive]
        rfl
      · rw [List.length_cons, List.range_succ_eq_map, List.map_cons, List.map_cons, hreplies,
          List.map_map]
        congr 1
        apply List.map_congr_left
        intro k hk
        rw [reply_receive, Nat.add_comm]
        rfl

end Script
end Storehouse
