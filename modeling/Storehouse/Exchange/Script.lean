import Storehouse.Exchange.Dialogue

namespace Storehouse

/-- The replies still to come, and the commands received so far, oldest first. -/
structure Script where
  pending : List Reply
  commands : List (List String)

namespace Script

def ofReplies (replies : List Reply) : Script := ⟨replies, []⟩

def push (s : Script) (reply : Reply) : Script := { s with pending := s.pending ++ [reply] }

def lastCommand? (s : Script) : Option (List String) := s.commands.getLast?

/-- A command without a name is refused and leaves no trace. -/
def execute : Executor Script := fun command s =>
  match command, s.pending with
  | [], _ => (.error .emptyCommand, s)
  | command, [] => (.ok .nil, { s with commands := s.commands ++ [command] })
  | command, reply :: rest => (.ok reply, ⟨rest, s.commands ++ [command]⟩)

end Script

def Dialogue.play {α : Type} (d : Dialogue α) (x : Exchange Script) :
    Except Fault α × Exchange Script :=
  d.run Script.execute x

/-- Commands take replies and never add one. -/
theorem Script.pending_execute_le {command : List String} {s t : Script} {r : Except Fault Reply}
    (h : Script.execute command s = (r, t)) : t.pending.length ≤ s.pending.length := by
  unfold Script.execute at h
  split at h <;> cases h <;> simp_all

theorem Dialogue.pending_play_le {α : Type} (d : Dialogue α) (x : Exchange Script) :
    (d.play x).2.server.pending.length ≤ x.server.pending.length := by
  unfold Dialogue.play
  induction d generalizing x with
  | done result => exact Nat.le_refl _
  | send command next ih =>
    simp only [Dialogue.run]
    split
    next reply server h => exact Nat.le_trans (ih reply _) (Script.pending_execute_le h)
    next e server h => exact Script.pending_execute_le h
  | record event rest ih => exact ih _

end Storehouse
