import Storehouse.Exchange.Fault
import Storehouse.Exchange.Measure

namespace Storehouse

inductive Dialogue (α : Type)
  | done (result : Except Fault α)
  | send (command : List String) (next : Reply → Dialogue α)
  | record (event : Event) (rest : Dialogue α)

abbrev Executor (σ : Type) := List String → σ → Except Fault Reply × σ

/-- The state behind an executor and the events recorded so far, oldest first. -/
structure Exchange (σ : Type) where
  server : σ
  events : List Event

namespace Dialogue

variable {α β σ : Type}

protected def bind (d : Dialogue α) (f : α → Dialogue β) : Dialogue β :=
  match d with
  | done (.ok a) => f a
  | done (.error e) => done (.error e)
  | send command next => send command fun reply => (next reply).bind f
  | record event rest => record event (rest.bind f)

instance : Monad Dialogue where
  pure a := .done (.ok a)
  bind := Dialogue.bind

def fail (e : Fault) : Dialogue α := done (.error e)

def ask (command : List String) : Dialogue Reply := send command pure

def note (event : Event) : Dialogue Unit := record event (pure ())

/-- A reply that cannot be read ends the dialogue. -/
def expect (r : Except Unexpected α) : Dialogue α := done (r.mapError .unexpected)

/-- A failure of the executor ends the dialogue with that failure. -/
def run (execute : Executor σ) : Dialogue α → Exchange σ → Except Fault α × Exchange σ
  | done result, x => (result, x)
  | send command next, x =>
    match execute command x.server with
    | (.ok reply, server) => (next reply).run execute ⟨server, x.events⟩
    | (.error e, server) => (.error e, ⟨server, x.events⟩)
  | record event rest, x => rest.run execute ⟨x.server, x.events ++ [event]⟩

theorem run_bind (execute : Executor σ) (d : Dialogue α) (f : α → Dialogue β) (x : Exchange σ) :
    (d >>= f).run execute x =
      match d.run execute x with
      | (.ok a, y) => (f a).run execute y
      | (.error e, y) => (.error e, y) := by
  change (d.bind f).run execute x = _
  induction d generalizing x with
  | done result => cases result <;> rfl
  | send command next ih =>
    simp only [Dialogue.bind, run]
    split
    · exact ih _ _
    · rfl
  | record event rest ih => exact ih _

end Dialogue
end Storehouse
