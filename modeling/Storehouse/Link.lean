import Storehouse.Backoff
import Storehouse.Exchange.Dialogue

namespace Storehouse.Link

/-- What the server sends back; a refusal may also stand among the items of an array. -/
inductive Answer
  | nil
  | int (n : Int64)
  | bulk (s : String)
  | simple (s : String)
  | refusal (line : String)
  | array (items : List Answer)

namespace Answer

mutual

/-- The reply that an answer carries, unless there is a refusal in it; then the first one counts.
-/
def read : Answer → Except Refusal Reply
  | .nil => .ok .nil
  | .int n => .ok (.int n)
  | .bulk s => .ok (.text s)
  | .simple s => .ok (if s = "OK" then .okay else .simple s)
  | .refusal line => .error (.ofLine line)
  | .array items => Reply.array <$> readItems items

def readItems : List Answer → Except Refusal (List Reply)
  | [] => .ok []
  | a :: rest => do
    let first ← read a
    let others ← readItems rest
    return first :: others

end

end Answer

/-- A server as the answers still to come, where `none` drops the connection, and the commands that
reached it, oldest first. -/
structure Server where
  pending : List (Option Answer)
  received : List (List String)

/-- Sends a command once. -/
def Server.receive (command : List String) (s : Server) : Except LinkFault Reply × Server :=
  match s.pending with
  | [] => (.ok .nil, ⟨[], s.received ++ [command]⟩)
  | none :: rest => (.error .dropped, ⟨rest, s.received ++ [command]⟩)
  | some answer :: rest => (answer.read.mapError .refused, ⟨rest, s.received ++ [command]⟩)

/-- Only a dropped connection is worth another attempt. -/
def isTransient : LinkFault → Bool
  | .dropped => true
  | _ => false

/-- Sends a command as often as the policy allows, and records how it went and how long it took.
There is no result if a delay could not be computed. -/
def execute (policy : Backoff.Policy) (command : List String) (x : Exchange Server) :
    Option (Except Fault Reply) × Exchange Server :=
  match command with
  | [] => (some (.error .emptyCommand), x)
  | name :: _ =>
    let run := policy.run isTransient (Server.receive command) x.server
    let status (result : Except LinkFault Reply) : Event :=
      .command name (if result.toOption.isSome then "success" else "error")
    (run.result.map (·.mapError .link),
      ⟨run.state, x.events ++ (run.result.map status).toList
        ++ [.latency name (Backoff.waited run.notices)]⟩)

end Storehouse.Link
