import Storehouse.Exchange.Dialogue

namespace Storehouse

structure Keyspace where
  lead : String
  deriving DecidableEq, Repr

namespace Keyspace

def isEmpty (k : Keyspace) : Bool := k.lead.isEmpty

def apply (k : Keyspace) (key : String) : String := k.lead ++ key

/-- A full key without its beginning; a key of another keyspace is left as it is. -/
def strip (k : Keyspace) (key : String) : String :=
  match k.lead.toList.isPrefixOf? key.toList with
  | some rest => .ofList rest
  | none => key

/-- The pattern under which the server is asked for the keys of this keyspace. -/
def pattern (k : Keyspace) : String := k.lead ++ "*"

end Keyspace

/-- A verb, what follows the key, and how the reply is read. -/
structure Keyed (α : Type) where
  verb : String
  arguments : List String
  read : Reply → Except Unexpected α

namespace Keyed

variable {α : Type}

def command (k : Keyed α) (space : Keyspace) (key : String) : List String :=
  k.verb :: space.apply key :: k.arguments

def on (k : Keyed α) (space : Keyspace) (key : String) : Dialogue α := do
  let reply ← .ask (k.command space key)
  .expect (k.read reply)

end Keyed

/-- Deletes the key, and tells whether it was there. -/
def Keyed.delete : Keyed Bool := ⟨"DEL", [], Reply.anyCounted⟩

end Storehouse
