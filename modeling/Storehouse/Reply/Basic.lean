namespace Storehouse

inductive Reply.TextFormat
  | plain
  | markdown
  | other (name : String)
  deriving DecidableEq, Repr

inductive Reply.PushKind
  | message
  | invalidate
  | other (name : String)
  deriving DecidableEq, Repr

inductive Reply
  | nil
  | int (n : Int64)
  | bulk (bytes : ByteArray)
  | simple (s : String)
  | okay
  | array (items : List Reply)
  | set (items : List Reply)
  | map (entries : List (Reply × Reply))
  | double (x : Float)
  | boolean (b : Bool)
  | verbatim (format : Reply.TextFormat) (text : String)
  | big (n : Int)
  | attribute (data : Reply) (attributes : List (Reply × Reply))
  | push (kind : Reply.PushKind) (items : List Reply)

namespace Reply

def text (s : String) : Reply := .bulk s.toUTF8

/-- The data of a reply that carries attributes, and any other reply itself. -/
def data : Reply → Reply
  | .attribute data _ => data
  | r => r

end Reply
end Storehouse
