import Storehouse.Double.Layout
import Storehouse.Reply.Basic
import Storehouse.Text.Quoted

namespace Storehouse.Reply

def TextFormat.describe : TextFormat → String
  | plain => "Text"
  | markdown => "Markdown"
  | other name => "Unknown(" ++ Text.quoted name ++ ")"

def PushKind.describe : PushKind → String
  | message => "Message"
  | invalidate => "Invalidate"
  | other name => "Other(" ++ Text.quoted name ++ ")"

/-- Bytes are shown as text where they are text, and as numbers otherwise. -/
def describeBytes (bytes : ByteArray) : String :=
  match String.fromUTF8? bytes with
  | some s => "bulk-string('" ++ Text.quoted s ++ "')"
  | none => "binary-data([" ++ ", ".intercalate (bytes.toList.map (·.toNat.repr)) ++ "])"

mutual

def describe : Reply → String
  | .nil => "nil"
  | .int n => "int(" ++ n.toInt.repr ++ ")"
  | .bulk bytes => describeBytes bytes
  | .simple s => "simple-string(" ++ Text.quoted s ++ ")"
  | .okay => "ok"
  | .array items => "array([" ++ ", ".intercalate (describeItems items) ++ "])"
  | .set items => "set([" ++ ", ".intercalate (describeItems items) ++ "])"
  | .map entries => "map([" ++ ", ".intercalate (describeEntries entries) ++ "])"
  | .double x => "double(" ++ Double.marked.write x ++ ")"
  | .boolean b => "boolean(" ++ (if b then "true" else "false") ++ ")"
  | .verbatim format text =>
    "verbatim-string(" ++ format.describe ++ "," ++ Text.quoted text ++ ")"
  | .big n => "big-number(" ++ n.repr ++ ")"
  | .attribute data _ => "attribute(" ++ describe data ++ ")"
  | .push kind items =>
    "push(" ++ kind.describe ++ ", [" ++ ", ".intercalate (describeItems items) ++ "])"

def describeItems : List Reply → List String
  | [] => []
  | r :: rest => describe r :: describeItems rest

def describeEntries : List (Reply × Reply) → List String
  | [] => []
  | (k, v) :: rest => ("(" ++ describe k ++ ", " ++ describe v ++ ")") :: describeEntries rest

end

end Storehouse.Reply
