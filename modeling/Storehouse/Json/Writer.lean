import Storehouse.Double.Layout
import Storehouse.Json.Basic

namespace Storehouse.Json

/-- Quotes, backslashes and control characters are escaped, nothing else. -/
def escapedChar (c : Char) : String :=
  match c with
  | '"' => "\\\""
  | '\\' => "\\\\"
  | '\x08' => "\\b"
  | '\t' => "\\t"
  | '\n' => "\\n"
  | '\x0c' => "\\f"
  | '\r' => "\\r"
  | c =>
    if c.toNat < 0x20 then
      "\\u00" ++ (if c.toNat < 0x10 then "0" else "") ++ .ofList (Nat.toDigits 16 c.toNat)
    else c.toString

def writeString (s : String) : String :=
  "\"" ++ String.join (s.toList.map escapedChar) ++ "\""

def Number.write : Number → String
  | .whole n _ => n.repr
  | .real x _ => Double.json.write x

mutual

def write : Json → String
  | .null => "null"
  | .bool b => if b then "true" else "false"
  | .number n => n.write
  | .string s => writeString s
  | .array items => "[" ++ ",".intercalate (writeItems items) ++ "]"
  | .object members => "\x7b" ++ ",".intercalate (writeMembers members) ++ "\x7d"

def writeItems : List Json → List String
  | [] => []
  | v :: rest => write v :: writeItems rest

def writeMembers : List (String × Json) → List String
  | [] => []
  | (name, v) :: rest => (writeString name ++ ":" ++ write v) :: writeMembers rest

end

end Storehouse.Json
