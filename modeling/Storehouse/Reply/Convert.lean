import Storehouse.Double.Numeral
import Storehouse.Reply.Display

namespace Storehouse.Reply

/-- Why a reply is not of the kind that was asked for. -/
inductive Mismatch
  | notUtf8
  | notText (found : Reply)
  | notBool (found : Reply)
  | notStatus (found : Reply)
  | notList (found : Reply)
  | notTextList (found : Reply)
  | notPair (found : Reply)
  | wrongLength (found : Reply)

namespace Mismatch

def incompatible (reason : String) (found : Reply) : String :=
  "Response was of incompatible type - TypeError: " ++ Text.quoted reason ++ " (response was "
    ++ found.describe ++ ")"

def message : Mismatch → String
  | notUtf8 => "Invalid UTF-8- TypeError"
  | notText found => incompatible "Response type not string compatible." found
  | notBool found => incompatible "Response type not bool compatible." found
  | notStatus found => incompatible "Response status not valid boolean" found
  | notList found => incompatible "Response type not vector compatible." found
  | notTextList found =>
    incompatible "Conversion to alloc::vec::Vec<alloc::string::String> failed." found
  | notPair found => incompatible "Not a Array response" found
  | wrongLength found => incompatible "Array response of wrong dimension" found

end Mismatch

/-- A reply as a text: bytes that are text, a status, or a number in decimal. -/
def toText (r : Reply) : Except Mismatch String :=
  match r.data with
  | .bulk bytes =>
    match String.fromUTF8? bytes with
    | some s => .ok s
    | none => .error .notUtf8
  | .okay => .ok "OK"
  | .simple s => .ok s
  | .verbatim _ text => .ok text
  | .double x => .ok (Double.plain.write x)
  | .int n => .ok n.toInt.repr
  | found => .error (.notText found)

def toOptionalText (r : Reply) : Except Mismatch (Option String) :=
  match r.data with
  | .nil => .ok none
  | r => some <$> r.toText

/-- A reply as an unsigned word. An integer keeps its bits, so a negative one becomes large; a
double loses its fraction and is held within the range. -/
def toWord? (r : Reply) : Option UInt64 :=
  match r.data with
  | .int n => some n.toUInt64
  | .simple s => Text.word? s
  | .bulk bytes => String.fromUTF8? bytes >>= Text.word?
  | .double x => some (Double.toWord x)
  | _ => none

def toFloat? (r : Reply) : Option Float :=
  match r.data with
  | .int n => some (Double.ofInt n.toInt)
  | .simple s => Double.ofText? s
  | .bulk bytes => String.fromUTF8? bytes >>= Double.ofText?
  | .double x => some x
  | _ => none

def toBool (r : Reply) : Except Mismatch Bool :=
  match r.data with
  | .nil => .ok false
  | .int n => .ok (n != 0)
  | .simple s =>
    if s = "1" then .ok true else if s = "0" then .ok false else .error (.notStatus (.simple s))
  | .bulk bytes =>
    match String.fromUTF8? bytes with
    | some "1" => .ok true
    | some "0" => .ok false
    | _ => .error (.notBool (.bulk bytes))
  | .boolean b => .ok b
  | .okay => .ok true
  | found => .error (.notBool found)

/-- A reply as a list of texts. A single text is a list of one; the entries of a map are no texts.
-/
def toTexts : Reply → Except Mismatch (List String)
  | .array items => items.mapM toText
  | .set items => items.mapM toText
  | .bulk bytes =>
    match String.fromUTF8? bytes with
    | some s => .ok [s]
    | none => .error (.notTextList (.bulk bytes))
  | .nil => .ok []
  | .map entries => entries.mapM fun entry => toText (.map [entry])
  | found => .error (.notList found)

/-- A reply as a pair of a text and a list of texts. Of a map this is the first entry: its parts are
taken without a look at how many there are, so a map without entries gives no result at all. -/
def toTextAndTexts (r : Reply) : Option (Except Mismatch (String × List String)) :=
  let both (first second : Reply) : Except Mismatch (String × List String) := do
    let s ← first.toText
    let ss ← second.toTexts
    return (s, ss)
  match r.data with
  | .array [first, second] => some (both first second)
  | .array items => some (.error (.wrongLength (.array items)))
  | .map ((first, second) :: _) => some (both first second)
  | .map [] => none
  | found => some (.error (.notPair found))

theorem toTextAndTexts_eq_none_iff (r : Reply) : r.toTextAndTexts = none ↔ r.data = .map [] := by
  unfold toTextAndTexts
  split <;> simp_all

end Storehouse.Reply
