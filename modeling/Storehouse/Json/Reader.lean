import Storehouse.Json.Lexeme

namespace Storehouse.Json

/-- The text of a string; none if half a surrogate pair stands alone. Read characters are collected
in reverse. -/
def decodeUnits (read : List Char) : List Nat → Option String
  | [] => some (.ofList read.reverse)
  | [u] => if 0xd800 ≤ u ∧ u < 0xe000 then none else some (.ofList (Char.ofNat u :: read).reverse)
  | u :: v :: rest =>
    if 0xd800 ≤ u ∧ u < 0xdc00 ∧ 0xdc00 ≤ v ∧ v < 0xe000 then
      decodeUnits (Char.ofNat (0x10000 + (u - 0xd800) * 0x400 + (v - 0xdc00)) :: read) rest
    else if 0xd800 ≤ u ∧ u < 0xe000 then none
    else decodeUnits (Char.ofNat u :: read) (v :: rest)

/-- A numeral of JSON has no leading zeros and digits on both sides of its point. -/
def numeral? (cs : List Char) : Option Double.Numeral :=
  let read (negative : Bool) (cs : List Char) :=
    (Double.Numeral.ofUnsigned? negative cs).filter fun n =>
      n.whole ≠ [] ∧ (n.whole.head? = some '0' → n.whole.length = 1) ∧ n.fraction ≠ some []
  match cs with
  | '-' :: cs => read true cs
  | cs => read false cs

namespace Source

def ofWord? (chars : List Char) : Option Source :=
  match String.ofList chars with
  | "null" => some .null
  | "true" => some (.bool true)
  | "false" => some (.bool false)
  | _ => (numeral? chars).map .number

/-- A container that is not closed yet, its contents in reverse; `member` waits for the value of
the name that was read last. -/
inductive Frame
  | array (items : List Source)
  | object (members : List (Option String × Source))
  | member (members : List (Option String × Source)) (name : Option String)

inductive Await
  | value
  | valueOrClose
  | name
  | nameOrClose
  | colon
  | separator
  | done (result : Source)

structure Reading where
  stack : List Frame
  await : Await

/-- A finished value goes into the innermost open container. -/
def Reading.place? (stack : List Frame) (v : Source) : Option Reading :=
  match stack with
  | [] => some ⟨[], .done v⟩
  | .array items :: rest => some ⟨.array (v :: items) :: rest, .separator⟩
  | .member members name :: rest => some ⟨.object ((name, v) :: members) :: rest, .separator⟩
  | .object _ :: _ => none

def Reading.close? (stack : List Frame) : Lexeme → Option Reading
  | .closeArray => match stack with
    | .array items :: rest => place? rest (.array items.reverse)
    | _ => none
  | .closeObject => match stack with
    | .object members :: rest => place? rest (.object members.reverse)
    | _ => none
  | _ => none

def Reading.value? (stack : List Frame) : Lexeme → Option Reading
  | .word chars => ofWord? chars >>= place? stack
  | .string units => place? stack (.string (decodeUnits [] units))
  | .openArray => some ⟨.array [] :: stack, .valueOrClose⟩
  | .openObject => some ⟨.object [] :: stack, .nameOrClose⟩
  | _ => none

def Reading.name? (stack : List Frame) : Lexeme → Option Reading
  | .string units => match stack with
    | .object members :: rest => some ⟨.member members (decodeUnits [] units) :: rest, .colon⟩
    | _ => none
  | _ => none

def Reading.step? (r : Reading) (l : Lexeme) : Option Reading :=
  match r.await with
  | .value => value? r.stack l
  | .valueOrClose => value? r.stack l <|> close? r.stack l
  | .name => name? r.stack l
  | .nameOrClose => name? r.stack l <|> close? r.stack l
  | .colon => match l with
    | .colon => some ⟨r.stack, .value⟩
    | _ => none
  | .separator => match l, r.stack with
    | .comma, .array _ :: _ => some ⟨r.stack, .value⟩
    | .comma, .object _ :: _ => some ⟨r.stack, .name⟩
    | l, stack => close? stack l
  | .done _ => none

def ofText? (s : String) : Option Source := do
  let lexemes ← Lexeme.ofChars? s.toList
  let r ← lexemes.foldlM Reading.step? ⟨[], .value⟩
  match r.await with
  | .done v => some v
  | _ => none

end Source

/-- Texts nested deeper than this are not read. -/
def maxDepth : Nat := 127

def ofText? (s : String) : Option Json := do
  let source ← Source.ofText? s
  if source.depth ≤ maxDepth then source.value? else none

end Storehouse.Json
