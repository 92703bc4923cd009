import Storehouse.Json.Source
import Storehouse.Basic

namespace Storehouse.Json

/-- A string is kept as the numbers of its characters, so that an escape may name half a surrogate
pair. -/
inductive Lexeme
  | openArray
  | closeArray
  | openObject
  | closeObject
  | comma
  | colon
  | word (chars : List Char)
  | string (units : List Nat)

namespace Lexeme

/-- What the last characters have begun; lists are in reverse. -/
inductive Pending
  | nothing
  | word (chars : List Char)
  | string (units : List Nat)
  | escape (units : List Nat)
  | code (units : List Nat) (value : Nat) (missing : Nat)

structure Scan where
  done : List Lexeme
  pending : Pending

def isWordChar (c : Char) : Bool :=
  c.isAlphanum || c = '-' || c = '+' || c = '.'

def ofMark? : Char → Option Lexeme
  | '[' => some .openArray
  | ']' => some .closeArray
  | '\x7b' => some .openObject
  | '\x7d' => some .closeObject
  | ',' => some .comma
  | ':' => some .colon
  | _ => none

def Scan.begin? (done : List Lexeme) (c : Char) : Option Scan :=
  if c = ' ' ∨ c = '\t' ∨ c = '\n' ∨ c = '\r' then some ⟨done, .nothing⟩
  else if c = '"' then some ⟨done, .string []⟩
  else if isWordChar c then some ⟨done, .word [c]⟩
  else (ofMark? c).map fun l => ⟨l :: done, .nothing⟩

def escaped? : Char → Option Char
  | '"' => some '"'
  | '\\' => some '\\'
  | '/' => some '/'
  | 'b' => some '\x08'
  | 'f' => some '\x0c'
  | 'n' => some '\n'
  | 'r' => some '\r'
  | 't' => some '\t'
  | _ => none

def Scan.step? (s : Scan) (c : Char) : Option Scan :=
  match s.pending with
  | .nothing => Scan.begin? s.done c
  | .word chars =>
    if isWordChar c then some ⟨s.done, .word (c :: chars)⟩
    else Scan.begin? (.word chars.reverse :: s.done) c
  | .string units =>
    if c = '"' then some ⟨.string units.reverse :: s.done, .nothing⟩
    else if c = '\\' then some ⟨s.done, .escape units⟩
    else if c.toNat < 0x20 then none
    else some ⟨s.done, .string (c.toNat :: units)⟩
  | .escape units =>
    if c = 'u' then some ⟨s.done, .code units 0 4⟩
    else (escaped? c).map fun e => ⟨s.done, .string (e.toNat :: units)⟩
  | .code units value missing =>
    (Text.hexValue? c).map fun d =>
      let value := 16 * value + d
      if missing ≤ 1 then ⟨s.done, .string (value :: units)⟩
      else ⟨s.done, .code units value (missing - 1)⟩

/-- The lexemes of a text; none if a string is not closed or a character has no place. -/
def ofChars? (cs : List Char) : Option (List Lexeme) := do
  let s ← cs.foldlM Scan.step? ⟨[], .nothing⟩
  match s.pending with
  | .nothing => some s.done.reverse
  | .word chars => some (Lexeme.word chars.reverse :: s.done).reverse
  | _ => none

end Lexeme
end Storehouse.Json
