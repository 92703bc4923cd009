import Mathlib.Data.List.Forall2
import Storehouse.Filter.Basic
import Storehouse.Basic

namespace Storehouse.Query

inductive Test
  | equal
  | above
  | below
  | atLeast
  | atMost
  | contains
  deriving DecidableEq, Repr

structure Atom where
  field : String
  test : Test
  value : String
  deriving DecidableEq, Repr

/-- A minus belongs to the clause after it. -/
inductive Lexeme
  | opening
  | closing
  | bar
  | keyword (k : Combinator)
  | atom (negated : Bool) (a : Atom)
  deriving DecidableEq, Repr

def minusInfinity : List Char := ['-', 'i', 'n', 'f']

def plusInfinity : List Char := ['+', 'i', 'n', 'f']

/-- The two ends of a range. One of them is infinity; a parenthesis leaves the other one out. -/
def Test.ofRange? (low high : List Char) : Option (Test × List Char) :=
  if high = plusInfinity then
    if low.head? = some '(' then some (.above, low.tail) else some (.atLeast, low)
  else if low = minusInfinity then
    if high.head? = some '(' then
      if high.getLast? = some ')' then some (.below, high.tail.dropLast) else none
    else some (.atMost, high)
  else none

def Test.ofPattern? : List Char → Option (Test × List Char)
  | '.' :: '*' :: rest =>
    match rest.reverse with
    | '*' :: '.' :: v => some (.contains, v.reverse)
    | _ => none
  | _ => none

/-- The test inside the brackets that end with `closer`. -/
def Test.ofBody? (closer : Char) (body : List Char) : Option (Test × List Char) :=
  match closer with
  | '\x7d' => some (.equal, body)
  | ']' => Text.cut? ' ' body >>= fun (low, high) => ofRange? low high
  | '/' => ofPattern? body
  | _ => none

namespace Lexeme

/-- What the last characters have begun; lists are in reverse. -/
inductive Pending
  | nothing
  | word (chars : List Char)
  | minus
  | field (negated : Bool) (chars : List Char)
  | test (negated : Bool) (field : List Char)
  | body (negated : Bool) (field : List Char) (closer : Char) (chars : List Char)

structure Scan where
  done : List Lexeme
  pending : Pending

def ofWord? (word : List Char) : Option Lexeme :=
  if word = "AND".toList then some (.keyword .and)
  else if word = "OR".toList then some (.keyword .or)
  else none

def closer? : Char → Option Char
  | '\x7b' => some '\x7d'
  | '[' => some ']'
  | '/' => some '/'
  | _ => none

def Scan.begin? (done : List Lexeme) (c : Char) : Option Scan :=
  if c = ' ' then some ⟨done, .nothing⟩
  else if c = '(' then some ⟨.opening :: done, .nothing⟩
  else if c = ')' then some ⟨.closing :: done, .nothing⟩
  else if c = '|' then some ⟨.bar :: done, .nothing⟩
  else if c = '-' then some ⟨done, .minus⟩
  else if c = '@' then some ⟨done, .field false []⟩
  else if c.isUpper then some ⟨done, .word [c]⟩
  else none

def Scan.step? (s : Scan) (c : Char) : Option Scan :=
  match s.pending with
  | .nothing => Scan.begin? s.done c
  | .word chars =>
    if c.isUpper then some ⟨s.done, .word (c :: chars)⟩
    else ofWord? chars.reverse >>= fun l => Scan.begin? (l :: s.done) c
  | .minus => if c = '@' then some ⟨s.done, .field true []⟩ else none
  | .field negated chars =>
    if c = ':' then some ⟨s.done, .test negated chars.reverse⟩
    else some ⟨s.done, .field negated (c :: chars)⟩
  | .test negated field => (closer? c).map fun e => ⟨s.done, .body negated field e []⟩
  | .body negated field closer chars =>
    if c = closer then
      (Test.ofBody? closer chars.reverse).map fun (test, value) =>
        ⟨.atom negated ⟨.ofList field, test, .ofList value⟩ :: s.done, .nothing⟩
    else some ⟨s.done, .body negated field closer (c :: chars)⟩

/-- The lexemes of a text; none if a clause is not closed or a character has no place. -/
def ofText? (s : String) : Option (List Lexeme) := do
  let scan ← s.toList.foldlM Scan.step? ⟨[], .nothing⟩
  match scan.pending with
  | .nothing => some scan.done.reverse
  | _ => none

/-- Read from between two lexemes, the characters give these lexemes and leave nothing begun. -/
def Scans (cs : List Char) (ls : List Lexeme) : Prop :=
  ∀ done, cs.foldlM Scan.step? ⟨done, .nothing⟩ = some ⟨ls.reverse ++ done, .nothing⟩

theorem Scans.nil : Scans [] [] :=
  fun _ => rfl

theorem Scans.append {cs ds : List Char} {ls ms : List Lexeme} (hc : Scans cs ls)
    (hd : Scans ds ms) : Scans (cs ++ ds) (ls ++ ms) := by
  intro done
  rw [List.foldlM_append, hc done]
  simpa using hd (ls.reverse ++ done)

theorem Scans.intercalate {sep : List Char} {joint : List Lexeme} {css : List (List Char)}
    {lss : List (List Lexeme)} (hs : Scans sep joint) (h : List.Forall₂ Scans css lss) :
    Scans (sep.intercalate css) (joint.intercalate lss) := by
  induction h with
  | nil => exact .nil
  | cons h hrest ih =>
    cases hrest with
    | nil => simpa using h
    | cons h' hrest =>
      rw [List.intercalate_cons_cons, List.intercalate_cons_cons]
      exact (h.append hs).append ih

theorem Scans.unique {cs : List Char} {ls ms : List Lexeme} (hl : Scans cs ls)
    (hm : Scans cs ms) : ls = ms := by
  have h := (hl []).symm.trans (hm [])
  simpa using h

theorem ofText?_of_scans {s : String} {ls : List Lexeme} (h : Scans s.toList ls) :
    ofText? s = some ls := by
  simp [ofText?, h []]

end Lexeme
end Storehouse.Query
