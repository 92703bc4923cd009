import Storehouse.Basic

namespace Storehouse.Address

/-- Letters, digits and four marks stand for themselves; every other byte is encoded. -/
def isPlain (b : UInt8) : Bool :=
  let c := Char.ofNat b.toNat
  c.isAlphanum || c = '-' || c = '.' || c = '_' || c = '~'

def encodeByte (b : UInt8) : List Char :=
  if isPlain b then [Char.ofNat b.toNat]
  else ['%', Text.hexDigit (b.toNat / 16), Text.hexDigit (b.toNat % 16)]

def encode (s : String) : String :=
  .ofList (s.toUTF8.toList.flatMap encodeByte)

/-- A percent sign with two hex digits is one byte, everything else stands for itself. -/
def decodeBytes : List Char → List UInt8
  | [] => []
  | '%' :: a :: b :: rest =>
    match Text.hexValue? a, Text.hexValue? b with
    | some x, some y => UInt8.ofNat (16 * x + y) :: decodeBytes rest
    | _, _ => '%'.toString.toUTF8.toList ++ decodeBytes (a :: b :: rest)
  | c :: rest => c.toString.toUTF8.toList ++ decodeBytes rest

def decode? (cs : List Char) : Option String :=
  String.fromUTF8? ⟨(decodeBytes cs).toArray⟩

/-- A plus stands for a blank, and bytes may be percent-encoded. -/
def decodeParameter (cs : List Char) : String :=
  .ofList (Text.replaced (decodeBytes (cs.map fun c => if c = '+' then ' ' else c)))

def parameters (query : List Char) : List (String × String) :=
  ((Text.pieces '&' query).filter (· ≠ [])).map fun p =>
    let (name, value) := (Text.cut? '=' p).getD (p, [])
    (decodeParameter name, decodeParameter value)

/-- The value of a parameter; the last of several with one name counts. -/
def parameter? (name : String) (query : List Char) : Option String :=
  (parameters query).reverse.lookup name

/-- The number of dots in a piece that consists of dots, each of which may be percent-encoded. -/
def dots? : List Char → Option Nat
  | [] => some 0
  | '.' :: rest => (dots? rest).map (· + 1)
  | '%' :: '2' :: 'e' :: rest => (dots? rest).map (· + 1)
  | '%' :: '2' :: 'E' :: rest => (dots? rest).map (· + 1)
  | _ => none

/-- A letter with a colon or a bar, alone or before a backslash, is the root of a drive. -/
def isDrive : List Char → Bool
  | letter :: mark :: rest =>
    letter.isAlpha && (mark = ':' || mark = '|') && (rest = [] || rest.head? = some '\\')
  | _ => false

/-- The pieces of a path. One dot stays where it is, two dots take back the piece before them
unless that is the root of a drive. -/
def pathPieces (path : List Char) : List (List Char) :=
  (Text.pieces '/' path).foldl
    (fun done piece =>
      match dots? piece with
      | some 1 => done
      | some 2 => if done.getLast?.any isDrive then done else done.dropLast
      | _ => done ++ [piece])
    []

/-- Characters that no name of a host may hold. -/
def hostStops : List Char :=
  ['\x00', '\t', '\n', '\r', ' ', '#', '/', ':', '<', '>', '?', '@', '[', '\\', ']', '^', '|']

def isGroup (cs : List Char) : Bool :=
  1 ≤ cs.length && cs.length ≤ 4 && cs.all fun c => (Text.hexValue? c).isSome

/-- A number below 256 without leading zeros. -/
def isDecimalByte (cs : List Char) : Bool :=
  (Text.digits? cs).any fun n => n < 256 && n.repr.toList == cs

/-- Four decimal bytes with points between them. -/
def isDotted (cs : List Char) : Bool :=
  let bytes := Text.pieces '.' cs
  bytes.length = 4 && bytes.all isDecimalByte

/-- How many groups the pieces between colons are, if all are well formed. -/
def countGroups? (dotted : Bool) : List (List Char) → Option Nat
  | [] => some 0
  | [last] => if isGroup last then some 1 else if dotted && isDotted last then some 2 else none
  | first :: rest => if isGroup first then (countGroups? dotted rest).map (· + 1) else none

/-- How many groups a text holds; `dotted` tells whether decimal bytes may end it. -/
def groups? (dotted : Bool) (cs : List Char) : Option Nat :=
  if cs = [] then some 0 else countGroups? dotted (Text.pieces ':' cs)

/-- The parts before and after the first two colons in a row. -/
def cutGap? : List Char → Option (List Char × List Char)
  | ':' :: ':' :: rest => some ([], rest)
  | c :: rest => (cutGap? rest).map fun (before, after) => (c :: before, after)
  | [] => none

/-- Eight groups, or fewer around a gap, which stands for at least one. -/
def isNumeric (cs : List Char) : Bool :=
  match cutGap? cs with
  | none => groups? true cs == some 8
  | some (before, after) =>
    match groups? false before, groups? true after with
    | some m, some n => m + n ≤ 7
    | _, _ => false

def isHost (cs : List Char) : Bool :=
  match cs with
  | '[' :: rest => rest.getLast? == some ']' && isNumeric rest.dropLast
  | cs => cs.all fun c => !hostStops.contains c

/-- The host and what follows it. A colon ends the host unless it stands in brackets. -/
def splitHost (inBrackets : Bool) : List Char → List Char × List Char
  | [] => ([], [])
  | c :: rest =>
    if c = ':' ∧ inBrackets = false then ([], c :: rest)
    else
      let (host, after) := splitHost (c = '[' || (inBrackets && c ≠ ']')) rest
      (c :: host, after)

end Storehouse.Address
