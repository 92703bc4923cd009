import Storehouse.Address.Parts
import Storehouse.Settings

namespace Storehouse

def Address.userInfo : Option String → Option String → String
  | some user, some password => encode user ++ ":" ++ encode password ++ "@"
  | some user, none => encode user ++ "@"
  | none, some password => ":" ++ encode password ++ "@"
  | none, none => ""

/-- The scheme, the credentials, the host with its port, and the number of the database. -/
def Settings.address (s : Settings) : String :=
  (if s.encrypted then "rediss" else "redis") ++ "://" ++ Address.userInfo s.username s.password
    ++ s.host ++ ":" ++ s.port.toNat.repr ++ "/" ++ s.database.toInt.repr

/-- An address taken apart. Credentials, path and query are as they stand in it, and are judged only
when a connection is opened. -/
structure Address where
  encrypted : Bool
  username : List Char
  password : List Char
  host : List Char
  port : Option Nat
  path : List Char
  query : List Char
  deriving DecidableEq

namespace Address

/-- A port, which may be left out after its colon, and what follows it. A backslash ends the port,
any other character has to be a digit. -/
def splitPort? : List Char → Option (Option Nat × List Char)
  | ':' :: rest =>
    let digits := rest.takeWhile Char.isDigit
    let after := rest.dropWhile Char.isDigit
    let port := Nat.ofDigitChars 10 digits 0
    if port < 2 ^ 16 ∧ (after = [] ∨ after.head? = some '\\') then
      some (if digits = [] then none else some port, after)
    else none
  | rest => some (none, rest)

/-- What stands between the first question mark and the number sign, if no number sign is first. -/
def splitQuery (cs : List Char) : List Char :=
  match cs.dropWhile fun c => c ≠ '?' && c ≠ '#' with
  | '?' :: rest => rest.takeWhile (· ≠ '#')
  | _ => []

def isEndOfAuthority (c : Char) : Bool := c = '/' || c = '?' || c = '#'

/-- Takes an address apart that starts after the scheme. A host may be missing only where neither
credentials nor a port go with it. -/
def readAuthority (encrypted : Bool) (cs : List Char) : Except LinkFault Address :=
  let authority := cs.takeWhile (!isEndOfAuthority ·)
  let rest := cs.dropWhile (!isEndOfAuthority ·)
  let signIn := Text.cutLast? '@' authority
  let userInfo := signIn.elim [] (·.1)
  let (username, password) := (Text.cut? ':' userInfo).getD (userInfo, [])
  let (host, tail) := splitHost false (signIn.elim authority (·.2))
  if !isHost host then .error .badAddress
  else if host = [] then
    .error (if tail = [] ∧ (signIn = none ∨ userInfo = [':']) then .noHost else .badAddress)
  else
    match splitPort? tail with
    | none => .error .badAddress
    | some (port, after) =>
      let path := after ++ rest.takeWhile fun c => c ≠ '?' && c ≠ '#'
      .ok ⟨encrypted, username, password, host, port, path, splitQuery rest⟩

/-- Takes an address apart. Tabs and line ends in it are passed over. -/
def read (s : String) : Except LinkFault Address :=
  match s.toList.filter fun c => c ≠ '\t' && c ≠ '\n' && c ≠ '\r' with
  | 'r' :: 'e' :: 'd' :: 'i' :: 's' :: ':' :: '/' :: '/' :: cs => readAuthority false cs
  | 'r' :: 'e' :: 'd' :: 'i' :: 's' :: 's' :: ':' :: '/' :: '/' :: cs => readAuthority true cs
  | _ => .error .badAddress

/-- The only piece of the path is the number of the database; without one it is zero. -/
def database? (a : Address) : Option Int64 :=
  match ((pathPieces a.path).dropWhile (· = [])).reverse.dropWhile (· = []) with
  | [] => some 0
  | [piece] => Text.int64? (.ofList piece)
  | _ => none

/-- A part of the credentials, decoded; nothing stands for its absence. -/
def credential (fault : LinkFault) (cs : List Char) : Except LinkFault (Option String) :=
  if cs = [] then .ok none
  else
    match decode? cs with
    | some s => .ok (some s)
    | none => .error fault

/-- Whether the third version of the protocol is asked for; the second one is used otherwise. -/
def asksForThird (a : Address) : Except LinkFault Bool :=
  match parameter? "protocol" a.query with
  | none => .ok false
  | some version =>
    if version = "2" ∨ version = "resp2" then .ok false
    else if version = "3" ∨ version = "resp3" then .ok true
    else .error (.badProtocol version)

/-- Signing in, which takes a password. The third version of the protocol starts with a greeting,
and names the user in any case. -/
def signIn (third : Bool) (username password : Option String) : List (List String) :=
  let credentials (p : String) (user : List String) := "AUTH" :: user ++ [p]
  if third then
    [["HELLO", "3"] ++ password.elim [] (credentials · [username.getD "default"])]
  else (password.map (credentials · username.toList)).toList

/-- The commands that open a connection: signing in, and choosing a database other than the first.
Encrypted connections are not offered. -/
def handshake (a : Address) : Except LinkFault (List (List String)) := do
  if a.encrypted then .error .noEncryption
  match a.database? with
  | none => .error .badDatabase
  | some database =>
    let username ← credential .badUsername a.username
    let password ← credential .badPassword a.password
    let third ← a.asksForThird
    return signIn third username password
      ++ if database = 0 then [] else [["SELECT", database.toInt.repr]]

end Address
end Storehouse
