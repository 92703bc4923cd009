import Storehouse.Exchange.Fault
import Storehouse.Search.Command
import Storehouse.Basic

namespace Storehouse

structure Settings where
  host : String
  port : UInt16
  username : Option String
  password : Option String
  database : Int64
  encrypted : Bool
  keyPrefix : String
  searchIndex : String
  aliases : Search.Aliases
  cachePrefix : String
  cacheSeconds : Option UInt64
  deriving DecidableEq

namespace Settings

/-- A server on this machine that asks for no password. -/
def default : Settings where
  host := "127.0.0.1"
  port := 6379
  username := none
  password := none
  database := 0
  encrypted := false
  keyPrefix := ""
  searchIndex := "idx:default"
  aliases := .default
  cachePrefix := "cache:"
  cacheSeconds := none

def port? (s : String) : Option UInt16 :=
  (Text.natural? (2 ^ 16) s).map UInt16.ofNat

def flag? (s : String) : Option Bool :=
  match Text.lower s with
  | "1" | "true" | "yes" | "on" => some true
  | "0" | "false" | "no" | "off" | "" => some false
  | _ => none

/-- Reads a variable without the blanks around it; one that is not set has no value. -/
def readVariable {α : Type} (lookup : String → Option String) (read : String → Option α)
    (name : String) : Except Misconfiguration (Option α) :=
  match lookup name with
  | none => .ok none
  | some raw =>
    match read (Text.trim raw) with
    | some a => .ok (some a)
    | none => .error (.invalidVariable name raw)

/-- Settings from variables. What is not set keeps its default, and the first variable that cannot
be read is reported. -/
def ofVariables (lookup : String → Option String) : Except Misconfiguration Settings := do
  let port ← readVariable lookup port? "REDIS_PORT"
  let database ← readVariable lookup Text.int64? "REDIS_DB"
  let encrypted ← readVariable lookup flag? "REDIS_TLS"
  let cacheSeconds ← readVariable lookup Text.word? "REDIS_CACHE_TTL_SECS"
  return {
    host := (lookup "REDIS_HOST").getD default.host
    port := port.getD default.port
    username := (lookup "REDIS_USERNAME").filter (· ≠ "")
    password := (lookup "REDIS_PASSWORD").filter (· ≠ "")
    database := database.getD default.database
    encrypted := encrypted.getD default.encrypted
    keyPrefix := (lookup "REDIS_KEY_PREFIX").getD default.keyPrefix
    searchIndex := (lookup "REDIS_SEARCH_INDEX").getD default.searchIndex
    aliases := default.aliases
    cachePrefix := (lookup "REDIS_CACHE_PREFIX").getD default.cachePrefix
    cacheSeconds := cacheSeconds }

def ofJson? (v : Json) : Option Settings :=
  match v.fields? ["host", "port", "username", "password", "db", "tls", "key_prefix",
    "search_index", "reducer_aliases", "cache_prefix", "cache_ttl_secs"] with
  | some [host, port, username, password, database, encrypted, keyPrefix, searchIndex, aliases,
      cachePrefix, cacheSeconds] => do
    let host ← Json.orElse default.host Json.string? host
    let port ← Json.orElse default.port (fun v => UInt16.ofNat <$> v.natural? (2 ^ 16)) port
    let username ← Json.orElse none (Json.nullable Json.string?) username
    let password ← Json.orElse none (Json.nullable Json.string?) password
    let database ← Json.orElse default.database Json.int64? database
    let encrypted ← Json.orElse default.encrypted Json.bool? encrypted
    let keyPrefix ← Json.orElse default.keyPrefix Json.string? keyPrefix
    let searchIndex ← Json.orElse default.searchIndex Json.string? searchIndex
    let aliases ← Json.orElse default.aliases Search.Aliases.ofJson? aliases
    let cachePrefix ← Json.orElse default.cachePrefix Json.string? cachePrefix
    let cacheSeconds ← Json.orElse none
      (Json.nullable fun v => UInt64.ofNat <$> v.natural? (2 ^ 64)) cacheSeconds
    return ⟨host, port, username, password, database, encrypted, keyPrefix, searchIndex, aliases,
      cachePrefix, cacheSeconds⟩
  | _ => none

def index (s : Settings) : Search.Index := ⟨s.searchIndex, s.aliases⟩

end Settings
end Storehouse
