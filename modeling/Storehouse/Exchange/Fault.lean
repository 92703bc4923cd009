import Storehouse.Filter.Fault
import Storehouse.Reply.Fields

namespace Storehouse

inductive Misconfiguration
  | clearWithoutPrefix
  | invalidVariable (name raw : String)
  deriving DecidableEq, Repr

def Misconfiguration.detail : Misconfiguration → String
  | clearWithoutPrefix => "refusing to clear cache without a key prefix"
  | invalidVariable name raw => name ++ " has invalid value '" ++ raw ++ "'"

/-- What a server answers instead of a reply: a code and, after a blank, a text. -/
structure Refusal where
  code : String
  text : Option String
  deriving DecidableEq, Repr

namespace Refusal

def ofLine (line : String) : Refusal :=
  let cs := line.toList
  ⟨.ofList (cs.takeWhile (· ≠ ' ')),
    match cs.dropWhile (· ≠ ' ') with
    | _ :: text => some (.ofList text)
    | [] => none⟩

/-- The name of the kind of failure, for the codes that every server uses. -/
def kind? : String → Option String
  | "ERR" => some "ResponseError"
  | "EXECABORT" => some "ExecAbortError"
  | "LOADING" => some "BusyLoadingError"
  | "NOSCRIPT" => some "NoScriptError"
  | "MOVED" => some "Moved"
  | "ASK" => some "Ask"
  | "TRYAGAIN" => some "TryAgain"
  | "CLUSTERDOWN" => some "ClusterDown"
  | "CROSSSLOT" => some "CrossSlot"
  | "MASTERDOWN" => some "MasterDown"
  | "READONLY" => some "ReadOnly"
  | "NOTBUSY" => some "NotBusy"
  | "NOSUB" => some "NoSub"
  | _ => none

def detail (r : Refusal) : String :=
  match kind? r.code, r.text with
  | some kind, some text => "An error was signalled by the server - " ++ kind ++ ": " ++ text
  | some kind, none => "An error was signalled by the server- " ++ kind
  | none, some text => r.code ++ ": " ++ text
  | none, none => r.code ++ ": Unknown extension error encountered"

end Refusal

inductive LinkFault
  | dropped
  | refused (r : Refusal)
  | badAddress
  | noHost
  | noEncryption
  | badDatabase
  | badUsername
  | badPassword
  | badProtocol (version : String)
  deriving DecidableEq, Repr

/-- The words for a failure of the link; a dropped connection is reported in the words of the
system. -/
def LinkFault.detail? : LinkFault → Option String
  | dropped => none
  | refused r => some r.detail
  | badAddress => some "Redis URL did not parse- InvalidClientConfig"
  | noHost => some "Missing hostname- InvalidClientConfig"
  | noEncryption => some "can't connect with TLS, the feature is not enabled- InvalidClientConfig"
  | badDatabase => some "Invalid database number- InvalidClientConfig"
  | badUsername => some "Username is not valid UTF-8 string- InvalidClientConfig"
  | badPassword => some "Password is not valid UTF-8 string- InvalidClientConfig"
  | badProtocol version => some ("Invalid protocol version - InvalidClientConfig: " ++ version)

inductive Fault
  | filter (f : Filter.Fault)
  | link (f : LinkFault)
  | serialization
  | unexpected (u : Unexpected)
  | emptyCommand
  | misconfigured (m : Misconfiguration)

/-- The message of a failure. Text that is not JSON of the expected form has none of its own. -/
def Fault.message? : Fault → Option String
  | filter f => some f.message
  | link f => f.detail?.map ("Redis error: " ++ ·)
  | serialization => none
  | unexpected u => some ("Unexpected reply: " ++ u.detail)
  | emptyCommand => some "Refusing to send an empty command"
  | misconfigured m => some ("Configuration error: " ++ m.detail)

end Storehouse
