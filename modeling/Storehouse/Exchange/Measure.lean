import Storehouse.Double.Nearest

namespace Storehouse

inductive Event
  | command (name status : String)
  | latency (command : String) (nanoseconds : Nat)
  | compileError
  | searchResults (count : Nat)
  | cacheLookup (hit : Bool)
  deriving DecidableEq, Repr

/-- A duration in seconds: the whole seconds and the rest are converted apart. -/
def seconds (nanoseconds : Nat) : Float :=
  Double.ofInt (nanoseconds / 10 ^ 9 : Nat)
    + Double.ofInt (nanoseconds % 10 ^ 9 : Nat) / Double.ofInt (10 ^ 9)

/-- What an event is counted or sampled under. -/
structure Measure.Key where
  name : String
  labels : List (String × String)
  deriving DecidableEq, Repr

/-- A counter, or the samples of a histogram in the order in which they came. -/
inductive Measure.Tally
  | counter (n : Nat)
  | histogram (samples : List Float)

namespace Measure

def Key.ofEvent : Event → Key
  | .command name status =>
    ⟨"redis_repository_commands_total", [("command", name), ("status", status)]⟩
  | .latency command _ => ⟨"redis_repository_command_seconds", [("command", command)]⟩
  | .compileError => ⟨"redis_repository_compile_errors_total", []⟩
  | .searchResults _ => ⟨"redis_repository_search_results", []⟩
  | .cacheLookup hit =>
    ⟨"redis_repository_cache_lookups_total", [("result", if hit then "hit" else "miss")]⟩

/-- What the event adds to its histogram; an event without a sample is counted. -/
def sample? : Event → Option Float
  | .latency _ nanoseconds => some (seconds nanoseconds)
  | .searchResults count => some (Double.ofInt count)
  | _ => none

def Key.texts (k : Key) : List String :=
  k.name :: k.labels.flatMap fun (label, value) => [label, value]

/-- Keys are in the order of their names and, under one name, of their labels. -/
def Key.before (a b : Key) : Bool := a.texts < b.texts

/-- The keys of some events, each once and in order. -/
def keys (events : List Event) : List Key :=
  ((events.map Key.ofEvent).eraseDups).mergeSort fun a b => !b.before a

def tally (events : List Event) (key : Key) : Tally :=
  let own := events.filter (Key.ofEvent · = key)
  match own.filterMap sample? with
  | [] => .counter own.length
  | samples => .histogram samples

/-- All counters and histograms that some events amount to. -/
def rows (events : List Event) : List (Key × Tally) :=
  (keys events).map fun key => (key, tally events key)

end Measure
end Storehouse
