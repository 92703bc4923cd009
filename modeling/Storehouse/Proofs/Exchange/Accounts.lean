import Storehouse.Proofs.Exchange.Records
import Storehouse.Proofs.Exchange.Tallies

namespace Storehouse

variable {α σ : Type}

namespace Measure

/-- A call with its result, which clearing may lack; a lookup also with the answer to its command.
-/
inductive Call
  | find (result : Except Fault (List Search.Hit))
  | count (result : Except Fault UInt64)
  | remove (result : Except Fault UInt64)
  | aggregate (result : Except Fault (List (List (String × String))))
  | get {α : Type} (answer : Except Fault Reply) (result : Except Fault (Option α))
  | set (result : Except Fault Unit)
  | delete (result : Except Fault Bool)
  | clear (result : Option (Except Fault UInt64))

namespace Call

def refused : Call → Bool
  | find result => blamesFilter result
  | count result => blamesFilter result
  | remove result => blamesFilter result
  | aggregate result => blamesFilter result
  | get _ result => blamesFilter result
  | set result => blamesFilter result
  | delete result => blamesFilter result
  | clear result => result.any blamesFilter

/-- How many documents the call has found, if it was to find some and succeeded. -/
def found? : Call → Option Nat
  | find (.ok hits) => some hits.length
  | _ => none

/-- What the call has looked up: a text, or that there is none. -/
def looked? : Call → Option (Option String)
  | get answer _ => Cache.looked? answer
  | _ => none

def hit (call : Call) : Bool := call.looked?.any Option.isSome

def missed (call : Call) : Bool := call.looked?.any Option.isNone

def events (call : Call) : List Event :=
  (if call.refused then [.compileError] else []) ++ call.found?.toList.map .searchResults ++
    call.looked?.toList.map fun stored => .cacheLookup stored.isSome

variable {call : Call}

theorem events_find (result : Except Fault (List Search.Hit)) :
    (find result).events = Search.Index.found result := by
  cases result with
  | ok hits => rfl
  | error e => cases e <;> rfl

theorem events_get {answer : Except Fault Reply} {result : Except Fault (Option α)}
    (h : blamesFilter result = false) : (get answer result).events =
      (Cache.looked? answer).toList.map fun stored => .cacheLookup stored.isSome := by
  rw [events, refused, h]
  rfl

theorem events_of_none (hfound : call.found? = none) (hlooked : call.looked? = none) :
    call.events = if call.refused then [.compileError] else [] := by
  rw [events, hfound, hlooked]
  simp

theorem count_compileError (call : Call) :
    call.events.count .compileError = if call.refused then 1 else 0 := by
  rw [events]
  cases call.refused <;> cases call.found? <;> cases call.looked? <;> rfl

theorem count_hit (call : Call) :
    call.events.count (.cacheLookup true) = if call.hit then 1 else 0 := by
  rw [events, hit]
  cases call.refused <;> cases call.found? <;> rcases call.looked? with _ | _ | _ <;> rfl

theorem count_missed (call : Call) :
    call.events.count (.cacheLookup false) = if call.missed then 1 else 0 := by
  rw [events, missed]
  cases call.refused <;> cases call.found? <;> rcases call.looked? with _ | _ | _ <;> rfl

theorem filterMap_results? (call : Call) :
    call.events.filterMap results? = call.found?.toList := by
  rw [events]
  cases call.refused <;> cases call.found? <;> cases call.looked? <;> rfl

end Call

/-- The call was made on this executor and has led from one state to the other. -/
inductive Made (execute : Executor σ) : Call → Exchange σ → Exchange σ → Prop
  | find (i : Search.Index) (r : Search.Request) (x : Exchange σ) :
    Made execute (.find ((i.find r).run execute x).1) x ((i.find r).run execute x).2
  | count (i : Search.Index) (r : Search.Request) (x : Exchange σ) :
    Made execute (.count ((i.count r).run execute x).1) x ((i.count r).run execute x).2
  | remove (i : Search.Index) (r : Search.Request) (x : Exchange σ) :
    Made execute (.remove ((i.remove r).run execute x).1) x ((i.remove r).run execute x).2
  | aggregate (i : Search.Index) (r : Search.Request) (x : Exchange σ) :
    Made execute (.aggregate ((i.aggregate r).run execute x).1) x
      ((i.aggregate r).run execute x).2
  | get {α : Type} (c : Cache) (codec : Codec α) (key : String) (x : Exchange σ) :
    Made execute (.get (execute ["GET", c.space.apply key] x.server).1
      ((c.get codec key).run execute x).1) x ((c.get codec key).run execute x).2
  | set {α : Type} (c : Cache) (codec : Codec α) (key : String) (value : α)
    (lifetime : Option Nat) (x : Exchange σ) :
    Made execute (.set ((c.set codec key value lifetime).run execute x).1) x
      ((c.set codec key value lifetime).run execute x).2
  | delete (c : Cache) (key : String) (x : Exchange σ) :
    Made execute (.delete ((c.delete key).run execute x).1) x ((c.delete key).run execute x).2
  | clear {c : Cache} {x y : Exchange σ} {result : Option (Except Fault UInt64)}
    (h : c.Clears execute x result y) : Made execute (.clear result) x y

theorem Made.events_eq {execute : Executor σ} {call : Call} {x y : Exchange σ}
    (hexecute : SeesNoFilter execute) (h : Made execute call x y) :
    y.events = x.events ++ call.events := by
  cases h with
  | find i r =>
    rw [Call.events_find]
    exact i.records_find r σ execute hexecute x
  | count i r =>
    rw [Call.events_of_none rfl rfl]
    exact i.records_count r σ execute hexecute x
  | remove i r =>
    rw [Call.events_of_none rfl rfl]
    exact i.records_remove r σ execute hexecute x
  | aggregate i r =>
    rw [Call.events_of_none rfl rfl]
    exact i.records_aggregate r σ execute hexecute x
  | get c codec key =>
    obtain ⟨hevents, hplain⟩ := Cache.events_get hexecute c codec key x
    rw [hevents, Call.events_get hplain]
  | set c codec key value lifetime =>
    rw [Call.events_of_none rfl rfl]
    exact c.records_set codec key value lifetime σ execute hexecute x
  | delete c key =>
    rw [Call.events_of_none rfl rfl]
    exact c.records_delete key σ execute hexecute x
  | clear h =>
    rw [Call.events_of_none rfl rfl]
    exact h.events_eq hexecute

def ofCommand : Event → Bool
  | .command _ _ => true
  | .latency _ _ => true
  | _ => false

/-- Calls one after the other, each on an executor of its own. In between the server may change, and
what becomes of commands may be recorded. -/
inductive Calls (x : Exchange σ) : List Call → Exchange σ → Prop
  | start : Calls x [] x
  | between {calls : List Call} {y : Exchange σ} (h : Calls x calls y) (server : σ)
    {events : List Event} (hevents : ∀ event ∈ events, ofCommand event = true) :
    Calls x calls ⟨server, y.events ++ events⟩
  | call {calls : List Call} {call : Call} {execute : Executor σ} {y z : Exchange σ}
    (h : Calls x calls y) (hexecute : SeesNoFilter execute) (hcall : Made execute call y z) :
    Calls x (calls ++ [call]) z

theorem Call.filter_events (call : Call) :
    (call.events.filter fun event => !ofCommand event) = call.events := by
  rw [events]
  cases call.refused <;> cases call.found? <;> cases call.looked? <;> rfl

theorem Calls.filter_events {calls : List Call} {s : σ} {y : Exchange σ}
    (h : Calls ⟨s, []⟩ calls y) :
    (y.events.filter fun event => !ofCommand event) = calls.flatMap Call.events := by
  induction h with
  | start => rfl
  | @between calls y _ server events hevents ih =>
    have hnone : (events.filter fun event => !ofCommand event) = [] := by
      rw [List.filter_eq_nil_iff]
      intro event hevent
      rw [hevents event hevent]
      exact Bool.false_ne_true
    rw [List.filter_append, ih, hnone, List.append_nil]
  | @call calls call execute y z _ hexecute hcall ih =>
    rw [hcall.events_eq hexecute, List.filter_append, ih, call.filter_events,
      List.flatMap_append, List.flatMap_singleton]

theorem count_flatMap_events {event : Event} {p : Call → Bool}
    (h : ∀ call : Call, call.events.count event = if p call then 1 else 0) (calls : List Call) :
    (calls.flatMap Call.events).count event = calls.countP p := by
  induction calls with
  | nil => rfl
  | cons call calls ih =>
    rw [List.flatMap_cons, List.count_append, ih, h, List.countP_cons, Nat.add_comm]

theorem filterMap_flatMap_events (calls : List Call) :
    (calls.flatMap Call.events).filterMap results? = calls.filterMap Call.found? := by
  rw [List.filterMap_flatMap, List.filterMap_eq_flatMap_toList]
  simp only [Call.filterMap_results?]

theorem filterMap_results?_filter (events : List Event) :
    (events.filter fun event => !ofCommand event).filterMap results? =
      events.filterMap results? := by
  rw [List.filterMap_filter]
  congr 1
  funext event
  cases event <;> rfl

/-- After any calls, the counter of failures to compile is the number of calls that failed so, the
samples are the numbers of documents of the searches that found some, in order, and the counters of
lookups are the numbers of those whose answer was a text and of those whose answer was nil. On a
script clearing goes in rounds as it does here, and neither a script nor a link has faults of a
filter. -/
theorem measured_as_happened {calls : List Call} {s : σ} {y : Exchange σ}
    (h : Calls ⟨s, []⟩ calls y) :
    counted (rows y.events) (.ofEvent .compileError) = calls.countP Call.refused ∧
    (∀ n, sampled (rows y.events) (.ofEvent (.searchResults n)) =
      (calls.filterMap Call.found?).map fun m : Nat => Double.ofInt m) ∧
    counted (rows y.events) (.ofEvent (.cacheLookup true)) = calls.countP Call.hit ∧
    counted (rows y.events) (.ofEvent (.cacheLookup false)) = calls.countP Call.missed ∧
    (∀ (c : Cache) (x y : Exchange Script) (result : Option (Except Fault UInt64)),
      c.Clears Script.execute x result y ↔ c.clear x = (result, y)) ∧
    SeesNoFilter Script.execute ∧
    ∀ (policy : Backoff.Policy) (command : List String) (x : Exchange Link.Server)
      (result : Except Fault Reply), (Link.execute policy command x).1 = some result →
        blamesFilter result = false := by
  have hevents := h.filter_events
  have hcount {event : Event} {p : Call → Bool} (hkind : ofCommand event = false)
      (hp : ∀ call : Call, call.events.count event = if p call then 1 else 0) :
      y.events.count event = calls.countP p := by
    rw [← count_flatMap_events hp, ← hevents, List.count_filter]
    rw [hkind]
    rfl
  refine ⟨?_, ?_, ?_, ?_, fun c x y result => Cache.clears_iff, seesNoFilter_script,
    fun policy command x result => blamesFilter_link policy command x⟩
  · rw [counted_compileError, hcount rfl Call.count_compileError]
  · intro n
    rw [sampled_searchResults, ← filterMap_results?_filter, hevents, filterMap_flatMap_events]
  · rw [counted_cacheLookup, hcount rfl Call.count_hit]
  · rw [counted_cacheLookup, hcount rfl Call.count_missed]

/-- Texts are stored as they are, and none is read as a value. -/
def writeOnly : Codec String where
  encode s := some s
  decode _ := none

def unfit : Search.Request :=
  { Search.Request.empty with clause := some (.ready (.leaf ⟨"role", .notIn, .scalar .null⟩)) }

def mixedReplies : Script :=
  .ofReplies [.array [.int 1, .simple "user:1", .array []], .simple "text", .nil, .array []]

/-- A removal whose filter does not compile, a search that finds one document, and three lookups: of
a text that is no value, of nothing, and of a list. -/
theorem measured_five_calls : ∃ calls y, Calls ⟨mixedReplies, []⟩ calls y ∧ calls.length = 5 ∧
    counted (rows y.events) (.ofEvent .compileError) = 1 ∧
    sampled (rows y.events) (.ofEvent (.searchResults 0)) = [Double.ofInt 1] ∧
    counted (rows y.events) (.ofEvent (.cacheLookup true)) = 1 ∧
    counted (rows y.events) (.ofEvent (.cacheLookup false)) = 1 := by
  have hremove := (Calls.start (x := ⟨mixedReplies, []⟩)).call seesNoFilter_script
    (.remove .default unfit _)
  have hfind := hremove.call seesNoFilter_script (.find .default .empty _)
  have hget {calls : List Call} {y : Exchange Script} (h : Calls ⟨mixedReplies, []⟩ calls y)
      (key : String) := h.call seesNoFilter_script (.get ⟨⟨"cache:"⟩, none⟩ writeOnly key y)
  have hall := hget (hget (hget hfind "a") "b") "c"
  obtain ⟨hrefused, hfound, hhit, hmissed, -⟩ := measured_as_happened hall
  exact ⟨_, _, hall, rfl, hrefused.trans rfl, (hfound 0).trans rfl, hhit.trans rfl,
    hmissed.trans rfl⟩

end Measure
end Storehouse
