import Storehouse.Link
import Storehouse.Proofs.Cache.Rounds
import Storehouse.Proofs.Exchange.Endings
import Storehouse.Search.Operations

namespace Storehouse

variable {α β σ : Type}

def Fault.ofFilter : Fault → Bool
  | filter _ => true
  | _ => false

def blamesFilter : Except Fault α → Bool
  | .ok _ => false
  | .error e => e.ofFilter

/-- What is recorded of a result as such. -/
def refusal (result : Except Fault α) : List Event :=
  if blamesFilter result then [.compileError] else []

theorem refusal_of_not_blames {e : Fault} (h : blamesFilter (.error e : Except Fault α) = false) :
    refusal (.error e : Except Fault β) = [] :=
  if_neg (Bool.eq_false_iff.mp h)

/-- An executor is given tokens and no filter, so none of its faults is one of a filter. -/
def SeesNoFilter (execute : Executor σ) : Prop :=
  ∀ command s, blamesFilter (execute command s).1 = false

theorem seesNoFilter_script : SeesNoFilter Script.execute := by
  intro command s
  unfold Script.execute
  split <;> rfl

theorem blamesFilter_link (policy : Backoff.Policy) (command : List String)
    (x : Exchange Link.Server) {result : Except Fault Reply}
    (h : (Link.execute policy command x).1 = some result) : blamesFilter result = false := by
  cases command with
  | nil =>
    cases h
    rfl
  | cons name arguments =>
    obtain ⟨answer, -, rfl⟩ := Option.map_eq_some_iff.mp h
    cases answer <;> rfl

namespace Dialogue

/-- What is recorded follows from the result, whatever the executor is. -/
def Records (d : Dialogue α) (said : Except Fault α → List Event) : Prop :=
  ∀ (σ : Type) (execute : Executor σ), SeesNoFilter execute → ∀ x : Exchange σ,
    (d.run execute x).2.events = x.events ++ said (d.run execute x).1

theorem records_done {result : Except Fault α} {said : Except Fault α → List Event}
    (h : said result = []) : (done result).Records said := by
  intro σ execute _ x
  change x.events = x.events ++ said result
  rw [h, List.append_nil]

theorem records_expect (read : Except Unexpected α) : (expect read).Records refusal := by
  apply records_done
  cases read <;> rfl

theorem records_ask (command : List String) : (ask command).Records refusal := by
  intro σ execute hexecute x
  have hplain := hexecute command x.server
  rw [ask, run]
  rcases hanswer : execute command x.server with ⟨answer, t⟩
  cases answer with
  | ok reply => exact (List.append_nil _).symm
  | error e =>
    rw [hanswer] at hplain
    change x.events = x.events ++ refusal (.error e)
    rw [refusal_of_not_blames hplain, List.append_nil]

/-- Up to a success nothing has been recorded, so what comes after it says it all. -/
theorem Records.bind {d : Dialogue α} {f : α → Dialogue β} {said : Except Fault β → List Event}
    (h : d.Records refusal) (herror : ∀ e, said (.error e) = refusal (.error e : Except Fault β))
    (hf : ∀ a, (f a).Records said) : (d >>= f).Records said := by
  intro σ execute hexecute x
  have hd := h σ execute hexecute x
  rw [run_bind]
  rcases hrun : d.run execute x with ⟨result, y⟩
  rw [hrun] at hd
  cases result with
  | error e =>
    dsimp only
    rw [herror]
    exact hd
  | ok a =>
    have hy : y.events = x.events := hd.trans (List.append_nil _)
    dsimp only
    rw [hf a σ execute hexecute y, hy]

theorem Records.andThen {d : Dialogue α} {f : α → Dialogue β} (h : d.Records refusal)
    (hf : ∀ a, (f a).Records refusal) : (d >>= f).Records refusal :=
  h.bind (fun _ => rfl) hf

end Dialogue

open Dialogue (records_done records_ask records_expect)

namespace Search.Index

theorem records_compiled (command : Except Filter.Fault (List String)) :
    (compiled command).Records refusal := by
  cases command with
  | ok tokens => exact records_done rfl
  | error e =>
    intro σ execute _ x
    rfl

theorem records_page (command : Except Filter.Fault (List String)) :
    (page command).Records refusal :=
  (records_compiled command).andThen fun tokens =>
    (records_ask tokens).andThen fun _ => records_expect _

theorem records_count (i : Index) (r : Request) : (i.count r).Records refusal :=
  (records_page _).andThen fun _ => records_done rfl

theorem records_remove (i : Index) (r : Request) : (i.remove r).Records refusal := by
  apply (i.records_count r).andThen
  intro total
  split
  · exact records_done rfl
  · apply (records_page _).andThen
    intro found
    split
    · exact records_done rfl
    · exact (records_ask _).andThen fun _ => records_expect _

theorem records_aggregate (i : Index) (r : Request) : (i.aggregate r).Records refusal :=
  (records_compiled _).andThen fun tokens => (records_ask tokens).andThen fun _ => records_expect _

def found : Except Fault (List Hit) → List Event
  | .ok hits => [.searchResults hits.length]
  | .error e => refusal (.error e : Except Fault (List Hit))

theorem records_find (i : Index) (r : Request) : (i.find r).Records found := by
  apply (records_page _).bind
  · intro e
    rfl
  · intro page σ execute _ x
    rfl

end Search.Index

theorem Keyed.records_on (k : Keyed α) (space : Keyspace) (key : String) :
    (k.on space key).Records refusal :=
  (records_ask _).andThen fun _ => records_expect _

namespace Cache

theorem records_set (c : Cache) (codec : Codec α) (key : String) (value : α)
    (lifetime : Option Nat) : (c.set codec key value lifetime).Records refusal := by
  rw [set]
  split
  · exact records_done rfl
  · exact Keyed.records_on _ c.space key

theorem records_delete (c : Cache) (key : String) : (c.delete key).Records refusal :=
  Keyed.delete.records_on c.space key

theorem records_deleteKeys (keys : List String) : (deleteKeys keys).Records refusal := by
  cases keys with
  | nil => exact records_done rfl
  | cons key keys => exact (records_ask _).andThen fun _ => records_expect _

theorem records_deleteBatch (scanned : Reply) : (deleteBatch scanned).Records refusal := by
  rw [deleteBatch]
  split
  · exact records_done rfl
  · exact (records_expect _).andThen fun found =>
      (records_deleteKeys found.2).andThen fun _ => records_done rfl

theorem records_sweep (c : Cache) (cursor : String) : (c.sweep cursor).Records refusal :=
  (records_ask _).andThen records_deleteBatch

section Rounds

variable {execute : Executor σ} {c : Cache} {cursor : String} {removed : UInt64} {x y : Exchange σ}
  {result : Option (Except Fault UInt64)}

theorem events_of_sweep {n : Option (String × UInt64)} (hexecute : SeesNoFilter execute)
    (h : (c.sweep cursor).run execute x = (.ok n, y)) : y.events = x.events := by
  have hround := c.records_sweep cursor σ execute hexecute x
  rw [h] at hround
  exact hround.trans (List.append_nil _)

theorem ClearsFrom.events_eq (hexecute : SeesNoFilter execute)
    (h : ClearsFrom execute c cursor removed x result y) :
    y.events = x.events ++ if result.any blamesFilter then [.compileError] else [] := by
  induction h with
  | @failed cursor removed x y e h =>
    have hround := c.records_sweep cursor σ execute hexecute x
    rw [h] at hround
    exact hround
  | noParts h | outgrown h | last h =>
    exact (events_of_sweep hexecute h).trans (List.append_nil _).symm
  | more h _ _ _ ih => rw [ih, events_of_sweep hexecute h]

theorem Clears.events_eq (hexecute : SeesNoFilter execute) (h : Clears execute c x result y) :
    y.events = x.events ++ if result.any blamesFilter then [.compileError] else [] := by
  cases h with
  | refused => exact (List.append_nil _).symm
  | rounds _ hrounds => exact hrounds.events_eq hexecute

/-- The text that the answer to a lookup holds, or that it holds none; nothing if there is no answer
or it is neither. -/
def looked? : Except Fault Reply → Option (Option String)
  | .ok reply => reply.toOptionalText.toOption
  | .error _ => none

theorem events_get (hexecute : SeesNoFilter execute) (c : Cache) (codec : Codec α) (key : String)
    (x : Exchange σ) :
    ((c.get codec key).run execute x).2.events = x.events ++
        (looked? (execute ["GET", c.space.apply key] x.server).1).toList.map
          (fun stored => .cacheLookup stored.isSome) ∧
      blamesFilter ((c.get codec key).run execute x).1 = false := by
  have hplain := hexecute ["GET", c.space.apply key] x.server
  rcases hanswer : execute ["GET", c.space.apply key] x.server with ⟨answer, t⟩
  rw [get, Dialogue.run_bind]
  cases answer with
  | error e =>
    rw [hanswer] at hplain
    rw [Keyed.run_on_of_error hanswer]
    exact ⟨(List.append_nil _).symm, hplain⟩
  | ok reply =>
    rw [Keyed.run_on_of_ok hanswer]
    dsimp only [Reply.readAs, looked?]
    cases reply.toOptionalText with
    | error m => exact ⟨(List.append_nil _).symm, rfl⟩
    | ok stored =>
      cases stored with
      | none => exact ⟨rfl, rfl⟩
      | some text =>
        dsimp only [Except.mapError]
        cases codec.decode text with
        | none => exact ⟨rfl, rfl⟩
        | some value => exact ⟨rfl, rfl⟩

end Rounds
end Cache

end Storehouse
