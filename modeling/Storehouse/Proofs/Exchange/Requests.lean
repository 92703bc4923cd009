import Mathlib.Data.List.Basic
import Storehouse.Cache
import Storehouse.Collection
import Storehouse.Proofs.Exchange.Turns

namespace Storehouse

namespace Dialogue

variable {α β σ : Type}

def Silent : Dialogue α → Prop
  | done _ => True
  | send _ _ => False
  | record _ rest => rest.Silent

theorem Silent.server_run {d : Dialogue α} (h : d.Silent) (execute : Executor σ) (x : Exchange σ) :
    (d.run execute x).2.server = x.server := by
  induction d generalizing x with
  | done result => rfl
  | send command next => exact h.elim
  | record event rest ih => exact ih h _

/-- The command is sent and no other, whatever the server is and whatever it replies. -/
def AsksOnly (d : Dialogue α) (command : List String) : Prop :=
  ∀ (σ : Type) (execute : Executor σ) (x : Exchange σ),
    (d.run execute x).2.server = (execute command x.server).2

theorem asksOnly_ask (command : List String) : (ask command).AsksOnly command := by
  intro σ execute x
  rw [ask, run]
  split
  · next h => rw [h]; rfl
  · next h => rw [h]

/-- What is done with the reply makes no difference as long as nothing more is sent. -/
theorem AsksOnly.bind {d : Dialogue α} {command : List String} (h : d.AsksOnly command)
    {f : α → Dialogue β} (hf : ∀ a, (f a).Silent) : (d >>= f).AsksOnly command := by
  intro σ execute x
  rw [← h σ execute x, run_bind]
  split
  · next hd => rw [(hf _).server_run, hd]
  · next hd => rw [hd]

theorem AsksOnly.unique {d : Dialogue α} {command other : List String} (h : d.AsksOnly command)
    (hother : d.AsksOnly other) : command = other := by
  let keeping : Executor (List String) := fun command _ => (.ok .nil, command)
  exact (h _ keeping ⟨[], []⟩).symm.trans (hother _ keeping ⟨[], []⟩)

theorem AsksOnly.server_play {d : Dialogue α} {verb : String} {arguments : List String}
    (h : d.AsksOnly (verb :: arguments)) (x : Exchange Script) :
    (d.play x).2.server =
      ⟨x.server.pending.tail, x.server.commands ++ [verb :: arguments]⟩ := by
  rw [play, h, Script.execute_cons, Script.receive, List.length_singleton, List.drop_one]

end Dialogue

theorem Keyed.asksOnly_on {α : Type} (k : Keyed α) (space : Keyspace) (key : String) :
    (k.on space key).AsksOnly (k.command space key) :=
  (Dialogue.asksOnly_ask _).bind fun _ => trivial

/-- The requests about a key of a keyspace. A cache asks for nothing to be stored unless the value
has a text. -/
inductive KeyRequest (space : Keyspace) (key : String) : {α : Type} → Dialogue α → Prop
  | hash {α : Type} (request : Collection.Hash α) :
    KeyRequest space key (request.keyed.on space key)
  | sequence {α : Type} (request : Collection.Sequence α) :
    KeyRequest space key (request.keyed.on space key)
  | members {α : Type} (request : Collection.Members α) :
    KeyRequest space key (request.keyed.on space key)
  | ranking {α : Type} (request : Collection.Ranking α) :
    KeyRequest space key (request.keyed.on space key)
  | get {α : Type} (lifetime : Option Nat) (codec : Codec α) :
    KeyRequest space key (Cache.get ⟨space, lifetime⟩ codec key)
  | set {α : Type} (lifetime : Option Nat) (codec : Codec α) (value : α) (ownLifetime : Option Nat)
    (h : codec.encode value ≠ none) :
    KeyRequest space key (Cache.set ⟨space, lifetime⟩ codec key value ownLifetime)
  | delete (lifetime : Option Nat) : KeyRequest space key (Cache.delete ⟨space, lifetime⟩ key)

namespace Keyspace

variable {a b : Keyspace}

theorem strip_apply (space : Keyspace) (key : String) : space.strip (space.apply key) = key := by
  have hrest : space.lead.toList.isPrefixOf? (space.apply key).toList = some key.toList := by
    rw [apply, String.toList_append]
    exact List.isPrefixOf?_eq_some_iff_append_eq.mpr rfl
  rw [strip, hrest]
  exact String.ofList_toList

theorem apply_injective (space : Keyspace) : Function.Injective space.apply :=
  Function.LeftInverse.injective space.strip_apply

/-- The beginning of one keyspace begins with that of the other. -/
def Nested (a b : Keyspace) : Prop :=
  a.lead.toList <+: b.lead.toList ∨ b.lead.toList <+: a.lead.toList

theorem nested_of_apply_eq {key key' : String} (h : a.apply key = b.apply key') : a.Nested b := by
  rw [apply, apply, ← String.toList_inj, String.toList_append, String.toList_append] at h
  exact List.prefix_or_prefix_of_prefix (List.prefix_append _ key.toList) ⟨key'.toList, h.symm⟩

end Keyspace

namespace KeyRequest

variable {α : Type} {d : Dialogue α} {space : Keyspace} {key : String}

theorem exists_asksOnly (h : KeyRequest space key d) :
    ∃ verb arguments, d.AsksOnly (verb :: space.apply key :: arguments) := by
  cases h with
  | hash request | sequence request | members request | ranking request =>
    exact ⟨_, _, request.keyed.asksOnly_on space key⟩
  | get lifetime codec =>
    refine ⟨_, _, (Keyed.asksOnly_on _ space key).bind ?_⟩
    intro stored
    cases stored with
    | none => trivial
    | some text =>
      dsimp only
      cases codec.decode text <;> trivial
  | set lifetime codec value ownLifetime h =>
    obtain ⟨text, htext⟩ := Option.ne_none_iff_exists'.mp h
    rw [Cache.set, htext]
    exact ⟨_, _, Keyed.asksOnly_on _ space key⟩
  | delete lifetime => exact ⟨_, _, Keyed.asksOnly_on _ space key⟩

/-- A request about a single key sends one command, which names the full key, and takes one reply.
The key is found again in the full key, different keys have different ones, and unless the beginning
of one keyspace begins with that of the other no two requests about their keys name the same one. -/
theorem requests_keep_to_keyspace :
    (∀ (space : Keyspace) (key : String) (α : Type) (d : Dialogue α), KeyRequest space key d →
      ∃ verb arguments, d.AsksOnly (verb :: (space.lead ++ key) :: arguments) ∧
        ∀ x, (d.play x).2.server = ⟨x.server.pending.tail,
          x.server.commands ++ [verb :: (space.lead ++ key) :: arguments]⟩) ∧
    (∀ (space : Keyspace) (key : String), space.strip (space.lead ++ key) = key) ∧
    (∀ (space : Keyspace) (key key' : String), space.lead ++ key = space.lead ++ key' →
      key = key') ∧
    ∀ a b : Keyspace, ¬ a.lead.toList <+: b.lead.toList → ¬ b.lead.toList <+: a.lead.toList →
      ∀ (key key' : String) (α β : Type) (d : Dialogue α) (e : Dialogue β)
        (command command' : List String), KeyRequest a key d → KeyRequest b key' e →
        d.AsksOnly command → e.AsksOnly command' → command[1]? ≠ command'[1]? := by
  refine ⟨?_, Keyspace.strip_apply, fun space _ _ h => space.apply_injective h, ?_⟩
  · intro space key α d h
    obtain ⟨verb, arguments, hd⟩ := h.exists_asksOnly
    exact ⟨verb, arguments, hd, hd.server_play⟩
  · intro a b hab hba key key' α β d e command command' hd he hcommand hcommand' heq
    obtain ⟨verb, arguments, hasks⟩ := hd.exists_asksOnly
    obtain ⟨verb', arguments', hasks'⟩ := he.exists_asksOnly
    cases hcommand.unique hasks
    cases hcommand'.unique hasks'
    rcases Keyspace.nested_of_apply_eq (Option.some.inj heq) with h | h
    · exact hab h
    · exact hba h

/-- A hash and a cache whose keyspaces stand side by side name different keys. -/
theorem hash_and_cache_keep_apart :
    KeyRequest ⟨"app:"⟩ "1" (Collection.Hash.clear.keyed.on ⟨"app:"⟩ "1") ∧
    (∃ verb arguments,
      (Cache.delete ⟨⟨"web:"⟩, none⟩ "1").AsksOnly (verb :: "web:1" :: arguments)) ∧
    ∀ command command', (Collection.Hash.clear.keyed.on ⟨"app:"⟩ "1").AsksOnly command →
      (Cache.delete ⟨⟨"web:"⟩, none⟩ "1").AsksOnly command' → command[1]? ≠ command'[1]? := by
  obtain ⟨hasks, -, -, hapart⟩ := requests_keep_to_keyspace
  refine ⟨.hash .clear, ?_, ?_⟩
  · obtain ⟨verb, arguments, h, -⟩ := hasks ⟨"web:"⟩ "1" Bool _ (.delete none)
    exact ⟨verb, arguments, h⟩
  · intro command command'
    exact hapart ⟨"app:"⟩ ⟨"web:"⟩ (by decide) (by decide) "1" "1" Bool Bool _ _ _ _ (.hash .clear)
      (.delete none)

end KeyRequest
end Storehouse
