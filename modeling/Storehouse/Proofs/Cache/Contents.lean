import Mathlib.Data.List.Induction
import Mathlib.Logic.Function.Basic
import Storehouse.Cache
import Storehouse.Proofs.Exchange.Endings
import Storehouse.Proofs.Reply.Fields

namespace Storehouse

variable {α σ : Type}

/-- The server keeps texts under keys and drops none of them by itself, whatever their lifetime. -/
structure KeepsTexts (execute : Executor σ) (texts : σ → String → Option String) : Prop where
  set (s : σ) (key text : String) (lifetime : Option Nat) : ∃ reply t,
    execute ("SET" :: key :: text :: Cache.expiry lifetime) s = (.ok reply, t) ∧
      texts t = Function.update (texts s) key (some text)
  get (s : σ) (key : String) : ∃ t,
    execute ["GET", key] s = (.ok ((texts s key).elim .nil .text), t) ∧ texts t = texts s
  delete (s : σ) (key : String) : ∃ t,
    execute ["DEL", key] s = (.ok (.int (if (texts s key).isSome then 1 else 0)), t) ∧
      texts t = Function.update (texts s) key none

/-- Every value has a text, and the text is read as that value again. -/
def Codec.Faithful (codec : Codec α) : Prop :=
  ∀ value, ∃ text, codec.encode value = some text ∧ codec.decode text = some value

theorem Reply.anyCounted_int (existed : Bool) :
    anyCounted (.int (if existed then 1 else 0)) = .ok existed := by
  cases existed <;> rfl

namespace Cache

/-- Each text is read as the value under its key, and there are no other values. -/
def Mirrors (codec : Codec α) (texts : String → Option String) (values : String → Option α) :
    Prop :=
  ∀ key, (texts key).map codec.decode = (values key).map some

namespace Mirrors

variable {codec : Codec α} {texts : String → Option String} {values : String → Option α}

theorem isSome_eq (h : Mirrors codec texts values) (key : String) :
    (texts key).isSome = (values key).isSome := by
  have hsome := congrArg Option.isSome (h key)
  rwa [Option.isSome_map, Option.isSome_map] at hsome

theorem update {text? : Option String} {value? : Option α} (h : Mirrors codec texts values)
    (full : String) (hfull : text?.map codec.decode = value?.map some) :
    Mirrors codec (Function.update texts full text?) (Function.update values full value?) := by
  intro key
  by_cases hkey : key = full
  · subst hkey
    rwa [Function.update_self, Function.update_self]
  · rw [Function.update_of_ne hkey, Function.update_of_ne hkey]
    exact h key

end Mirrors

section Server

variable {execute : Executor σ} {texts : σ → String → Option String} {codec : Codec α}
  {x : Exchange σ} {values : String → Option α}

theorem run_get_nil (c : Cache) (codec : Codec α) {key : String} {t : σ}
    (h : execute ["GET", c.space.apply key] x.server = (.ok .nil, t)) :
    (c.get codec key).run execute x = (.ok none, ⟨t, x.events ++ [.cacheLookup false]⟩) := by
  rw [get, Dialogue.run_bind, Keyed.run_on _ h rfl]
  rfl

theorem run_get_text (c : Cache) {key text : String} {value : α} {t : σ}
    (h : execute ["GET", c.space.apply key] x.server = (.ok (.text text), t))
    (hdecode : codec.decode text = some value) :
    (c.get codec key).run execute x = (.ok (some value), ⟨t, x.events ++ [.cacheLookup true]⟩) := by
  have hread : Reply.readAs Reply.toOptionalText (.text text) = .ok (some text) := by
    rw [Reply.readAs, Reply.toOptionalText_text]
    rfl
  rw [get, Dialogue.run_bind, Keyed.run_on _ h hread]
  dsimp only
  rw [hdecode]
  rfl

theorem run_get (hkeeps : KeepsTexts execute texts) (h : Mirrors codec (texts x.server) values)
    (c : Cache) (key : String) :
    ∃ y, (c.get codec key).run execute x = (.ok (values (c.space.apply key)), y) ∧
      Mirrors codec (texts y.server) values := by
  obtain ⟨t, hreply, htexts⟩ := hkeeps.get x.server (c.space.apply key)
  have hfull := h (c.space.apply key)
  rw [← htexts] at h
  cases hvalue : values (c.space.apply key) with
  | none =>
    rw [hvalue, Option.map_none, Option.map_eq_none_iff] at hfull
    rw [hfull] at hreply
    exact ⟨_, c.run_get_nil codec hreply, h⟩
  | some value =>
    rw [hvalue, Option.map_some, Option.map_eq_some_iff] at hfull
    obtain ⟨text, htext, hdecode⟩ := hfull
    rw [htext] at hreply
    exact ⟨_, c.run_get_text hreply hdecode, h⟩

theorem run_set (hkeeps : KeepsTexts execute texts) (hcodec : codec.Faithful)
    (h : Mirrors codec (texts x.server) values) (c : Cache) (key : String) (value : α)
    (lifetime : Option Nat) :
    ∃ y, (c.set codec key value lifetime).run execute x = (.ok (), y) ∧ Mirrors codec
      (texts y.server) (Function.update values (c.space.apply key) (some value)) := by
  obtain ⟨text, hencode, hdecode⟩ := hcodec value
  obtain ⟨reply, t, hreply, htexts⟩ :=
    hkeeps.set x.server (c.space.apply key) text (lifetime <|> c.lifetime)
  refine ⟨⟨t, x.events⟩, ?_, ?_⟩
  · rw [set, hencode]
    exact Keyed.run_on _ hreply rfl
  · rw [htexts]
    exact h.update _ (congrArg some hdecode)

theorem run_delete (hkeeps : KeepsTexts execute texts) (h : Mirrors codec (texts x.server) values)
    (c : Cache) (key : String) :
    ∃ y, (c.delete key).run execute x = (.ok (values (c.space.apply key)).isSome, y) ∧
      Mirrors codec (texts y.server) (Function.update values (c.space.apply key) none) := by
  obtain ⟨t, hreply, htexts⟩ := hkeeps.delete x.server (c.space.apply key)
  refine ⟨⟨t, x.events⟩, ?_, ?_⟩
  · rw [← h.isSome_eq]
    exact Keyed.run_on _ hreply (Reply.anyCounted_int _)
  · rw [htexts]
    exact h.update _ rfl

end Server

inductive Deed (α : Type)
  | get
  | set (value : α) (lifetime : Option Nat)
  | delete

structure Call (α : Type) where
  cache : Cache
  key : String
  deed : Deed α

namespace Call

def full (call : Call α) : String := call.cache.space.lead ++ call.key

def perform (execute : Executor σ) (codec : Codec α) (x : Exchange σ) : Call α → Exchange σ
  | ⟨c, key, .get⟩ => ((c.get codec key).run execute x).2
  | ⟨c, key, .set value lifetime⟩ => ((c.set codec key value lifetime).run execute x).2
  | ⟨c, key, .delete⟩ => ((c.delete key).run execute x).2

/-- What the call makes of the values under full keys. -/
def effect (values : String → Option α) : Call α → String → Option α
  | ⟨_, _, .get⟩ => values
  | ⟨c, key, .set value _⟩ => Function.update values (c.space.lead ++ key) (some value)
  | ⟨c, key, .delete⟩ => Function.update values (c.space.lead ++ key) none

end Call

def performAll (execute : Executor σ) (codec : Codec α) (x : Exchange σ) (calls : List (Call α)) :
    Exchange σ :=
  calls.foldl (Call.perform execute codec) x

def contents (calls : List (Call α)) : String → Option α := calls.foldl Call.effect fun _ => none

/-- The value was stored under the full key, and since then that key was only looked up. -/
def LastSet (calls : List (Call α)) (full : String) (value : α) : Prop :=
  ∃ earlier call later lifetime, calls = earlier ++ call :: later ∧ call.full = full ∧
    call.deed = .set value lifetime ∧ ∀ other ∈ later, other.full = full → other.deed = .get

section Run

variable {execute : Executor σ} {texts : σ → String → Option String} {codec : Codec α}
  {x : Exchange σ} {values : String → Option α} {calls : List (Call α)} {call : Call α}
  {full : String} {value : α}

theorem Call.mirrors_perform (hkeeps : KeepsTexts execute texts) (hcodec : codec.Faithful)
    (h : Mirrors codec (texts x.server) values) (call : Call α) :
    Mirrors codec (texts (call.perform execute codec x).server) (call.effect values) := by
  obtain ⟨c, key, deed⟩ := call
  cases deed with
  | get =>
    obtain ⟨y, hrun, hy⟩ := run_get hkeeps h c key
    rw [perform, hrun]
    exact hy
  | set value lifetime =>
    obtain ⟨y, hrun, hy⟩ := run_set hkeeps hcodec h c key value lifetime
    rw [perform, hrun]
    exact hy
  | delete =>
    obtain ⟨y, hrun, hy⟩ := run_delete hkeeps h c key
    rw [perform, hrun]
    exact hy

theorem mirrors_performAll (hkeeps : KeepsTexts execute texts) (hcodec : codec.Faithful)
    (h : Mirrors codec (texts x.server) values) (calls : List (Call α)) :
    Mirrors codec (texts (performAll execute codec x calls).server)
      (calls.foldl Call.effect values) := by
  -- what holds of texts and values is kept by each call, so it goes on from wherever the call leads
  induction calls generalizing x values with
  | nil => exact h
  | cons call calls ih => exact ih (call.mirrors_perform hkeeps hcodec h)

theorem Call.effect_of_ne (h : call.full ≠ full) : call.effect values full = values full := by
  obtain ⟨c, key, deed⟩ := call
  cases deed with
  | get => rfl
  | set value lifetime => exact Function.update_of_ne h.symm _ _
  | delete => exact Function.update_of_ne h.symm _ _

theorem Call.effect_eq_some_iff : call.effect values full = some value ↔
    (call.full = full ∧ ∃ lifetime, call.deed = .set value lifetime) ∨
      ((call.full = full → call.deed = .get) ∧ values full = some value) := by
  by_cases hfull : call.full = full
  · subst hfull
    obtain ⟨c, key, deed⟩ := call
    cases deed <;> simp [effect, Call.full]
  · simp [effect_of_ne hfull, hfull]

theorem contents_append (calls : List (Call α)) (call : Call α) :
    contents (calls ++ [call]) = call.effect (contents calls) :=
  List.foldl_append

theorem not_lastSet_nil : ¬ LastSet [] full value := by
  rintro ⟨earlier, call, later, -, h, -⟩
  exact List.cons_ne_nil _ _ (List.append_eq_nil_iff.mp h.symm).2

theorem lastSet_append : LastSet (calls ++ [call]) full value ↔
    (call.full = full ∧ ∃ lifetime, call.deed = .set value lifetime) ∨
      ((call.full = full → call.deed = .get) ∧ LastSet calls full value) := by
  constructor
  · rintro ⟨earlier, stored, later, lifetime, h, hfull, hdeed, hlater⟩
    -- the last call stored the value itself, or it is the last of those that came later
    obtain rfl | ⟨middle, last, rfl⟩ := List.eq_nil_or_concat later
    · obtain ⟨rfl, ⟨⟩⟩ := List.append_inj' h rfl
      exact .inl ⟨hfull, lifetime, hdeed⟩
    · rw [List.concat_eq_append] at h hlater
      rw [← List.cons_append, ← List.append_assoc] at h
      obtain ⟨rfl, ⟨⟩⟩ := List.append_inj' h rfl
      exact .inr ⟨hlater call (by simp), earlier, stored, middle, lifetime, rfl, hfull, hdeed,
        fun other hother => hlater other (List.mem_append_left _ hother)⟩
  · rintro (⟨hfull, lifetime, hdeed⟩ | ⟨hcall, earlier, stored, later, lifetime, rfl, hfull, hdeed,
      hlater⟩)
    · exact ⟨calls, call, [], lifetime, rfl, hfull, hdeed, by simp⟩
    · refine ⟨earlier, stored, later ++ [call], lifetime, by simp, hfull, hdeed, ?_⟩
      intro other hother
      rcases List.mem_append.mp hother with hother | hother
      · exact hlater other hother
      · rw [List.mem_singleton.mp hother]
        exact hcall

theorem contents_eq_some_iff : contents calls full = some value ↔ LastSet calls full value := by
  induction calls using List.reverseRecOn with
  | nil => exact iff_of_false nofun not_lastSet_nil
  | append_singleton calls call ih =>
    rw [contents_append, Call.effect_eq_some_iff, ih, lastSet_append]

theorem contents_append_of_ne {others : List (Call α)} (h : ∀ other ∈ others, other.full ≠ full) :
    contents (calls ++ others) full = contents calls full := by
  induction others using List.reverseRecOn with
  | nil => rw [List.append_nil]
  | append_singleton others other ih =>
    rw [← List.append_assoc, contents_append, Call.effect_of_ne (h other (by simp)),
      ih fun earlier hearlier => h earlier (List.mem_append_left _ hearlier)]

end Run

/-- After any calls on caches that share the server, a cache finds under a key the value that was
stored last under the full key and not deleted since, and it deletes such a value or none. What was
done under other full keys makes no difference. -/
theorem caches_find_last_set {execute : Executor σ} {texts : σ → String → Option String}
    (hkeeps : KeepsTexts execute texts) {codec : Codec α} (hcodec : codec.Faithful)
    {x : Exchange σ} (hempty : ∀ full, texts x.server full = none) (earlier : List (Call α))
    (c : Cache) (key : String) :
    (∃ found, ((c.get codec key).run execute (performAll execute codec x earlier)).1 = .ok found ∧
      ∀ value, found = some value ↔ LastSet earlier (c.space.lead ++ key) value) ∧
    (∀ value lifetime, ((c.set codec key value lifetime).run execute
      (performAll execute codec x earlier)).1 = .ok ()) ∧
    (∃ existed, ((c.delete key).run execute (performAll execute codec x earlier)).1 = .ok existed ∧
      (existed = true ↔ ∃ value, LastSet earlier (c.space.lead ++ key) value)) ∧
    ∀ others : List (Call α), (∀ other ∈ others, other.full ≠ c.space.lead ++ key) →
      ((c.get codec key).run execute (performAll execute codec x (earlier ++ others))).1 =
        ((c.get codec key).run execute (performAll execute codec x earlier)).1 := by
  have hmirrors (calls : List (Call α)) :
      Mirrors codec (texts (performAll execute codec x calls).server) (contents calls) :=
    mirrors_performAll hkeeps hcodec (fun full => congrArg _ (hempty full)) calls
  have hget (calls : List (Call α)) : ((c.get codec key).run execute
      (performAll execute codec x calls)).1 = .ok (contents calls (c.space.apply key)) := by
    obtain ⟨y, hrun, -⟩ := run_get hkeeps (hmirrors calls) c key
    rw [hrun]
  refine ⟨⟨_, hget earlier, fun value => contents_eq_some_iff⟩, ?_, ?_, ?_⟩
  · intro value lifetime
    obtain ⟨y, hrun, -⟩ := run_set hkeeps hcodec (hmirrors earlier) c key value lifetime
    rw [hrun]
  · obtain ⟨y, hrun, -⟩ := run_delete hkeeps (hmirrors earlier) c key
    refine ⟨_, congrArg Prod.fst hrun, ?_⟩
    rw [Option.isSome_iff_exists]
    exact exists_congr fun value => contents_eq_some_iff
  · intro others hothers
    rw [hget, hget]
    exact congrArg _ (contents_append_of_ne hothers)

def mapServer : Executor (String → Option String) := fun command texts =>
  match command with
  | "SET" :: key :: text :: _ => (.ok .okay, Function.update texts key (some text))
  | ["GET", key] => (.ok ((texts key).elim .nil .text), texts)
  | ["DEL", key] =>
    (.ok (.int (if (texts key).isSome then 1 else 0)), Function.update texts key none)
  | [] => (.error .emptyCommand, texts)
  | _ => (.error (.link (.refused ⟨"ERR", some "unknown command"⟩)), texts)

theorem keepsTexts_mapServer : KeepsTexts mapServer id where
  set _ _ _ _ := ⟨_, _, rfl, rfl⟩
  get _ _ := ⟨_, rfl, rfl⟩
  delete _ _ := ⟨_, rfl, rfl⟩

/-- Truth values that may be missing; the text of a missing one is `null`. -/
def optionalFlag : Codec (Option Bool) :=
  .ofJson (fun flag => flag.elim .null .bool) fun
    | .null => some none
    | v => some <$> v.bool?

theorem faithful_optionalFlag : optionalFlag.Faithful := by
  rintro (_ | _ | _)
  all_goals exact ⟨_, rfl, rfl⟩

/-- A `null` that was stored is found, also by a cache with a longer beginning; where nothing was
stored nothing is found. -/
theorem null_found_by_other_cache :
    KeepsTexts mapServer id ∧ optionalFlag.Faithful ∧
    ((get ⟨⟨"app:user:"⟩, none⟩ optionalFlag "1").run mapServer
      (performAll mapServer optionalFlag ⟨fun _ => none, []⟩
        [⟨⟨⟨"app:"⟩, some 300000⟩, "user:1", .set none none⟩])).1 = .ok (some none) ∧
    ((get ⟨⟨"app:user:"⟩, none⟩ optionalFlag "2").run mapServer
      (performAll mapServer optionalFlag ⟨fun _ => none, []⟩
        [⟨⟨⟨"app:"⟩, some 300000⟩, "user:1", .set none none⟩])).1 = .ok none := by
  refine ⟨keepsTexts_mapServer, faithful_optionalFlag, ?_, ?_⟩
  · obtain ⟨⟨found, hget, hfound⟩, -⟩ := caches_find_last_set keepsTexts_mapServer
      faithful_optionalFlag (x := ⟨fun _ => none, []⟩) (fun _ => rfl)
      [⟨⟨⟨"app:"⟩, some 300000⟩, "user:1", .set none none⟩] ⟨⟨"app:user:"⟩, none⟩ "1"
    rw [hget, (hfound none).mpr ⟨[], _, [], none, rfl, by decide, rfl, nofun⟩]
  · obtain ⟨⟨found, hget, hfound⟩, -⟩ := caches_find_last_set keepsTexts_mapServer
      faithful_optionalFlag (x := ⟨fun _ => none, []⟩) (fun _ => rfl)
      [⟨⟨⟨"app:"⟩, some 300000⟩, "user:1", .set none none⟩] ⟨⟨"app:user:"⟩, none⟩ "2"
    have hnone : found = none := by
      apply Option.eq_none_iff_forall_ne_some.mpr
      intro value hvalue
      have hcontents := contents_eq_some_iff.mpr ((hfound value).mp hvalue)
      revert hcontents
      simp [contents, Call.effect]
    rw [hget, hnone]

end Cache
end Storehouse
