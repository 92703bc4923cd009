import Storehouse.Cache
import Storehouse.Collection
import Storehouse.Proofs.Reply.Counts
import Storehouse.Proofs.Search.Removal

namespace Storehouse

open Collection

def positive (n : UInt64) : Bool := 0 < n

/-- The requests about a key that are answered with a number, and what they tell of it. -/
inductive Counting : {α : Type} → Keyed α → (UInt64 → α) → Prop
  | hashLength : Counting Hash.length.keyed id
  | setLength : Counting Members.length.keyed id
  | rankingLength : Counting Ranking.length.keyed id
  | listLength : Counting Sequence.length.keyed id
  | pushFront (item : String) : Counting (Sequence.pushFront item).keyed id
  | hashRemove (field : String) : Counting (Hash.remove field).keyed positive
  | setRemove (item : String) : Counting (Members.remove item).keyed positive
  | rankingRemove (member : String) : Counting (Ranking.remove member).keyed positive
  | listRemove (item : String) : Counting (Sequence.remove item).keyed positive
  | hashClear : Counting Hash.clear.keyed positive
  | setClear : Counting Members.clear.keyed positive
  | rankingClear : Counting Ranking.clear.keyed positive
  | listClear : Counting Sequence.clear.keyed positive

/-- An operation, given these turns, tells `tell n` of the number `n` that the reply stands for. A
reply that stands for none is reported under `what`; all else that has to be read is `Readable`. -/
inductive Tells : {α : Type} → Dialogue α → List Turn → (reply : Reply) → (what : Expectation) →
    (tell : UInt64 → α) → (Readable : Prop) → Prop
  | keyed {α : Type} {k : Keyed α} {tell : UInt64 → α} (h : Counting k tell) (space : Keyspace)
    (key : String) (reply : Reply) :
    Tells (k.on space key) [⟨k.command space key, reply⟩] reply .integerReply tell True
  | cacheDelete (c : Cache) (key : String) (reply : Reply) :
    Tells (c.delete key) [⟨["DEL", c.space.apply key], reply⟩] reply .integerReply positive True
  | searchCount (i : Search.Index) {r : Search.Request} {query : String} {reply total : Reply}
    {items : List Reply} (hquery : Filter.Clause.query r.clause = .ok query)
    (hreply : reply.items? = some (total :: items)) :
    Tells (i.count r) [⟨i.countTokens query, reply⟩] total .searchTotal id
      (∃ hits, Search.hits items = .ok hits)
  | searchRemove (i : Search.Index) {r : Search.Request} {query : String} {first second : Reply}
    {counted found : Search.Page} (hquery : Filter.Clause.query r.clause = .ok query)
    (hfirst : Search.Page.ofReply first = .ok counted) (htotal : counted.total ≠ 0)
    (hsecond : Search.Page.ofReply second = .ok found) (hhits : found.hits ≠ []) (reply : Reply) :
    Tells (i.remove r) [⟨i.countTokens query, first⟩, ⟨i.keysTokens query counted.total, second⟩,
      ⟨"DEL" :: found.hits.map Search.Hit.key, reply⟩] reply .integerReply id True

variable {α σ : Type} {k : Keyed α} {tell : UInt64 → α} {reply : Reply} {d : Dialogue α}
  {turns : List Turn} {what : Expectation} {Readable : Prop}

theorem Counting.read_eq (h : Counting k tell) : k.read reply = tell <$> reply.count := by
  cases h with
  | hashLength | setLength | rankingLength | listLength | pushFront => exact (id_map _).symm
  | _ => rfl

theorem Keyed.takes_on (k : Keyed α) (space : Keyspace) (key : String) (reply : Reply) :
    (k.on space key).Takes [⟨k.command space key, reply⟩] []
      ((k.read reply).mapError .unexpected) :=
  (Dialogue.Takes.ask _ reply).bind (.done _)

/-- What becomes of an operation that reads a number first, and then all else. -/
structure Told (reply : Reply) (what : Expectation) (tell : UInt64 → α) (Readable : Prop)
    (read : Except Unexpected α) : Prop where
  ok (a : α) : read = .ok a ↔ Readable ∧ ∃ w, reply.toWord? = some w ∧ tell w = a
  refused : reply.toWord? = none → read = .error (.expected what reply)

theorem told_of_count (tell : UInt64 → α) (reply : Reply) :
    Told reply .integerReply tell True (tell <$> reply.count) where
  ok a := by simp only [Except.map_eq_ok_iff, Reply.count_eq_ok_iff, true_and]
  refused h := by
    rw [Reply.count, h]
    rfl

theorem told_of_page {page total : Reply} {items : List Reply}
    (h : page.items? = some (total :: items)) :
    Told total .searchTotal id (∃ hits, Search.hits items = .ok hits)
      (Search.Page.total <$> Search.Page.ofReply page) := by
  rw [Search.Page.ofReply, h]
  constructor
  · intro a
    dsimp only
    cases total.toWord? with
    | none => simp [Functor.map, Except.map]
    | some w => simp [Except.map_eq_ok_iff]
  · intro hnone
    dsimp only
    rw [hnone]
    rfl

theorem takes_count {i : Search.Index} {r : Search.Request} {query : String}
    (hquery : Filter.Clause.query r.clause = .ok query) (first : Reply) :
    (i.count r).Takes [⟨i.countTokens query, first⟩] []
      ((Search.Page.total <$> Search.Page.ofReply first).mapError .unexpected) := by
  cases h : Search.Page.ofReply first with
  | ok counted => exact Search.Index.takes_count hquery h
  | error u =>
    exact (Search.Index.takes_page (Search.Index.countCommand_eq hquery) h).bind_error _

theorem Tells.exists_told (h : Tells d turns reply what tell Readable) :
    ∃ read, d.Takes turns [] (read.mapError .unexpected) ∧ Told reply what tell Readable read := by
  cases h with
  | keyed hk space key =>
    refine ⟨_, Keyed.takes_on _ space key reply, ?_⟩
    rw [hk.read_eq]
    exact told_of_count _ reply
  | cacheDelete c key => exact ⟨_, Keyed.takes_on _ c.space key reply, told_of_count _ reply⟩
  | searchCount i hquery hreply => exact ⟨_, takes_count hquery _, told_of_page hreply⟩
  | searchRemove i hquery hfirst htotal hsecond hhits =>
    have htold := told_of_count id reply
    rw [id_map] at htold
    exact ⟨_, (Search.Index.Removal.deleted hquery hfirst htotal hsecond hhits reply).takes, htold⟩

/-- An operation tells of the word that the reply to it is read as, and reports a reply that is
none. It tells of nothing but what the reply denotes if and only if the reply is faithful: of a
negative integer, and of a double that is no natural number below `2 ^ 64`, it tells what is not
denoted. -/
theorem told_as_denoted (h : Tells d turns reply what tell Readable) {execute : Executor σ}
    {s t : σ} (hs : Serves execute s turns t) (events : List Event) :
    (∀ a, (d.run execute ⟨s, events⟩).1 = .ok a ↔ Readable ∧
      ∃ w, (Reply.Denotes reply.data w.toNat ∨ Reply.Forced reply.data w) ∧ tell w = a) ∧
    (Readable → ((∀ a, (d.run execute ⟨s, events⟩).1 = .ok a →
        ∃ w, Reply.Denotes reply.data w.toNat ∧ tell w = a) ↔ Reply.Faithful reply.data)) ∧
    (Reply.Uncounted reply.data →
      (d.run execute ⟨s, events⟩).1 = .error (.unexpected (.expected what reply))) := by
  obtain ⟨read, htakes, htold⟩ := h.exists_told
  rw [htakes.run_eq hs events]
  have hok (a : α) : read.mapError Fault.unexpected = .ok a ↔ Readable ∧
      ∃ w, (Reply.Denotes reply.data w.toNat ∨ Reply.Forced reply.data w) ∧ tell w = a := by
    rw [Except.mapError_eq_ok_iff, htold.ok]
    simp only [Reply.toWord?_eq_some_iff]
  refine ⟨hok, fun hreadable => ⟨fun hdenoted => ?_, fun hfaithful a ha => ?_⟩, fun hrefused => ?_⟩
  · rw [Reply.faithful_iff]
    intro w hw
    obtain ⟨v, hv, -⟩ := hdenoted (tell w) ((hok _).mpr ⟨hreadable, w, .inr hw, rfl⟩)
    exact hw.not_denotes v.toNat_lt hv
  · obtain ⟨-, w, hw, ha⟩ := (hok a).mp ha
    exact ⟨w, hw.resolve_right (Reply.faithful_iff.mp hfaithful w), ha⟩
  · rw [htold.refused hrefused.toWord?_eq_none]
    rfl

/-- The length of a list behind attributes, a flag from a text, and a text that is refused. -/
theorem told_three :
    ((Sequence.length.keyed.on ⟨"app:"⟩ "k").play
      ⟨.ofReplies [.attribute (.int 3) [(.text "ttl", .int 1)]], []⟩).1 = .ok 3 ∧
    ((Hash.clear.keyed.on ⟨"app:"⟩ "k").play ⟨.ofReplies [.simple "+01"], []⟩).1 = .ok true ∧
    ((Members.length.keyed.on ⟨"app:"⟩ "k").play ⟨.ofReplies [.simple "-1"], []⟩).1 =
      .error (.unexpected (.expected .integerReply (.simple "-1"))) := by
  have hserves (verb : String) (reply : Reply) : Serves Script.execute (.ofReplies [reply])
      [⟨[verb, "app:k"], reply⟩] ⟨[], [[verb, "app:k"]]⟩ := .cons rfl (.nil _)
  obtain ⟨hlength, -, -⟩ := told_as_denoted (.keyed .listLength ⟨"app:"⟩ "k"
    (.attribute (.int 3) [(.text "ttl", .int 1)])) (hserves _ _) []
  obtain ⟨hclear, -, -⟩ := told_as_denoted (.keyed .hashClear ⟨"app:"⟩ "k" (.simple "+01"))
    (hserves _ _) []
  obtain ⟨-, -, hrefused⟩ := told_as_denoted (.keyed .setLength ⟨"app:"⟩ "k" (.simple "-1"))
    (hserves _ _) []
  refine ⟨?_, ?_, ?_⟩
  · exact (hlength 3).mpr ⟨trivial, 3, .inl (.int rfl), rfl⟩
  · exact (hclear true).mpr ⟨trivial, 1, .inl (.simple (.plus ⟨1, rfl⟩)), rfl⟩
  · refine hrefused ⟨nofun, nofun, ?_⟩
    intro n _ h
    cases h with
    | simple h =>
      cases h with
      | digits h => exact h.ne_cons rfl

/-- A negative length is told as the largest one, and a length that is no number as zero. -/
theorem told_made_up :
    ((Sequence.length.keyed.on ⟨"app:"⟩ "k").play ⟨.ofReplies [.int (-1)], []⟩).1 =
      .ok 18446744073709551615 ∧ (∀ n, ¬ Reply.Denotes (.int (-1)) n) ∧
    ((Sequence.length.keyed.on ⟨"app:"⟩ "k").play ⟨.ofReplies [.double Double.nan], []⟩).1 = .ok 0 ∧
    ∀ n, ¬ Reply.Denotes (.double Double.nan) n := by
  have hnan : Double.parts Double.nan = .nan := by decide +kernel
  refine ⟨rfl, ?_, ?_, ?_⟩
  · intro n h
    cases h with
    | int h => exact absurd (Int.natCast_nonneg n) (by rw [← h]; decide)
  · have hword : Double.toWord Double.nan = 0 := by rw [Double.toWord, hnan]
    exact congrArg Except.ok hword
  · intro n h
    cases h with
    | double h =>
      rw [hnan] at h
      cases h

end Storehouse
