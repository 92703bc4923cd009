import Storehouse.Codec
import Storehouse.Exchange.Keyed
import Storehouse.Exchange.Script
import Storehouse.Settings

namespace Storehouse

/-- A keyspace, and the lifetime in milliseconds of entries that are stored without one. -/
structure Cache where
  space : Keyspace
  lifetime : Option Nat

namespace Cache

variable {α : Type}

def ofSettings (s : Settings) : Cache :=
  ⟨⟨s.cachePrefix⟩, s.cacheSeconds.map fun n => n.toNat * 1000⟩

/-- The value stored under a key, if there is one. A lookup is recorded once its reply is read,
also if the text then turns out not to be a value. -/
def get (c : Cache) (codec : Codec α) (key : String) : Dialogue (Option α) := do
  let stored ← (⟨"GET", [], Reply.readAs Reply.toOptionalText⟩ : Keyed _).on c.space key
  .note (.cacheLookup stored.isSome)
  match stored with
  | none => return none
  | some text =>
    match codec.decode text with
    | some value => return some value
    | none => .fail .serialization

/-- Lifetimes are given in whole seconds, and none is shorter than one second. -/
def expiry : Option Nat → List String
  | none => []
  | some milliseconds => ["EX", (max 1 (milliseconds / 1000)).repr]

/-- Stores a value; a value that has no text is not sent. -/
def set (c : Cache) (codec : Codec α) (key : String) (value : α) (lifetime : Option Nat) :
    Dialogue Unit :=
  match codec.encode value with
  | none => .fail .serialization
  | some text =>
    (⟨"SET", text :: expiry (lifetime <|> c.lifetime), Reply.ignore⟩ : Keyed _).on c.space key

/-- Deletes the value under a key, and tells whether there was one. -/
def delete (c : Cache) (key : String) : Dialogue Bool :=
  Keyed.delete.on c.space key

/-- Deletes some keys and tells how many the server removed; nothing is sent for no keys. -/
def deleteKeys : List String → Dialogue UInt64
  | [] => return 0
  | keys => do
    let reply ← .ask ("DEL" :: keys)
    .expect reply.count

/-- Deletes the keys that a scan has found: the cursor of the next scan, and the number of keys
that the server removed. There is neither where the reply to the scan has no parts at all. -/
def deleteBatch (scanned : Reply) : Dialogue (Option (String × UInt64)) :=
  match scanned.toTextAndTexts with
  | none => return none
  | some parts => do
    let (next, keys) ← .expect (parts.mapError (.scan · scanned))
    let removed ← deleteKeys keys
    return some (next, removed)

def sweep (c : Cache) (cursor : String) : Dialogue (Option (String × UInt64)) := do
  let scanned ← .ask ["SCAN", cursor, "MATCH", c.space.pattern, "COUNT", "100"]
  deleteBatch scanned

theorem pending_lt_of_sweep {c : Cache} {cursor : String} {x y : Exchange Script}
    {r : Option (String × UInt64)} (h : (c.sweep cursor).play x = (.ok r, y)) :
    y.server.pending.length < x.server.pending.length := by
  obtain ⟨⟨pending, commands⟩, events⟩ := x
  cases pending with
  | nil => cases h
  | cons scanned rest =>
    have hle := (deleteBatch scanned).pending_play_le
      ⟨⟨rest, commands ++ [["SCAN", cursor, "MATCH", c.space.pattern, "COUNT", "100"]]⟩, events⟩
    have hrun : (deleteBatch scanned).play
      ⟨⟨rest, commands ++ [["SCAN", cursor, "MATCH", c.space.pattern, "COUNT", "100"]]⟩, events⟩
        = (.ok r, y) := h
    rw [hrun] at hle
    exact Nat.lt_succ_of_le hle

/-- The sum of two numbers of keys, unless it outgrows a word. -/
def sum? (removed n : UInt64) : Option UInt64 :=
  if removed.toNat + n.toNat < UInt64.size then some (removed + n) else none

theorem sum?_zero (removed : UInt64) : sum? removed 0 = some removed := by
  have hfits : removed.toNat + (0 : UInt64).toNat < UInt64.size := removed.toNat_lt
  rw [sum?, if_pos hfits, UInt64.add_zero]

theorem sum?_eq_none_iff {removed n : UInt64} :
    sum? removed n = none ↔ UInt64.size ≤ removed.toNat + n.toNat := by
  rw [sum?]
  split <;> simp_all

theorem toNat_of_sum? {removed n total : UInt64} (h : sum? removed n = some total) :
    total.toNat = removed.toNat + n.toNat := by
  rw [sum?] at h
  split at h
  next hlt =>
    cases h
    rw [UInt64.toNat_add, Nat.mod_eq_of_lt hlt]
  next => cases h

/-- Rounds from a cursor on, until the cursor is back at the start. There is no result where a scan
has no parts at all, or where the number of keys outgrows a word. -/
def clearFrom (c : Cache) (cursor : String) (removed : UInt64) (x : Exchange Script) :
    Option (Except Fault UInt64) × Exchange Script :=
  match _h : (c.sweep cursor).play x with
  | (.error e, y) => (some (.error e), y)
  | (.ok none, y) => (none, y)
  | (.ok (some (next, n)), y) =>
    match sum? removed n with
    | none => (none, y)
    | some total => if next = "0" then (some (.ok total), y) else c.clearFrom next total y
termination_by x.server.pending.length
decreasing_by exact pending_lt_of_sweep ‹_›

/-- Deletes every key of the cache and tells how many the server removed. The keyspace must not be
the whole database. -/
def clear (c : Cache) (x : Exchange Script) : Option (Except Fault UInt64) × Exchange Script :=
  if c.space.isEmpty then (some (.error (.misconfigured .clearWithoutPrefix)), x)
  else c.clearFrom "0" 0 x

end Cache
end Storehouse
