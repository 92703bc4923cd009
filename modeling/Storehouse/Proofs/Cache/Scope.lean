import Storehouse.Proofs.Cache.Cursor
import Storehouse.Proofs.Text.Glob

namespace Storehouse

namespace Keyspace

/-- No byte of the beginning has a meaning in patterns. -/
def Plain (k : Keyspace) : Prop := ∀ b ∈ Text.bytes k.lead, b ∉ Glob.special

instance (k : Keyspace) : Decidable k.Plain :=
  inferInstanceAs (Decidable (∀ b ∈ Text.bytes k.lead, b ∉ Glob.special))

theorem bytes_pattern (k : Keyspace) : Text.bytes k.pattern = Text.bytes k.lead ++ [42] :=
  Text.bytes_append k.lead "*"

variable {k : Keyspace}

theorem covers_pattern_iff_prefix_iff :
    (∀ key, Glob.covers k.pattern key ↔ Text.bytes k.lead <+: key) ↔ k.Plain := by
  simp only [Glob.covers, bytes_pattern]
  exact Glob.accepts_append_star_iff

theorem Plain.covers_bytes_iff (h : k.Plain) (key : String) :
    Glob.covers k.pattern (Text.bytes key) ↔ ∃ rest, key = k.apply rest := by
  rw [covers_pattern_iff_prefix_iff.mpr h, Text.bytes_prefix_iff]
  rfl

theorem Plain.filter_covers (h : k.Plain) (keys : List (List UInt8)) :
    keys.filter (Glob.covers k.pattern) = keys.filter (Text.bytes k.lead).isPrefixOf := by
  apply List.filter_congr
  intro key _
  rw [Bool.eq_iff_iff, covers_pattern_iff_prefix_iff.mpr h, List.isPrefixOf_iff_prefix]

end Keyspace

namespace Cache

variable {c : Cache} {p : Phase} {removed : UInt64} {turns : List Turn}
  {result : Option (Except Unexpected UInt64)}

/-- The scans name no key that the pattern of the cache does not cover. -/
def NamesCovered (c : Cache) (turns : List Turn) : Prop :=
  ∀ cursor scanned next keys, ⟨c.scanTokens cursor, scanned⟩ ∈ turns →
    scanned.toTextAndTexts = some (.ok (next, keys)) →
    ∀ key ∈ keys, Glob.covers c.space.pattern (Text.bytes key)

theorem Walk.covered_of_delete {cursor : String} (h : Walk c (.scan cursor) removed turns result)
    (hnames : c.NamesCovered turns) {deleted : Reply} {keys : List String}
    (hmem : ⟨"DEL" :: keys, deleted⟩ ∈ turns) {key : String} (hkey : key ∈ keys) :
    Glob.covers c.space.pattern (Text.bytes key) := by
  obtain ⟨k, hk⟩ := List.getElem?_of_mem hmem
  cases k with
  | zero =>
    obtain ⟨reply, later, rfl⟩ := h.eq_cons
    have hcommand : c.scanTokens cursor = "DEL" :: keys :=
      congrArg Turn.command (Option.some.inj hk)
    exact absurd hcommand scanTokens_ne_delete
  | succ k =>
    obtain ⟨-, cursor, scanned, next, hscan, hread⟩ :=
      h.found_of_delete (Option.map_eq_some_iff.mpr ⟨_, hk, rfl⟩)
    exact hnames cursor scanned next keys (List.mem_of_getElem? hscan) hread key hkey

theorem exists_turns_of_clear (c : Cache) (x : Exchange Script) :
    ∃ turns, (c.clear x).2.server = x.server.receive (turns.map Turn.command) ∧
      turns.map Turn.reply = (List.range turns.length).map x.server.reply ∧
      (c.NamesCovered turns → ∀ deleted keys, ⟨"DEL" :: keys, deleted⟩ ∈ turns →
        ∀ key ∈ keys, Glob.covers c.space.pattern (Text.bytes key)) := by
  by_cases hlead : c.space.lead = ""
  · refine ⟨[], ?_, rfl, ?_⟩
    · rw [clear_of_lead_eq_empty hlead]
      simp [Script.receive]
    · intro _ deleted keys hmem
      cases hmem
  · obtain ⟨turns, result, hwalk, hreplies, hclear⟩ := exists_walk_of_clear hlead x
    refine ⟨turns, ?_, hreplies, ?_⟩
    · rw [hclear]
    · intro hnames deleted keys hmem key hkey
      exact hwalk.covered_of_delete hnames hmem hkey

/-- The pattern of a cache covers the keys of this cache and no others if and only if its prefix is
plain. Then these are the keys that a scan may name in any database, and the only ones that are
deleted when the cache is cleared. -/
theorem pattern_exact_iff_plain (c : Cache) :
    ((∀ key, Glob.covers c.space.pattern key ↔ Text.bytes c.space.lead <+: key) ↔ c.space.Plain) ∧
    (c.space.Plain →
      (∀ key, Glob.covers c.space.pattern (Text.bytes key) ↔ ∃ rest, key = c.space.apply rest) ∧
      (∀ database : List (List UInt8), database.filter (Glob.covers c.space.pattern) =
        database.filter (Text.bytes c.space.lead).isPrefixOf) ∧
      ∀ x, ∃ turns, (c.clear x).2.server = x.server.receive (turns.map Turn.command) ∧
        turns.map Turn.reply = (List.range turns.length).map x.server.reply ∧
        (c.NamesCovered turns → ∀ deleted keys, ⟨"DEL" :: keys, deleted⟩ ∈ turns →
          ∀ key ∈ keys, ∃ rest, key = c.space.apply rest)) := by
  refine ⟨Keyspace.covers_pattern_iff_prefix_iff, ?_⟩
  intro hplain
  refine ⟨hplain.covers_bytes_iff, hplain.filter_covers, ?_⟩
  intro x
  obtain ⟨turns, hserver, hreplies, hdeletes⟩ := exists_turns_of_clear c x
  refine ⟨turns, hserver, hreplies, ?_⟩
  intro hnames deleted keys hmem key hkey
  exact (hplain.covers_bytes_iff key).mp (hdeletes hnames deleted keys hmem key hkey)

/-- A plain prefix: the pattern is exact, and clearing deletes own keys only. -/
theorem pattern_exact_of_cache : Keyspace.Plain ⟨"cache:"⟩ ∧
    (∀ key, Glob.covers (Keyspace.pattern ⟨"cache:"⟩) key ↔ Text.bytes "cache:" <+: key) ∧
    ∀ x, ∃ turns, (Cache.clear ⟨⟨"cache:"⟩, none⟩ x).2.server =
        x.server.receive (turns.map Turn.command) ∧
      (NamesCovered ⟨⟨"cache:"⟩, none⟩ turns → ∀ deleted keys, ⟨"DEL" :: keys, deleted⟩ ∈ turns →
        ∀ key ∈ keys, ∃ rest, key = Keyspace.apply ⟨"cache:"⟩ rest) := by
  have hplain : Keyspace.Plain ⟨"cache:"⟩ := by decide +kernel
  obtain ⟨hexact, hthen⟩ := pattern_exact_iff_plain ⟨⟨"cache:"⟩, none⟩
  refine ⟨hplain, hexact.mpr hplain, ?_⟩
  intro x
  obtain ⟨turns, hserver, -, hdeletes⟩ := (hthen hplain).2.2 x
  exact ⟨turns, hserver, hdeletes⟩

/-- With a class in the prefix, the cache is cleared of a key that is not its own, and its own key
is not covered. -/
theorem clear_deletes_foreign_key :
    (Cache.clear ⟨⟨"app[1]:"⟩, none⟩ ⟨.ofReplies [.array [.text "0", .array [.text "app1:user"]],
      .int 1], []⟩) = (some (.ok 1), ⟨⟨[], [["SCAN", "0", "MATCH", "app[1]:*", "COUNT", "100"],
        ["DEL", "app1:user"]]⟩, []⟩) ∧
    Glob.covers (Keyspace.pattern ⟨"app[1]:"⟩) (Text.bytes "app1:user") ∧
    ¬ Text.bytes "app[1]:" <+: Text.bytes "app1:user" ∧
    ¬ Glob.covers (Keyspace.pattern ⟨"app[1]:"⟩)
      (Text.bytes (Keyspace.apply ⟨"app[1]:"⟩ "user")) := by
  refine ⟨?_, by decide, by decide, by decide⟩
  have hround : (sweep ⟨⟨"app[1]:"⟩, none⟩ "0").play ⟨.ofReplies [.array [.text "0",
      .array [.text "app1:user"]], .int 1], []⟩ =
      (.ok (some ("0", 1)), ⟨⟨[], [_, _]⟩, []⟩) := rfl
  exact clears_iff.mp (.rounds rfl (.last hround rfl))

end Cache
end Storehouse
