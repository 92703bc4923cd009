import Storehouse.Proofs.Cache.Rounds
import Storehouse.Proofs.Cache.Walk
import Storehouse.Proofs.Except

namespace Storehouse

def Turn.deletes (t : Turn) : Bool := t.command.head? == some "DEL"

namespace Cache

variable {c : Cache} {p : Phase} {q : Option Phase} {removed n : UInt64}
  {turns later : List Turn} {reply : Reply} {u : Unexpected}
  {result : Option (Except Unexpected UInt64)}

def deletions (turns : List Turn) : List Reply := (turns.filter Turn.deletes).map Turn.reply

def counts (turns : List Turn) : List UInt64 :=
  (deletions turns).filterMap fun reply => reply.count.toOption

/-- The sum of the counts, which no word bounds. -/
def total : List UInt64 → Nat
  | [] => 0
  | n :: rest => n.toNat + total rest

/-- Every deletion has been answered with a count. -/
def Counted (turns : List Turn) : Prop :=
  (deletions turns).map Reply.count = (counts turns).map .ok

/-- A scan has been answered with a map that has no entries. -/
def FindsNoParts (c : Cache) (turns : List Turn) : Prop :=
  ∃ cursor scanned, ⟨c.scanTokens cursor, scanned⟩ ∈ turns ∧ scanned.data = .map []

theorem deletions_cons (turn : Turn) :
    deletions (turn :: later) = deletions [turn] ++ deletions later := by
  rw [deletions, ← List.singleton_append, List.filter_append, List.map_append]
  rfl

theorem counts_cons (turn : Turn) : counts (turn :: later) = counts [turn] ++ counts later := by
  rw [counts, deletions_cons, List.filterMap_append]
  rfl

theorem total_append (first rest : List UInt64) :
    total (first ++ rest) = total first + total rest := by
  induction first with
  | nil => exact (Nat.zero_add _).symm
  | cons n first ih => rw [List.cons_append, total, total, ih, Nat.add_assoc]

theorem total_counts_cons (turn : Turn) :
    total (counts (turn :: later)) = total (counts [turn]) + total (counts later) := by
  rw [counts_cons, total_append]

theorem Counted.cons {turn : Turn} (h : Counted [turn]) (hlater : Counted later) :
    Counted (turn :: later) := by
  rw [Counted] at *
  rw [deletions_cons, List.map_append, h, hlater, ← List.map_append, ← counts_cons]

namespace Phase

theorem counts_delete (next key : String) (keys : List String) :
    counts [⟨(delete next key keys).command c, reply⟩] = reply.count.toOption.toList := by
  have hreply : deletions [⟨(delete next key keys).command c, reply⟩] = [reply] := rfl
  rw [counts, hreply, List.filterMap_cons, List.filterMap_nil]
  cases reply.count <;> rfl

/-- A scan removes nothing, and a deletion what the reply to it says. -/
theorem counted_of_ok (h : p.after reply = some (.ok (q, n))) :
    Counted [⟨p.command c, reply⟩] ∧ total (counts [⟨p.command c, reply⟩]) = n.toNat := by
  obtain ⟨cursor, _, rfl, _, _, rfl⟩ | ⟨cursor, _, _, _, rfl, _, _, rfl⟩ |
    ⟨next, key, keys, rfl, hcount, _⟩ := after_eq_ok h
  · exact ⟨rfl, rfl⟩
  · exact ⟨rfl, rfl⟩
  · rw [Counted, counts_delete, hcount]
    exact ⟨congrArg (fun read => [read]) hcount, Nat.add_zero _⟩

theorem total_of_error (h : p.after reply = some (.error u)) :
    total (counts [⟨p.command c, reply⟩]) = 0 := by
  cases p with
  | scan cursor => rfl
  | delete next key keys =>
    rw [counts_delete]
    cases hcount : reply.count with
    | error => rfl
    | ok n =>
      rw [after_delete_ok hcount rfl] at h
      cases h

theorem findsNoParts_cons_iff {out : Except Unexpected (Option Phase × UInt64)}
    (h : p.after reply = some out) :
    c.FindsNoParts (⟨p.command c, reply⟩ :: later) ↔ c.FindsNoParts later := by
  constructor
  · rintro ⟨cursor, scanned, hmem, hempty⟩
    obtain hturn | hmem := List.mem_cons.mp hmem
    · obtain ⟨hcommand, rfl⟩ := Turn.mk.inj hturn
      cases eq_scan_of_command hcommand.symm
      rw [after_scan_none ((Reply.toTextAndTexts_eq_none_iff _).mpr hempty)] at h
      cases h
    · exact ⟨cursor, scanned, hmem, hempty⟩
  · rintro ⟨cursor, scanned, hmem, hempty⟩
    exact ⟨cursor, scanned, List.mem_cons_of_mem _ hmem, hempty⟩

end Phase

theorem not_findsNoParts_nil : ¬ c.FindsNoParts [] := by
  rintro ⟨_, _, ⟨⟩, _⟩

theorem Walk.counted (h : Walk c p removed turns (some (.ok n))) :
    Counted turns ∧ n.toNat = removed.toNat + total (counts turns) := by
  generalize hresult : some (Except.ok n) = result at h
  induction h with
  | noParts | failed | outgrown => cases hresult
  | last hafter hsum =>
    cases hresult
    obtain ⟨hcounted, htotal⟩ := Phase.counted_of_ok hafter
    exact ⟨hcounted, by rw [toNat_of_sum? hsum, htotal]⟩
  | more hafter hsum _ ih =>
    obtain ⟨hcounted, htotal⟩ := Phase.counted_of_ok hafter
    obtain ⟨hlater, hn⟩ := ih hresult
    refine ⟨hcounted.cons hlater, ?_⟩
    rw [hn, toNat_of_sum? hsum, total_counts_cons, htotal, Nat.add_assoc]

/-- There are two ways to come to no result: a scan that has no parts, and a total that no word
holds. -/
theorem Walk.eq_none_iff (h : Walk c p removed turns result) : result = none ↔
    c.FindsNoParts turns ∨ UInt64.size ≤ removed.toNat + total (counts turns) := by
  induction h with
  | @noParts p removed reply hafter =>
    obtain ⟨⟨cursor, rfl⟩, hscan⟩ := Phase.after_eq_none_iff.mp hafter
    have hempty := (Reply.toTextAndTexts_eq_none_iff reply).mp hscan
    exact iff_of_true rfl (.inl ⟨cursor, reply, List.mem_cons_self, hempty⟩)
  | @failed p removed reply u hafter =>
    rw [Phase.findsNoParts_cons_iff hafter, Phase.total_of_error hafter]
    refine iff_of_false nofun (not_or.mpr ⟨not_findsNoParts_nil, ?_⟩)
    exact Nat.not_le_of_lt removed.toNat_lt
  | outgrown hafter hsum =>
    rw [(Phase.counted_of_ok hafter).2]
    exact iff_of_true rfl (.inr (sum?_eq_none_iff.mp hsum))
  | @last p removed n total reply hafter hsum =>
    rw [Phase.findsNoParts_cons_iff hafter, (Phase.counted_of_ok hafter).2, ← toNat_of_sum? hsum]
    refine iff_of_false nofun (not_or.mpr ⟨not_findsNoParts_nil, ?_⟩)
    exact Nat.not_le_of_lt total.toNat_lt
  | more hafter hsum _ ih =>
    rw [ih, Phase.findsNoParts_cons_iff hafter, total_counts_cons, (Phase.counted_of_ok hafter).2,
      ← Nat.add_assoc, ← toNat_of_sum? hsum]

/-- The number that clearing a cache returns is the sum of the counts with which all the deletions
were answered. No number and no fault is returned if and only if this sum outgrows a word, or a scan
was answered with a map that has no entries. -/
theorem clear_counts_removals (c : Cache) (x : Exchange Script) (hlead : c.space.lead ≠ "") :
    ∃ turns, (c.clear x).2.server = x.server.receive (turns.map Turn.command) ∧
      turns.map Turn.reply = (List.range turns.length).map x.server.reply ∧
      (∀ n, (c.clear x).1 = some (.ok n) → Counted turns ∧ n.toNat = total (counts turns)) ∧
      ((c.clear x).1 = none ↔ c.FindsNoParts turns ∨ UInt64.size ≤ total (counts turns)) := by
  obtain ⟨turns, result, hwalk, hreplies, hclear⟩ := exists_walk_of_clear hlead x
  rw [hclear]
  refine ⟨turns, rfl, hreplies, ?_, ?_⟩
  · intro n hn
    cases result with
    | none => cases hn
    | some told =>
      cases told with
      | error u => cases hn
      | ok m =>
        cases hn
        obtain ⟨hcounted, htotal⟩ := hwalk.counted
        rw [UInt64.toNat_zero, Nat.zero_add] at htotal
        exact ⟨hcounted, htotal⟩
  · rw [Option.map_eq_none_iff, hwalk.eq_none_iff, UInt64.toNat_zero, Nat.zero_add]

def scanReply (next : String) (keys : List String) : Reply :=
  .array [.text next, .array (keys.map Reply.text)]

/-- Two rounds with a deletion each. -/
theorem clear_counts_three : (Keyspace.lead ⟨"cache:"⟩ ≠ "") ∧
    ∃ y, Cache.clear ⟨⟨"cache:"⟩, none⟩ ⟨.ofReplies [
      scanReply "17" ["cache:a", "cache:b"], .int 2, scanReply "0" ["cache:c"], .int 1], []⟩ =
      (some (.ok 3), y) ∧
    ∃ turns, y.server.commands = turns.map Turn.command ∧ Counted turns ∧
      total (counts turns) = 3 := by
  have hfirst : (sweep ⟨⟨"cache:"⟩, none⟩ "0").play ⟨.ofReplies [
      scanReply "17" ["cache:a", "cache:b"], .int 2, scanReply "0" ["cache:c"], .int 1], []⟩ =
      (.ok (some ("17", 2)), ⟨⟨[scanReply "0" ["cache:c"], .int 1], [_, _]⟩, []⟩) := rfl
  have hlast : (sweep ⟨⟨"cache:"⟩, none⟩ "17").play ⟨⟨[scanReply "0" ["cache:c"], .int 1],
      [["SCAN", "0", "MATCH", "cache:*", "COUNT", "100"], ["DEL", "cache:a", "cache:b"]]⟩, []⟩ =
      (.ok (some ("0", 1)), ⟨⟨[], [_, _, _, _]⟩, []⟩) := rfl
  have hclear := clears_iff.mp (.rounds rfl (.more hfirst rfl (by decide) (.last hlast rfl)))
  have hlead : Keyspace.lead ⟨"cache:"⟩ ≠ "" := by decide
  obtain ⟨turns, hserver, -, htold, -⟩ := clear_counts_removals ⟨⟨"cache:"⟩, none⟩ ⟨.ofReplies [
    scanReply "17" ["cache:a", "cache:b"], .int 2, scanReply "0" ["cache:c"], .int 1], []⟩ hlead
  rw [hclear] at hserver htold
  obtain ⟨hcounted, htotal⟩ := htold 3 rfl
  exact ⟨hlead, _, hclear, turns, congrArg Script.commands hserver, hcounted, htotal.symm⟩

/-- The largest count and one key more come to no result at all, after both have been accepted. -/
theorem clear_total_outgrows :
    (∃ y, Cache.clear ⟨⟨"c:"⟩, none⟩ ⟨.ofReplies [scanReply "17" ["c:a"],
      .text "18446744073709551615", scanReply "0" ["c:b"], .int 1], []⟩ = (none, y) ∧
      y.server.pending.length = 0) ∧
    (Reply.text "18446744073709551615").count = .ok 18446744073709551615 ∧
    (Reply.int 1).count = .ok 1 ∧ total [18446744073709551615, 1] = UInt64.size := by
  have hfirst : (sweep ⟨⟨"c:"⟩, none⟩ "0").play ⟨.ofReplies [scanReply "17" ["c:a"],
      .text "18446744073709551615", scanReply "0" ["c:b"], .int 1], []⟩ =
      (.ok (some ("17", 18446744073709551615)),
        ⟨⟨[scanReply "0" ["c:b"], .int 1], [_, _]⟩, []⟩) := rfl
  have hlast : (sweep ⟨⟨"c:"⟩, none⟩ "17").play ⟨⟨[scanReply "0" ["c:b"], .int 1],
      [["SCAN", "0", "MATCH", "c:*", "COUNT", "100"], ["DEL", "c:a"]]⟩, []⟩ =
      (.ok (some ("0", 1)), ⟨⟨[], [_, _, _, _]⟩, []⟩) := rfl
  have hclear := clears_iff.mp
    (.rounds rfl (.more hfirst rfl (by decide) (.outgrown hlast (by decide))))
  exact ⟨⟨_, hclear, rfl⟩, rfl, rfl, by decide⟩

end Cache
end Storehouse
