import Storehouse.Proofs.Cache.Totals

namespace Storehouse.Cache

variable {c : Cache} {p : Phase} {cursor : String} {removed n sum : UInt64}
  {turns later : List Turn} {reply scanned deleted : Reply}
  {result : Option (Except Unexpected UInt64)} {keys : List String} {u : Unexpected}

namespace Walk

theorem eq_cons (h : Walk c p removed turns result) :
    ∃ reply later, turns = ⟨p.command c, reply⟩ :: later := by
  cases h <;> exact ⟨_, _, rfl⟩

theorem of_error (h : Walk c p removed (⟨p.command c, reply⟩ :: later) result)
    (hafter : p.after reply = some (.error u)) : later = [] ∧ result = some (.error u) := by
  cases h <;> simp_all

theorem of_last (h : Walk c p removed (⟨p.command c, reply⟩ :: later) result)
    (hafter : p.after reply = some (.ok (none, n))) :
    later = [] ∧ result = (sum? removed n).map .ok := by
  cases h <;> simp_all

theorem of_more {q : Phase} (h : Walk c p removed (⟨p.command c, reply⟩ :: later) result)
    (hafter : p.after reply = some (.ok (some q, n))) (hsum : sum? removed n = some sum) :
    Walk c q sum later result := by
  cases h <;> simp_all

theorem drop (h : Walk c p removed turns result) {k : Nat} {turn : Turn}
    (hk : turns[k]? = some turn) : ∃ q removed later, turn.command = q.command c ∧
      turns.drop k = turn :: later ∧ Walk c q removed (turn :: later) result := by
  induction k generalizing p removed turns with
  | zero =>
    obtain ⟨reply, later, rfl⟩ := h.eq_cons
    cases hk
    exact ⟨p, removed, later, rfl, rfl, h⟩
  | succ k ih =>
    cases h with
    | noParts | failed | outgrown | last => cases hk
    | more hafter hsum hwalk => exact ih hwalk hk

theorem drop_of_delete (h : Walk c p removed turns result) {k : Nat}
    (hk : turns[k]? = some ⟨"DEL" :: keys, deleted⟩) :
    ∃ next key rest removed later, keys = key :: rest ∧
      turns.drop k = ⟨"DEL" :: keys, deleted⟩ :: later ∧
      Walk c (.delete next key rest) removed (⟨"DEL" :: keys, deleted⟩ :: later) result := by
  obtain ⟨q, removed, later, hcommand, hdrop, hwalk⟩ := h.drop hk
  obtain ⟨next, key, rest, hkeys, rfl⟩ := Phase.eq_delete_of_command hcommand.symm
  exact ⟨next, key, rest, removed, later, hkeys, hdrop, hwalk⟩

theorem exists_before (h : Walk c p removed turns result) {k : Nat} {turn : Turn}
    (hk : turns[k + 1]? = some turn) : ∃ (p q : Phase) (reply : Reply) (n : UInt64),
      turns[k]? = some ⟨p.command c, reply⟩ ∧ p.after reply = some (.ok (some q, n)) ∧
      turn.command = q.command c := by
  induction k generalizing p removed turns with
  | zero =>
    cases h with
    | noParts | failed | outgrown | last => cases hk
    | more hafter hsum hwalk =>
      obtain ⟨reply, later, rfl⟩ := hwalk.eq_cons
      cases hk
      exact ⟨p, _, _, _, rfl, hafter, rfl⟩
  | succ k ih =>
    cases h with
    | noParts | failed | outgrown | last => cases hk
    | more hafter hsum hwalk => exact ih hwalk hk

end Walk

theorem length_eq_of_drop {k : Nat} {turn : Turn} (h : turns.drop k = turn :: later) :
    turns.length = k + 1 + later.length := by
  have hlength := congrArg List.length h
  rw [List.length_drop, List.length_cons] at hlength
  omega

namespace Walk

theorem not_counted (h : Walk c p removed turns result) {k : Nat}
    (hk : turns[k]? = some ⟨"DEL" :: keys, deleted⟩) (hcount : deleted.count = .error u) :
    turns.length = k + 1 ∧ result = some (.error u) := by
  obtain ⟨next, key, rest, removed, later, rfl, hdrop, hwalk⟩ := h.drop_of_delete hk
  obtain ⟨rfl, hresult⟩ := hwalk.of_error (Phase.after_delete_error hcount)
  exact ⟨length_eq_of_drop hdrop, hresult⟩

theorem found_of_delete (h : Walk c p removed turns result) {k : Nat}
    (hk : turns[k + 1]?.map Turn.command = some ("DEL" :: keys)) : keys ≠ [] ∧
      ∃ cursor scanned next, turns[k]? = some ⟨c.scanTokens cursor, scanned⟩ ∧
        scanned.toTextAndTexts = some (.ok (next, keys)) := by
  obtain ⟨turn, hturn, hcommand⟩ := Option.map_eq_some_iff.mp hk
  obtain ⟨p, q, scanned, n, hbefore, hafter, hq⟩ := h.exists_before hturn
  obtain ⟨next, key, rest, rfl, rfl⟩ := Phase.eq_delete_of_command (hq.symm.trans hcommand)
  obtain ⟨cursor, rfl, hscan⟩ := Phase.after_eq_delete hafter
  exact ⟨List.cons_ne_nil key rest, cursor, scanned, next, hbefore, hscan⟩

/-- A reply that is missing ends the walk. -/
theorem length_le (h : Walk c p removed turns result) {s : Script}
    (hreplies : turns.map Turn.reply = (List.range turns.length).map s.reply) :
    turns.length ≤ s.pending.length + 1 := by
  rcases Nat.lt_or_ge s.pending.length turns.length with hk | hk
  · obtain ⟨⟨command, reply⟩, hturn⟩ : ∃ turn, turns[s.pending.length]? = some turn :=
      ⟨_, List.getElem?_eq_getElem hk⟩
    have hreply : reply = .nil := by
      have hget := congrArg (fun replies => replies[s.pending.length]?) hreplies
      simp only [List.getElem?_map, hturn, List.getElem?_range hk] at hget
      simpa [Script.reply] using hget
    obtain ⟨q, removed, later, hcommand, hdrop, hwalk⟩ := h.drop hturn
    obtain ⟨u, hafter⟩ := q.exists_after_nil
    cases hcommand
    rw [hreply] at hdrop hwalk
    obtain ⟨rfl, -⟩ := hwalk.of_error hafter
    exact Nat.le_of_eq (length_eq_of_drop hdrop)
  · exact Nat.le_succ_of_le hk

end Walk

end Storehouse.Cache
