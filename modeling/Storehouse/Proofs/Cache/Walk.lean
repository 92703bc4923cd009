import Storehouse.Cache
import Storehouse.Proofs.Exchange.Turns

namespace Storehouse.Cache

variable {c : Cache} {cursor next : String} {removed n total : UInt64} {turns later : List Turn}
  {scanned deleted : Reply}

def scanTokens (c : Cache) (cursor : String) : List String :=
  ["SCAN", cursor, "MATCH", c.space.lead ++ "*", "COUNT", "100"]

@[simp]
theorem scanTokens_inj {cursor' : String} :
    c.scanTokens cursor = c.scanTokens cursor' ↔ cursor = cursor' := by
  simp [scanTokens]

@[simp]
theorem scanTokens_ne_delete {keys : List String} : c.scanTokens cursor ≠ "DEL" :: keys := by
  simp [scanTokens]

/-- The turns of one round, and what it comes to: the next cursor and how many keys were removed. -/
inductive Round (c : Cache) (cursor : String) :
    List Turn → Except Unexpected (Option (String × UInt64)) → Prop
  | noParts {scanned : Reply} (hscan : scanned.toTextAndTexts = none) :
    Round c cursor [⟨c.scanTokens cursor, scanned⟩] (.ok none)
  | notScanned {scanned : Reply} {m : Reply.Mismatch}
    (hscan : scanned.toTextAndTexts = some (.error m)) :
    Round c cursor [⟨c.scanTokens cursor, scanned⟩] (.error (.scan m scanned))
  | noneFound {scanned : Reply} {next : String}
    (hscan : scanned.toTextAndTexts = some (.ok (next, []))) :
    Round c cursor [⟨c.scanTokens cursor, scanned⟩] (.ok (some (next, 0)))
  | notCounted {scanned deleted : Reply} {next key : String} {keys : List String} {u : Unexpected}
    (hscan : scanned.toTextAndTexts = some (.ok (next, key :: keys)))
    (hcount : deleted.count = .error u) :
    Round c cursor [⟨c.scanTokens cursor, scanned⟩, ⟨"DEL" :: key :: keys, deleted⟩] (.error u)
  | deleted {scanned deleted : Reply} {next key : String} {keys : List String} {n : UInt64}
    (hscan : scanned.toTextAndTexts = some (.ok (next, key :: keys)))
    (hcount : deleted.count = .ok n) :
    Round c cursor [⟨c.scanTokens cursor, scanned⟩, ⟨"DEL" :: key :: keys, deleted⟩]
      (.ok (some (next, n)))

theorem takes_deleteKeys {key : String} {keys : List String} {counted : Except Unexpected UInt64}
    (hcount : deleted.count = counted) :
    (deleteKeys (key :: keys)).Takes [⟨"DEL" :: key :: keys, deleted⟩] []
      (counted.mapError .unexpected) :=
  (Dialogue.Takes.ask _ deleted).bind (.expect hcount)

theorem takes_deleteBatch {keys : List String} {counted : Except Unexpected UInt64}
    (hscan : scanned.toTextAndTexts = some (.ok (next, keys)))
    (hkeys : (deleteKeys keys).Takes turns [] (counted.mapError .unexpected)) :
    (deleteBatch scanned).Takes turns []
      ((fun n => some (next, n)) <$> counted.mapError .unexpected) := by
  rw [deleteBatch, hscan]
  have hread : (Dialogue.expect (Except.ok (next, keys))).Takes [] [] (.ok (next, keys)) :=
    .expect rfl
  apply hread.bind
  cases counted with
  | error u => exact hkeys.bind_error _
  | ok n =>
    rw [← List.append_nil turns]
    exact hkeys.bind (.done _)

theorem Round.takes {out : Except Unexpected (Option (String × UInt64))}
    (h : Round c cursor turns out) :
    (c.sweep cursor).Takes turns [] (out.mapError .unexpected) := by
  cases h with
  | @noParts scanned hscan =>
    apply (Dialogue.Takes.ask _ scanned).bind
    rw [deleteBatch, hscan]
    exact .done (.ok none)
  | @notScanned scanned m hscan =>
    apply (Dialogue.Takes.ask _ scanned).bind
    rw [deleteBatch, hscan]
    have hread : (Dialogue.expect (Except.error (Unexpected.scan m scanned))).Takes [] []
        (.error (.unexpected (.scan m scanned)) : Except Fault (String × List String)) :=
      .expect rfl
    exact hread.bind_error _
  | noneFound hscan =>
    have hkeys : (deleteKeys []).Takes [] [] ((Except.ok 0).mapError .unexpected) := .done _
    exact (Dialogue.Takes.ask _ _).bind (takes_deleteBatch hscan hkeys)
  | notCounted hscan hcount | deleted hscan hcount =>
    exact (Dialogue.Takes.ask _ _).bind (takes_deleteBatch hscan (takes_deleteKeys hcount))

theorem exists_serves_round (c : Cache) (cursor : String) (s : Script) :
    ∃ turns out t, Round c cursor turns out ∧ Serves Script.execute s turns t := by
  obtain ⟨scanned, t, ht⟩ := Script.answers "SCAN" (c.scanTokens cursor).tail s
  cases hscan : scanned.toTextAndTexts with
  | none => exact ⟨_, _, t, .noParts hscan, .cons ht (.nil t)⟩
  | some parts =>
    cases parts with
    | error m => exact ⟨_, _, t, .notScanned hscan, .cons ht (.nil t)⟩
    | ok pair =>
      obtain ⟨next, keys⟩ := pair
      cases keys with
      | nil => exact ⟨_, _, t, .noneFound hscan, .cons ht (.nil t)⟩
      | cons key keys =>
        obtain ⟨deleted, u, hu⟩ := Script.answers "DEL" (key :: keys) t
        cases hcount : deleted.count with
        | error e => exact ⟨_, _, u, .notCounted hscan hcount, .cons ht (.cons hu (.nil u))⟩
        | ok n => exact ⟨_, _, u, .deleted hscan hcount, .cons ht (.cons hu (.nil u))⟩

variable {x y : Exchange Script}

theorem exists_round {out : Except Fault (Option (String × UInt64))}
    (h : (c.sweep cursor).play x = (out, y)) :
    ∃ turns read t, Round c cursor turns read ∧ Serves Script.execute x.server turns t ∧
      out = read.mapError .unexpected ∧ y = ⟨t, x.events⟩ := by
  obtain ⟨turns, read, t, hround, hs⟩ := exists_serves_round c cursor x.server
  have hrun := h.symm.trans (hround.takes.run_eq hs x.events)
  rw [List.append_nil] at hrun
  obtain ⟨rfl, rfl⟩ := Prod.mk.inj hrun
  exact ⟨turns, read, t, hround, hs, rfl, rfl⟩

theorem exists_round_of_ok {found : Option (String × UInt64)}
    (h : (c.sweep cursor).play x = (.ok found, y)) :
    ∃ turns t, Round c cursor turns (.ok found) ∧ Serves Script.execute x.server turns t ∧
      y = ⟨t, x.events⟩ := by
  obtain ⟨turns, read, t, hround, hs, hread, hy⟩ := exists_round h
  cases read with
  | error => cases hread
  | ok =>
    cases hread
    exact ⟨turns, t, hround, hs, hy⟩

theorem exists_round_of_error {e : Fault} (h : (c.sweep cursor).play x = (.error e, y)) :
    ∃ turns u t, Round c cursor turns (.error u) ∧ Serves Script.execute x.server turns t ∧
      e = .unexpected u ∧ y = ⟨t, x.events⟩ := by
  obtain ⟨turns, read, t, hround, hs, hread, hy⟩ := exists_round h
  cases read with
  | ok => cases hread
  | error u =>
    cases hread
    exact ⟨turns, u, t, hround, hs, rfl, hy⟩

/-- A walk between two commands: it scans next from a cursor, or it deletes next the keys that were
found and then goes on from a cursor. -/
inductive Phase
  | scan (cursor : String)
  | delete (next key : String) (keys : List String)

namespace Phase

def command (c : Cache) : Phase → List String
  | scan cursor => c.scanTokens cursor
  | delete _ key keys => "DEL" :: key :: keys

theorem eq_scan_of_command {p : Phase} (h : p.command c = c.scanTokens cursor) :
    p = .scan cursor := by
  cases p with
  | scan => rw [scanTokens_inj.mp h]
  | delete => exact absurd h.symm scanTokens_ne_delete

theorem eq_delete_of_command {p : Phase} {keys : List String} (h : p.command c = "DEL" :: keys) :
    ∃ next key rest, keys = key :: rest ∧ p = .delete next key rest := by
  cases p with
  | scan => exact absurd h scanTokens_ne_delete
  | delete next key rest =>
    cases h
    exact ⟨next, key, rest, rfl, rfl⟩

def goOn (next : String) : Option Phase :=
  if next = "0" then none else some (.scan next)

/-- The phase after a reply, and how many keys the command has removed; none after the reply to a
scan that has no parts at all. -/
def after : Phase → Reply → Option (Except Unexpected (Option Phase × UInt64))
  | scan _, reply =>
    match reply.toTextAndTexts with
    | none => none
    | some (.error m) => some (.error (.scan m reply))
    | some (.ok (next, [])) => some (.ok (goOn next, 0))
    | some (.ok (next, key :: keys)) => some (.ok (some (delete next key keys), 0))
  | delete next _ _, reply => some ((fun n => (goOn next, n)) <$> reply.count)

variable {q : Option Phase} {key : String} {keys : List String}

theorem after_scan_none (h : scanned.toTextAndTexts = none) :
    (scan cursor).after scanned = none := by
  rw [after, h]

theorem after_scan_error {m : Reply.Mismatch} (h : scanned.toTextAndTexts = some (.error m)) :
    (scan cursor).after scanned = some (.error (.scan m scanned)) := by
  rw [after, h]

theorem after_scan_nil (h : scanned.toTextAndTexts = some (.ok (next, []))) (hq : goOn next = q) :
    (scan cursor).after scanned = some (.ok (q, 0)) := by
  rw [after, h, ← hq]

theorem after_scan_cons (h : scanned.toTextAndTexts = some (.ok (next, key :: keys))) :
    (scan cursor).after scanned = some (.ok (some (delete next key keys), 0)) := by
  rw [after, h]

theorem after_delete_error {u : Unexpected} (h : deleted.count = .error u) :
    (delete next key keys).after deleted = some (.error u) := by
  rw [after, h]
  rfl

theorem after_delete_ok (h : deleted.count = .ok n) (hq : goOn next = q) :
    (delete next key keys).after deleted = some (.ok (q, n)) := by
  rw [after, h, ← hq]
  rfl

theorem goOn_eq_some {p : Phase} (h : goOn next = some p) : p = scan next := by
  rw [goOn] at h
  split at h <;> simp_all

theorem exists_after_nil (p : Phase) : ∃ u, p.after .nil = some (.error u) := by
  cases p <;> exact ⟨_, rfl⟩

/-- The first two are scans, which remove no key; the last is a deletion. -/
theorem after_eq_ok {p : Phase} {reply : Reply} (h : p.after reply = some (.ok (q, n))) :
    (∃ cursor next, p = scan cursor ∧ reply.toTextAndTexts = some (.ok (next, [])) ∧
      q = goOn next ∧ n = 0) ∨
    (∃ cursor next key keys, p = scan cursor ∧
      reply.toTextAndTexts = some (.ok (next, key :: keys)) ∧ q = some (delete next key keys) ∧
      n = 0) ∨
    ∃ next key keys, p = delete next key keys ∧ reply.count = .ok n ∧ q = goOn next := by
  cases p with
  | scan cursor =>
    cases hscan : reply.toTextAndTexts with
    | none =>
      rw [after_scan_none hscan] at h
      cases h
    | some parts =>
      obtain m | ⟨next, _ | ⟨key, keys⟩⟩ := parts
      · rw [after_scan_error hscan] at h
        cases h
      · rw [after_scan_nil hscan rfl] at h
        cases h
        exact .inl ⟨cursor, next, rfl, rfl, rfl, rfl⟩
      · rw [after_scan_cons hscan] at h
        cases h
        exact .inr (.inl ⟨cursor, next, key, keys, rfl, rfl, rfl, rfl⟩)
  | delete next key keys =>
    cases hcount : reply.count with
    | error u =>
      rw [after_delete_error hcount] at h
      cases h
    | ok n =>
      rw [after_delete_ok hcount rfl] at h
      cases h
      exact .inr (.inr ⟨next, key, keys, rfl, rfl, rfl⟩)

theorem after_eq_none_iff {p : Phase} {reply : Reply} :
    p.after reply = none ↔ (∃ cursor, p = scan cursor) ∧ reply.toTextAndTexts = none := by
  cases p with
  | scan cursor =>
    rw [after]
    split <;> simp_all
  | delete next key keys => simp [after]

theorem after_eq_delete {p : Phase} {reply : Reply}
    (h : p.after reply = some (.ok (some (delete next key keys), n))) :
    ∃ cursor, p = scan cursor ∧ reply.toTextAndTexts = some (.ok (next, key :: keys)) := by
  obtain ⟨_, _, _, _, hgoOn, _⟩ | ⟨cursor, _, _, _, hp, hscan, ⟨⟩, _⟩ | ⟨_, _, _, _, _, hgoOn⟩ :=
    after_eq_ok h
  · cases goOn_eq_some hgoOn.symm
  · exact ⟨cursor, hp, hscan⟩
  · cases goOn_eq_some hgoOn.symm

end Phase

/-- The turns from a phase on and the outcome, with the number of keys removed before. There is no
outcome where a scan has no parts at all, or where the number of keys outgrows a word. -/
inductive Walk (c : Cache) :
    Phase → UInt64 → List Turn → Option (Except Unexpected UInt64) → Prop
  | noParts {p : Phase} {removed : UInt64} {reply : Reply} (h : p.after reply = none) :
    Walk c p removed [⟨p.command c, reply⟩] none
  | failed {p : Phase} {removed : UInt64} {reply : Reply} {u : Unexpected}
    (h : p.after reply = some (.error u)) :
    Walk c p removed [⟨p.command c, reply⟩] (some (.error u))
  | outgrown {p : Phase} {removed n : UInt64} {reply : Reply} {q : Option Phase}
    (h : p.after reply = some (.ok (q, n))) (hsum : sum? removed n = none) :
    Walk c p removed [⟨p.command c, reply⟩] none
  | last {p : Phase} {removed n total : UInt64} {reply : Reply}
    (h : p.after reply = some (.ok (none, n))) (hsum : sum? removed n = some total) :
    Walk c p removed [⟨p.command c, reply⟩] (some (.ok total))
  | more {p q : Phase} {removed n total : UInt64} {reply : Reply} {later : List Turn}
    {result : Option (Except Unexpected UInt64)} (h : p.after reply = some (.ok (some q, n)))
    (hsum : sum? removed n = some total) (hwalk : Walk c q total later result) :
    Walk c p removed (⟨p.command c, reply⟩ :: later) result

variable {result : Option (Except Unexpected UInt64)}

theorem Walk.found {key : String} {keys : List String}
    (hscan : scanned.toTextAndTexts = some (.ok (next, key :: keys)))
    (hwalk : Walk c (.delete next key keys) removed later result) :
    Walk c (.scan cursor) removed (⟨c.scanTokens cursor, scanned⟩ :: later) result :=
  .more (Phase.after_scan_cons hscan) (sum?_zero removed) hwalk

theorem Round.walk_of_none (h : Round c cursor turns (.ok none)) :
    Walk c (.scan cursor) removed turns none := by
  cases h with
  | noParts hscan => exact .noParts (Phase.after_scan_none hscan)

theorem Round.walk_of_error {u : Unexpected} (h : Round c cursor turns (.error u)) :
    Walk c (.scan cursor) removed turns (some (.error u)) := by
  cases h with
  | notScanned hscan => exact .failed (Phase.after_scan_error hscan)
  | notCounted hscan hcount => exact .found hscan (.failed (Phase.after_delete_error hcount))

theorem Round.walk_of_outgrown (h : Round c cursor turns (.ok (some (next, n))))
    (hsum : sum? removed n = none) : Walk c (.scan cursor) removed turns none := by
  cases h with
  | noneFound hscan => exact .outgrown (Phase.after_scan_nil hscan rfl) hsum
  | deleted hscan hcount =>
    exact .found hscan (.outgrown (Phase.after_delete_ok hcount rfl) hsum)

theorem Round.walk_of_last (h : Round c cursor turns (.ok (some ("0", n))))
    (hsum : sum? removed n = some total) :
    Walk c (.scan cursor) removed turns (some (.ok total)) := by
  have hgoOn : Phase.goOn "0" = none := if_pos rfl
  cases h with
  | noneFound hscan => exact .last (Phase.after_scan_nil hscan hgoOn) hsum
  | deleted hscan hcount => exact .found hscan (.last (Phase.after_delete_ok hcount hgoOn) hsum)

theorem Round.walk_append (h : Round c cursor turns (.ok (some (next, n)))) (hnext : next ≠ "0")
    (hsum : sum? removed n = some total) (hwalk : Walk c (.scan next) total later result) :
    Walk c (.scan cursor) removed (turns ++ later) result := by
  have hgoOn : Phase.goOn next = some (.scan next) := if_neg hnext
  cases h with
  | noneFound hscan => exact .more (Phase.after_scan_nil hscan hgoOn) hsum hwalk
  | deleted hscan hcount =>
    exact .found hscan (.more (Phase.after_delete_ok hcount hgoOn) hsum hwalk)

theorem exists_walk (c : Cache) (cursor : String) (removed : UInt64) (x : Exchange Script) :
    ∃ turns result t, Walk c (.scan cursor) removed turns result ∧
      Serves Script.execute x.server turns t ∧
      c.clearFrom cursor removed x = (result.map (·.mapError .unexpected), ⟨t, x.events⟩) := by
  fun_induction clearFrom c cursor removed x with
  | case1 cursor removed x e y h =>
    obtain ⟨turns, u, t, hround, hs, rfl, rfl⟩ := exists_round_of_error h
    exact ⟨turns, _, t, hround.walk_of_error, hs, rfl⟩
  | case2 cursor removed x y h =>
    obtain ⟨turns, t, hround, hs, rfl⟩ := exists_round_of_ok h
    exact ⟨turns, _, t, hround.walk_of_none, hs, rfl⟩
  | case3 cursor removed x next n y h hsum =>
    obtain ⟨turns, t, hround, hs, rfl⟩ := exists_round_of_ok h
    exact ⟨turns, _, t, hround.walk_of_outgrown hsum, hs, rfl⟩
  | case4 cursor removed x n y total hsum h =>
    obtain ⟨turns, t, hround, hs, rfl⟩ := exists_round_of_ok h
    exact ⟨turns, _, t, hround.walk_of_last hsum, hs, rfl⟩
  | case5 cursor removed x next n y h total hsum hnext ih =>
    obtain ⟨turns, t, hround, hs, rfl⟩ := exists_round_of_ok h
    obtain ⟨later, result, u, hwalk, hlater, hclear⟩ := ih
    exact ⟨turns ++ later, result, u, hround.walk_append hnext hsum hwalk, hs.append hlater, hclear⟩

/-- Clearing a cache with a prefix is a walk from the start, and it takes the replies in order. -/
theorem exists_walk_of_clear (hlead : c.space.lead ≠ "") (x : Exchange Script) :
    ∃ turns result, Walk c (.scan "0") 0 turns result ∧
      turns.map Turn.reply = (List.range turns.length).map x.server.reply ∧
      c.clear x = (result.map (·.mapError .unexpected),
        ⟨x.server.receive (turns.map Turn.command), x.events⟩) := by
  obtain ⟨turns, result, t, hwalk, hs, hclear⟩ := exists_walk c "0" 0 x
  obtain ⟨rfl, hreplies⟩ := Script.eq_receive_of_serves hs
  have hempty : ¬ c.space.isEmpty := by
    rwa [Keyspace.isEmpty, String.isEmpty_iff]
  rw [clear, if_neg hempty]
  exact ⟨turns, result, hwalk, hreplies, hclear⟩

theorem clear_of_lead_eq_empty (hlead : c.space.lead = "") (x : Exchange Script) :
    c.clear x = (some (.error (.misconfigured .clearWithoutPrefix)), x) := by
  have hempty : c.space.isEmpty := by
    rwa [Keyspace.isEmpty, String.isEmpty_iff]
  rw [clear, if_pos hempty]

end Storehouse.Cache
