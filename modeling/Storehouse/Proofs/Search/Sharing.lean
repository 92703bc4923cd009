import Storehouse.Proofs.Search.Database
import Storehouse.Proofs.Search.Removal

namespace Storehouse.Search

open Storehouse.Filter (Clause)

variable {δ : Type} {server : Server δ} {others : Nat → Database δ → Database δ} {i : Index}
  {query : String}

/-- A command that was carried out, and the database before and after it. -/
structure Moment (δ : Type) where
  turn : Turn
  before : Database δ
  after : Database δ

def Moment.deleted (m : Moment δ) : List (List UInt8) :=
  m.before.keys.filter fun key => !m.after.keys.contains key

structure Shared (δ : Type) where
  database : Database δ
  moments : List (Moment δ)

namespace Server

/-- The server beside other clients: before the `k`-th command they turn the database `d` into
`others k d`. -/
def beside (server : Server δ) (others : Nat → Database δ → Database δ) : Executor (Shared δ) :=
  fun command s =>
    let before := others s.moments.length s.database
    let answer := server.answer command before
    (.ok answer.1, ⟨answer.2, s.moments ++ [⟨⟨command, answer.1⟩, before, answer.2⟩]⟩)

theorem beside_eq {command : List String} {s : Shared δ} {before after : Database δ}
    {reply : Reply} (hbefore : others s.moments.length s.database = before)
    (h : server.answer command before = (reply, after)) :
    server.beside others command s =
      (.ok reply, ⟨after, s.moments ++ [⟨⟨command, reply⟩, before, after⟩]⟩) := by
  rw [beside, hbefore, h]

/-- What the removal counts when it meets this database. -/
def counting (server : Server δ) (i : Index) (query : String) (d : Database δ) : Moment δ :=
  ⟨⟨i.countTokens query, .array [number (d.matching (server.finds i.name query)).length]⟩, d, d⟩

def lookup (server : Server δ) (i : Index) (query : String) (limit : UInt64) (d : Database δ) :
    Moment δ :=
  ⟨⟨i.keysTokens query limit, .array (number (d.matching (server.finds i.name query)).length ::
    (server.page i.name query limit d).map .text)⟩, d, d⟩

def deletion (keys : List String) (d : Database δ) : Moment δ :=
  ⟨⟨"DEL" :: keys, number (d.count (keys.map Text.bytes))⟩, d, d.erase (keys.map Text.bytes)⟩

def counted (server : Server δ) (i : Index) (query : String) (d : Database δ) : UInt64 :=
  .ofNat (d.matching (server.finds i.name query)).length

theorem toNat_counted (d : Database δ) :
    (server.counted i query d).toNat = (d.matching (server.finds i.name query)).length := by
  apply UInt64.toNat_ofNat_of_lt'
  exact Nat.lt_trans Database.length_matching_lt (by decide)

theorem counted_eq_zero_iff {d : Database δ} :
    server.counted i query d = 0 ↔ d.matching (server.finds i.name query) = [] := by
  rw [← List.length_eq_zero_iff, ← toNat_counted, ← UInt64.toNat_inj]
  rfl

end Server

/-- How a removal goes beside other clients, its result and the database it leaves behind. -/
inductive Course (server : Server δ) (i : Index) (query : String) (b₁ b₂ b₃ : Database δ) :
    UInt64 → List (Moment δ) → Database δ → Prop
  | noneCounted (h : b₁.matching (server.finds i.name query) = []) :
    Course server i query b₁ b₂ b₃ 0 [server.counting i query b₁] b₁
  | noneFound (hcounted : b₁.matching (server.finds i.name query) ≠ [])
    (h : server.page i.name query (server.counted i query b₁) b₂ = []) :
    Course server i query b₁ b₂ b₃ 0
      [server.counting i query b₁, server.lookup i query (server.counted i query b₁) b₂] b₂
  | deleted {keys : List String} (hcounted : b₁.matching (server.finds i.name query) ≠ [])
    (hkeys : server.page i.name query (server.counted i query b₁) b₂ = keys) (h : keys ≠ []) :
    Course server i query b₁ b₂ b₃ (.ofNat (b₃.count (keys.map Text.bytes)))
      [server.counting i query b₁, server.lookup i query (server.counted i query b₁) b₂,
        Server.deletion keys b₃]
      (b₃.erase (keys.map Text.bytes))

theorem exists_course {r : Request} (hquery : Clause.query r.clause = .ok query) (d : Database δ)
    (events : List Event) {b₁ b₂ b₃ : Database δ} (h₁ : others 0 d = b₁) (h₂ : others 1 b₁ = b₂)
    (h₃ : others 2 b₂ = b₃) :
    ∃ n moments last, Course server i query b₁ b₂ b₃ n moments last ∧
      (i.remove r).run (server.beside others) ⟨⟨d, []⟩, events⟩ =
        (.ok n, ⟨⟨last, moments⟩, events ++ []⟩) := by
  have hcount : server.beside others (i.countTokens query) ⟨d, []⟩ =
      (.ok _, ⟨b₁, [server.counting i query b₁]⟩) :=
    Server.beside_eq h₁ (server.answer_count i.name query b₁)
  have hlookup (limit : UInt64) :
      server.beside others (i.keysTokens query limit) ⟨b₁, [server.counting i query b₁]⟩ =
        (.ok _, ⟨b₂, [server.counting i query b₁, server.lookup i query limit b₂]⟩) :=
    Server.beside_eq h₂ (server.answer_keys i.name query limit b₂)
  have hfirst := ofReply_texts (b₁.matching (server.finds i.name query)).length []
  by_cases hzero : server.counted i query b₁ = 0
  · have hr := Index.Removal.noneCounted (i := i) hquery hfirst hzero
    exact ⟨_, _, _, .noneCounted (Server.counted_eq_zero_iff.mp hzero),
      hr.takes.run_eq (.cons hcount (.nil _)) events⟩
  have hcounted := mt Server.counted_eq_zero_iff.mpr hzero
  have hsecond := ofReply_texts (b₂.matching (server.finds i.name query)).length
    (server.page i.name query (server.counted i query b₁) b₂)
  cases hkeys : server.page i.name query (server.counted i query b₁) b₂ with
  | nil =>
    have hr := Index.Removal.noneFound (i := i) hquery hfirst hzero hsecond (by rw [hkeys]; rfl)
    exact ⟨_, _, _, .noneFound hcounted hkeys,
      hr.takes.run_eq (.cons hcount (.cons (hlookup _) (.nil _))) events⟩
  | cons key keys =>
    have hdelete : server.beside others ("DEL" :: key :: keys) ⟨b₂, [server.counting i query b₁,
        server.lookup i query (server.counted i query b₁) b₂]⟩ = (.ok _, ⟨_, _⟩) :=
      Server.beside_eq h₃ (server.answer_delete key keys b₃)
    have hr := Index.Removal.deleted (i := i) hquery hfirst hzero hsecond (by simp [hkeys])
      (number (b₃.count ((key :: keys).map Text.bytes)))
    have hnames : (server.page i.name query (server.counted i query b₁) b₂).map
        (fun key => Hit.key ⟨key, []⟩) = key :: keys := by
      rw [List.map_id', hkeys]
    rw [List.map_map, Function.comp_def, hnames] at hr
    exact ⟨_, _, _, .deleted hcounted hkeys (List.cons_ne_nil key keys),
      hr.takes.run_eq (.cons hcount (.cons (hlookup _) (.cons hdelete (.nil _)))) events⟩

namespace Moment

theorem deleted_eq_nil {m : Moment δ} (h : m.after = m.before) : m.deleted = [] := by
  rw [deleted, List.filter_eq_nil_iff, h]
  intro key hkey
  simpa using hkey

theorem mem_deleted {m : Moment δ} {key : List UInt8} :
    key ∈ m.deleted ↔ key ∈ m.before.keys ∧ key ∉ m.after.keys := by
  simp [deleted]

variable {keys : List String} {d : Database δ}

theorem mem_deleted_deletion {key : List UInt8} :
    key ∈ (Server.deletion keys d).deleted ↔ key ∈ d.keys ∧ key ∈ keys.map Text.bytes := by
  rw [mem_deleted]
  change key ∈ d.keys ∧ key ∉ (d.erase _).keys ↔ _
  rw [Database.mem_keys_erase]
  tauto

theorem length_deleted_deletion :
    (Server.deletion keys d).deleted.length = d.count (keys.map Text.bytes) := by
  rw [deleted, Database.count]
  congr 1
  apply List.filter_congr
  intro key hkey
  have hmem : key ∈ d.keys := hkey
  have hiff : key ∈ (d.erase (keys.map Text.bytes)).keys ↔ _ := Database.mem_keys_erase
  rw [Bool.eq_iff_iff]
  simp [Server.deletion, hiff, hmem]

theorem get?_deletion {key : List UInt8} (h : key ∉ (Server.deletion keys d).deleted) :
    (d.erase (keys.map Text.bytes)).get? key = d.get? key := by
  by_cases hlisted : key ∈ keys.map Text.bytes
  · have habsent : key ∉ d.keys := fun hmem => h (mem_deleted_deletion.mpr ⟨hmem, hlisted⟩)
    rw [Database.get?_eq_none habsent, Database.get?_eq_none]
    exact fun hmem => habsent (Database.mem_keys_erase.mp hmem).1
  · exact Database.get?_erase hlisted

end Moment

/-- What a removal does to a database that others change: which keys it deletes, and how many. -/
structure RemovesFound (server : Server δ) (i : Index) (query : String) (n : UInt64)
    (moments : List (Moment δ)) : Prop where
  found (m : Moment δ) (key : List UInt8) : m ∈ moments → key ∈ m.deleted →
    ∃ lookup limit, moments[1]? = some lookup ∧
      lookup.turn.command = ["FT.SEARCH", i.name, query, "NOCONTENT", "LIMIT", "0", limit] ∧
      key ∈ lookup.before.matching (server.finds i.name query)
  untouched (m : Moment δ) (key : List UInt8) : m ∈ moments → key ∉ m.deleted →
    m.after.get? key = m.before.get? key
  toNat_eq : n.toNat = (moments.flatMap Moment.deleted).length
  le_counted : ∃ first, moments[0]? = some first ∧
    first.turn.command = ["FT.SEARCH", i.name, query, "LIMIT", "0", "0"] ∧
    n.toNat ≤ (first.before.matching (server.finds i.name query)).length
  none_counted (first : Moment δ) : moments[0]? = some first →
    first.before.matching (server.finds i.name query) = [] →
      n = 0 ∧ moments.flatMap Moment.deleted = []
  none_found (lookup : Moment δ) (total : Reply) : moments[1]? = some lookup →
    lookup.turn.reply = .array [total] → n = 0 ∧ moments.flatMap Moment.deleted = []

theorem RemovesFound.of_unchanged {b : Database δ} {rest : List (Moment δ)}
    (h : ∀ m ∈ server.counting i query b :: rest, m.after = m.before) :
    RemovesFound server i query 0 (server.counting i query b :: rest) := by
  have hdeleted (m) (hm : m ∈ server.counting i query b :: rest) : m.deleted = [] :=
    Moment.deleted_eq_nil (h m hm)
  have hnone := List.flatMap_eq_nil_iff.mpr hdeleted
  exact {
    found := fun m key hm hkey => by simp [hdeleted m hm] at hkey
    untouched := fun m key hm _ => by rw [h m hm]
    toNat_eq := by rw [hnone]; rfl
    le_counted := ⟨_, rfl, rfl, Nat.zero_le _⟩
    none_counted := fun _ _ _ => ⟨rfl, hnone⟩
    none_found := fun _ _ _ _ => ⟨rfl, hnone⟩ }

namespace Course

variable {b₁ b₂ b₃ last : Database δ} {n : UInt64} {moments : List (Moment δ)}

/-- What is deleted in the end was named by the lookup, so it matched then. -/
theorem removesFound_deletion {keys : List String}
    (hcounted : b₁.matching (server.finds i.name query) ≠ [])
    (hkeys : server.page i.name query (server.counted i query b₁) b₂ = keys) (h : keys ≠ []) :
    RemovesFound server i query (.ofNat (b₃.count (keys.map Text.bytes)))
      [server.counting i query b₁, server.lookup i query (server.counted i query b₁) b₂,
        Server.deletion keys b₃] := by
  have hcounting : (server.counting i query b₁).deleted = [] := Moment.deleted_eq_nil rfl
  have hlookup : (server.lookup i query (server.counted i query b₁) b₂).deleted = [] :=
    Moment.deleted_eq_nil rfl
  have hn : (UInt64.ofNat (b₃.count (keys.map Text.bytes))).toNat =
      b₃.count (keys.map Text.bytes) :=
    UInt64.toNat_ofNat_of_lt' (Nat.lt_trans Database.count_lt (by decide))
  constructor
  case found =>
    intro m key hm hkey
    refine ⟨_, _, rfl, rfl, ?_⟩
    simp only [List.mem_cons, List.not_mem_nil, or_false] at hm
    rcases hm with rfl | rfl | rfl
    · simp [hcounting] at hkey
    · simp [hlookup] at hkey
    · obtain ⟨text, htext, rfl⟩ := List.mem_map.mp (Moment.mem_deleted_deletion.mp hkey).2
      exact server.mem_matching_of_mem_page _ _ _ _ _ (hkeys ▸ htext)
  case untouched =>
    intro m key hm hkey
    simp only [List.mem_cons, List.not_mem_nil, or_false] at hm
    rcases hm with rfl | rfl | rfl
    · rfl
    · rfl
    · exact Moment.get?_deletion hkey
  case toNat_eq =>
    simp only [List.flatMap_cons, List.flatMap_nil, hcounting, hlookup, List.nil_append,
      List.append_nil, hn, Moment.length_deleted_deletion]
  case le_counted =>
    refine ⟨_, rfl, rfl, ?_⟩
    rw [hn]
    calc b₃.count (keys.map Text.bytes)
      _ ≤ (keys.map Text.bytes).length := Database.count_le
      _ = keys.length := List.length_map _
      _ ≤ (server.counted i query b₁).toNat := hkeys ▸ server.length_page_le _ _ _ _
      _ = _ := Server.toNat_counted b₁
  case none_counted =>
    rintro _ ⟨⟩ hnone
    exact absurd hnone hcounted
  case none_found =>
    rintro _ total ⟨⟩ hreply
    simp only [Server.lookup, hkeys, Reply.array.injEq, List.cons.injEq,
      List.map_eq_nil_iff] at hreply
    exact absurd hreply.2 h

theorem removesFound (h : Course server i query b₁ b₂ b₃ n moments last) :
    RemovesFound server i query n moments := by
  cases h with
  | noneCounted h => exact .of_unchanged (by simp [Server.counting])
  | noneFound hcounted h => exact .of_unchanged (by simp [Server.counting, Server.lookup])
  | deleted hcounted hkeys h => exact removesFound_deletion hcounted hkeys h

theorem matching_erase_page {d : Database δ} {limit : UInt64}
    (hall : (server.page i.name query limit d).length =
      (d.matching (server.finds i.name query)).length) :
    (d.erase ((server.page i.name query limit d).map Text.bytes)).matching
      (server.finds i.name query) = [] := by
  rw [Database.matching_erase, List.filter_eq_nil_iff]
  have hnodup : ((server.page i.name query limit d).map Text.bytes).Nodup :=
    (server.nodup_page _ _ _ _).map fun _ _ h => Text.bytes_injective h
  have hsub : (server.page i.name query limit d).map Text.bytes ⊆
      d.matching (server.finds i.name query) := by
    intro key hkey
    obtain ⟨text, htext, rfl⟩ := List.mem_map.mp hkey
    exact server.mem_matching_of_mem_page _ _ _ _ _ htext
  have hperm := (hnodup.subperm hsub).perm_of_length_le (by simp [hall])
  intro key hkey
  simpa using hperm.mem_iff.mpr hkey

theorem matching_last (h : Course server i query b₁ b₁ b₁ n moments last)
    (hall : (server.page i.name query (server.counted i query b₁) b₁).length =
      min (server.counted i query b₁).toNat (b₁.matching (server.finds i.name query)).length) :
    last.matching (server.finds i.name query) = [] := by
  have hlength := hall
  rw [Server.toNat_counted, Nat.min_self] at hlength
  cases h with
  | noneCounted h => exact h
  | noneFound hcounted h =>
    rw [h, List.length_nil] at hlength
    exact List.length_eq_zero_iff.mp hlength.symm
  | deleted hcounted hkeys h =>
    subst hkeys
    exact matching_erase_page hlength

end Course

/-- Whatever others do to the database in the meantime, a removal deletes only what it has found. If
they do nothing and the lookup is answered with as many keys as it asks for and there are, nothing
that matches is left. -/
theorem remove_deletes_found (server : Server δ) (others : Nat → Database δ → Database δ)
    (i : Index) (r : Request) (query : String) (hquery : Clause.query r.clause = .ok query)
    (d : Database δ) (events : List Event) :
    ∃ n moments last, (i.remove r).run (server.beside others) ⟨⟨d, []⟩, events⟩ =
        (.ok n, ⟨⟨last, moments⟩, events⟩) ∧
      RemovesFound server i query n moments ∧
      ((∀ k, others k d = d) → (server.page i.name query (server.counted i query d) d).length =
          min (server.counted i query d).toNat (d.matching (server.finds i.name query)).length →
        last.matching (server.finds i.name query) = []) := by
  obtain ⟨n, moments, last, hcourse, hrun⟩ := exists_course hquery d events rfl rfl rfl
  rw [List.append_nil] at hrun
  refine ⟨n, moments, last, hrun, hcourse.removesFound, ?_⟩
  intro hquiet hall
  rw [hquiet 0, hquiet 1, hquiet 2] at hcourse
  exact hcourse.matching_last hall

/-- A removal of all users from a server with a cap, once while another client deletes the first
user after the lookup, and once undisturbed. -/
theorem remove_users : ∃ users : Database String,
    users.keys = ["user:1", "user:2"].map Text.bytes ∧
    (∃ n moments last, (Index.remove (.ofName "idx:users") .empty).run
        ((Server.capped String 10000).beside
          fun k d => if k = 2 then d.erase [Text.bytes "user:1"] else d)
        ⟨⟨users, []⟩, []⟩ = (.ok n, ⟨⟨last, moments⟩, []⟩) ∧
      RemovesFound (.capped String 10000) (.ofName "idx:users") "*" n moments) ∧
    ∃ n moments last, (Index.remove (.ofName "idx:users") .empty).run
        ((Server.capped String 10000).beside fun _ d => d) ⟨⟨users, []⟩, []⟩ =
          (.ok n, ⟨⟨last, moments⟩, []⟩) ∧
      last.matching ((Server.capped String 10000).finds "idx:users" "*") = [] := by
  let users : Database String :=
    ⟨[(Text.bytes "user:1", "Ada"), (Text.bytes "user:2", "Grace")], by decide, by decide⟩
  refine ⟨users, rfl, ?_, ?_⟩
  · obtain ⟨n, moments, last, hrun, hremoves, -⟩ := remove_deletes_found (.capped String 10000) _
      (.ofName "idx:users") .empty "*" rfl users []
    exact ⟨n, moments, last, hrun, hremoves⟩
  · obtain ⟨n, moments, last, hrun, -, hnone⟩ := remove_deletes_found (.capped String 10000) _
      (.ofName "idx:users") .empty "*" rfl users []
    exact ⟨n, moments, last, hrun, hnone (fun _ => rfl) (by decide +kernel)⟩

end Storehouse.Search
