import Storehouse.Exchange.Dialogue
import Storehouse.Proofs.Search.Entries
import Storehouse.Proofs.Text.Bytes
import Mathlib.Data.List.Nodup
import Mathlib.Data.List.Perm.Subperm

namespace Storehouse.Search

variable {δ : Type}

/-- Documents under keys, no two under one key and no more than an integer reply can count. Keys are
bytes, which need not be text. -/
structure Database (δ : Type) where
  documents : List (List UInt8 × δ)
  nodup : (documents.map Prod.fst).Nodup
  length_lt : documents.length < 2 ^ 63

namespace Database

def keys (d : Database δ) : List (List UInt8) := d.documents.map Prod.fst

def get? (d : Database δ) (key : List UInt8) : Option δ :=
  (d.documents.find? fun entry => entry.1 = key).map Prod.snd

def erase (d : Database δ) (keys : List (List UInt8)) : Database δ where
  documents := d.documents.filter fun entry => entry.1 ∉ keys
  nodup := d.nodup.sublist (List.filter_sublist.map Prod.fst)
  length_lt := Nat.lt_of_le_of_lt (List.length_filter_le _ _) d.length_lt

/-- The keys whose documents have the property. -/
def matching (d : Database δ) (p : List UInt8 → δ → Bool) : List (List UInt8) :=
  (d.documents.filter fun entry => p entry.1 entry.2).map Prod.fst

def count (d : Database δ) (keys : List (List UInt8)) : Nat :=
  (d.keys.filter (· ∈ keys)).length

variable {d : Database δ} {keys : List (List UInt8)} {key : List UInt8} {p : List UInt8 → δ → Bool}

theorem mem_keys_erase : key ∈ (d.erase keys).keys ↔ key ∈ d.keys ∧ key ∉ keys := by
  simp only [Database.keys, erase, List.mem_map, List.mem_filter, decide_eq_true_eq]
  constructor
  · rintro ⟨entry, ⟨hmem, hkeys⟩, rfl⟩
    exact ⟨⟨entry, hmem, rfl⟩, hkeys⟩
  · rintro ⟨⟨entry, hmem, rfl⟩, hkeys⟩
    exact ⟨entry, ⟨hmem, hkeys⟩, rfl⟩

theorem get?_erase (h : key ∉ keys) : (d.erase keys).get? key = d.get? key := by
  rw [get?, get?, erase, List.find?_filter]
  congr 2
  funext entry
  by_cases he : entry.1 = key <;> simp [he, h]

theorem get?_eq_none (h : key ∉ d.keys) : d.get? key = none := by
  rw [get?, Option.map_eq_none_iff, List.find?_eq_none]
  intro entry hmem
  rw [decide_eq_true_eq]
  rintro rfl
  exact h (List.mem_map_of_mem hmem)

theorem matching_erase :
    (d.erase keys).matching p = (d.matching p).filter (· ∉ keys) := by
  rw [matching, matching, erase, List.filter_filter, List.filter_map, List.filter_filter]
  congr 2
  funext entry
  exact Bool.and_comm _ _

theorem length_matching_lt : (d.matching p).length < 2 ^ 63 := by
  rw [matching, List.length_map]
  exact Nat.lt_of_le_of_lt (List.length_filter_le _ _) d.length_lt

theorem count_lt : d.count keys < 2 ^ 63 := by
  apply Nat.lt_of_le_of_lt (List.length_filter_le _ _)
  rw [Database.keys, List.length_map]
  exact d.length_lt

theorem count_le : d.count keys ≤ keys.length := by
  have hsub : d.keys.filter (· ∈ keys) ⊆ keys := by
    intro key hkey
    simpa using (List.mem_filter.mp hkey).2
  exact ((d.nodup.filter _).subperm hsub).length_le

end Database

def number (n : Nat) : Reply := .int (.ofNat n)

/-- A server that knows which documents a query finds in an index, and which keys it names when it
is asked for some of them. How it takes other commands is left open. -/
structure Server (δ : Type) where
  finds (index query : String) (key : List UInt8) (document : δ) : Bool
  page (index query : String) (limit : UInt64) (d : Database δ) : List String
  nodup_page (index query : String) (limit : UInt64) (d : Database δ) :
    (page index query limit d).Nodup
  length_page_le (index query : String) (limit : UInt64) (d : Database δ) :
    (page index query limit d).length ≤ limit.toNat
  mem_matching_of_mem_page (index query : String) (limit : UInt64) (d : Database δ)
    (key : String) : key ∈ page index query limit d →
      Text.bytes key ∈ d.matching (finds index query)
  answer (command : List String) (d : Database δ) : Reply × Database δ
  answer_count (index query : String) (d : Database δ) :
    answer ["FT.SEARCH", index, query, "LIMIT", "0", "0"] d =
      (.array [number (d.matching (finds index query)).length], d)
  answer_keys (index query : String) (limit : UInt64) (d : Database δ) :
    answer ["FT.SEARCH", index, query, "NOCONTENT", "LIMIT", "0", limit.toNat.repr] d =
      (.array (number (d.matching (finds index query)).length ::
        (page index query limit d).map .text), d)
  answer_delete (key : String) (keys : List String) (d : Database δ) :
    answer ("DEL" :: key :: keys) d =
      (number (d.count ((key :: keys).map Text.bytes)), d.erase ((key :: keys).map Text.bytes))

namespace Database

def texts (d : Database δ) : List String := d.keys.filterMap Text.ofBytes?

theorem nodup_texts (d : Database δ) : d.texts.Nodup := by
  apply List.Nodup.filterMap _ d.nodup
  intro key key' text h h'
  rw [← Text.bytes_of_ofBytes?_eq_some h, Text.bytes_of_ofBytes?_eq_some h']

theorem bytes_mem_keys_of_mem_texts {d : Database δ} {text : String} (h : text ∈ d.texts) :
    Text.bytes text ∈ d.keys := by
  obtain ⟨key, hkey, htext⟩ := List.mem_filterMap.mp h
  rwa [Text.bytes_of_ofBytes?_eq_some htext]

theorem matching_true (d : Database δ) : d.matching (fun _ _ => true) = d.keys := by
  rw [matching, List.filter_true, keys]

end Database

/-- The server that finds every document, whatever the query, and names those keys that are texts:
as many as it is asked for, but never more than its cap. -/
def Server.capped (δ : Type) (cap : Nat) : Server δ where
  finds _ _ _ _ := true
  page _ _ limit d := d.texts.take (min limit.toNat cap)
  nodup_page _ _ _ d := d.nodup_texts.sublist (List.take_sublist _ _)
  length_page_le _ _ _ _ := Nat.le_trans (List.length_take_le _ _) (Nat.min_le_left _ _)
  mem_matching_of_mem_page _ _ _ d _ h := by
    rw [d.matching_true]
    exact Database.bytes_mem_keys_of_mem_texts (List.mem_of_mem_take h)
  answer command d :=
    match command with
    | ["FT.SEARCH", _, _, "LIMIT", "0", "0"] => (.array [number d.keys.length], d)
    | ["FT.SEARCH", _, _, "NOCONTENT", "LIMIT", "0", limit] =>
      (.array (number d.keys.length ::
        (d.texts.take (min (Nat.ofDigitChars 10 limit.toList 0) cap)).map .text), d)
    | "DEL" :: keys => (number (d.count (keys.map Text.bytes)), d.erase (keys.map Text.bytes))
    | _ => (.nil, d)
  answer_count _ _ d := by
    rw [d.matching_true]
    rfl
  answer_keys _ _ limit d := by
    rw [d.matching_true]
    simp only [Nat.toList_repr, Nat.ofDigitChars_ten_toDigits]
  answer_delete _ _ _ := rfl

theorem ofReply_texts (n : Nat) (keys : List String) :
    Page.ofReply (.array (number n :: keys.map .text)) =
      .ok ⟨.ofNat n, keys.map fun key => ⟨key, []⟩⟩ := by
  have htotal : (number n).toWord? = some (.ofNat n) := rfl
  have hread := ofReply_entries htotal (keys.map .bare)
  rw [List.flatMap_map, List.map_map] at hread
  rw [List.map_eq_flatMap]
  exact hread

end Storehouse.Search
