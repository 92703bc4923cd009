import Mathlib.Tactic.SplitIfs
import Storehouse.Proofs.Text.Bytes

namespace Storehouse.Text

variable {m n : Nat} {first second : List UInt8}

theorem ofNat_cons_lt (h : m < n) (hn : n < 256) (first second : List UInt8) :
    UInt8.ofNat m :: first < UInt8.ofNat n :: second := by
  have hlt : UInt8.ofNat m < UInt8.ofNat n := by
    rw [UInt8.lt_iff_toNat_lt, UInt8.toNat_ofNat', UInt8.toNat_ofNat']
    omega
  exact List.cons_lt_cons_iff.mpr (.inl hlt)

theorem ofNat_cons_lt_of_le (h : m ≤ n) (hn : n < 256) (hrest : m = n → first < second) :
    UInt8.ofNat m :: first < UInt8.ofNat n :: second := by
  rcases Nat.lt_or_eq_of_le h with hlt | heq
  · exact ofNat_cons_lt hlt hn first second
  · rw [heq]
    exact List.cons_lt_cons_iff.mpr (.inr ⟨rfl, hrest heq⟩)

theorem encoded_lt {c d : Char} (h : c < d) (first second : List UInt8) :
    String.utf8EncodeChar c ++ first < String.utf8EncodeChar d ++ second := by
  have hlt : c.val.toNat < d.val.toNat := h
  have hd : d.val.toNat < 0x110000 := by
    have hvalid := d.valid
    unfold UInt32.isValidChar Nat.isValidChar at hvalid
    omega
  simp only [String.utf8EncodeChar]
  generalize c.val.toNat = m at hlt
  generalize d.val.toNat = n at hlt hd
  split_ifs
  all_goals simp only [List.cons_append, List.nil_append]
  any_goals omega
  all_goals apply ofNat_cons_lt_of_le (by omega) (by omega)
  all_goals intro hlead
  -- characters whose first bytes are equal have equally many bytes, and two or more
  any_goals omega
  · exact ofNat_cons_lt (by omega) (by omega) _ _
  · apply ofNat_cons_lt_of_le (by omega) (by omega)
    intro hsecond
    exact ofNat_cons_lt (by omega) (by omega) _ _
  · apply ofNat_cons_lt_of_le (by omega) (by omega)
    intro hsecond
    apply ofNat_cons_lt_of_le (by omega) (by omega)
    intro hthird
    exact ofNat_cons_lt (by omega) (by omega) _ _

theorem flatMap_encoded_lt {cs ds : List Char} (h : cs < ds) :
    cs.flatMap String.utf8EncodeChar < ds.flatMap String.utf8EncodeChar := by
  change List.Lex (· < ·) cs ds at h
  induction h with
  | @nil d ds =>
    rw [List.flatMap_nil, List.flatMap_cons]
    have hne : String.utf8EncodeChar d ++ ds.flatMap String.utf8EncodeChar ≠ [] :=
      List.append_ne_nil_of_left_ne_nil String.utf8EncodeChar_ne_nil _
    obtain ⟨byte, rest, hcons⟩ := List.exists_cons_of_ne_nil hne
    rw [hcons]
    exact List.nil_lt_cons byte rest
  | rel h =>
    rw [List.flatMap_cons, List.flatMap_cons]
    exact encoded_lt h _ _
  | cons _ ih =>
    rw [List.flatMap_cons, List.flatMap_cons]
    exact List.append_left_lt ih

theorem bytes_eq_flatMap (s : String) : bytes s = s.toList.flatMap String.utf8EncodeChar := by
  rw [bytes, ← String.utf8Encode_toList, List.utf8Encode, List.data_toByteArray]

theorem bytes_lt_of_lt {s t : String} (h : s < t) : bytes s < bytes t := by
  rw [bytes_eq_flatMap, bytes_eq_flatMap]
  exact flatMap_encoded_lt h

end Storehouse.Text
