namespace Storehouse.Text

/-- The bytes of a text, in which a server keeps it. -/
def bytes (s : String) : List UInt8 := s.toByteArray.data.toList

theorem bytes_injective {s t : String} (h : bytes s = bytes t) : s = t := by
  apply String.toByteArray_inj.mp
  apply ByteArray.ext
  exact Array.toList_inj.mp h

/-- The text that the bytes are, if they are one. -/
def ofBytes? (b : List UInt8) : Option String := String.fromUTF8? b.toByteArray

theorem bytes_of_ofBytes?_eq_some {b : List UInt8} {s : String} (h : ofBytes? b = some s) :
    bytes s = b := by
  simp only [ofBytes?, String.fromUTF8?, Option.dite_none_right_eq_some, Option.some.injEq] at h
  obtain ⟨_, rfl⟩ := h
  change b.toByteArray.data.toList = b
  rw [List.data_toByteArray]

theorem ofBytes?_bytes (s : String) : ofBytes? (bytes s) = some s := by
  have hbytes : (bytes s).toByteArray = s.toByteArray := by
    apply ByteArray.ext
    rw [List.data_toByteArray, bytes, Array.toArray_toList]
  rw [ofBytes?, hbytes]
  exact dif_pos s.isValidUTF8

theorem toList_loop_eq (b : ByteArray) (i : Nat) (before : List UInt8) :
    ByteArray.toList.loop b i before = before.reverse ++ b.data.toList.drop i := by
  fun_induction ByteArray.toList.loop b i before with
  | case1 i before hi ih =>
    have hlt : i < b.data.toList.length := hi
    have hbyte : b.get! i = b.data.toList[i] := getElem!_pos b.data i hi
    rw [ih, List.drop_eq_getElem_cons hlt, ← hbyte, List.reverse_cons, List.append_assoc,
      List.singleton_append]
  | case2 i before hi =>
    have hle : b.data.toList.length ≤ i := Nat.le_of_not_lt hi
    rw [List.drop_eq_nil_of_le hle, List.append_nil]

theorem toList_toUTF8 (s : String) : s.toUTF8.toList = bytes s :=
  toList_loop_eq s.toUTF8 0 []

theorem toList_toUTF8_singleton {c : Char} (h : c.toNat < 128) :
    c.toString.toUTF8.toList = [UInt8.ofNat c.toNat] := by
  have hbyte : String.utf8EncodeChar c = [UInt8.ofNat c.toNat] := if_pos (Nat.le_of_lt_succ h)
  rw [toList_toUTF8, bytes, Char.toString, String.toByteArray_singleton, List.utf8Encode_singleton,
    List.data_toByteArray, hbyte]

theorem bytes_append (s t : String) : bytes (s ++ t) = bytes s ++ bytes t := by
  rw [bytes, String.toByteArray_append, ByteArray.toList_data_append]
  rfl

theorem bytes_prefix_iff {s t : String} : bytes s <+: bytes t ↔ ∃ u, t = s ++ u := by
  constructor
  · rintro ⟨rest, hrest⟩
    have hbytes : s.toList.utf8Encode ++ rest.toByteArray = t.toList.utf8Encode := by
      rw [String.utf8Encode_toList, String.utf8Encode_toList]
      apply ByteArray.ext
      apply Array.toList_inj.mp
      rw [ByteArray.toList_data_append, List.data_toByteArray]
      exact hrest
    obtain ⟨cs, hcs⟩ := List.isPrefix_of_utf8Encode_append_eq_utf8Encode _ hbytes
    refine ⟨.ofList cs, ?_⟩
    rw [← String.toList_inj, String.toList_append, String.toList_ofList, hcs]
  · rintro ⟨u, rfl⟩
    rw [bytes_append]
    exact List.prefix_append _ _

end Storehouse.Text
