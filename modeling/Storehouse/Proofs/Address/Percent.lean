import Storehouse.Address.Parts
import Storehouse.Proofs.Text.Bytes

namespace Storehouse.Address

def hexDigits : List Char :=
  ['0', '1', '2', '3', '4', '5', '6', '7', '8', '9', 'A', 'B', 'C', 'D', 'E', 'F']

/-- Letters, digits and four marks, and percent signs each with two hex digits behind it. -/
inductive Encoded : List Char → Prop
  | nil : Encoded []
  | plain {c : Char} {cs : List Char} (hc : c.isAlphanum = true ∨ c ∈ ['-', '.', '_', '~'])
    (hcs : Encoded cs) : Encoded (c :: cs)
  | byte {a b : Char} {cs : List Char} (ha : a ∈ hexDigits) (hb : b ∈ hexDigits)
    (hcs : Encoded cs) : Encoded ('%' :: a :: b :: cs)

variable {b : UInt8} {c : Char} {cs : List Char}

theorem hexDigit_mem_hexDigits {n : Nat} (h : n < 16) : Text.hexDigit n ∈ hexDigits := by
  have all : ∀ m ∈ List.range 16, Text.hexDigit m ∈ hexDigits := by decide
  exact all n (List.mem_range.mpr h)

theorem toNat_div_lt (b : UInt8) : b.toNat / 16 < 16 :=
  Nat.div_lt_of_lt_mul b.toNat_lt

theorem toNat_mod_lt (b : UInt8) : b.toNat % 16 < 16 := Nat.mod_lt _ (by decide)

theorem Encoded.encodeByte_append (b : UInt8) (h : Encoded cs) : Encoded (encodeByte b ++ cs) := by
  rw [encodeByte]
  split
  · next hplain =>
    apply Encoded.plain _ h
    simpa [isPlain, or_assoc] using hplain
  · have hhigh := hexDigit_mem_hexDigits (toNat_div_lt b)
    have hlow := hexDigit_mem_hexDigits (toNat_mod_lt b)
    exact .byte hhigh hlow h

theorem encoded_flatMap (bytes : List UInt8) : Encoded (bytes.flatMap encodeByte) := by
  induction bytes with
  | nil => exact .nil
  | cons b bytes ih =>
    rw [List.flatMap_cons]
    exact ih.encodeByte_append b

theorem encoded_encode (s : String) : Encoded (encode s).toList := by
  rw [encode, String.toList_ofList]
  exact encoded_flatMap _

theorem Encoded.not_mem (h : Encoded cs) (hc : c ∈ ['/', '@', ':', '?', '#']) : c ∉ cs := by
  have hplain : c.isAlphanum = false ∧ c ∉ ['-', '.', '_', '~'] ∧ c ∉ '%' :: hexDigits := by
    simp only [List.mem_cons, List.not_mem_nil, or_false] at hc
    rcases hc with rfl | rfl | rfl | rfl | rfl <;> decide
  induction h with
  | nil => exact List.not_mem_nil
  | plain hd hcs ih =>
    intro hmem
    rcases List.mem_cons.mp hmem with rfl | hmem
    · rcases hd with hd | hd
      · exact nomatch hplain.1.symm.trans hd
      · exact hplain.2.1 hd
    · exact ih hmem
  | byte ha hb hcs ih =>
    intro hmem
    simp only [List.mem_cons] at hmem
    rcases hmem with rfl | rfl | rfl | hmem
    · exact hplain.2.2 List.mem_cons_self
    · exact hplain.2.2 (List.mem_cons_of_mem _ ha)
    · exact hplain.2.2 (List.mem_cons_of_mem _ hb)
    · exact ih hmem

/-- What stands for itself is an ASCII character other than the percent sign. -/
theorem toNat_ofNat_of_isPlain (h : isPlain b = true) : (Char.ofNat b.toNat).toNat = b.toNat ∧
    b.toNat < 128 ∧ Char.ofNat b.toNat ≠ '%' := by
  have all : ∀ n < 256, isPlain (UInt8.ofNat n) = true →
      (Char.ofNat n).toNat = n ∧ n < 128 ∧ Char.ofNat n ≠ '%' := by
    decide +kernel
  apply all b.toNat b.toNat_lt
  rw [UInt8.ofNat_toNat]
  exact h

theorem decodeBytes_cons_of_ne (h : c ≠ '%') (rest : List Char) :
    decodeBytes (c :: rest) = c.toString.toUTF8.toList ++ decodeBytes rest := by
  rw [decodeBytes]
  intro a b rest' hc
  exact absurd hc h

theorem decodeBytes_hexDigits {m n : Nat} (hm : m < 16) (hn : n < 16) (rest : List Char) :
    decodeBytes ('%' :: Text.hexDigit m :: Text.hexDigit n :: rest) =
      UInt8.ofNat (16 * m + n) :: decodeBytes rest := by
  rw [decodeBytes, Text.hexValue?_hexDigit hm, Text.hexValue?_hexDigit hn]

theorem decodeBytes_encodeByte_append (b : UInt8) (rest : List Char) :
    decodeBytes (encodeByte b ++ rest) = b :: decodeBytes rest := by
  rw [encodeByte]
  split
  · next hplain =>
    obtain ⟨hnat, hlt, hne⟩ := toNat_ofNat_of_isPlain hplain
    have hascii : (Char.ofNat b.toNat).toNat < 128 := by omega
    rw [List.singleton_append, decodeBytes_cons_of_ne hne, Text.toList_toUTF8_singleton hascii,
      hnat, UInt8.ofNat_toNat, List.singleton_append]
  · have hbyte : 16 * (b.toNat / 16) + b.toNat % 16 = b.toNat := Nat.div_add_mod _ _
    rw [List.cons_append, List.cons_append, List.cons_append, List.nil_append,
      decodeBytes_hexDigits (toNat_div_lt b) (toNat_mod_lt b), hbyte, UInt8.ofNat_toNat]

theorem decodeBytes_flatMap (bytes : List UInt8) :
    decodeBytes (bytes.flatMap encodeByte) = bytes := by
  induction bytes with
  | nil => rw [List.flatMap_nil, decodeBytes]
  | cons b bytes ih => rw [List.flatMap_cons, decodeBytes_encodeByte_append, ih]

theorem decode?_encode (s : String) : decode? (encode s).toList = some s := by
  have hbytes : decodeBytes (encode s).toList = Text.bytes s := by
    rw [encode, String.toList_ofList, decodeBytes_flatMap, Text.toList_toUTF8]
  have hdata : (⟨(Text.bytes s).toArray⟩ : ByteArray) = (Text.bytes s).toByteArray := by
    apply ByteArray.ext
    rw [List.data_toByteArray]
  rw [decode?, hbytes, hdata]
  exact Text.ofBytes?_bytes s

end Storehouse.Address
