import Storehouse.Double.Nearest

namespace Storehouse.Double

open Float.Model (Format)
open Float.Model.UnpackedFloat

theorem toNat_unpackExponent (w : UInt64) :
    (@unpackExponent Format.binary64 w.toBitVec).toNat = w.toNat / 2 ^ 52 % 2 ^ 11 := by
  change (w.toNat >>> 52) % 2 ^ 11 = _
  rw [Nat.shiftRight_eq_div_pow]

theorem ofNat_ne_neg_one {e : Nat} (h : e < 2047) : BitVec.ofNat 11 e ≠ -1#11 := by
  intro heq
  have hnat : e % 2048 = 2047 := congrArg BitVec.toNat heq
  omega

theorem unpackExponent_pack_finite {s : Sign} {m : Nat} {e : Int} (hm : 0 < m)
    (h : (e + 1023 + 52).toNat < 2047) :
    unpackExponent (pack .binary64 (.finite s m e hm)) ≠ -1#11 := by
  have hsmall : ¬ 2 ^ 11 ≤ (e + 1023 + 52).toNat + 1 := by omega
  have hpack : pack .binary64 (.finite s m e hm) =
      if m.log2 + 1 = 53 then
        packComponents .binary64 s (BitVec.ofNat _ (e + 1023 + 52).toNat) (BitVec.ofNat _ m)
      else packComponents .binary64 s 0#_ (BitVec.ofNat _ m) := if_neg hsmall
  rw [hpack]
  split
  · rw [unpackExponent_packComponents]
    exact ofNat_ne_neg_one h
  · rw [unpackExponent_packComponents]
    exact ofNat_ne_neg_one (by decide : 0 < 2047)

theorem unpackExponent_pack_unpack_ne {b : BitVec Format.binary64.numBits}
    (h : unpackExponent b ≠ -1#11) :
    unpackExponent (pack .binary64 (unpack .binary64 b)) ≠ -1#11 := by
  have hbound : (unpackExponent b).toNat < 2047 := by
    have hlt : (unpackExponent b).toNat < 2048 := (unpackExponent b).isLt
    have hne : (unpackExponent b).toNat ≠ 2047 := fun he => h (BitVec.eq_of_toNat_eq he)
    omega
  have hbias : ((Format.binary64.exponentBias : Nat) : Int) = 1023 := rfl
  have hbits : ((Format.binary64.mantissaBitsWithoutImplicit : Nat) : Int) = 52 := rfl
  have hunpack : unpack .binary64 b = _ := if_neg h
  rw [hunpack]
  by_cases hzero : unpackExponent b = 0#11
  · have hE : (unpackExponent b).toNat = 0 := congrArg BitVec.toNat hzero
    rw [if_pos hzero]
    by_cases hmantissa : unpackMantissa b = 0#52
    · rw [dif_pos hmantissa]
      change unpackExponent (packComponents .binary64 _ 0 0) ≠ _
      rw [unpackExponent_packComponents]
      decide
    · rw [dif_neg hmantissa]
      apply unpackExponent_pack_finite
      omega
  · rw [if_neg hzero]
    apply unpackExponent_pack_finite
    omega

theorem finite_ofBits {w : UInt64} (h : w.toNat / 2 ^ 52 % 2 ^ 11 ≠ 2047) :
    finite (.ofBits w) = true := by
  have hfield : @unpackExponent Format.binary64 w.toBitVec ≠ -1#11 := by
    intro he
    rw [← toNat_unpackExponent, he] at h
    exact h rfl
  have hpacked := unpackExponent_pack_unpack_ne hfield
  rw [finite, bne_iff_ne, exponentField, ← toNat_unpackExponent]
  intro he
  exact hpacked (BitVec.eq_of_toNat_eq he)

theorem finite_nearest {negative : Bool} {num den : Nat}
    (h : nearestMagnitude num den < 2047 * 2 ^ 52) : finite (nearest negative num den) = true := by
  apply finite_ofBits
  rw [UInt64.toNat_ofNat']
  cases negative
  · simp only [Bool.false_eq_true, if_false]
    omega
  · simp only [if_true]
    omega

theorem roundHalfEven_le (num den : Nat) : roundHalfEven num den ≤ num / den + 1 := by
  simp only [roundHalfEven]
  split
  · omega
  · split <;> omega

theorem finite_ofInt {n : Int} (hlow : 2 ^ 63 ≤ n) (hhigh : n < 2 ^ 64) :
    finite (ofInt n) = true := by
  apply finite_nearest
  obtain ⟨m, rfl⟩ := Int.eq_ofNat_of_zero_le (by omega : 0 ≤ n)
  rw [Int.natAbs_natCast]
  have hm : m ≠ 0 := by omega
  have hlog : m.log2 = 63 := (Nat.log2_eq_iff hm).mpr ⟨by omega, by omega⟩
  have hscaled : (m / 1024).log2 = 53 :=
    (Nat.log2_eq_iff (by omega)).mpr ⟨by omega, by omega⟩
  have hexponent : binaryExponent m 1 = 11 := by
    have hone : Nat.log2 1 = 0 := by decide
    have hguess : binaryExponent m 1 =
        max (-1074) (10 + (((m * 1 / (1 * 1024)).log2 : Nat) - 52 : Int)) := by
      rw [binaryExponent, hlog, hone]
      rfl
    rw [hguess, Nat.mul_one, Nat.one_mul, hscaled]
    rfl
  have hmagnitude :
      nearestMagnitude m 1 = min (1085 * 2 ^ 52 + roundHalfEven m 2048) (2047 * 2 ^ 52) := by
    simp [nearestMagnitude, hm, hexponent]
  have hround := roundHalfEven_le m 2048
  omega

end Storehouse.Double
