import Storehouse.Proofs.Double.Finite
import Storehouse.Proofs.Double.Rounding

namespace Storehouse.Double

open Float.Model (Format UnpackedFloat)
open Float.Model.UnpackedFloat

def isNegative : Sign → Bool
  | .negative => true
  | .positive => false

namespace Parts

def ofUnpacked : UnpackedFloat → Parts
  | .notANumber => .nan
  | .infinity s => .infinite (isNegative s)
  | .zero s => .finite (isNegative s) 0 (-1074)
  | .finite s m e _ => .finite (isNegative s) m e

def ofWord (w : UInt64) : Parts :=
  if w.toNat / 2 ^ 52 % 2 ^ 11 = 2047 then
    if w.toNat % 2 ^ 52 = 0 then .infinite (2 ^ 63 ≤ w.toNat) else .nan
  else if w.toNat / 2 ^ 52 % 2 ^ 11 = 0 then
    .finite (2 ^ 63 ≤ w.toNat) (w.toNat % 2 ^ 52) (-1074)
  else
    .finite (2 ^ 63 ≤ w.toNat) (2 ^ 52 + w.toNat % 2 ^ 52)
      ((w.toNat / 2 ^ 52 % 2 ^ 11 : Nat) - 1075)

end Parts

theorem toNat_unpackMantissa (w : UInt64) :
    (@unpackMantissa Format.binary64 w.toBitVec).toNat = w.toNat % 2 ^ 52 := by
  change (w.toNat >>> 0) % 2 ^ 52 = _
  rw [Nat.shiftRight_zero]

theorem toNat_unpackSign (w : UInt64) :
    (@unpackSign Format.binary64 w.toBitVec).toNat = w.toNat / 2 ^ 63 := by
  change (w.toNat >>> 63) % 2 ^ 1 = _
  rw [Nat.shiftRight_eq_div_pow]
  have hlt := w.toNat_lt
  omega

theorem isNegative_unpackSign (w : UInt64) :
    isNegative (Sign.ofBitVec (@unpackSign Format.binary64 w.toBitVec)) =
      decide (2 ^ 63 ≤ w.toNat) := by
  have hsign := toNat_unpackSign w
  have hlt := w.toNat_lt
  rw [Sign.ofBitVec]
  split
  · next hzero =>
    rw [hzero] at hsign
    have hsmall : ¬ 2 ^ 63 ≤ w.toNat := by
      change 0 = _ at hsign
      omega
    exact (decide_eq_false hsmall).symm
  · next hone =>
    have hne : w.toNat / 2 ^ 63 ≠ 0 := fun h => hone (BitVec.eq_of_toNat_eq (hsign.trans h))
    have hlarge : 2 ^ 63 ≤ w.toNat := by omega
    exact (decide_eq_true hlarge).symm

theorem unpackExponent_eq_iff {w : UInt64} {v : BitVec 11} :
    @unpackExponent Format.binary64 w.toBitVec = v ↔ w.toNat / 2 ^ 52 % 2 ^ 11 = v.toNat := by
  rw [← toNat_unpackExponent]
  exact BitVec.toNat_inj.symm

theorem unpackMantissa_eq_zero_iff {w : UInt64} :
    @unpackMantissa Format.binary64 w.toBitVec = 0#52 ↔ w.toNat % 2 ^ 52 = 0 := by
  rw [← toNat_unpackMantissa]
  exact BitVec.toNat_inj.symm

theorem ofUnpacked_finite {s : Sign} {m m' : Nat} {e e' : Int} (hpos : 0 < m) (hm : m = m')
    (he : e = e') : Parts.ofUnpacked (.finite s m e hpos) = .finite (isNegative s) m' e' := by
  rw [← hm, ← he]
  rfl

theorem toNat_one_append (v : BitVec 52) : (1#1 ++ v).toNat = 2 ^ 52 + v.toNat := by
  rw [BitVec.toNat_append, ← Nat.shiftLeft_add_eq_or_of_lt v.isLt]
  rfl

theorem ofUnpacked_unpack (w : UInt64) :
    Parts.ofUnpacked (unpack .binary64 w.toBitVec) = Parts.ofWord w := by
  have hbias : ((Format.binary64.exponentBias : Nat) : Int) = 1023 := rfl
  have hbits : ((Format.binary64.mantissaBitsWithoutImplicit : Nat) : Int) = 52 := rfl
  have hfield := toNat_unpackExponent w
  rw [Parts.ofWord, ← isNegative_unpackSign]
  by_cases hlast : w.toNat / 2 ^ 52 % 2 ^ 11 = 2047
  · have hunpack : unpack .binary64 w.toBitVec = _ := if_pos (unpackExponent_eq_iff.mpr hlast)
    rw [hunpack, if_pos hlast]
    by_cases hzero : w.toNat % 2 ^ 52 = 0
    · rw [if_pos (unpackMantissa_eq_zero_iff.mpr hzero), if_pos hzero]
      rfl
    · rw [if_neg fun h => hzero (unpackMantissa_eq_zero_iff.mp h), if_neg hzero]
      rfl
  · have hunpack : unpack .binary64 w.toBitVec = _ :=
      if_neg fun h => hlast (unpackExponent_eq_iff.mp h)
    rw [hunpack, if_neg hlast]
    by_cases hfirst : w.toNat / 2 ^ 52 % 2 ^ 11 = 0
    · rw [if_pos (unpackExponent_eq_iff.mpr hfirst), if_pos hfirst]
      by_cases hzero : w.toNat % 2 ^ 52 = 0
      · rw [dif_pos (unpackMantissa_eq_zero_iff.mpr hzero), hzero]
        rfl
      · rw [dif_neg fun h => hzero (unpackMantissa_eq_zero_iff.mp h)]
        exact ofUnpacked_finite _ (toNat_unpackMantissa w) (by omega)
    · rw [if_neg fun h => hfirst (unpackExponent_eq_iff.mp h), if_neg hfirst]
      refine ofUnpacked_finite _ ?_ (by omega)
      rw [← toNat_unpackMantissa]
      exact toNat_one_append _

theorem parts_eq (x : Float) :
    parts x = Parts.ofUnpacked (unpack .binary64 x.toModel.toBits.toBitVec) :=
  (ofUnpacked_unpack x.toBits).symm

theorem unpackSign_packComponents {spec : Format} {s : Sign} {e : BitVec spec.exponentBits}
    {m : BitVec spec.mantissaBitsWithoutImplicit} :
    unpackSign (packComponents spec s e m) = s.toBitVec := by
  ext i hi
  obtain rfl : i = 0 := by omega
  delta unpackSign packComponents
  simp [BitVec.getLsbD_append, BitVec.getElem_append]

theorem ofUnpacked_packComponents (s : Sign) (e : BitVec 11) (m : BitVec 52) :
    Parts.ofUnpacked (unpack .binary64 (packComponents .binary64 s e m)) =
      if e.toNat = 2047 then
        if m.toNat = 0 then .infinite (isNegative s) else .nan
      else if e.toNat = 0 then .finite (isNegative s) m.toNat (-1074)
      else .finite (isNegative s) (2 ^ 52 + m.toNat) ((e.toNat : Nat) - 1075) := by
  have hword := ofUnpacked_unpack (.ofBitVec (packComponents .binary64 s e m))
  have hexponent := toNat_unpackExponent (.ofBitVec (packComponents .binary64 s e m))
  have hmantissa := toNat_unpackMantissa (.ofBitVec (packComponents .binary64 s e m))
  have hsign := isNegative_unpackSign (.ofBitVec (packComponents .binary64 s e m))
  have hnegative : isNegative (Sign.ofBitVec s.toBitVec) = isNegative s := by cases s <;> rfl
  rw [UInt64.toBitVec_ofBitVec] at hword hexponent hmantissa hsign
  rw [unpackExponent_packComponents] at hexponent
  rw [unpackMantissa_packComponents] at hmantissa
  rw [unpackSign_packComponents, hnegative] at hsign
  rw [hword, Parts.ofWord, ← hexponent, ← hmantissa, ← hsign]

/-- Doubles have this many binary places behind the point. -/
def places : Nat := 1074

/-- The double after the largest one would stand for this many units of `2 ^ -places`. -/
def overflow : Nat := 2 ^ (53 + 2045)

theorem two_pow_le_two_pow {j k : Nat} (h : j ≤ k) : 2 ^ j ≤ 2 ^ k :=
  Nat.pow_le_pow_right Nat.two_pos h

/-- An unpacked number that is not negative, has at most 53 digits, as many as its exponent allows,
and stands for some units of `2 ^ -places`; it may exceed all doubles. -/
inductive Rounds : UnpackedFloat → Nat → Prop
  | zero (s : Sign) : Rounds (.zero s) 0
  | finite {m k : Nat} (hpos : 0 < m) (hm : m < 2 ^ 53) (hk : k = 0 ∨ 2 ^ 52 ≤ m) :
    Rounds (.finite .positive m (k - places) hpos) (m * 2 ^ k)

/-- The parts are not negative and stand for some units of `2 ^ -places`, or for what exceeds all
doubles. -/
inductive Parts.Amounts : Parts → Nat → Prop
  | finite {negative : Bool} {m k : Nat} (hsign : negative = true → m = 0) (hm : m < 2 ^ 53)
    (hk : k = 0 ∨ 2 ^ 52 ≤ m) (hlast : k ≤ 2045) :
    Amounts (.finite negative m (k - places)) (m * 2 ^ k)
  | infinite {u : Nat} (h : overflow ≤ u) : Amounts (.infinite false) u

theorem Parts.amounts_zero (negative : Bool) : (Parts.finite negative 0 (-1074)).Amounts 0 := by
  have hzero : (Parts.finite negative 0 ((0 : Nat) - places)).Amounts (0 * 2 ^ 0) :=
    .finite (fun _ => rfl) (Nat.two_pow_pos 53) (.inl rfl) (Nat.zero_le 2045)
  rwa [Nat.zero_mul] at hzero

variable {f : UnpackedFloat} {u : Nat}

theorem Parts.Amounts.rounds (h : (Parts.ofUnpacked f).Amounts u) (hu : u < overflow) :
    Rounds f u := by
  generalize hp : Parts.ofUnpacked f = p at h
  cases h with
  | infinite h => exact absurd hu (Nat.not_lt.mpr h)
  | @finite negative m k hsign hm hk hlast =>
    cases f with
    | infinity s => cases hp
    | notANumber => cases hp
    | zero s =>
      obtain ⟨-, rfl, -⟩ := Parts.finite.inj hp
      rw [Nat.zero_mul]
      exact .zero s
    | finite s m' e hpos =>
      obtain ⟨hs, rfl, rfl⟩ := Parts.finite.inj hp
      cases s with
      | negative => exact absurd (hsign hs.symm) hpos.ne'
      | positive => exact .finite hpos hm hk

theorem log2_add_one_eq_iff {m : Nat} (hm : m < 2 ^ 53) : m.log2 + 1 = 53 ↔ 2 ^ 52 ≤ m := by
  rcases Nat.eq_zero_or_pos m with rfl | hpos
  · decide
  · have hlt := (Nat.log2_lt hpos.ne').mpr hm
    rw [← Nat.le_log2 hpos.ne']
    omega

theorem Rounds.amounts (h : Rounds f u) :
    (Parts.ofUnpacked (unpack .binary64 (pack .binary64 f))).Amounts u := by
  have hplaces : places = 1074 := rfl
  cases h with
  | zero s =>
    have hpack : Parts.ofUnpacked (unpack .binary64 (pack .binary64 (.zero s))) =
        .finite (isNegative s) 0 (-1074) := ofUnpacked_packComponents s 0 0
    rw [hpack]
    exact Parts.amounts_zero (isNegative s)
  | @finite m k hpos hm hk =>
    have hbiased : ((k - places : Int) + 1023 + 52).toNat = k + 1 := by omega
    have hpack : pack .binary64 (.finite .positive m (k - places) hpos) =
        if 2 ^ 11 ≤ ((k - places : Int) + 1023 + 52).toNat + 1 then
          packComponents .binary64 .positive (-1#_) 0
        else if m.log2 + 1 = 53 then
          packComponents .binary64 .positive
            (BitVec.ofNat _ ((k - places : Int) + 1023 + 52).toNat) (BitVec.ofNat _ m)
        else packComponents .binary64 .positive 0#_ (BitVec.ofNat _ m) := rfl
    rw [hpack, hbiased]
    split_ifs with hlarge hdigits
    · have hinfinite := ofUnpacked_packComponents .positive (-1#11) 0
      rw [hinfinite]
      apply Parts.Amounts.infinite
      have hm' : 2 ^ 52 ≤ m := by omega
      calc
        overflow ≤ 2 ^ (52 + k) := two_pow_le_two_pow (by omega)
        _ = 2 ^ 52 * 2 ^ k := Nat.pow_add 2 52 k
        _ ≤ m * 2 ^ k := Nat.mul_le_mul_right _ hm'
    · rw [log2_add_one_eq_iff hm] at hdigits
      have hfinite :=
        ofUnpacked_packComponents .positive (BitVec.ofNat 11 (k + 1)) (BitVec.ofNat 52 m)
      have hexponent : k + 1 < 2047 := by omega
      rw [BitVec.toNat_ofNat, BitVec.toNat_ofNat, Nat.mod_eq_of_lt (by omega : k + 1 < 2 ^ 11),
        if_neg hexponent.ne, if_neg k.succ_ne_zero] at hfinite
      have hm' : 2 ^ 52 + m % 2 ^ 52 = m := by omega
      have hk' : ((k + 1 : Nat) : Int) - 1075 = k - places := by omega
      rw [hfinite, hm', hk']
      exact .finite nofun hm hk (by omega)
    · rw [log2_add_one_eq_iff hm] at hdigits
      obtain rfl : k = 0 := hk.resolve_right hdigits
      have hfinite : Parts.ofUnpacked (unpack .binary64
          (packComponents .binary64 .positive 0#11 (BitVec.ofNat 52 m))) =
          .finite false (BitVec.ofNat 52 m).toNat ((0 : Nat) - places) :=
        ofUnpacked_packComponents .positive 0#11 (BitVec.ofNat 52 m)
      have hmantissa : (BitVec.ofNat 52 m).toNat = m := Nat.mod_eq_of_lt (Nat.lt_of_not_le hdigits)
      rw [hfinite, hmantissa]
      exact .finite nofun hm (.inl rfl) (Nat.zero_le _)

end Storehouse.Double
