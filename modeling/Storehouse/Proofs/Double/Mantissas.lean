import Storehouse.Proofs.Double.Unpacked

namespace Storehouse.Double

open Float.Model (Format UnpackedFloat totalExponent)
open Float.Model.UnpackedFloat

/-- The mantissa is the whole part of a fraction, the first bit behind it tells whether the rest is
a half or more, and the last one whether anything follows that bit. -/
structure Represents (em : ExtendedMantissa) (num den : Nat) : Prop where
  mantissa : em.mantissa = num / den
  roundBit : em.roundBit = decide (den ≤ 2 * (num % den))
  stickyBit : em.stickyBit = decide (num % den ≠ 0 ∧ 2 * (num % den) ≠ den)

variable {em : ExtendedMantissa} {num den num' den' : Nat}

theorem mantissa_ofMantissaAndAccuracy (m : Nat) (acc : Accuracy) :
    (ExtendedMantissa.ofMantissaAndAccuracy m acc).mantissa = m := by
  cases acc with
  | exact => rfl
  | inexact o => cases o <;> rfl

theorem represents_exact (m : Nat) (hd : 0 < den) :
    Represents (.ofMantissaAndAccuracy m .exact) (m * den) den := by
  constructor
  · exact (Nat.mul_div_cancel m hd).symm
  · rw [Nat.mul_mod_left]
    exact (decide_eq_false (by omega)).symm
  · rw [Nat.mul_mod_left]
    exact (decide_eq_false (by omega)).symm

theorem represents_fraction (hd : 0 < den) :
    Represents (.ofMantissaAndAccuracy (num / den) (accuracyOfFraction (num % den) den)) num
      den := by
  rw [accuracyOfFraction]
  split
  · next hzero =>
    have hexact := represents_exact (num / den) hd
    rwa [Nat.div_mul_cancel (Nat.dvd_of_mod_eq_zero hzero)] at hexact
  · next hne =>
    rcases Nat.lt_trichotomy (2 * (num % den)) den with hlt | heq | hgt
    · rw [Nat.compare_eq_lt.mpr hlt]
      exact ⟨rfl, (decide_eq_false (by omega)).symm, (decide_eq_true ⟨hne, by omega⟩).symm⟩
    · rw [Nat.compare_eq_eq.mpr heq]
      exact ⟨rfl, (decide_eq_true (by omega)).symm, (decide_eq_false (by omega)).symm⟩
    · rw [Nat.compare_eq_gt.mpr hgt]
      exact ⟨rfl, (decide_eq_true (by omega)).symm, (decide_eq_true ⟨hne, by omega⟩).symm⟩

theorem represents_mul_iff {c : Nat} (hc : 0 < c) :
    Represents em (num * c) (den * c) ↔ Represents em num den := by
  have hdiv : num * c / (den * c) = num / den := Nat.mul_div_mul_right num den hc
  have hmod : num * c % (den * c) = num % den * c := Nat.mul_mod_mul_right c num den
  have hle : den * c ≤ 2 * (num % den * c) ↔ den ≤ 2 * (num % den) := by
    rw [← Nat.mul_assoc, Nat.mul_le_mul_right_iff hc]
  have hzero : num % den * c ≠ 0 ↔ num % den ≠ 0 := by
    rw [Nat.mul_ne_zero_iff]
    exact and_iff_left hc.ne'
  have hhalf : 2 * (num % den * c) ≠ den * c ↔ 2 * (num % den) ≠ den := by
    rw [← Nat.mul_assoc, ne_eq, Nat.mul_left_inj hc.ne']
  constructor
  · rintro ⟨hmantissa, hround, hsticky⟩
    simp only [hdiv, hmod, hle, hzero, hhalf] at hmantissa hround hsticky
    exact ⟨hmantissa, hround, hsticky⟩
  · rintro ⟨hmantissa, hround, hsticky⟩
    constructor
    · rw [hdiv, hmantissa]
    · simp only [hmod, hle, hround]
    · simp only [hmod, hzero, hhalf, hsticky]

theorem Represents.congr (h : Represents em num den) (hd : 0 < den) (hd' : 0 < den')
    (heq : num * den' = num' * den) : Represents em num' den' := by
  rw [← represents_mul_iff hd, ← heq, Nat.mul_comm den' den]
  exact (represents_mul_iff hd').mpr h

theorem Represents.shiftRightOne (h : Represents em num den) (hd : 0 < den) :
    Represents em.shiftRightOne num (den * 2) := by
  have hlt := Nat.mod_lt num hd
  have hmod : num % (den * 2) = num % den + den * (num / den % 2) := Nat.mod_mul
  have hbit : num / den % 2 = 0 ∨ num / den % 2 = 1 := by omega
  obtain ⟨hmantissa, hround, hsticky⟩ := h
  refine ⟨?_, ?_, ?_⟩
  · rw [← Nat.div_div_eq_div_mul, ← hmantissa]
    rfl
  · change (em.mantissa % 2 != 0) = _
    rw [hmod, hmantissa]
    rcases hbit with hbit | hbit
    · rw [hbit, Nat.mul_zero]
      exact (decide_eq_false (by omega)).symm
    · rw [hbit, Nat.mul_one]
      exact (decide_eq_true (by omega)).symm
  · change (em.roundBit || em.stickyBit) = _
    rw [hround, hsticky, hmod, ← Bool.decide_or]
    apply decide_eq_decide.mpr
    rcases hbit with hbit | hbit
    · rw [hbit, Nat.mul_zero]
      omega
    · rw [hbit, Nat.mul_one]
      omega

theorem Represents.shiftRight (h : Represents em num den) (hd : 0 < den) (k : Nat) :
    Represents (em >>> k) num (den * 2 ^ k) := by
  change Represents (k.repeat ExtendedMantissa.shiftRightOne em) _ _
  induction k with
  | zero => rwa [Nat.pow_zero, Nat.mul_one]
  | succ k ih =>
    rw [Nat.repeat, Nat.pow_succ, ← Nat.mul_assoc]
    exact ih.shiftRightOne (mul_two_pow_pos hd k)

theorem Represents.roundedMantissa (h : Represents em num den) (hd : 0 < den) :
    em.roundedMantissa = roundHalfEven num den := by
  obtain ⟨mantissa, round, sticky⟩ := em
  obtain ⟨rfl, hround, hsticky⟩ := h
  dsimp only at hround hsticky
  simp only [roundHalfEven]
  rcases Nat.lt_trichotomy (2 * (num % den)) den with hlt | heq | hgt
  · obtain rfl : round = false := hround.trans (decide_eq_false (by omega))
    rw [if_pos hlt]
    cases sticky <;> rfl
  · obtain rfl : round = true := hround.trans (decide_eq_true (by omega))
    obtain rfl : sticky = false := hsticky.trans (decide_eq_false (by omega))
    rw [if_neg heq.not_lt, if_neg heq.not_gt]
    rfl
  · obtain rfl : round = true := hround.trans (decide_eq_true (by omega))
    obtain rfl : sticky = true := hsticky.trans (decide_eq_true (by omega))
    rw [if_neg (Nat.lt_asymm hgt), if_pos hgt]
    rfl

/-- The exponent of a mantissa that has been cut to the digits of a double. -/
def target (m : Nat) (e : Int) : Int := max ((m.log2 : Int) + 1 + e - 53) (-1074)

theorem shiftToTargetExponent_eq {m n : Nat} {e : Int} {acc : Accuracy}
    (h : (target m e - e).toNat = n) : shiftToTargetExponent .binary64 m e acc =
      (ExtendedMantissa.ofMantissaAndAccuracy m acc >>> n, e + n) := by
  rw [← h]
  rfl

/-- A mantissa that rounding has carried beyond 53 digits loses one of them, which is zero. -/
theorem exists_cut {m k : Nat} (hm : m ≤ 2 ^ 53) (hk : k = 0 ∨ 2 ^ 52 ≤ m) :
    ∃ (em : ExtendedMantissa) (k' : Nat),
      shiftToTargetExponent .binary64 m (k - places) .exact = (em, (k' : Int) - places) ∧
      em.mantissa < 2 ^ 53 ∧ (k' = 0 ∨ 2 ^ 52 ≤ em.mantissa) ∧
      em.mantissa * 2 ^ k' = m * 2 ^ k := by
  have hplaces : places = 1074 := rfl
  rcases Nat.lt_or_eq_of_le hm with hlt | rfl
  · have hlog : m.log2 ≤ 52 := by
      rcases Nat.eq_zero_or_pos m with rfl | hpos
      · decide
      · exact Nat.le_of_lt_succ ((Nat.log2_lt hpos.ne').mpr hlt)
    have hshift : (target m (k - places) - (k - places)).toNat = 0 := by
      rw [target]
      omega
    refine ⟨⟨m, false, false⟩, k, ?_, hlt, hk, rfl⟩
    rw [shiftToTargetExponent_eq hshift, Int.natCast_zero, Int.add_zero]
    rfl
  · have hlog : (2 ^ 53).log2 = 53 := Nat.log2_two_pow
    have hshift : (target (2 ^ 53) (k - places) - (k - places)).toNat = 1 := by
      rw [target, hlog]
      omega
    have hexponent : (k : Int) - places + (1 : Nat) = (k + 1 : Nat) - places := by omega
    refine ⟨⟨2 ^ 52, false, false⟩, k + 1, ?_, by decide, .inr (Nat.le_refl _), ?_⟩
    · rw [shiftToTargetExponent_eq hshift, hexponent]
      rfl
    · change 2 ^ 52 * 2 ^ (k + 1) = 2 ^ 53 * 2 ^ k
      rw [← Nat.pow_add, ← Nat.pow_add, Nat.add_comm k 1, ← Nat.add_assoc]

theorem target_eq {a b : Nat} {e : Int} (he : e + places = b - a)
    (htarget : e ≤ target (num * 2 ^ a / (den * 2 ^ b)) e) :
    target (num * 2 ^ a / (den * 2 ^ b)) e = scaleOf num den - places := by
  have hplaces : places = 1074 := rfl
  rw [target] at *
  rw [scaleOf]
  rcases Nat.le_total b a with hle | hle
  · -- the mantissa has some of the digits behind the units
    obtain ⟨c, rfl⟩ := Nat.exists_eq_add_of_le hle
    have hmantissa : num * 2 ^ (b + c) / (den * 2 ^ b) = num * 2 ^ c / den := by
      rw [Nat.add_comm b c, Nat.pow_add, ← Nat.mul_assoc,
        Nat.mul_div_mul_right _ _ (Nat.two_pow_pos b)]
    have hunits : (num / den).log2 = (num * 2 ^ c / den).log2 - c := by
      rw [← log2_div_two_pow, Nat.div_div_eq_div_mul, Nat.mul_div_mul_right _ _ (Nat.two_pow_pos c)]
    rw [hmantissa] at htarget ⊢
    omega
  · obtain ⟨c, rfl⟩ := Nat.exists_eq_add_of_le hle
    have hmantissa : num * 2 ^ a / (den * 2 ^ (a + c)) = num / den / 2 ^ c := by
      rw [Nat.div_div_eq_div_mul, Nat.add_comm a c, Nat.pow_add, ← Nat.mul_assoc,
        Nat.mul_div_mul_right _ _ (Nat.two_pow_pos a)]
    rw [hmantissa, log2_div_two_pow] at htarget ⊢
    omega

theorem rounds_of_cut {m k : Nat} {e e' : Int} {acc : Accuracy} {em em' : ExtendedMantissa}
    (hfirst : shiftToTargetExponent .binary64 m e acc = (em, e'))
    (hsecond : shiftToTargetExponent .binary64 em.roundedMantissa e' .exact =
      (em', (k : Int) - places))
    (hlt : em'.mantissa < 2 ^ 53) (hdigits : k = 0 ∨ 2 ^ 52 ≤ em'.mantissa) :
    Rounds (roundWithAccuracy .binary64 .positive m e acc) (em'.mantissa * 2 ^ k) := by
  delta roundWithAccuracy
  rw [hfirst]
  dsimp only
  rw [hsecond]
  rcases Nat.eq_zero_or_pos em'.mantissa with hzero | hpos
  · rw [dif_pos hzero, hzero, Nat.zero_mul]
    exact .zero .positive
  · rw [dif_neg hpos.ne']
    exact .finite hpos hlt hdigits

/-- Rounding a mantissa and an exponent that stand for a fraction of the units. The fraction is
`num / den`, and one in the last place of the mantissa is `2 ^ (b - a)` units. -/
theorem Represents.rounds {m a b : Nat} {e : Int} {acc : Accuracy}
    (h : Represents (.ofMantissaAndAccuracy m acc) (num * 2 ^ a) (den * 2 ^ b)) (hd : 0 < den)
    (he : e + places = b - a) (htarget : e ≤ target m e) :
    Rounds (roundWithAccuracy .binary64 .positive m e acc) (rounded num den) := by
  have hplaces : places = 1074 := rfl
  have hmantissa : m = num * 2 ^ a / (den * 2 ^ b) :=
    (mantissa_ofMantissaAndAccuracy m acc).symm.trans h.mantissa
  rw [hmantissa] at htarget
  have hexponent := target_eq he htarget
  rw [← hmantissa] at htarget hexponent
  obtain ⟨n, hn⟩ := Int.eq_ofNat_of_zero_le (Int.sub_nonneg_of_le htarget)
  have hcut : e + n = scaleOf num den - places := by omega
  have hpow : b + n = scaleOf num den + a := by omega
  have hfirst : shiftToTargetExponent .binary64 m e acc = _ :=
    shiftToTargetExponent_eq (by omega : (target m e - e).toNat = n)
  have hround : (ExtendedMantissa.ofMantissaAndAccuracy m acc >>> n).roundedMantissa =
      roundHalfEven num (den * 2 ^ scaleOf num den) := by
    have hdropped := h.shiftRight (mul_two_pow_pos hd b) n
    rw [Nat.mul_assoc, ← Nat.pow_add, hpow, Nat.pow_add, ← Nat.mul_assoc,
      represents_mul_iff (Nat.two_pow_pos a)] at hdropped
    exact hdropped.roundedMantissa (mul_two_pow_pos hd _)
  obtain ⟨em, k, hsecond, hlt, hdigits, hvalue⟩ := exists_cut (digits_le hd)
    (Classical.or_iff_not_imp_left.mpr (le_digits hd))
  rw [rounded, ← hvalue]
  rw [hcut] at hfirst
  rw [← hround] at hsecond
  exact rounds_of_cut hfirst hsecond hlt hdigits

end Storehouse.Double
