import Mathlib.Tactic.Ring
import Storehouse.Proofs.Double.Mantissas

namespace Storehouse.Double

open Float.Model (Format UnpackedFloat)
open Float.Model.UnpackedFloat

variable {f g : UnpackedFloat} {u v den : Nat}

theorem rounded_zero (hd : 0 < den) : rounded 0 den = 0 := by
  have hzero := rounded_mul_self 0 hd (Nat.two_pow_pos 53)
  rwa [Nat.zero_mul, Nat.zero_mul] at hzero

theorem Rounds.rounded_self (h : Rounds f u) : rounded u 1 = u := by
  cases h with
  | zero => exact rounded_zero Nat.one_pos
  | @finite m k hpos hm hk =>
    have hself := rounded_mul_self k Nat.one_pos hm
    rwa [Nat.mul_one] at hself

theorem le_target_of_digits {m : Nat} {e : Int} (h : 2 ^ 52 ≤ m ∨ e ≤ -1074) : e ≤ target m e := by
  rw [target]
  rcases h with hm | he
  · have hlog := (Nat.le_log2 (by omega)).mpr hm
    omega
  · omega

theorem Rounds.mul (hf : Rounds f u) (hg : Rounds g v) :
    Rounds (UnpackedFloat.mul .binary64 f g) (rounded (u * v) (2 ^ places)) := by
  have hplaces : places = 1074 := rfl
  have hunit := Nat.two_pow_pos places
  cases hf with
  | zero s =>
    rw [Nat.zero_mul, rounded_zero hunit]
    cases hg with
    | zero s' => exact .zero (s * s')
    | finite => exact .zero (s * .positive)
  | @finite m k hpos hm hk =>
    cases hg with
    | zero s =>
      rw [Nat.mul_zero, rounded_zero hunit]
      exact .zero (.positive * s)
    | @finite m' k' hpos' hm' hk' =>
      have hexact := represents_exact (m * m') (mul_two_pow_pos hunit (k + k'))
      have hvalue (n : Nat) : m * m' * (n * 2 ^ (k + k')) = m * 2 ^ k * (m' * 2 ^ k') * n := by
        rw [Nat.pow_add]
        ac_rfl
      rw [hvalue] at hexact
      apply hexact.rounds hunit (by omega)
      apply le_target_of_digits
      rcases hk with rfl | hk
      · rcases hk' with rfl | hk'
        · exact .inr (by omega)
        · exact .inl (hk'.trans (Nat.le_mul_of_pos_left m' hpos))
      · exact .inl (hk.trans (Nat.le_mul_of_pos_right m hpos'))

theorem target_shiftLeft {m : Nat} (hpos : 0 < m) (c : Nat) (e : Int) :
    target (m <<< c) (e - c) = target m e := by
  rw [target, target, Nat.shiftLeft_eq, log2_mul_two_pow hpos.ne']
  omega

theorem shiftLeft_mul_two_pow (m c j : Nat) : m <<< c * 2 ^ j = m * 2 ^ (j + c) := by
  rw [Nat.shiftLeft_eq, Nat.mul_assoc, ← Nat.pow_add, Nat.add_comm c j]

/-- A mantissa with fewer digits than its exponent allows is filled up with zeros first. -/
theorem rounds_round {m k : Nat} (hpos : 0 < m) :
    Rounds (UnpackedFloat.round .binary64 .positive m (k - places)) (rounded (m * 2 ^ k) 1) := by
  have hplaces : places = 1074 := rfl
  obtain ⟨c, hc⟩ : ∃ c, ((k - places : Int) - target m (k - places)).toNat = c := ⟨_, rfl⟩
  have hround : UnpackedFloat.round .binary64 .positive m (k - places) =
      roundWithAccuracy .binary64 .positive (m <<< c) (k - places - c) .exact := by
    rw [← hc]
    rfl
  have hcut := hc
  rw [target] at hcut
  obtain ⟨b, rfl⟩ : ∃ b, k = b + c := ⟨k - c, by omega⟩
  have hexact := represents_exact (m <<< c) (Nat.two_pow_pos b)
  rw [hround]
  rw [shiftLeft_mul_two_pow, ← Nat.mul_one (m * _), ← Nat.pow_zero 2,
    ← Nat.one_mul (2 ^ b)] at hexact
  apply hexact.rounds Nat.one_pos (by omega)
  rw [target_shiftLeft hpos]
  omega

theorem normalize_pos {m : Int} (e : Int) (s : Sign) (h : 0 < m) :
    UnpackedFloat.normalize .binary64 m e s =
      UnpackedFloat.round .binary64 .positive m.toNat e := by
  delta UnpackedFloat.normalize
  rw [Int.compare_eq_gt.mpr h]

theorem Rounds.add (hf : Rounds f u) (hg : Rounds g v) :
    Rounds (UnpackedFloat.add .binary64 f g) (rounded (u + v) 1) := by
  cases hf with
  | zero s =>
    rw [Nat.zero_add, hg.rounded_self]
    cases hg with
    | zero s' => cases s <;> cases s' <;> exact .zero _
    | finite hpos hm hk => exact .finite hpos hm hk
  | @finite m k hpos hm hk =>
    cases hg with
    | zero s =>
      have hself := (Rounds.finite hpos hm hk).rounded_self
      rw [Nat.add_zero, hself]
      exact .finite hpos hm hk
    | @finite m' k' hpos' hm' hk' =>
      have hsum : UnpackedFloat.add .binary64 (.finite .positive m (k - places) hpos)
          (.finite .positive m' (k' - places) hpos') =
          UnpackedFloat.normalize .binary64
            ((m <<< ((k - places : Int) - min (k - places : Int) (k' - places)).toNat : Nat) +
              (m' <<< ((k' - places : Int) - min (k - places : Int) (k' - places)).toNat : Nat))
            (min (k - places : Int) (k' - places)) .positive := rfl
      obtain ⟨c, hc⟩ := Nat.exists_eq_add_of_le (Nat.min_le_left k k')
      obtain ⟨c', hc'⟩ := Nat.exists_eq_add_of_le (Nat.min_le_right k k')
      have hleast : min (k - places : Int) (k' - places) = (min k k' : Nat) - places := by omega
      have hshift : ((k - places : Int) - ((min k k' : Nat) - places)).toNat = c := by omega
      have hshift' : ((k' - places : Int) - ((min k k' : Nat) - places)).toNat = c' := by omega
      have hvalue : (m <<< c + m' <<< c') * 2 ^ min k k' = m * 2 ^ k + m' * 2 ^ k' := by
        rw [Nat.add_mul, shiftLeft_mul_two_pow, shiftLeft_mul_two_pow, ← hc, ← hc']
      have hpositive : 0 < m <<< c + m' <<< c' := by
        rw [Nat.shiftLeft_eq]
        exact Nat.add_pos_left (mul_two_pow_pos hpos c) _
      rw [hsum, hleast, hshift, hshift', ← Int.natCast_add,
        normalize_pos _ _ (Int.natCast_pos.mpr hpositive), Int.toNat_natCast, ← hvalue]
      exact rounds_round hpositive

/-- The exponent of a quotient, before it is cut to the digits of a double. -/
def quotientExponent (m : Nat) (e : Int) (m' : Nat) (e' : Int) : Int :=
  min (e - e') (max ((m.log2 + 1 + e) - (m'.log2 + 1 + e') - 53) (-1074))

theorem log2_le_of_quotient {m m' : Nat} (hm : m ≠ 0) (hm' : 0 < m') :
    m.log2 ≤ (m / m').log2 + m'.log2 + 1 := by
  rw [← Nat.lt_succ_iff, Nat.log2_lt hm]
  calc
    m < (m / m' + 1) * m' := by
      rw [Nat.succ_mul]
      exact Nat.lt_div_mul_add hm'
    _ ≤ 2 ^ ((m / m').log2 + 1) * 2 ^ (m'.log2 + 1) :=
      Nat.mul_le_mul Nat.lt_log2_self Nat.lt_log2_self.le
    _ = 2 ^ ((m / m').log2 + m'.log2 + 1 + 1) := by
      rw [← Nat.pow_add]
      congr 1
      omega

theorem Rounds.div (hf : Rounds f u) (hg : Rounds g v) (hv : 0 < v) :
    Rounds (UnpackedFloat.div .binary64 f g) (rounded (u * 2 ^ places) v) := by
  cases hg with
  | zero => exact absurd rfl hv.ne
  | @finite m' k' hpos' hm' hk' =>
    cases hf with
    | zero s =>
      rw [Nat.zero_mul, rounded_zero hv]
      exact .zero (s / .positive)
    | @finite m k hpos hm hk =>
      obtain ⟨t, ht⟩ : ∃ t, quotientExponent m (k - places) m' (k' - places) = t := ⟨_, rfl⟩
      have hquotient : UnpackedFloat.div .binary64 (.finite .positive m (k - places) hpos)
          (.finite .positive m' (k' - places) hpos') =
          roundWithAccuracy .binary64 .positive
            (m <<< ((k - places : Int) - (k' - places) - t).toNat / m') t
            (accuracyOfFraction
              (m <<< ((k - places : Int) - (k' - places) - t).toNat % m') m') := by
        rw [← ht]
        rfl
      rw [quotientExponent] at ht
      obtain ⟨c, hc⟩ : ∃ c : Nat, (k - places : Int) - (k' - places) - t = c :=
        ⟨_, (Int.toNat_of_nonneg (by omega)).symm⟩
      rw [hquotient, hc, Int.toNat_natCast]
      have hfraction := @represents_fraction (m <<< c) m' hpos'
      have hvalue : m <<< c * (m' * 2 ^ k' * 2 ^ (k + places)) =
          m * 2 ^ k * 2 ^ places * 2 ^ (k' + c) * m' := by
        rw [Nat.shiftLeft_eq, Nat.pow_add 2 k, Nat.pow_add 2 k']
        generalize 2 ^ places = n
        ring
      have hdigits := log2_le_of_quotient (Nat.mul_pos hpos (Nat.two_pow_pos c)).ne' hpos'
      rw [log2_mul_two_pow hpos.ne', ← Nat.shiftLeft_eq] at hdigits
      apply (hfraction.congr hpos' (mul_two_pow_pos hv _) hvalue).rounds hv
      · omega
      · rw [target]
        omega

section Doubles

variable {x y : Float}

theorem amounts_mul (hx : (parts x).Amounts u) (hy : (parts y).Amounts v) (hu : u < overflow)
    (hv : v < overflow) : (parts (x * y)).Amounts (rounded (u * v) (2 ^ places)) := by
  rw [parts_eq] at hx hy ⊢
  exact ((hx.rounds hu).mul (hy.rounds hv)).amounts

theorem amounts_add (hx : (parts x).Amounts u) (hy : (parts y).Amounts v) (hu : u < overflow)
    (hv : v < overflow) : (parts (x + y)).Amounts (rounded (u + v) 1) := by
  rw [parts_eq] at hx hy ⊢
  exact ((hx.rounds hu).add (hy.rounds hv)).amounts

theorem amounts_div (hx : (parts x).Amounts u) (hy : (parts y).Amounts v) (hu : u < overflow)
    (hv : v < overflow) (hpos : 0 < v) :
    (parts (x / y)).Amounts (rounded (u * 2 ^ places) v) := by
  rw [parts_eq] at hx hy ⊢
  exact ((hx.rounds hu).div (hy.rounds hv) hpos).amounts

theorem amounts_ofBits {w : UInt64} (h : (Parts.ofWord w).Amounts u) (hu : u < overflow) :
    (parts (.ofBits w)).Amounts u := by
  rw [← ofUnpacked_unpack] at h
  rw [parts_eq]
  exact (h.rounds hu).amounts

end Doubles

theorem amounts_ofWord {m k : Nat} (hlow : 2 ^ 52 ≤ m) (hhigh : m ≤ 2 ^ 53) (hk : k < 2045) :
    (Parts.ofWord (.ofNat (k * 2 ^ 52 + m))).Amounts (m * 2 ^ k) := by
  have hplaces : places = 1074 := rfl
  have hfits : k * 2 ^ 52 + m < 2 ^ 64 := by omega
  have hword : (UInt64.ofNat (k * 2 ^ 52 + m)).toNat = k * 2 ^ 52 + m :=
    UInt64.toNat_ofNat_of_lt' hfits
  have hsign : decide (2 ^ 63 ≤ k * 2 ^ 52 + m) = false := decide_eq_false (by omega)
  rw [Parts.ofWord, hword, hsign]
  rcases Nat.lt_or_eq_of_le hhigh with hlt | rfl
  · have hfield : (k * 2 ^ 52 + m) / 2 ^ 52 % 2 ^ 11 = k + 1 := by omega
    have hmantissa : 2 ^ 52 + (k * 2 ^ 52 + m) % 2 ^ 52 = m := by omega
    have hexponent : ((k + 1 : Nat) : Int) - 1075 = k - places := by omega
    rw [hfield, if_neg (by omega), if_neg (by omega), hmantissa, hexponent]
    exact .finite (absurd · Bool.false_ne_true) hlt (.inr hlow) (by omega)
  · have hfield : (k * 2 ^ 52 + 2 ^ 53) / 2 ^ 52 % 2 ^ 11 = k + 2 := by omega
    have hmantissa : 2 ^ 52 + (k * 2 ^ 52 + 2 ^ 53) % 2 ^ 52 = 2 ^ 52 := by omega
    have hexponent : ((k + 2 : Nat) : Int) - 1075 = (k + 1 : Nat) - places := by omega
    have hvalue : 2 ^ 53 * 2 ^ k = 2 ^ 52 * 2 ^ (k + 1) := by
      rw [Nat.pow_succ]
      omega
    rw [hfield, if_neg (by omega), if_neg (by omega), hmantissa, hexponent, hvalue]
    exact .finite (absurd · Bool.false_ne_true) (by decide) (.inr (Nat.le_refl _)) (by omega)

theorem binaryExponent_one {n : Nat} (hn : n ≠ 0) : binaryExponent n 1 = n.log2 - 52 := by
  have hone : Nat.log2 1 = 0 := by decide
  have hscaled : (n * 2 ^ (-((n.log2 : Int) - (0 : Nat) - 53)).toNat /
      (1 * 2 ^ ((n.log2 : Int) - (0 : Nat) - 53).toNat)).log2 = 53 := by
    rw [Nat.one_mul, log2_div_two_pow, log2_mul_two_pow hn]
    omega
  rw [binaryExponent, hone, hscaled]
  omega

theorem two_pow_lt_two_pow {j k : Nat} (h : j < k) : 2 ^ j < 2 ^ k :=
  Nat.pow_lt_pow_right Nat.one_lt_two h

theorem two_pow_lt_overflow {k : Nat} (h : k < 53 + 2045) : 2 ^ k < overflow :=
  two_pow_lt_two_pow h

theorem rounded_mul_le {j : Nat} (hn : u ≤ 2 ^ j) :
    rounded (u * 2 ^ places) 1 ≤ 2 ^ (j + places) := by
  apply rounded_le_two_pow (j + places) Nat.one_pos
  rw [Nat.mul_one, Nat.pow_add]
  exact Nat.mul_le_mul_right _ hn

theorem nearestMagnitude_one {n : Nat} (hn : n ≠ 0) (hlog : n.log2 < 1023) :
    ∃ m k, nearestMagnitude n 1 = k * 2 ^ 52 + m ∧ m * 2 ^ k = rounded (n * 2 ^ places) 1 ∧
      2 ^ 52 ≤ m ∧ m ≤ 2 ^ 53 ∧ k < 2045 := by
  have hfits {k m : Nat} (hk : k < 2045) (hm : m ≤ 2 ^ 53) :
      min (k * 2 ^ 52 + m) (2047 * 2 ^ 52) = k * 2 ^ 52 + m := by omega
  have hplaces : places = 1074 := rfl
  have hscale : scaleOf (n * 2 ^ places) 1 = n.log2 + places - 52 := by
    rw [scaleOf, Nat.div_one, log2_mul_two_pow hn]
  have hlow := le_digits Nat.one_pos (by omega : scaleOf (n * 2 ^ places) 1 ≠ 0)
  have hhigh := @digits_le (n * 2 ^ places) 1 Nat.one_pos
  refine ⟨_, scaleOf (n * 2 ^ places) 1, ?_, rfl, hlow, hhigh, by omega⟩
  obtain ⟨a, ha⟩ : ∃ a, (-((n.log2 : Int) - 52)).toNat = a := ⟨_, rfl⟩
  obtain ⟨b, hb⟩ : ∃ b, ((n.log2 : Int) - 52).toNat = b := ⟨_, rfl⟩
  have hpow : a + scaleOf (n * 2 ^ places) 1 = places + b := by omega
  have hmantissa : roundHalfEven (n * 2 ^ a) (1 * 2 ^ b) =
      roundHalfEven (n * 2 ^ places) (1 * 2 ^ scaleOf (n * 2 ^ places) 1) := by
    apply roundHalfEven_congr (mul_two_pow_pos Nat.one_pos b) (mul_two_pow_pos Nat.one_pos _)
    rw [Nat.one_mul, Nat.one_mul, Nat.mul_assoc, Nat.mul_assoc, ← Nat.pow_add, ← Nat.pow_add, hpow]
  have hfield : ((n.log2 : Int) - 52 + 1074).toNat = scaleOf (n * 2 ^ places) 1 := by omega
  simp only [nearestMagnitude, if_neg hn, binaryExponent_one hn, ha, hb, hmantissa, hfield]
  exact hfits (by omega) hhigh

theorem amounts_ofInt (n : Nat) (hn : n < 2 ^ 64) :
    (parts (ofInt n)).Amounts (rounded (n * 2 ^ places) 1) := by
  have hbits : ofInt n = .ofBits (.ofNat (nearestMagnitude n 1)) := by
    rw [ofInt, decide_eq_false (by omega), Int.natAbs_natCast, nearest, ofFields]
    simp only [Bool.false_eq_true, if_false, Nat.zero_mul, Nat.zero_add]
  rw [hbits]
  rcases Nat.eq_zero_or_pos n with rfl | hpos
  · have hparts : parts (.ofBits (.ofNat (nearestMagnitude 0 1))) = .finite false 0 (-1074) := by
      decide +kernel
    rw [hparts, Nat.zero_mul, rounded_zero Nat.one_pos]
    exact Parts.amounts_zero false
  · have hlog := (Nat.log2_lt hpos.ne').mpr hn
    obtain ⟨m, k, hmagnitude, hvalue, hlow, hhigh, hk⟩ := nearestMagnitude_one hpos.ne' (by omega)
    rw [hmagnitude, ← hvalue]
    apply amounts_ofBits (amounts_ofWord hlow hhigh hk)
    rw [hvalue]
    exact Nat.lt_of_le_of_lt (rounded_mul_le hn.le) (two_pow_lt_overflow (by decide))

/-- Doubles of this size are the multiples of 2048. -/
theorem amounts_ofInt_large {n : Nat} (hlow : 2 ^ 63 ≤ n) (hhigh : n < 2 ^ 64) :
    (parts (ofInt n)).Amounts (roundHalfEven n 2048 * 2048 * 2 ^ places) := by
  have hn : n ≠ 0 := by omega
  have hlog : n.log2 = 63 := (Nat.log2_eq_iff hn).mpr ⟨hlow, hhigh⟩
  have hscale : scaleOf (n * 2 ^ places) 1 = 11 + places := by
    rw [scaleOf, Nat.div_one, log2_mul_two_pow hn, hlog]
    rfl
  have hdigits : roundHalfEven (n * 2 ^ places) (1 * 2 ^ (11 + places)) = roundHalfEven n 2048 := by
    apply roundHalfEven_congr (mul_two_pow_pos Nat.one_pos _) (by decide)
    rw [Nat.one_mul, Nat.pow_add, Nat.mul_assoc, Nat.mul_comm (2 ^ places)]
  have hrounded : rounded (n * 2 ^ places) 1 = roundHalfEven n 2048 * 2048 * 2 ^ places := by
    rw [rounded, hscale, hdigits, Nat.pow_add, ← Nat.mul_assoc]
  rw [← hrounded]
  exact amounts_ofInt n hhigh

end Storehouse.Double
