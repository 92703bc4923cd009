import Storehouse.Exchange.Measure
import Storehouse.Proofs.Double.Arithmetic

namespace Storehouse

open Double

/-- Durations are shorter than this many nanoseconds. -/
def durations : Nat := 2 ^ 64 * 10 ^ 9

variable {n n' r r' : Nat}

/-- Some nanoseconds of a second, in units of the least double. -/
def fractionUnits (r : Nat) : Nat :=
  rounded (rounded (r * 2 ^ places) 1 * 2 ^ places) (rounded (10 ^ 9 * 2 ^ places) 1)

def secondsUnits (n : Nat) : Nat :=
  rounded (rounded (n / 10 ^ 9 * 2 ^ places) 1 + fractionUnits (n % 10 ^ 9)) 1

theorem rounded_whole {q : Nat} (h : q < 2 ^ 53) : rounded (q * 2 ^ places) 1 = q * 2 ^ places := by
  have hself := rounded_mul_self places Nat.one_pos h
  rwa [Nat.mul_one] at hself

theorem fractionUnits_eq (h : r < 10 ^ 9) :
    fractionUnits r = rounded (r * 2 ^ places * 2 ^ places) (10 ^ 9 * 2 ^ places) := by
  rw [fractionUnits, rounded_whole (by omega), rounded_whole (by omega)]

theorem fractionUnits_mono (h : r ≤ r') (hr' : r' < 10 ^ 9) :
    fractionUnits r ≤ fractionUnits r' := by
  rw [fractionUnits_eq (Nat.lt_of_le_of_lt h hr'), fractionUnits_eq hr']
  have hpos : 0 < 10 ^ 9 * 2 ^ places := mul_two_pow_pos (by decide) places
  apply rounded_mono hpos hpos
  exact Nat.mul_le_mul_right _ (Nat.mul_le_mul_right _ (Nat.mul_le_mul_right _ h))

/-- The nanoseconds of a second stay below it by more than rounding can make up for. -/
theorem fractionUnits_lt (h : r < 10 ^ 9) : fractionUnits r < 2 ^ places := by
  obtain ⟨c, hc⟩ : ∃ c, places = c + 53 := ⟨1021, rfl⟩
  have hbelow : (2 ^ 53 - 1) * 2 ^ c < 2 ^ places := by
    rw [hc, Nat.pow_add, Nat.mul_comm (2 ^ c)]
    exact Nat.mul_lt_mul_of_pos_right (by decide) (Nat.two_pow_pos c)
  have hself := rounded_mul_self c Nat.one_pos (by decide : 2 ^ 53 - 1 < 2 ^ 53)
  have hratio : r * 2 ^ 53 ≤ (2 ^ 53 - 1) * 10 ^ 9 := by omega
  rw [← hself] at hbelow
  apply Nat.lt_of_le_of_lt _ hbelow
  rw [fractionUnits_eq h]
  apply rounded_mono (mul_two_pow_pos (by decide) places) Nat.one_pos
  have hvalue : r * 2 ^ places = r * 2 ^ 53 * 2 ^ c := by
    rw [hc, Nat.pow_add]
    ac_rfl
  rw [hvalue]
  generalize 2 ^ places = n
  calc
    r * 2 ^ 53 * 2 ^ c * n * 1 ≤ (2 ^ 53 - 1) * 10 ^ 9 * 2 ^ c * n * 1 := by gcongr
    _ = (2 ^ 53 - 1) * 2 ^ c * 1 * (10 ^ 9 * n) := by ring

theorem rounded_le_secondsUnits (n : Nat) :
    rounded (n / 10 ^ 9 * 2 ^ places) 1 ≤ secondsUnits n := by
  rw [← rounded_rounded Nat.one_pos]
  exact rounded_mono Nat.one_pos Nat.one_pos (Nat.mul_le_mul_right _ (Nat.le_add_right _ _))

/-- Less than a second more does not pass the next whole second, nor does it by rounding. -/
theorem rounded_add_le {q q' x : Nat} (h : q < q') (hx : x < 2 ^ places) :
    rounded (rounded (q * 2 ^ places) 1 + x) 1 ≤ rounded (q' * 2 ^ places) 1 := by
  rcases Nat.lt_or_ge q (2 ^ 53) with hsmall | hlarge
  · rw [rounded_whole hsmall]
    apply rounded_mono Nat.one_pos Nat.one_pos
    have hnext := Nat.mul_le_mul_right (2 ^ places) (Nat.succ_le_of_lt h)
    rw [Nat.succ_mul] at hnext
    omega
  · -- a second is half a place of so many seconds, and less is lost
    have hlog : 53 ≤ q.log2 := (Nat.le_log2 (by omega)).mpr hlarge
    have hscale : places + 1 ≤ scaleOf (q * 2 ^ places) 1 := by
      rw [scaleOf, Nat.div_one, log2_mul_two_pow (by omega)]
      omega
    have hhalf : 2 * x < 2 ^ scaleOf (q * 2 ^ places) 1 := by
      apply Nat.lt_of_lt_of_le _ (Nat.pow_le_pow_right Nat.two_pos hscale)
      rw [Nat.pow_succ]
      omega
    rw [rounded_add_of_lt Nat.one_pos (by omega) hhalf]
    apply rounded_mono Nat.one_pos Nat.one_pos
    exact Nat.mul_le_mul_right _ (Nat.mul_le_mul_right _ h.le)

theorem secondsUnits_mono (h : n ≤ n') : secondsUnits n ≤ secondsUnits n' := by
  rcases Nat.lt_or_eq_of_le (Nat.div_le_div_right h : n / 10 ^ 9 ≤ n' / 10 ^ 9) with hlt | heq
  · have hfraction := fractionUnits_lt (Nat.mod_lt n (by decide : 0 < 10 ^ 9))
    exact (rounded_add_le hlt hfraction).trans (rounded_le_secondsUnits n')
  · rw [secondsUnits, secondsUnits, heq]
    apply rounded_mono Nat.one_pos Nat.one_pos
    apply Nat.mul_le_mul_right
    apply Nat.add_le_add_left
    exact fractionUnits_mono (by omega) (by omega)

theorem wholeUnits_lt {q : Nat} (h : q < 2 ^ 64) : rounded (q * 2 ^ places) 1 < overflow :=
  Nat.lt_of_le_of_lt (rounded_mul_le h.le) (two_pow_lt_overflow (by decide))

theorem div_lt_of_durations (h : n < durations) : n / 10 ^ 9 < 2 ^ 64 := by
  rw [durations] at h
  omega

theorem secondsUnits_lt_overflow (h : n < durations) : secondsUnits n < overflow := by
  have hwhole := rounded_mul_le (div_lt_of_durations h).le
  have hfraction := fractionUnits_lt (Nat.mod_lt n (by decide : 0 < 10 ^ 9))
  have hplaces : 2 ^ places ≤ 2 ^ (64 + places) := two_pow_le_two_pow (Nat.le_add_left _ _)
  have hdouble (k : Nat) : 2 ^ (k + 1) = 2 ^ k * 2 := Nat.pow_succ 2 k
  apply Nat.lt_of_le_of_lt _ (two_pow_lt_overflow (by decide : 64 + places + 1 < 53 + 2045))
  apply rounded_le_two_pow _ Nat.one_pos
  rw [Nat.mul_one, hdouble]
  omega

theorem amounts_seconds (h : n < durations) : (parts (seconds n)).Amounts (secondsUnits n) := by
  have hwhole := div_lt_of_durations h
  have hrest : n % 10 ^ 9 < 2 ^ 64 := by omega
  have hsecond : 0 < rounded (10 ^ 9 * 2 ^ places) 1 := by
    rw [rounded_whole (by decide)]
    exact mul_two_pow_pos (by decide) places
  have hfraction := Nat.lt_trans (fractionUnits_lt (Nat.mod_lt n (by decide : 0 < 10 ^ 9)))
    (two_pow_lt_overflow (by decide : places < 53 + 2045))
  have hquotient := amounts_div (amounts_ofInt _ hrest) (amounts_ofInt (10 ^ 9) (by decide))
    (wholeUnits_lt hrest) (wholeUnits_lt (by decide)) hsecond
  exact amounts_add (amounts_ofInt _ hwhole) hquotient (wholeUnits_lt hwhole) hfraction

end Storehouse
