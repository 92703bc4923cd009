import Mathlib.Algebra.Order.Ring.Nat
import Mathlib.Data.Nat.Log
import Mathlib.Tactic.Linarith
import Storehouse.Double.Nearest

namespace Storehouse.Double

variable {num den num' den' n : Nat}

theorem div_le_div_of_mul_le (hd : 0 < den) (hd' : 0 < den') (h : num * den' ≤ num' * den) :
    num / den ≤ num' / den' := by
  rw [Nat.le_div_iff_mul_le hd']
  apply Nat.le_of_mul_le_mul_right _ hd
  calc
    num / den * den' * den = num / den * den * den' := by ac_rfl
    _ ≤ num * den' := Nat.mul_le_mul_right _ (Nat.div_mul_le_self _ _)
    _ ≤ num' * den := h

theorem roundHalfEven_mono (hd : 0 < den) (hd' : 0 < den') (h : num * den' ≤ num' * den) :
    roundHalfEven num den ≤ roundHalfEven num' den' := by
  have hq := div_le_div_of_mul_le hd hd' h
  rcases Nat.lt_or_eq_of_le hq with hlt | heq
  · simp only [roundHalfEven]
    split_ifs <;> omega
  · -- within one step the remainders keep the order
    have hr : num % den * den' ≤ num' % den' * den := by
      have hn := Nat.div_add_mod num den
      have hn' := Nat.div_add_mod num' den'
      rw [← heq] at hn'
      have hsplit : num * den' = den * (num / den) * den' + num % den * den' := by
        rw [← Nat.add_mul, hn]
      have hsplit' : num' * den = den' * (num / den) * den + num' % den' * den := by
        rw [← Nat.add_mul, hn']
      have hcomm : den * (num / den) * den' = den' * (num / den) * den := by ac_rfl
      omega
    simp only [roundHalfEven, ← heq]
    have hless (hr' : 2 * (num' % den') < den') : 2 * (num % den) < den := by nlinarith
    have hmore (hr' : den < 2 * (num % den)) : den' < 2 * (num' % den') := by nlinarith
    split_ifs <;> omega

theorem roundHalfEven_congr (hd : 0 < den) (hd' : 0 < den') (h : num * den' = num' * den) :
    roundHalfEven num den = roundHalfEven num' den' :=
  Nat.le_antisymm (roundHalfEven_mono hd hd' h.le) (roundHalfEven_mono hd' hd h.ge)

theorem roundHalfEven_mul_self (n : Nat) (hd : 0 < den) : roundHalfEven (n * den) den = n := by
  simp [roundHalfEven, Nat.mul_mod_left, Nat.mul_div_cancel n hd, hd]

theorem roundHalfEven_le_of_le (hd : 0 < den) (h : num ≤ n * den) : roundHalfEven num den ≤ n := by
  rw [← roundHalfEven_mul_self n hd]
  exact roundHalfEven_mono hd hd (Nat.mul_le_mul_right den h)

theorem le_roundHalfEven_of_le (hd : 0 < den) (h : n * den ≤ num) : n ≤ roundHalfEven num den := by
  rw [← roundHalfEven_mul_self n hd]
  exact roundHalfEven_mono hd hd (Nat.mul_le_mul_right den h)

theorem log2_mono {m : Nat} (h : m ≤ n) : m.log2 ≤ n.log2 := by
  rw [Nat.log2_eq_log_two, Nat.log2_eq_log_two]
  exact Nat.log_mono_right h

theorem log2_mul_two_pow (h : n ≠ 0) (k : Nat) : (n * 2 ^ k).log2 = n.log2 + k := by
  rw [Nat.log2_eq_iff (Nat.mul_pos (Nat.pos_of_ne_zero h) (Nat.two_pow_pos k)).ne']
  constructor
  · rw [Nat.pow_add]
    exact Nat.mul_le_mul_right _ (Nat.log2_self_le h)
  · rw [Nat.add_right_comm, Nat.pow_add]
    exact Nat.mul_lt_mul_of_pos_right Nat.lt_log2_self (Nat.two_pow_pos k)

theorem log2_div_two_pow (n k : Nat) : (n / 2 ^ k).log2 = n.log2 - k := by
  rw [Nat.log2_eq_log_two, Nat.log2_eq_log_two]
  exact Nat.log_div_base_pow 2 n k

/-- The power of two that leaves 53 binary digits of a fraction, or one where it has fewer. -/
def scaleOf (num den : Nat) : Nat := (num / den).log2 - 52

/-- The fraction with 53 binary digits that is nearest to `num / den`; of two, the even one. -/
def rounded (num den : Nat) : Nat :=
  roundHalfEven num (den * 2 ^ scaleOf num den) * 2 ^ scaleOf num den

theorem lt_pow_scaleOf (hd : 0 < den) : num < 2 ^ 53 * (den * 2 ^ scaleOf num den) := by
  have hlog : num / den < 2 ^ (53 + scaleOf num den) := by
    apply Nat.lt_of_lt_of_le Nat.lt_log2_self
    apply Nat.pow_le_pow_right (by omega)
    rw [scaleOf]
    omega
  rw [Nat.div_lt_iff_lt_mul hd, Nat.pow_add] at hlog
  calc
    num < 2 ^ 53 * 2 ^ scaleOf num den * den := hlog
    _ = 2 ^ 53 * (den * 2 ^ scaleOf num den) := by ac_rfl

theorem pow_scaleOf_le (hd : 0 < den) (h : scaleOf num den ≠ 0) :
    2 ^ 52 * (den * 2 ^ scaleOf num den) ≤ num := by
  have hlog : 2 ^ (52 + scaleOf num den) ≤ num / den := by
    have hne : num / den ≠ 0 := by
      intro hzero
      rw [scaleOf, hzero] at h
      exact h rfl
    have hexponent : 52 + scaleOf num den = (num / den).log2 := by
      rw [scaleOf] at *
      omega
    rw [hexponent]
    exact Nat.log2_self_le hne
  rw [Nat.le_div_iff_mul_le hd, Nat.pow_add] at hlog
  calc
    2 ^ 52 * (den * 2 ^ scaleOf num den) = 2 ^ 52 * 2 ^ scaleOf num den * den := by ac_rfl
    _ ≤ num := hlog

theorem mul_two_pow_pos (hd : 0 < den) (k : Nat) : 0 < den * 2 ^ k :=
  Nat.mul_pos hd (Nat.two_pow_pos k)

theorem digits_le (hd : 0 < den) : roundHalfEven num (den * 2 ^ scaleOf num den) ≤ 2 ^ 53 :=
  roundHalfEven_le_of_le (mul_two_pow_pos hd _) (lt_pow_scaleOf hd).le

theorem le_digits (hd : 0 < den) (h : scaleOf num den ≠ 0) :
    2 ^ 52 ≤ roundHalfEven num (den * 2 ^ scaleOf num den) :=
  le_roundHalfEven_of_le (mul_two_pow_pos hd _) (pow_scaleOf_le hd h)

theorem scaleOf_mono (hd : 0 < den) (hd' : 0 < den') (h : num * den' ≤ num' * den) :
    scaleOf num den ≤ scaleOf num' den' :=
  Nat.sub_le_sub_right (log2_mono (div_le_div_of_mul_le hd hd' h)) 52

theorem rounded_mono (hd : 0 < den) (hd' : 0 < den') (h : num * den' ≤ num' * den) :
    rounded num den ≤ rounded num' den' := by
  rw [rounded, rounded]
  rcases Nat.lt_or_eq_of_le (scaleOf_mono hd hd' h) with hlt | heq
  · -- a carry out of the digits reaches the next power of two and no more
    calc
      roundHalfEven num (den * 2 ^ scaleOf num den) * 2 ^ scaleOf num den
        ≤ 2 ^ 53 * 2 ^ scaleOf num den := Nat.mul_le_mul_right _ (digits_le hd)
      _ = 2 ^ 52 * 2 ^ (scaleOf num den + 1) := by rw [Nat.pow_succ]; omega
      _ ≤ 2 ^ 52 * 2 ^ scaleOf num' den' :=
        Nat.mul_le_mul_left _ (Nat.pow_le_pow_right (by omega) hlt)
      _ ≤ _ := Nat.mul_le_mul_right _ (le_digits hd' (by omega))
  · rw [← heq]
    apply Nat.mul_le_mul_right
    apply roundHalfEven_mono (mul_two_pow_pos hd _) (mul_two_pow_pos hd' _)
    calc
      num * (den' * 2 ^ scaleOf num den) = num * den' * 2 ^ scaleOf num den := by ac_rfl
      _ ≤ num' * den * 2 ^ scaleOf num den := Nat.mul_le_mul_right _ h
      _ = num' * (den * 2 ^ scaleOf num den) := by ac_rfl

theorem rounded_mul_self (k : Nat) (hd : 0 < den) (hn : n < 2 ^ 53) :
    rounded (n * 2 ^ k * den) den = n * 2 ^ k := by
  obtain ⟨c, hc⟩ : ∃ c, k = c + scaleOf (n * 2 ^ k * den) den := by
    apply Nat.exists_eq_add_of_le'
    rw [scaleOf, Nat.mul_div_cancel _ hd]
    rcases Nat.eq_zero_or_pos n with rfl | hpos
    · rw [Nat.zero_mul, Nat.log2_zero]
      omega
    · have hlt := (Nat.log2_lt hpos.ne').mpr hn
      rw [log2_mul_two_pow hpos.ne']
      omega
  generalize hscale : scaleOf (n * 2 ^ k * den) den = s at hc
  have hsplit : n * 2 ^ k * den = n * 2 ^ c * (den * 2 ^ s) := by
    rw [hc, Nat.pow_add]
    ac_rfl
  rw [rounded, hscale, hsplit, roundHalfEven_mul_self _ (mul_two_pow_pos hd s), hc, Nat.pow_add,
    Nat.mul_assoc]

theorem rounded_le_two_pow (k : Nat) (hd : 0 < den) (h : num ≤ 2 ^ k * den) :
    rounded num den ≤ 2 ^ k := by
  have hself := @rounded_mul_self den 1 k hd (by decide)
  rw [Nat.one_mul] at hself
  rw [← hself]
  apply rounded_mono hd hd
  exact Nat.mul_le_mul_right den h

/-- What is less than half a place of a double is lost when it is added. -/
theorem rounded_add {k m x : Nat} (hlow : 2 ^ 52 ≤ m) (hhigh : m < 2 ^ 53) (hx : 2 * x < 2 ^ k) :
    rounded (m * 2 ^ k + x) 1 = m * 2 ^ k := by
  have hpos : 0 < m * 2 ^ k := mul_two_pow_pos (by omega) k
  have hscale : scaleOf (m * 2 ^ k + x) 1 = k := by
    have hlog : (m * 2 ^ k + x).log2 = 52 + k := by
      rw [Nat.log2_eq_iff (by omega), Nat.add_right_comm, Nat.pow_add, Nat.pow_add]
      constructor
      · exact (Nat.mul_le_mul_right _ hlow).trans (Nat.le_add_right _ _)
      · have hnext := Nat.mul_le_mul_right (2 ^ k) (Nat.succ_le_of_lt hhigh)
        rw [Nat.succ_mul] at hnext
        omega
    rw [scaleOf, Nat.div_one, hlog]
    omega
  have hlt : x < 2 ^ k := by omega
  have hdiv : (m * 2 ^ k + x) / 2 ^ k = m := by
    rw [Nat.mul_comm, Nat.mul_add_div (Nat.two_pow_pos k), Nat.div_eq_of_lt hlt, Nat.add_zero]
  have hmod : (m * 2 ^ k + x) % 2 ^ k = x := by
    rw [Nat.mul_comm, Nat.mul_add_mod, Nat.mod_eq_of_lt hlt]
  rw [rounded, hscale, Nat.one_mul]
  simp only [roundHalfEven, hdiv, hmod, if_pos hx]

/-- A rounded value has 53 digits, also where a carry has left one more, or it has fewer. -/
theorem exists_digits (num : Nat) (hd : 0 < den) : ∃ m k, m < 2 ^ 53 ∧
    (scaleOf num den ≠ 0 → 2 ^ 52 ≤ m) ∧ scaleOf num den ≤ k ∧ rounded num den = m * 2 ^ k := by
  rcases Nat.lt_or_eq_of_le (@digits_le num den hd) with hlt | heq
  · exact ⟨_, _, hlt, le_digits hd, Nat.le_refl _, rfl⟩
  · refine ⟨2 ^ 52, scaleOf num den + 1, by decide, fun _ => Nat.le_refl _, Nat.le_succ _, ?_⟩
    rw [rounded, heq, Nat.pow_succ]
    omega

theorem rounded_rounded (hd : 0 < den) : rounded (rounded num den) 1 = rounded num den := by
  obtain ⟨m, k, hm, -, -, heq⟩ := exists_digits num hd
  have hself := rounded_mul_self k Nat.one_pos hm
  rw [Nat.mul_one] at hself
  rw [heq, hself]

theorem rounded_add_of_lt {x : Nat} (hd : 0 < den) (h : scaleOf num den ≠ 0)
    (hx : 2 * x < 2 ^ scaleOf num den) : rounded (rounded num den + x) 1 = rounded num den := by
  obtain ⟨m, k, hhigh, hlow, hk, heq⟩ := exists_digits num hd
  rw [heq]
  exact rounded_add (hlow h) hhigh (Nat.lt_of_lt_of_le hx (Nat.pow_le_pow_right Nat.two_pos hk))

end Storehouse.Double
