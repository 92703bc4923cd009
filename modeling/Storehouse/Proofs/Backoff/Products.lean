import Storehouse.Proofs.Backoff.Delays
import Storehouse.Proofs.Exchange.Seconds

namespace Storehouse
namespace Double.Parts

def exceeds : Parts → Bool
  | .nan => false
  | .infinite negative => !negative
  | .finite negative mantissa exponent =>
    !negative && 2 ^ 64 * 2 ^ (-exponent).toNat ≤ mantissa * 2 ^ exponent.toNat

/-- The number is finite and not below zero. -/
inductive Nonnegative : Parts → Prop
  | finite {negative : Bool} {mantissa : Nat} (exponent : Int)
    (h : negative = true → mantissa = 0) : Nonnegative (.finite negative mantissa exponent)

variable {p : Parts} {u : Nat}

theorem le_scaled_iff {m k : Nat} :
    2 ^ 64 * 2 ^ (-((k : Int) - places)).toNat ≤ m * 2 ^ ((k : Int) - places).toNat ↔
      2 ^ (64 + places) ≤ m * 2 ^ k := by
  obtain ⟨a, ha⟩ : ∃ a, (-((k : Int) - places)).toNat = a := ⟨_, rfl⟩
  obtain ⟨b, hb⟩ : ∃ b, ((k : Int) - places).toNat = b := ⟨_, rfl⟩
  have hpow : a + k = places + b := by omega
  rw [ha, hb, ← Nat.mul_le_mul_right_iff (Nat.two_pow_pos k), Nat.mul_assoc, ← Nat.pow_add, hpow,
    Nat.pow_add, ← Nat.mul_assoc, ← Nat.pow_add, Nat.mul_right_comm,
    Nat.mul_le_mul_right_iff (Nat.two_pow_pos b)]

theorem Amounts.exceeds_iff (h : p.Amounts u) : p.exceeds = true ↔ 2 ^ (64 + places) ≤ u := by
  cases h with
  | infinite h =>
    exact iff_of_true rfl ((two_pow_lt_overflow (by decide)).le.trans h)
  | @finite negative m k hsign hm hk hlast =>
    rw [exceeds]
    cases negative with
    | true =>
      have hpos := Nat.two_pow_pos (64 + places)
      rw [hsign rfl, Nat.zero_mul (2 ^ k)]
      exact iff_of_false nofun (Nat.not_le.mpr hpos)
    | false => rw [Bool.not_false, Bool.true_and, decide_eq_true_iff, le_scaled_iff]

end Double.Parts

open Double

namespace Backoff

/-- What is below `2 ^ 64` seconds stays below by more than rounding to nanoseconds makes up for. -/
theorem nanoseconds_lt_iff {m : Nat} {e : Int} (hm : m < 2 ^ 53) :
    roundHalfEven (m * 10 ^ 9 * 2 ^ e.toNat) (2 ^ (-e).toNat) < durations ↔
      m * 2 ^ e.toNat < 2 ^ 64 * 2 ^ (-e).toNat := by
  have hden := Nat.two_pow_pos (-e).toNat
  constructor
  · intro h
    by_contra hge
    apply Nat.not_le_of_gt h
    apply le_roundHalfEven_of_le hden
    calc
      durations * 2 ^ (-e).toNat = 2 ^ 64 * 2 ^ (-e).toNat * 10 ^ 9 := by
        rw [durations]
        ac_rfl
      _ ≤ m * 2 ^ e.toNat * 10 ^ 9 := Nat.mul_le_mul_right _ (Nat.not_lt.mp hge)
      _ = m * 10 ^ 9 * 2 ^ e.toNat := by ac_rfl
  · intro h
    have hbound : roundHalfEven (m * 10 ^ 9 * 2 ^ e.toNat) (2 ^ (-e).toNat) ≤ durations - 1 := by
      apply roundHalfEven_le_of_le hden
      rw [durations]
      rcases Int.le_total 0 e with hwhole | hfraction
      · rw [Int.toNat_of_nonpos (by omega : -e ≤ 0)] at h ⊢
        rw [Nat.mul_right_comm]
        omega
      · rw [Int.toNat_of_nonpos hfraction]
        have hmore := Nat.mul_le_mul_left (2 ^ 64 * 10 ^ 9 - 1) hden
        omega
    rw [durations] at *
    omega

theorem ofSeconds?_eq_none_iff {x : Float} {u : Nat} (h : (parts x).Amounts u) :
    ofSeconds? x = none ↔ (parts x).exceeds = true := by
  rw [ofSeconds?]
  generalize parts x = p at h
  cases h with
  | infinite => exact iff_of_true rfl rfl
  | @finite negative m k hsign hm hk hlast =>
    have hround := @nanoseconds_lt_iff m (k - places) hm
    rw [durations] at hround
    dsimp only
    rw [Parts.exceeds]
    cases negative with
    | true =>
      have hzero (d : Nat) : roundHalfEven 0 d = 0 := by
        simp [roundHalfEven]
      rw [hsign rfl]
      simp [hzero]
    | false =>
      simp only [Bool.false_and, Bool.false_eq_true, if_false, hround]
      rw [Bool.not_false, Bool.true_and, decide_eq_true_iff, ← Nat.not_lt]
      split <;> simp_all

theorem exists_amounts {negative : Bool} {m k : Nat} (hsign : negative = true → m = 0)
    (hm : m < 2 ^ 53) (hk : k = 0 ∨ 2 ^ 52 ≤ m) (hlast : k ≤ 2045) :
    ∃ u, u < overflow ∧ (Parts.finite negative m (k - places)).Amounts u := by
  refine ⟨m * 2 ^ k, ?_, .finite hsign hm hk hlast⟩
  calc
    m * 2 ^ k < 2 ^ 53 * 2 ^ k := Nat.mul_lt_mul_of_pos_right hm (Nat.two_pow_pos k)
    _ = 2 ^ (53 + k) := (Nat.pow_add 2 53 k).symm
    _ ≤ overflow := two_pow_le_two_pow (Nat.add_le_add_left hlast 53)

theorem exists_amounts_of_nonnegative {x : Float} (h : (parts x).Nonnegative) :
    ∃ u, u < overflow ∧ (parts x).Amounts u := by
  have hplaces : places = 1074 := rfl
  have hfraction : fractionField x < 2 ^ 52 := Nat.mod_lt _ (Nat.two_pow_pos 52)
  have hfield : exponentField x < 2 ^ 11 := Nat.mod_lt _ (Nat.two_pow_pos 11)
  rw [parts] at *
  split_ifs at h ⊢ with hlast hzero hfirst
  · cases h
  · cases h
  · cases h with
    | finite _ hsign => exact exists_amounts hsign (by omega) (.inl rfl) (Nat.zero_le 2045)
  · cases h with
    | finite _ hsign =>
      have hexponent : (exponentField x : Int) - 1075 = (exponentField x - 1 : Nat) - places := by
        omega
      rw [hexponent]
      exact exists_amounts hsign (by omega) (.inr (Nat.le_add_right _ _)) (by omega)

variable {p : Policy} {d d' : Nat}

theorem exists_factor (h : (parts p.factor).Nonnegative) : ∃ u, ∀ d, d < durations →
    (parts (p.factor * seconds d)).Amounts (rounded (u * secondsUnits d) (2 ^ places)) := by
  obtain ⟨u, hu, hfactor⟩ := exists_amounts_of_nonnegative h
  exact ⟨u, fun d hd =>
    amounts_mul hfactor (amounts_seconds hd) hu (secondsUnits_lt_overflow hd)⟩

/-- The product of the delay and the factor is longer than any duration. -/
def Policy.outgrows (p : Policy) (delay : Nat) : Bool := (parts (p.factor * seconds delay)).exceeds

theorem product?_eq_none_iff (h : (parts p.factor).Nonnegative) (hd : d < durations) :
    product? d p.factor = none ↔ p.outgrows d = true := by
  obtain ⟨u, hu⟩ := exists_factor h
  exact ofSeconds?_eq_none_iff (hu d hd)

theorem outgrows_of_le (h : (parts p.factor).Nonnegative) (hle : d ≤ d') (hd' : d' < durations)
    (hd : p.outgrows d = true) : p.outgrows d' = true := by
  obtain ⟨u, hu⟩ := exists_factor h
  have hunit := Nat.two_pow_pos places
  rw [Policy.outgrows, (hu d (Nat.lt_of_le_of_lt hle hd')).exceeds_iff] at hd
  rw [Policy.outgrows, (hu d' hd').exceeds_iff]
  apply hd.trans
  apply rounded_mono hunit hunit
  exact Nat.mul_le_mul_right _ (Nat.mul_le_mul_left u (secondsUnits_mono hle))

end Backoff
end Storehouse
