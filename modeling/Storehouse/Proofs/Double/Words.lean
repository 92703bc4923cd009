import Storehouse.Double.Parts

namespace Storehouse.Double

namespace Parts

/-- The parts stand for this natural number; a zero may have either sign. -/
inductive Stands : Parts → Nat → Prop
  | whole {negative : Bool} {mantissa n : Nat} {exponent : Int}
    (hsign : negative = true → mantissa = 0)
    (h : mantissa * 2 ^ exponent.toNat = n * 2 ^ (-exponent).toNat) :
    Stands (.finite negative mantissa exponent) n

theorem stands_zero (negative : Bool) (exponent : Int) : Stands (.finite negative 0 exponent) 0 :=
  .whole (fun _ => rfl) (by rw [Nat.zero_mul, Nat.zero_mul])

/-- The parts stand for no natural number in range, and this word is taken in its place. -/
inductive Forced : Parts → UInt64 → Prop
  | nan : Forced .nan 0
  | infinite (negative : Bool) :
    Forced (.infinite negative) (if negative then 0 else .ofNat (2 ^ 64 - 1))
  | negative {mantissa : Nat} (exponent : Int) (h : 0 < mantissa) :
    Forced (.finite true mantissa exponent) 0
  | fraction {mantissa : Nat} {exponent : Int} {w : UInt64}
    (hlow : w.toNat * 2 ^ (-exponent).toNat < mantissa * 2 ^ exponent.toNat)
    (hhigh : mantissa * 2 ^ exponent.toNat < (w.toNat + 1) * 2 ^ (-exponent).toNat) :
    Forced (.finite false mantissa exponent) w
  | large {mantissa : Nat} {exponent : Int}
    (h : 2 ^ 64 * 2 ^ (-exponent).toNat ≤ mantissa * 2 ^ exponent.toNat) :
    Forced (.finite false mantissa exponent) (.ofNat (2 ^ 64 - 1))

variable {p : Parts} {n : Nat} {w : UInt64}

theorem Stands.unique {m : Nat} (h : p.Stands n) (h' : p.Stands m) : n = m := by
  cases h with
  | whole _ h =>
    cases h' with
    | whole _ h' => exact Nat.eq_of_mul_eq_mul_right (Nat.two_pow_pos _) (h.symm.trans h')

theorem Forced.not_stands (h : p.Forced w) (hn : n < 2 ^ 64) : ¬ p.Stands n := by
  intro hs
  cases h with
  | nan => cases hs
  | infinite => cases hs
  | negative _ hm =>
    cases hs with
    | whole hsign => exact absurd (hsign rfl) (Nat.ne_of_gt hm)
  | fraction hlow hhigh =>
    cases hs with
    | whole _ h =>
      rw [h] at hlow hhigh
      have hgt := Nat.lt_of_mul_lt_mul_right hlow
      have hlt := Nat.lt_of_mul_lt_mul_right hhigh
      omega
  | large hlarge =>
    cases hs with
    | whole _ h =>
      rw [h] at hlarge
      exact Nat.not_le_of_gt hn (Nat.le_of_mul_le_mul_right hlarge (Nat.two_pow_pos _))

theorem Forced.unique {v : UInt64} (h : p.Forced w) (h' : p.Forced v) : w = v := by
  cases h with
  | nan =>
    cases h'
    rfl
  | infinite =>
    cases h'
    rfl
  | negative =>
    cases h'
    rfl
  | fraction hlow hhigh =>
    cases h' with
    | fraction hlow' hhigh' =>
      have hle := Nat.lt_of_mul_lt_mul_right (Nat.lt_trans hlow hhigh')
      have hge := Nat.lt_of_mul_lt_mul_right (Nat.lt_trans hlow' hhigh)
      exact UInt64.toNat_inj.mp (by omega)
    | large hlarge =>
      have hlt := Nat.lt_of_mul_lt_mul_right (Nat.lt_of_le_of_lt hlarge hhigh)
      exact absurd w.toNat_lt (by omega)
  | large hlarge =>
    cases h' with
    | fraction hlow' hhigh' =>
      have hlt := Nat.lt_of_mul_lt_mul_right (Nat.lt_of_le_of_lt hlarge hhigh')
      exact absurd v.toNat_lt (by omega)
    | large => rfl

theorem stands_or_forced_of_floor {mantissa : Nat} {exponent : Int}
    (h : mantissa * 2 ^ exponent.toNat / 2 ^ (-exponent).toNat = w.toNat) :
    Stands (.finite false mantissa exponent) w.toNat ∨
      Forced (.finite false mantissa exponent) w := by
  have hlow := Nat.div_mul_le_self (mantissa * 2 ^ exponent.toNat) (2 ^ (-exponent).toNat)
  have hhigh := Nat.lt_div_mul_add (a := mantissa * 2 ^ exponent.toNat)
    (Nat.two_pow_pos (-exponent).toNat)
  rw [h] at hlow hhigh
  rcases Nat.eq_or_lt_of_le hlow with heq | hlt
  · exact .inl (.whole nofun heq.symm)
  · refine .inr (.fraction hlt ?_)
    rw [Nat.succ_mul]
    exact hhigh

end Parts

variable {x : Float} {w : UInt64}

theorem toWord_of_finite {negative : Bool} {mantissa : Nat} {exponent : Int}
    (h : parts x = .finite negative mantissa exponent) :
    toWord x = if negative then 0 else
      .ofNat (min (mantissa * 2 ^ exponent.toNat / 2 ^ (-exponent).toNat) (2 ^ 64 - 1)) := by
  rw [toWord, h]
  cases negative with
  | false => rfl
  | true =>
    simp only [Parts.truncate?, if_true]
    rw [Int.toNat_of_nonpos (Int.neg_nonpos_of_nonneg (Int.natCast_nonneg _)), Nat.zero_min]
    rfl

theorem stands_or_forced_toWord (x : Float) :
    (parts x).Stands (toWord x).toNat ∨ (parts x).Forced (toWord x) := by
  cases h : parts x with
  | nan =>
    rw [toWord, h]
    exact .inr .nan
  | infinite negative =>
    rw [toWord, h]
    exact .inr (.infinite negative)
  | finite negative mantissa exponent =>
    rw [toWord_of_finite h]
    cases negative with
    | true =>
      rcases Nat.eq_zero_or_pos mantissa with rfl | hpos
      · exact .inl (Parts.stands_zero true exponent)
      · exact .inr (.negative exponent hpos)
    | false =>
      simp only [Bool.false_eq_true, if_false]
      rcases Nat.lt_or_ge (mantissa * 2 ^ exponent.toNat / 2 ^ (-exponent).toNat) (2 ^ 64)
        with hlt | hge
      · rw [Nat.min_eq_left (Nat.le_sub_one_of_lt hlt)]
        exact Parts.stands_or_forced_of_floor (UInt64.toNat_ofNat_of_lt' hlt).symm
      · rw [Nat.min_eq_right (Nat.le_trans (Nat.sub_le _ _) hge)]
        exact .inr (.large ((Nat.le_div_iff_mul_le (Nat.two_pow_pos _)).mp hge))

theorem toWord_eq_iff : toWord x = w ↔ (parts x).Stands w.toNat ∨ (parts x).Forced w := by
  constructor
  · intro h
    rw [← h]
    exact stands_or_forced_toWord x
  · intro h
    rcases stands_or_forced_toWord x with hown | hown
    · rcases h with h | h
      · exact UInt64.toNat_inj.mp (hown.unique h)
      · exact absurd hown (h.not_stands (toWord x).toNat_lt)
    · rcases h with h | h
      · exact absurd h (hown.not_stands w.toNat_lt)
      · exact hown.unique h

end Storehouse.Double
