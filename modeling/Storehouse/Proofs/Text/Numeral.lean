import Storehouse.Basic

namespace Storehouse.Text

variable {n : Nat} {cs : List Char}

/-- The digits of a number, with any zeros in front of them. -/
def Digits (n : Nat) (cs : List Char) : Prop :=
  ∃ zeros, cs = List.replicate zeros '0' ++ Nat.toDigits 10 n

inductive Natural (n : Nat) : List Char → Prop
  | digits {cs : List Char} (h : Digits n cs) : Natural n cs
  | plus {cs : List Char} (h : Digits n cs) : Natural n ('+' :: cs)

/-- A number that may have a sign in front. -/
inductive Whole : Int → List Char → Prop
  | natural {n : Nat} {cs : List Char} (h : Natural n cs) : Whole n cs
  | minus {n : Nat} {cs : List Char} (h : Digits n cs) : Whole (-n) ('-' :: cs)

theorem digits_toDigits (n : Nat) : Digits n (Nat.toDigits 10 n) := ⟨0, rfl⟩

theorem natural_repr (n : Nat) : Natural n n.repr.toList := by
  rw [Nat.toList_repr]
  exact .digits (digits_toDigits n)

theorem digitChar_value {c : Char} (h : c.isDigit = true) :
    c.toNat - '0'.toNat < 10 ∧ Nat.digitChar (c.toNat - '0'.toNat) = c := by
  rw [Char.isDigit_iff_toNat] at h
  have hzero : '0'.toNat = 48 := rfl
  have hnine : '9'.toNat = 57 := rfl
  have hlt : c.toNat - '0'.toNat < 10 := by omega
  refine ⟨hlt, ?_⟩
  rw [← Char.toNat_inj, Nat.toNat_digitChar_of_lt_ten hlt]
  omega

/-- Digits behind those of a number that is not zero are digits of a greater number. -/
theorem toDigits_append {m : Nat} (hm : 0 < m) (h : ∀ c ∈ cs, c.isDigit = true) :
    Nat.toDigits 10 m ++ cs = Nat.toDigits 10 (Nat.ofDigitChars 10 cs m) := by
  induction cs generalizing m with
  | nil => rw [List.append_nil, Nat.ofDigitChars_nil]
  | cons c cs ih =>
    obtain ⟨hlt, hchar⟩ := digitChar_value (h c List.mem_cons_self)
    have hpos : 0 < 10 * m + (c.toNat - '0'.toNat) := by omega
    have hrest : ∀ d ∈ cs, d.isDigit = true := fun d hd => h d (List.mem_cons_of_mem c hd)
    rw [Nat.ofDigitChars_cons, ← ih hpos hrest, ← Nat.toDigits_append_toDigits (by decide) hm hlt,
      Nat.toDigits_of_lt_base hlt, hchar, List.append_assoc, List.singleton_append]

theorem digits_ofDigitChars (hne : cs ≠ []) (h : ∀ c ∈ cs, c.isDigit = true) :
    Digits (Nat.ofDigitChars 10 cs 0) cs := by
  induction cs with
  | nil => exact absurd rfl hne
  | cons c cs ih =>
    have hrest : ∀ d ∈ cs, d.isDigit = true := fun d hd => h d (List.mem_cons_of_mem c hd)
    obtain ⟨hlt, hchar⟩ := digitChar_value (h c List.mem_cons_self)
    rw [Nat.ofDigitChars_cons, Nat.mul_zero, Nat.zero_add]
    rcases Nat.eq_zero_or_pos (c.toNat - '0'.toNat) with hzero | hpos
    · rw [hzero] at hchar ⊢
      -- a zero in front counts for nothing, unless it is the only digit
      by_cases hnil : cs = []
      · subst hnil
        rw [← hchar]
        exact digits_toDigits 0
      · obtain ⟨zeros, hcs⟩ := ih hnil hrest
        refine ⟨zeros + 1, ?_⟩
        rw [List.replicate_succ, List.cons_append, ← hcs, ← hchar]
        rfl
    · refine ⟨0, ?_⟩
      rw [← toDigits_append hpos hrest, Nat.toDigits_of_lt_base hlt, hchar]
      rfl

theorem Digits.isDigit (h : Digits n cs) : ∀ c ∈ cs, c.isDigit = true := by
  obtain ⟨zeros, rfl⟩ := h
  intro c hc
  rcases List.mem_append.mp hc with hzero | hdigit
  · rw [List.eq_of_mem_replicate hzero]
    rfl
  · exact Nat.isDigit_of_mem_toDigits (by decide) (by decide) hdigit

theorem digits?_eq_some_iff : digits? cs = some n ↔ Digits n cs := by
  rw [digits?]
  constructor
  · intro h
    obtain ⟨⟨hne, hdigits⟩, hn⟩ := Option.ite_none_right_eq_some.mp h
    cases hn
    exact digits_ofDigitChars hne (List.all_eq_true.mp hdigits)
  · intro h
    have hdigits := List.all_eq_true.mpr h.isDigit
    obtain ⟨zeros, rfl⟩ := h
    rw [if_pos ⟨by simp [Nat.toDigits_ne_nil], hdigits⟩, Nat.ofDigitChars_append,
      Nat.ofDigitChars_replicate_zero, Nat.mul_zero, Nat.ofDigitChars_ten_toDigits]

theorem Digits.ne_cons {c : Char} (h : Digits n (c :: cs)) (hc : c.isDigit = false) : False :=
  nomatch hc.symm.trans (h.isDigit c List.mem_cons_self)

theorem filter_digits?_eq_some_iff {p : Nat → Bool} :
    (digits? cs).filter p = some n ↔ Digits n cs ∧ p n = true := by
  rw [Option.filter_eq_some_iff, digits?_eq_some_iff]

theorem natural_plus_iff : Natural n ('+' :: cs) ↔ Digits n cs := by
  constructor
  · intro h
    cases h with
    | digits h => exact (h.ne_cons rfl).elim
    | plus h => exact h
  · exact .plus

theorem natural_iff_of_ne (h : ∀ rest, cs = '+' :: rest → False) : Natural n cs ↔ Digits n cs := by
  constructor
  · intro hn
    cases hn with
    | digits hn => exact hn
    | plus hn => exact (h _ rfl).elim
  · exact .digits

theorem natural?_eq_some_iff {bound : Nat} {s : String} :
    natural? bound s = some n ↔ Natural n s.toList ∧ n < bound := by
  rw [natural?]
  generalize s.toList = cs
  dsimp only
  split
  · rw [filter_digits?_eq_some_iff, natural_plus_iff, decide_eq_true_iff]
  · next hplus => rw [filter_digits?_eq_some_iff, natural_iff_of_ne hplus, decide_eq_true_iff]

theorem whole_plus_iff {m : Int} :
    Whole m ('+' :: cs) ↔ ∃ n : Nat, Digits n cs ∧ (n : Int) = m := by
  constructor
  · intro h
    cases h with
    | natural h => exact ⟨_, natural_plus_iff.mp h, rfl⟩
  · intro h
    obtain ⟨n, hn, rfl⟩ := h
    exact .natural (.plus hn)

theorem whole_minus_iff {m : Int} :
    Whole m ('-' :: cs) ↔ ∃ n : Nat, Digits n cs ∧ -(n : Int) = m := by
  constructor
  · intro h
    cases h with
    | natural h =>
      cases h with
      | digits h => exact (h.ne_cons rfl).elim
    | minus h => exact ⟨_, h, rfl⟩
  · intro h
    obtain ⟨n, hn, rfl⟩ := h
    exact .minus hn

theorem whole_iff_of_ne {m : Int} (hplus : ∀ rest, cs = '+' :: rest → False)
    (hminus : ∀ rest, cs = '-' :: rest → False) :
    Whole m cs ↔ ∃ n : Nat, Digits n cs ∧ (n : Int) = m := by
  constructor
  · intro h
    cases h with
    | natural h => exact ⟨_, (natural_iff_of_ne hplus).mp h, rfl⟩
    | minus h => exact (hminus _ rfl).elim
  · intro h
    obtain ⟨n, hn, rfl⟩ := h
    exact .natural (.digits hn)

/-- Digits of which the number or its negative is asked for, in a range that `p` judges. -/
theorem map_filter_digits?_eq_some_iff {bound : Nat} {p : Nat → Bool} {f : Nat → Int} {m : Int}
    (hp : ∀ n, p n = true ↔ -(bound : Int) ≤ f n ∧ f n < bound) :
    ((digits? cs).filter p).map f = some m ↔
      (∃ n, Digits n cs ∧ f n = m) ∧ -(bound : Int) ≤ m ∧ m < bound := by
  simp only [Option.map_eq_some_iff, filter_digits?_eq_some_iff, hp]
  constructor
  · intro h
    obtain ⟨n, ⟨hn, hrange⟩, rfl⟩ := h
    exact ⟨⟨n, hn, rfl⟩, hrange⟩
  · intro h
    obtain ⟨⟨n, hn, rfl⟩, hrange⟩ := h
    exact ⟨n, ⟨hn, hrange⟩, rfl⟩

theorem integer?_eq_some_iff {bound : Nat} {s : String} {m : Int} (hbound : 0 < bound) :
    integer? bound s = some m ↔ Whole m s.toList ∧ -(bound : Int) ≤ m ∧ m < bound := by
  have hbelow (n : Nat) : decide (n < bound) = true ↔
      -(bound : Int) ≤ (n : Int) ∧ (n : Int) < bound := by
    rw [decide_eq_true_iff]
    omega
  have hatMost (n : Nat) : decide (n ≤ bound) = true ↔ -(bound : Int) ≤ -(n : Int) ∧
      -(n : Int) < bound := by
    rw [decide_eq_true_iff]
    omega
  have hnegate (read : Option Nat) : ((read >>= fun n => pure (n : Int)).map fun i => -i) =
      read.map fun n : Nat => -(n : Int) := by
    cases read <;> rfl
  rw [integer?]
  generalize s.toList = cs
  dsimp only
  split
  · rw [whole_plus_iff]
    exact map_filter_digits?_eq_some_iff hbelow
  · rw [whole_minus_iff, hnegate]
    exact map_filter_digits?_eq_some_iff hatMost
  · next hplus hminus =>
    rw [whole_iff_of_ne hplus hminus]
    exact map_filter_digits?_eq_some_iff hbelow

theorem word?_eq_some_iff {s : String} {w : UInt64} :
    word? s = some w ↔ Natural w.toNat s.toList := by
  rw [word?, Option.map_eq_some_iff]
  simp only [natural?_eq_some_iff]
  constructor
  · intro h
    obtain ⟨n, ⟨hn, hlt⟩, rfl⟩ := h
    rw [UInt64.toNat_ofNat_of_lt' hlt]
    exact hn
  · intro h
    exact ⟨w.toNat, ⟨h, w.toNat_lt⟩, UInt64.ofNat_toNat⟩

theorem int64?_eq_some_iff {s : String} {i : Int64} :
    int64? s = some i ↔ Whole i.toInt s.toList := by
  rw [int64?, Option.map_eq_some_iff]
  simp only [integer?_eq_some_iff (Nat.two_pow_pos 63)]
  constructor
  · intro h
    obtain ⟨m, ⟨hm, hle, hlt⟩, rfl⟩ := h
    rw [Int64.toInt_ofInt_of_le hle hlt]
    exact hm
  · intro h
    exact ⟨i.toInt, ⟨h, i.le_toInt, i.toInt_lt⟩, Int64.ofInt_toInt i⟩

theorem whole_repr (m : Int) : Whole m m.repr.toList := by
  rw [Int.repr_eq_if]
  split
  · next h =>
    have hm : (m.toNat : Int) = m := Int.toNat_of_nonneg h
    rw [← hm]
    exact .natural (natural_repr m.toNat)
  · next h =>
    have hm : -((-m).toNat : Int) = m := by omega
    have hminus := Whole.minus (digits_toDigits (-m).toNat)
    rw [hm, ← Nat.toList_repr] at hminus
    rw [String.toList_append]
    exact hminus

theorem isBlank_eq_false_of_isDigit {c : Char} (h : c.isDigit = true) : isBlank c = false := by
  have hnine : '9'.toNat = 57 := rfl
  have hzero : '0'.toNat = 48 := rfl
  rw [Char.isDigit_iff_toNat] at h
  simp [isBlank]
  omega

theorem Digits.isBlank_eq_false (h : Digits n cs) : ∀ c ∈ cs, isBlank c = false := by
  intro c hc
  exact isBlank_eq_false_of_isDigit (h.isDigit c hc)

theorem Natural.isBlank_eq_false (h : Natural n cs) : ∀ c ∈ cs, isBlank c = false := by
  cases h with
  | digits h => exact h.isBlank_eq_false
  | plus h => exact List.forall_mem_cons.mpr ⟨rfl, h.isBlank_eq_false⟩

theorem Whole.isBlank_eq_false {m : Int} (h : Whole m cs) : ∀ c ∈ cs, isBlank c = false := by
  cases h with
  | natural h => exact h.isBlank_eq_false
  | minus h => exact List.forall_mem_cons.mpr ⟨rfl, h.isBlank_eq_false⟩

end Storehouse.Text
