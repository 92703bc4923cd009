import Storehouse.Proofs.Double.Words
import Storehouse.Proofs.Except
import Storehouse.Proofs.Text.Numeral
import Storehouse.Reply.Fields

namespace Storehouse.Reply

/-- The reply denotes this natural number, which need not be in range. -/
inductive Denotes : Reply → Nat → Prop
  | int {i : Int64} {n : Nat} (h : i.toInt = n) : Denotes (.int i) n
  | simple {s : String} {n : Nat} (h : Text.Natural n s.toList) : Denotes (.simple s) n
  | bulk {bytes : ByteArray} {s : String} {n : Nat} (hbytes : String.fromUTF8? bytes = some s)
    (h : Text.Natural n s.toList) : Denotes (.bulk bytes) n
  | double {x : Float} {n : Nat} (h : (Double.parts x).Stands n) : Denotes (.double x) n

/-- The reply is a number but no count, and this word is taken in its place: a negative integer
keeps its bits, and a double is moved to the nearest count below it or at an end of the range. -/
inductive Forced : Reply → UInt64 → Prop
  | int {i : Int64} {w : UInt64} (hneg : i.toInt < 0) (h : (w.toNat : Int) = i.toInt + 2 ^ 64) :
    Forced (.int i) w
  | double {x : Float} {w : UInt64} (h : (Double.parts x).Forced w) : Forced (.double x) w

/-- An integer is a natural number, and a double is one below `2 ^ 64`. -/
structure Faithful (r : Reply) : Prop where
  int (i : Int64) : r = .int i → 0 ≤ i.toInt
  double (x : Float) : r = .double x → ∃ n, n < 2 ^ 64 ∧ (Double.parts x).Stands n

/-- The reply is neither an integer nor a double, and no text of a number below `2 ^ 64`. -/
structure Uncounted (r : Reply) : Prop where
  int (i : Int64) : r ≠ .int i
  double (x : Float) : r ≠ .double x
  text {n : Nat} : n < 2 ^ 64 → ¬ Denotes r n

variable {r : Reply} {w : UInt64} {n : Nat}

theorem toNat_toUInt64 (i : Int64) :
    (i.toUInt64.toNat : Int) = if i.toInt < 0 then i.toInt + 2 ^ 64 else i.toInt := by
  have hbits : i.toUInt64.toNat = i.toBitVec.toNat := rfl
  have hint : i.toInt = i.toBitVec.toInt := rfl
  rw [hbits, hint, BitVec.toInt_eq_toNat_cond]
  have hlt := i.toBitVec.isLt
  split <;> split <;> omega

theorem toUInt64_eq_iff {i : Int64} :
    i.toUInt64 = w ↔ Denotes (.int i) w.toNat ∨ Forced (.int i) w := by
  have hword := toNat_toUInt64 i
  rw [← UInt64.toNat_inj]
  constructor
  · intro h
    rw [h] at hword
    split at hword
    · next hneg => exact .inr (.int hneg hword)
    · exact .inl (.int hword.symm)
  · intro h
    rcases h with h | h
    · cases h with
      | int h =>
        rw [if_neg (by omega)] at hword
        omega
    · cases h with
      | int hneg h =>
        rw [if_pos hneg] at hword
        omega

theorem bulk_eq_some_iff {bytes : ByteArray} :
    (String.fromUTF8? bytes >>= Text.word?) = some w ↔ Denotes (.bulk bytes) w.toNat := by
  rw [Option.bind_eq_bind, Option.bind_eq_some_iff]
  simp only [Text.word?_eq_some_iff]
  constructor
  · intro h
    obtain ⟨s, hbytes, h⟩ := h
    exact .bulk hbytes h
  · intro h
    cases h with
    | bulk hbytes h => exact ⟨_, hbytes, h⟩

/-- The word of a reply is what the reply denotes, or what is forced upon it. -/
theorem toWord?_eq_some_iff : r.toWord? = some w ↔ Denotes r.data w.toNat ∨ Forced r.data w := by
  rw [toWord?]
  generalize r.data = d
  cases d with
  | int i => rw [Option.some.injEq, toUInt64_eq_iff]
  | simple s =>
    rw [Text.word?_eq_some_iff]
    exact ⟨fun h => .inl (.simple h), fun h => h.elim (fun | .simple h => h) nofun⟩
  | bulk bytes =>
    rw [bulk_eq_some_iff]
    exact ⟨.inl, fun h => h.elim id nofun⟩
  | double x =>
    rw [Option.some.injEq, Double.toWord_eq_iff]
    exact ⟨.imp .double .double, .imp (fun | .double h => h) (fun | .double h => h)⟩
  | _ => exact ⟨nofun, fun h => h.elim nofun nofun⟩

theorem count_eq_ok_iff : r.count = .ok w ↔ r.toWord? = some w := by
  rw [count]
  cases r.toWord? <;> simp

theorem Forced.not_denotes {d : Reply} (h : Forced d w) (hn : n < 2 ^ 64) : ¬ Denotes d n := by
  intro hd
  cases h with
  | int hneg =>
    cases hd
    omega
  | double h =>
    cases hd with
    | double hd => exact h.not_stands hn hd

/-- A word is forced upon a reply if and only if the reply is not faithful. -/
theorem faithful_iff {d : Reply} : Faithful d ↔ ∀ w, ¬ Forced d w := by
  constructor
  · intro h w hw
    cases hw with
    | int hneg => exact absurd (h.int _ rfl) (Int.not_le.mpr hneg)
    | double hw =>
      obtain ⟨n, hn, hs⟩ := h.double _ rfl
      exact hw.not_stands hn hs
  · intro h
    constructor
    · rintro i rfl
      by_contra hneg
      refine h i.toUInt64 (.int (Int.not_le.mp hneg) ?_)
      rw [toNat_toUInt64, if_pos (Int.not_le.mp hneg)]
    · rintro x rfl
      rcases Double.stands_or_forced_toWord x with hs | hf
      · exact ⟨_, (Double.toWord x).toNat_lt, hs⟩
      · exact absurd (.double hf) (h _)

theorem Uncounted.toWord?_eq_none (h : Uncounted r.data) : r.toWord? = none := by
  rw [Option.eq_none_iff_forall_ne_some]
  intro w hw
  rcases toWord?_eq_some_iff.mp hw with hd | hf
  · exact h.text w.toNat_lt hd
  · cases hd : r.data with
    | int i => exact h.int i hd
    | double x => exact h.double x hd
    | _ =>
      rw [hd] at hf
      cases hf

end Storehouse.Reply
