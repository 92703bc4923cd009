import Storehouse.Proofs.Backoff.Products

namespace Storehouse.Backoff

variable {σ ε α : Type} {multiply? : Nat → Float → Option Nat} {p : Policy} {transient : ε → Bool}
  {operation : σ → Except ε α × σ}

/-- A run that gets stuck has reached a delay without a next one, and had attempts left. -/
theorem Course.exists_stuck {attempt delay left k : Nat} {s : σ} {r : Run σ ε α}
    (h : Course multiply? p transient operation attempt delay s left r)
    (hdelay : p.delay? multiply? k = some delay) (hstuck : r.result = none) :
    ∃ j d, j < k + left ∧ p.delay? multiply? j = some d ∧ p.next? multiply? d = none := by
  induction h generalizing k with
  | succeeded => cases hstuck
  | failed => cases hstuck
  | @stuck attempt delay left s t e h htransient hnext =>
    exact ⟨k, delay, by omega, hdelay, hnext⟩
  | @again attempt delay next left s t e r h htransient hnext hrest ih =>
    have hdelay' : p.delay? multiply? (k + 1) = some next := by
      rw [Policy.delay?, hdelay, Option.bind_some, hnext]
    obtain ⟨j, d, hj, hd, hnone⟩ := ih hdelay' hstuck
    exact ⟨j, d, by omega, hd, hnone⟩

/-- An operation that keeps failing reaches every delay that there is. -/
theorem stuck_of_failing {attempt delay left k j d : Nat} {s : σ} (e : ε) (hj : k ≤ j)
    (hleft : j < k + left) (hdelay : p.delay? multiply? k = some delay)
    (hd : p.delay? multiply? j = some d) (hnone : p.next? multiply? d = none) :
    (p.runFrom multiply? (fun _ => true) (fun s => ((.error e : Except ε α), s)) attempt delay s
      left).result = none := by
  induction left generalizing attempt delay k with
  | zero => omega
  | succ left ih =>
    rw [Policy.runFrom]
    cases hnext : p.next? multiply? delay with
    | none => rfl
    | some next =>
      have hne : j ≠ k := by
        rintro rfl
        cases hdelay.symm.trans hd
        cases hnext.symm.trans hnone
      have hdelay' : p.delay? multiply? (k + 1) = some next := by
        rw [Policy.delay?, hdelay, Option.bind_some, hnext]
      exact ih (by omega) (by omega) hdelay'

theorem Policy.delay?_le {k d : Nat} (h : p.delay? multiply? k = some d) :
    d ≤ max p.initial p.cap := by
  cases k with
  | zero =>
    cases h
    exact Nat.le_max_left _ _
  | succ k =>
    rw [Policy.delay?, Option.bind_eq_some_iff] at h
    obtain ⟨before, -, hnext⟩ := h
    exact (Policy.next?_le_cap hnext).trans (Nat.le_max_right _ _)

theorem next?_eq_none_iff {d : Nat} (h : (Double.parts p.factor).Nonnegative) (hd : d < durations) :
    p.next? product? d = none ↔ p.outgrows d = true := by
  rw [Policy.next?, Option.map_eq_none_iff]
  exact product?_eq_none_iff h hd

/-- Whatever the cap is, there is no next delay if the product with the factor is `2 ^ 64` seconds
or more. No run gets stuck if and only if the product is less for every delay that a failing
operation reaches; it is enough that the product is less for the first delay or the cap, whichever
is larger. -/
theorem stuck_iff_outgrown (p : Policy) (hfactor : (Double.parts p.factor).Nonnegative)
    (hinitial : p.initial < durations) (hcap : p.cap < durations) :
    (∀ d, d < durations → (p.next? product? d = none ↔ p.outgrows d = true)) ∧
    ((∀ (σ ε α : Type) (transient : ε → Bool) (operation : σ → Except ε α × σ) (s : σ),
        (p.run transient operation s).result ≠ none) ↔
      ∀ k d, k + 1 < p.attempts → p.delay? product? k = some d → p.outgrows d = false) ∧
    (p.outgrows (max p.initial p.cap) = false →
      ∀ (σ ε α : Type) (transient : ε → Bool) (operation : σ → Except ε α × σ) (s : σ),
        (p.run transient operation s).result ≠ none) := by
  have hmax : max p.initial p.cap < durations := Nat.max_lt.mpr ⟨hinitial, hcap⟩
  have hfirst : p.delay? product? 0 = some p.initial := rfl
  have hreached {k d : Nat} (hd : p.delay? product? k = some d) : d < durations :=
    Nat.lt_of_le_of_lt (Policy.delay?_le hd) hmax
  have hruns : (∀ (σ ε α : Type) (transient : ε → Bool) (operation : σ → Except ε α × σ) (s : σ),
        (p.run transient operation s).result ≠ none) ↔
      ∀ k d, k + 1 < p.attempts → p.delay? product? k = some d → p.outgrows d = false := by
    constructor
    · intro h k d hk hd
      rw [← Bool.not_eq_true, ← next?_eq_none_iff hfactor (hreached hd)]
      intro hnone
      exact h Unit Unit Unit _ _ () (stuck_of_failing () (Nat.zero_le k) (by omega) hfirst hd hnone)
    · intro h σ ε α transient operation s hstuck
      obtain ⟨j, d, hj, hd, hnone⟩ := (course_runBy s).exists_stuck hfirst hstuck
      rw [next?_eq_none_iff hfactor (hreached hd), h j d (by omega) hd] at hnone
      cases hnone
  refine ⟨fun d hd => next?_eq_none_iff hfactor hd, hruns, fun h => hruns.mpr ?_⟩
  intro k d hk hd
  rw [← Bool.not_eq_true] at h ⊢
  exact fun hout => h (outgrows_of_le hfactor (Policy.delay?_le hd) hmax hout)

/-- A command that keeps failing is given up after its last attempt. -/
theorem command_not_stuck :
    (Policy.command.run (fun _ => true) (inTurn fun _ => (.error "reset" : Except String String))
      0).result ≠ none ∧
    Policy.command.next? product? 2000000000 ≠ none := by
  have hparts : Double.parts Policy.command.factor = .finite false (2 ^ 52) (-51) := by
    decide +kernel
  have hfactor : (Double.parts Policy.command.factor).Nonnegative := by
    rw [hparts]
    exact .finite _ nofun
  obtain ⟨hnext, -, hruns⟩ := stuck_iff_outgrown Policy.command hfactor (by decide) (by decide)
  have hless : Policy.command.outgrows (max Policy.command.initial Policy.command.cap) = false := by
    decide +kernel
  refine ⟨hruns hless _ _ _ _ _ _, ?_⟩
  rw [ne_eq, hnext 2000000000 (by decide)]
  exact Bool.eq_false_iff.mp hless

/-- A second is to be multiplied by `10 ^ 20`, and not to grow beyond two seconds. -/
theorem stuck_below_cap :
    (Double.parts 1e20).Nonnegative ∧
    Policy.next? product? ⟨1000000000, 2000000000, 1e20, 3⟩ 1000000000 = none ∧
    (Policy.run ⟨1000000000, 2000000000, 1e20, 3⟩ (fun _ => true)
      (inTurn fun i => if i < 3 then .error "reset" else .ok "42") 0).result = none := by
  have hparts : Double.parts 1e20 = .finite false 6103515625000000 14 := by decide +kernel
  refine ⟨?_, by decide +kernel, by decide +kernel⟩
  rw [hparts]
  exact .finite _ nofun

end Storehouse.Backoff
