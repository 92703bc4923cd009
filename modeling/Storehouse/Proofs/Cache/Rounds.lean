import Storehouse.Cache

namespace Storehouse.Cache

variable {σ : Type} {c : Cache} {cursor : String} {removed : UInt64} {execute : Executor σ}
  {x y : Exchange σ} {result : Option (Except Fault UInt64)}

/-- The rounds from a cursor on, with the number of keys removed before, come to this result. -/
inductive ClearsFrom (execute : Executor σ) (c : Cache) :
    String → UInt64 → Exchange σ → Option (Except Fault UInt64) → Exchange σ → Prop
  | failed {cursor : String} {removed : UInt64} {x y : Exchange σ} {e : Fault}
    (h : (c.sweep cursor).run execute x = (.error e, y)) :
    ClearsFrom execute c cursor removed x (some (.error e)) y
  | noParts {cursor : String} {removed : UInt64} {x y : Exchange σ}
    (h : (c.sweep cursor).run execute x = (.ok none, y)) :
    ClearsFrom execute c cursor removed x none y
  | outgrown {cursor next : String} {removed n : UInt64} {x y : Exchange σ}
    (h : (c.sweep cursor).run execute x = (.ok (some (next, n)), y))
    (hsum : sum? removed n = none) : ClearsFrom execute c cursor removed x none y
  | last {cursor : String} {removed n total : UInt64} {x y : Exchange σ}
    (h : (c.sweep cursor).run execute x = (.ok (some ("0", n)), y))
    (hsum : sum? removed n = some total) :
    ClearsFrom execute c cursor removed x (some (.ok total)) y
  | more {cursor next : String} {removed n total : UInt64} {x y z : Exchange σ}
    {result : Option (Except Fault UInt64)}
    (h : (c.sweep cursor).run execute x = (.ok (some (next, n)), y))
    (hsum : sum? removed n = some total) (hnext : next ≠ "0")
    (hlater : ClearsFrom execute c next total y result z) :
    ClearsFrom execute c cursor removed x result z

/-- Without a beginning nothing is sent, else the rounds start with the first cursor. -/
inductive Clears (execute : Executor σ) (c : Cache) :
    Exchange σ → Option (Except Fault UInt64) → Exchange σ → Prop
  | refused (h : c.space.isEmpty = true) (x : Exchange σ) :
    Clears execute c x (some (.error (.misconfigured .clearWithoutPrefix))) x
  | rounds {x y : Exchange σ} {result : Option (Except Fault UInt64)}
    (h : c.space.isEmpty = false) (hrounds : ClearsFrom execute c "0" 0 x result y) :
    Clears execute c x result y

namespace ClearsFrom

variable {next : String} {n total : UInt64} {z : Exchange σ}

theorem of_error {e : Fault} (h : ClearsFrom execute c cursor removed x result y)
    (hrun : (c.sweep cursor).run execute x = (.error e, z)) :
    result = some (.error e) ∧ y = z := by
  cases h <;> simp_all

theorem of_noParts (h : ClearsFrom execute c cursor removed x result y)
    (hrun : (c.sweep cursor).run execute x = (.ok none, z)) : result = none ∧ y = z := by
  cases h <;> simp_all

theorem of_outgrown (h : ClearsFrom execute c cursor removed x result y)
    (hrun : (c.sweep cursor).run execute x = (.ok (some (next, n)), z))
    (hsum : sum? removed n = none) : result = none ∧ y = z := by
  cases h <;> simp_all

theorem of_last (h : ClearsFrom execute c cursor removed x result y)
    (hrun : (c.sweep cursor).run execute x = (.ok (some ("0", n)), z))
    (hsum : sum? removed n = some total) : result = some (.ok total) ∧ y = z := by
  cases h <;> simp_all

theorem of_more (h : ClearsFrom execute c cursor removed x result y)
    (hrun : (c.sweep cursor).run execute x = (.ok (some (next, n)), z))
    (hsum : sum? removed n = some total) (hnext : next ≠ "0") :
    ClearsFrom execute c next total z result y := by
  cases h <;> simp_all

theorem unique {result' : Option (Except Fault UInt64)} {y' : Exchange σ}
    (h : ClearsFrom execute c cursor removed x result y)
    (h' : ClearsFrom execute c cursor removed x result' y') : result' = result ∧ y' = y := by
  induction h with
  | failed hrun => exact h'.of_error hrun
  | noParts hrun => exact h'.of_noParts hrun
  | outgrown hrun hsum => exact h'.of_outgrown hrun hsum
  | last hrun hsum => exact h'.of_last hrun hsum
  | more hrun hsum hnext _ ih => exact ih (h'.of_more hrun hsum hnext)

end ClearsFrom

theorem clearsFrom_clearFrom (c : Cache) (cursor : String) (removed : UInt64)
    (x : Exchange Script) :
    ClearsFrom Script.execute c cursor removed x (c.clearFrom cursor removed x).1
      (c.clearFrom cursor removed x).2 := by
  fun_induction clearFrom c cursor removed x with
  | case1 cursor removed x e y h => exact .failed h
  | case2 cursor removed x y h => exact .noParts h
  | case3 cursor removed x next n y h hsum => exact .outgrown h hsum
  | case4 cursor removed x n y total hsum h => exact .last h hsum
  | case5 cursor removed x next n y h total hsum hnext ih => exact .more h hsum hnext ih

/-- On a script the rounds are the clearing that is run there. -/
theorem clears_iff {x y : Exchange Script} :
    Clears Script.execute c x result y ↔ c.clear x = (result, y) := by
  cases hempty : c.space.isEmpty with
  | true =>
    rw [clear, if_pos hempty]
    constructor
    · intro h
      cases h with
      | refused => rfl
      | rounds hfull => cases hempty.symm.trans hfull
    · intro h
      cases h
      exact .refused hempty x
  | false =>
    rw [clear, if_neg (Bool.eq_false_iff.mp hempty)]
    constructor
    · intro h
      cases h with
      | refused hnone => cases hempty.symm.trans hnone
      | rounds _ hrounds =>
        obtain ⟨rfl, rfl⟩ := (c.clearsFrom_clearFrom "0" 0 x).unique hrounds
        rfl
    · intro h
      have hrounds := c.clearsFrom_clearFrom "0" 0 x
      rw [h] at hrounds
      exact .rounds hempty hrounds

end Storehouse.Cache
