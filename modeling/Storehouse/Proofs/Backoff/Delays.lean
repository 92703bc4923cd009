import Storehouse.Proofs.Backoff.Attempts

namespace Storehouse.Backoff

variable {σ ε α : Type} {multiply? : Nat → Float → Option Nat} {p : Policy} {transient : ε → Bool}
  {operation : σ → Except ε α × σ}

theorem Policy.next?_le_cap {delay next : Nat} (h : p.next? multiply? delay = some next) :
    next ≤ p.cap := by
  obtain ⟨n, -, rfl⟩ := Option.map_eq_some_iff.mp h
  exact Nat.min_le_right n p.cap

theorem Course.announcements_eq {attempt delay left : Nat} {s : σ} {r : Run σ ε α}
    (h : Course multiply? p transient operation attempt delay s left r) :
    announcements r.notices = sleeps r.notices := by
  induction h with
  | @succeeded attempt delay left s t a h =>
    dsimp only
    split
    · rfl
    · rfl
  | failed | stuck => rfl
  | @again attempt delay next left s t e r h htransient hnext hrest ih =>
    exact congrArg (delay :: ·) ih

/-- If anything is slept, it is the delay at hand and then delays that have been capped. -/
theorem Course.sleeps_cases {attempt delay left : Nat} {s : σ} {r : Run σ ε α}
    (h : Course multiply? p transient operation attempt delay s left r) :
    sleeps r.notices = [] ∨
      ∃ later, sleeps r.notices = delay :: later ∧ ∀ d ∈ later, d ≤ p.cap := by
  induction h with
  | @succeeded attempt delay left s t a h =>
    left
    dsimp only
    split
    · rfl
    · rfl
  | failed h hlast => exact .inl rfl
  | stuck h htransient hnext => exact .inr ⟨[], rfl, List.forall_mem_nil _⟩
  | @again attempt delay next left s t e r h htransient hnext hrest ih =>
    right
    refine ⟨sleeps r.notices, rfl, ?_⟩
    rcases ih with hnone | ⟨later, hlater, hcapped⟩
    · rw [hnone]
      exact List.forall_mem_nil _
    · rw [hlater]
      exact List.forall_mem_cons.mpr ⟨Policy.next?_le_cap hnext, hcapped⟩

/-- The delays that are slept are those that the warnings announce. Every one after the first is at
most the cap. All of them are if and only if nothing is slept or the initial delay is at most the
cap. -/
theorem delays_capped_iff (multiply? : Nat → Float → Option Nat) (p : Policy)
    (transient : ε → Bool) (operation : σ → Except ε α × σ) (s : σ) :
    announcements (p.runBy multiply? transient operation s).notices =
      sleeps (p.runBy multiply? transient operation s).notices ∧
    (∀ d ∈ (sleeps (p.runBy multiply? transient operation s).notices).tail, d ≤ p.cap) ∧
    ((∀ d ∈ sleeps (p.runBy multiply? transient operation s).notices, d ≤ p.cap) ↔
      sleeps (p.runBy multiply? transient operation s).notices = [] ∨ p.initial ≤ p.cap) := by
  have hcourse : Course multiply? p transient operation 1 p.initial s (p.attempts - 1) _ :=
    course_runBy s
  refine ⟨hcourse.announcements_eq, ?_⟩
  rcases hcourse.sleeps_cases with hnone | ⟨later, hsleeps, hcapped⟩
  · rw [hnone]
    simp
  · rw [hsleeps]
    refine ⟨hcapped, ?_⟩
    rw [List.forall_mem_cons]
    simpa using fun _ => hcapped

/-- A policy may start with a delay above its cap, and this delay is then slept. -/
theorem initial_delay_above_cap :
    Policy.Paced product? ⟨10000000, 5000000, 2, 2⟩ ∧
    ¬ ∀ d ∈ sleeps (Policy.run ⟨10000000, 5000000, 2, 2⟩ (fun _ => true)
      (inTurn fun i => if i = 1 then .error "reset" else .ok "42") 0).notices, d ≤ 5000000 := by
  refine ⟨by decide +kernel, ?_⟩
  have hsleeps : sleeps (Policy.run ⟨10000000, 5000000, 2, 2⟩ (fun _ => true)
      (inTurn fun i => if i = 1 then .error "reset" else .ok "42") 0).notices = [10000000] := by
    decide +kernel
  rw [hsleeps]
  decide

end Storehouse.Backoff
