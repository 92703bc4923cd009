import Mathlib.Data.List.Forall2
import Mathlib.Order.Bounds.Basic
import Storehouse.Backoff

namespace Storehouse.Backoff

variable {σ ε α : Type} {multiply? : Nat → Float → Option Nat} {p : Policy} {transient : ε → Bool}
  {operation : σ → Except ε α × σ} {outcomes : Nat → Except ε α}

/-- The attempts from one on, with the delay that follows it if it fails and the number of attempts
that may come after it: a success or a failure ends them, or a delay is slept after a failure and,
unless the next delay cannot be computed, the attempts go on. -/
inductive Course (multiply? : Nat → Float → Option Nat) (p : Policy) (transient : ε → Bool)
    (operation : σ → Except ε α × σ) : Nat → Nat → σ → Nat → Run σ ε α → Prop
  | succeeded {attempt delay left : Nat} {s t : σ} {a : α} (h : operation s = (.ok a, t)) :
    Course multiply? p transient operation attempt delay s left
      ⟨some (.ok a), t, if attempt = 1 then [] else [.recovered (attempt - 1)]⟩
  | failed {attempt delay left : Nat} {s t : σ} {e : ε} (h : operation s = (.error e, t))
    (hlast : left = 0 ∨ transient e = false) :
    Course multiply? p transient operation attempt delay s left ⟨some (.error e), t, []⟩
  | stuck {attempt delay left : Nat} {s t : σ} {e : ε} (h : operation s = (.error e, t))
    (htransient : transient e = true) (hnext : p.next? multiply? delay = none) :
    Course multiply? p transient operation attempt delay s (left + 1)
      ⟨none, t, [.failed attempt e delay, .slept delay]⟩
  | again {attempt delay next left : Nat} {s t : σ} {e : ε} {r : Run σ ε α}
    (h : operation s = (.error e, t)) (htransient : transient e = true)
    (hnext : p.next? multiply? delay = some next)
    (hrest : Course multiply? p transient operation (attempt + 1) next t left r) :
    Course multiply? p transient operation attempt delay s (left + 1)
      (r.precede [.failed attempt e delay, .slept delay])

theorem course_runFrom (attempt delay : Nat) (s : σ) (left : Nat) :
    Course multiply? p transient operation attempt delay s left
      (p.runFrom multiply? transient operation attempt delay s left) := by
  induction left generalizing attempt delay s with
  | zero =>
    rw [Policy.runFrom]
    rcases h : operation s with ⟨_ | a, t⟩
    · exact .failed h (.inl rfl)
    · exact .succeeded h
  | succ left ih =>
    rw [Policy.runFrom]
    rcases h : operation s with ⟨e | a, t⟩
    · dsimp only
      split
      · next htransient =>
        cases hnext : p.next? multiply? delay with
        | none => exact .stuck h htransient hnext
        | some next => exact .again h htransient hnext (ih _ _ _)
      · next hpermanent => exact .failed h (.inr (Bool.eq_false_iff.mpr hpermanent))
    · exact .succeeded h

theorem course_runBy (s : σ) :
    Course multiply? p transient operation 1 p.initial s (p.attempts - 1)
      (p.runBy multiply? transient operation s) :=
  course_runFrom _ _ _ _

/-- The delay that follows a failure when there have been some before it. -/
def Policy.delay? (multiply? : Nat → Float → Option Nat) (p : Policy) : Nat → Option Nat
  | 0 => some p.initial
  | failures + 1 => (p.delay? multiply? failures).bind (p.next? multiply?)

/-- All delays that may have to be computed can be. -/
def Policy.Paced (multiply? : Nat → Float → Option Nat) (p : Policy) : Prop :=
  ∀ k < p.attempts, (p.delay? multiply? k).isSome

instance : Decidable (p.Paced multiply?) :=
  inferInstanceAs (Decidable (∀ k < p.attempts, (p.delay? multiply? k).isSome))

/-- An operation that ends as the outcomes say, the first of which has number 1. Its state is the
number of its calls. -/
def inTurn (outcomes : Nat → Except ε α) (calls : Nat) : Except ε α × Nat :=
  (outcomes (calls + 1), calls + 1)

/-- No attempt comes after the one with the given number, if `last` is the last one allowed. -/
def Stops (transient : ε → Bool) (outcomes : Nat → Except ε α) (last i : Nat) : Prop :=
  (∃ a, outcomes i = .ok a) ∨ (∃ e, outcomes i = .error e ∧ transient e = false) ∨ i = last

def Notice.announced? : Notice ε → Option Nat
  | .failed _ _ delay => some delay
  | _ => none

def Notice.slept? : Notice ε → Option Nat
  | .slept delay => some delay
  | _ => none

def announcements (notices : List (Notice ε)) : List Nat := notices.filterMap Notice.announced?

def sleeps (notices : List (Notice ε)) : List Nat := notices.filterMap Notice.slept?

/-- After an attempt that failed its number is reported, with its error and the delay, and then this
delay is slept. -/
inductive Pauses (multiply? : Nat → Float → Option Nat) (p : Policy) (outcomes : Nat → Except ε α)
    (k : Nat) : List (Notice ε) → Prop
  | failed {e : ε} {delay : Nat} (he : outcomes (k + 1) = .error e)
    (hdelay : p.delay? multiply? k = some delay) :
    Pauses multiply? p outcomes k [.failed (k + 1) e delay, .slept delay]

/-- A success is reported with the number of retries, if there were any. -/
def closing (outcomes : Nat → Except ε α) (n : Nat) : List (Notice ε) :=
  match outcomes n with
  | .ok _ => if n = 1 then [] else [.recovered (n - 1)]
  | .error _ => []

/-- The operation has been called `n` times, `k` of them earlier. Its last outcome is the result,
and there has been a pause after every other call. -/
structure Makes (multiply? : Nat → Float → Option Nat) (p : Policy) (outcomes : Nat → Except ε α)
    (k n : Nat) (r : Run Nat ε α) : Prop where
  result : r.result = some (outcomes n)
  calls : r.state = n
  notices : ∃ pauses, r.notices = pauses.flatten ++ closing outcomes n ∧
    List.Forall₂ (Pauses multiply? p outcomes) (List.range' k (n - 1 - k)) pauses

theorem sleeps_append (first rest : List (Notice ε)) :
    sleeps (first ++ rest) = sleeps first ++ sleeps rest :=
  List.filterMap_append

theorem sleeps_closing (n : Nat) : sleeps (closing outcomes n) = [] := by
  rw [closing]
  split
  · split
    · rfl
    · rfl
  · rfl

theorem sleeps_pauses {ks : List Nat} {pauses : List (List (Notice ε))}
    (h : List.Forall₂ (Pauses multiply? p outcomes) ks pauses) :
    (sleeps pauses.flatten).map some = ks.map (p.delay? multiply?) := by
  induction h with
  | nil => rfl
  | cons hfirst _ ih =>
    cases hfirst with
    | failed he hdelay =>
      rw [List.map_cons, ← ih, hdelay]
      rfl

theorem Makes.sleeps_eq {k n : Nat} {r : Run Nat ε α} (h : Makes multiply? p outcomes k n r) :
    (sleeps r.notices).map some = (List.range' k (n - 1 - k)).map (p.delay? multiply?) := by
  obtain ⟨pauses, hnotices, hpauses⟩ := h.notices
  rw [hnotices, sleeps_append, sleeps_closing, List.append_nil, sleeps_pauses hpauses]

theorem isLeast_here {P : Nat → Prop} {k : Nat} (h : P (k + 1)) :
    IsLeast {i | k < i ∧ P i} (k + 1) := by
  refine ⟨⟨Nat.lt_succ_self k, h⟩, ?_⟩
  rintro i ⟨hi, -⟩
  exact hi

theorem isLeast_later {P : Nat → Prop} {k n : Nat} (h : ¬ P (k + 1))
    (hn : IsLeast {i | k + 1 < i ∧ P i} n) : IsLeast {i | k < i ∧ P i} n := by
  obtain ⟨⟨hlt, hP⟩, hleast⟩ := hn
  refine ⟨⟨Nat.lt_of_succ_lt hlt, hP⟩, ?_⟩
  rintro i ⟨hi, hPi⟩
  have hne : i ≠ k + 1 := by
    rintro rfl
    exact h hPi
  exact hleast ⟨Nat.lt_of_le_of_ne hi hne.symm, hPi⟩

theorem makes_of_last {k : Nat} : Makes multiply? p outcomes k (k + 1)
    ⟨some (outcomes (k + 1)), k + 1, closing outcomes (k + 1)⟩ := by
  refine ⟨rfl, rfl, [], rfl, ?_⟩
  rw [Nat.add_sub_cancel, Nat.sub_self]
  exact .nil

theorem Makes.precede {k n delay : Nat} {e : ε} {r : Run Nat ε α} (hn : k + 1 < n)
    (he : outcomes (k + 1) = .error e) (hdelay : p.delay? multiply? k = some delay)
    (h : Makes multiply? p outcomes (k + 1) n r) :
    Makes multiply? p outcomes k n (r.precede [.failed (k + 1) e delay, .slept delay]) := by
  obtain ⟨hresult, hcalls, pauses, hnotices, hpauses⟩ := h
  refine ⟨hresult, hcalls, [.failed (k + 1) e delay, .slept delay] :: pauses, ?_, ?_⟩
  · exact congrArg ([Notice.failed (k + 1) e delay, .slept delay] ++ ·) hnotices
  · have hlength : n - 1 - k = (n - 1 - (k + 1)) + 1 := by omega
    rw [hlength, List.range'_succ]
    exact .cons (.failed he hdelay) hpauses

/-- Attempts from any one on, if the delay after it is the one that belongs there. -/
theorem Course.makes {attempt delay k left : Nat} {r : Run Nat ε α}
    (h : Course multiply? p transient (inTurn outcomes) attempt delay k left r)
    (hattempt : attempt = k + 1) (hdelay : p.delay? multiply? k = some delay)
    (hpaced : ∀ j ≤ k + left, (p.delay? multiply? j).isSome) :
    ∃ n, IsLeast {i | k < i ∧ Stops transient outcomes (k + 1 + left) i} n ∧
      Makes multiply? p outcomes k n r := by
  induction h with
  | @succeeded attempt delay left k t a h =>
    subst hattempt
    obtain ⟨hok, rfl⟩ := Prod.mk.inj h
    refine ⟨k + 1, isLeast_here (.inl ⟨a, hok⟩), ?_⟩
    have hmade : Makes multiply? p outcomes k (k + 1) _ := makes_of_last
    rw [closing, hok] at hmade
    exact hmade
  | @failed attempt delay left k t e h hlast =>
    obtain ⟨herror, rfl⟩ := Prod.mk.inj h
    have hstops : Stops transient outcomes (k + 1 + left) (k + 1) := by
      rcases hlast with rfl | hpermanent
      · exact .inr (.inr rfl)
      · exact .inr (.inl ⟨e, herror, hpermanent⟩)
    refine ⟨k + 1, isLeast_here hstops, ?_⟩
    have hmade : Makes multiply? p outcomes k (k + 1) _ := makes_of_last
    rw [closing, herror] at hmade
    exact hmade
  | @stuck attempt delay left k t e h htransient hnext =>
    -- the next delay is one of those that can be computed
    have hsome := hpaced (k + 1) (by omega)
    rw [Policy.delay?, hdelay, Option.bind_some, hnext] at hsome
    cases hsome
  | @again attempt delay next left k t e r h htransient hnext hrest ih =>
    subst hattempt
    obtain ⟨herror, rfl⟩ := Prod.mk.inj h
    have hdelay' : p.delay? multiply? (k + 1) = some next := by
      rw [Policy.delay?, hdelay, Option.bind_some, hnext]
    obtain ⟨n, hn, hmade⟩ := ih rfl hdelay' fun j hj => hpaced j (by omega)
    have hlast : k + 1 + 1 + left = k + 1 + (left + 1) := by omega
    rw [hlast] at hn
    have hgoes : ¬ Stops transient outcomes (k + 1 + (left + 1)) (k + 1) := by
      rintro (⟨a, hok⟩ | ⟨e', herror', hpermanent⟩ | heq)
      · exact nomatch hok.symm.trans herror
      · cases herror'.symm.trans herror
        exact nomatch hpermanent.symm.trans htransient
      · omega
    exact ⟨n, isLeast_later hgoes hn, hmade.precede hn.1.1 herror hdelay⟩

/-- The operation is called up to its first outcome that is a success, a failure for good or the
last one allowed. This outcome is the result, every call before it has a warning and a sleep, and a
success after retries is reported with their number. At least one call is made, and where every
failure is retried there is no failure for good. -/
theorem attempts_as_allowed (multiply? : Nat → Float → Option Nat) (p : Policy)
    (transient : ε → Bool) (outcomes : Nat → Except ε α) (h : p.Paced multiply?) :
    (∃ n, IsLeast {i | 1 ≤ i ∧ Stops transient outcomes (max 1 p.attempts) i} n ∧
      Makes multiply? p outcomes 0 n (p.runBy multiply? transient (inTurn outcomes) 0) ∧
      (sleeps (p.runBy multiply? transient (inTurn outcomes) 0).notices).length = n - 1) ∧
    (p.attempts = 0 → (p.runBy multiply? transient (inTurn outcomes) 0).state = 1) ∧
    ∀ (operation : σ → Except ε α × σ) (s : σ),
      p.runAlways operation s = p.run (fun _ => true) operation s := by
  have hpaced : ∀ j ≤ 0 + (p.attempts - 1), (p.delay? multiply? j).isSome := by
    intro j hj
    cases j with
    | zero => rfl
    | succ j => exact h (j + 1) (by omega)
  have hcourse : Course multiply? p transient (inTurn outcomes) 1 p.initial 0 (p.attempts - 1) _ :=
    course_runBy 0
  obtain ⟨n, hn, hmade⟩ := hcourse.makes rfl rfl hpaced
  have hlast : 0 + 1 + (p.attempts - 1) = max 1 p.attempts := by omega
  rw [hlast] at hn
  refine ⟨⟨n, hn, hmade, ?_⟩, ?_, fun _ _ => rfl⟩
  · simpa using congrArg List.length hmade.sleeps_eq
  · intro hzero
    have hle : n ≤ 1 := hn.2 ⟨Nat.le_refl 1, .inr (.inr (by omega))⟩
    exact hmade.calls.trans (Nat.le_antisymm hle hn.1.1)

/-- Two dropped connections and an answer, of five attempts that are allowed. -/
theorem attempts_until_third :
    Policy.Paced product? ⟨200000000, 500000000, 2, 5⟩ ∧
    (Policy.runBy product? ⟨200000000, 500000000, 2, 5⟩ (· == "dropped")
      (inTurn fun i => if i < 3 then .error "dropped" else .ok "PONG") 0).result =
        some (.ok "PONG") ∧
    (Policy.runBy product? ⟨200000000, 500000000, 2, 5⟩ (· == "dropped")
      (inTurn fun i => if i < 3 then .error "dropped" else .ok "PONG") 0).state = 3 := by
  have hpaced : Policy.Paced product? ⟨200000000, 500000000, 2, 5⟩ := by decide +kernel
  obtain ⟨⟨n, hn, hmade, -⟩, -⟩ := @attempts_as_allowed Nat String String product?
    ⟨200000000, 500000000, 2, 5⟩ (· == "dropped")
    (fun i => if i < 3 then .error "dropped" else .ok "PONG") hpaced
  have hthird : n = 3 := by
    apply hn.unique
    refine ⟨⟨by decide, .inl ⟨"PONG", rfl⟩⟩, ?_⟩
    rintro i ⟨-, ⟨a, hok⟩ | ⟨e, herror, hpermanent⟩ | hlast⟩
    · by_contra hi
      simp [Nat.lt_of_not_le hi] at hok
    · by_contra hi
      simp only [Nat.lt_of_not_le hi, if_true, Except.error.injEq] at herror
      subst herror
      exact absurd hpermanent (by decide)
    · subst hlast
      decide
  subst hthird
  exact ⟨hpaced, hmade.result, hmade.calls⟩

end Storehouse.Backoff
