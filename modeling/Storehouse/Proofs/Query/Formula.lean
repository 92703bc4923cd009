import Storehouse.Proofs.Query.Lexeme

namespace Storehouse.Query

inductive Formula
  | atom (a : Atom)
  | not (φ : Formula)
  | and (φ ψ : Formula)
  | or (φ ψ : Formula)
  deriving DecidableEq, Repr

namespace Formula

def holds (v : Atom → Bool) : Formula → Bool
  | atom a => v a
  | not φ => !φ.holds v
  | and φ ψ => φ.holds v && ψ.holds v
  | or φ ψ => φ.holds v || ψ.holds v

def literal (negated : Bool) (a : Atom) : Formula :=
  if negated then .not (.atom a) else .atom a

theorem holds_literal (v : Atom → Bool) (negated : Bool) (a : Atom) :
    (literal negated a).holds v = (negated ^^ v a) := by
  cases negated
  · simp [literal, holds]
  · simp [literal, holds]

end Formula

/-- What has been read since a parenthesis was opened: the alternatives before the last bar, the
conjunction since then, and whether an operand has to follow. -/
structure Level where
  earlier : Option Formula
  current : Option Formula
  due : Bool
  deriving DecidableEq, Repr

namespace Level

def empty : Level := ⟨none, none, false⟩

def operand (l : Level) (φ : Formula) : Level :=
  ⟨l.earlier, some (l.current.elim φ (.and · φ)), false⟩

def formula? (l : Level) : Option Formula :=
  if l.due then none else l.current.map fun φ => l.earlier.elim φ (.or · φ)

def join? (l : Level) : Combinator → Option Level
  | .and => if l.due || l.current.isNone then none else some { l with due := true }
  | .or => l.formula?.map fun φ => ⟨some φ, none, false⟩

end Level

structure Reading where
  outer : List Level
  inner : Level
  deriving DecidableEq, Repr

namespace Reading

def start : Reading := ⟨[], .empty⟩

def step? (r : Reading) : Lexeme → Option Reading
  | .opening => some ⟨r.inner :: r.outer, .empty⟩
  | .closing =>
    match r.outer with
    | [] => none
    | l :: outer => r.inner.formula?.map fun φ => ⟨outer, l.operand φ⟩
  | .bar => (r.inner.join? .or).map fun l => { r with inner := l }
  | .keyword k => (r.inner.join? k).map fun l => { r with inner := l }
  | .atom negated a => some { r with inner := r.inner.operand (.literal negated a) }

end Reading

def Formula.ofQuery? (s : String) : Option Formula := do
  let lexemes ← Lexeme.ofText? s
  let reading ← lexemes.foldlM Reading.step? .start
  if reading.outer.isEmpty then reading.inner.formula? else none

structure Truth where
  earlier : Bool
  current : Bool

namespace Truth

def empty : Truth := ⟨false, true⟩

def operand (t : Truth) (b : Bool) : Truth := ⟨t.earlier, t.current && b⟩

def overall (t : Truth) : Bool := t.earlier || t.current

def bar (t : Truth) : Truth := ⟨t.overall, true⟩

/-- An operand with bars in it: the first alternative belongs to the conjunction before it, each
further one is a conjunction of its own. -/
def absorb (t : Truth) : List Bool → Truth
  | [] => t
  | b :: bs => bs.foldl (fun t b => t.bar.operand b) (t.operand b)

theorem overall_foldl_bar (t : Truth) (bs : List Bool) :
    (bs.foldl (fun t b => t.bar.operand b) t).overall = (t.overall || bs.any id) := by
  induction bs generalizing t with
  | nil => simp
  | cons b bs ih =>
    rw [List.foldl_cons, ih, List.any_cons, ← Bool.or_assoc]
    rfl

theorem overall_absorb_cons (t : Truth) (b : Bool) (bs : List Bool) :
    (t.absorb (b :: bs)).overall = (t.earlier || t.current && b || bs.any id) :=
  overall_foldl_bar (t.operand b) bs

end Truth

namespace Level

def truth (v : Atom → Bool) (l : Level) : Truth :=
  ⟨l.earlier.any (·.holds v), l.current.all (·.holds v)⟩

/-- The last alternative has an operand and lacks none. -/
def Complete (l : Level) : Prop :=
  l.current.isSome = true ∧ l.due = false

theorem complete_operand (l : Level) (φ : Formula) : (l.operand φ).Complete :=
  ⟨rfl, rfl⟩

theorem truth_operand (v : Atom → Bool) (l : Level) (φ : Formula) :
    (l.operand φ).truth v = (l.truth v).operand (φ.holds v) := by
  obtain ⟨earlier, current, due⟩ := l
  cases current with
  | none => rfl
  | some ψ => rfl

theorem Complete.formula? {l : Level} (h : l.Complete) :
    ∃ φ, l.formula? = some φ ∧ ∀ v, φ.holds v = (l.truth v).overall := by
  obtain ⟨earlier, current, due⟩ := l
  obtain ⟨hsome, rfl⟩ := h
  obtain ⟨φ, rfl⟩ := Option.isSome_iff_exists.mp hsome
  cases earlier with
  | none => exact ⟨φ, rfl, fun v => rfl⟩
  | some ψ => exact ⟨.or ψ φ, rfl, fun v => rfl⟩

theorem Complete.join?_and {l : Level} (h : l.Complete) :
    ∃ m, l.join? .and = some m ∧ ∀ v, m.truth v = l.truth v := by
  obtain ⟨hsome, hdue⟩ := h
  have hnone : l.current.isNone = false := by rw [Option.isNone_eq_false_iff, hsome]
  have hjoin : l.join? .and = some { l with due := true } := by
    simp only [join?, hdue, hnone, Bool.or_self, Bool.false_eq_true, if_false]
  exact ⟨_, hjoin, fun v => rfl⟩

theorem Complete.join?_or {l : Level} (h : l.Complete) :
    ∃ m, l.join? .or = some m ∧ ∀ v, m.truth v = (l.truth v).bar := by
  obtain ⟨φ, hφ, htruth⟩ := h.formula?
  have hjoin : l.join? .or = some ⟨some φ, none, false⟩ := by
    rw [join?, hφ]
    rfl
  have hbar (v : Atom → Bool) : Level.truth v ⟨some φ, none, false⟩ = (l.truth v).bar := by
    rw [Truth.bar, ← htruth]
    rfl
  exact ⟨_, hjoin, hbar⟩

end Level

/-- Inside any parentheses, the lexemes take the innermost level from `l` to `m`. -/
def Reads (ls : List Lexeme) (l m : Level) : Prop :=
  ∀ outer, ls.foldlM Reading.step? ⟨outer, l⟩ = some ⟨outer, m⟩

namespace Reads

variable {ls ms : List Lexeme} {l m n : Level}

theorem nil (l : Level) : Reads [] l l :=
  fun _ => rfl

theorem append (h : Reads ls l m) (h' : Reads ms m n) : Reads (ls ++ ms) l n := by
  intro outer
  rw [List.foldlM_append, h outer]
  exact h' outer

theorem atom (negated : Bool) (a : Atom) (l : Level) :
    Reads [.atom negated a] l (l.operand (.literal negated a)) :=
  fun _ => rfl

theorem keyword {k : Combinator} (h : l.join? k = some m) : Reads [.keyword k] l m := by
  intro outer
  simp [Reading.step?, h]

theorem bar (h : l.join? .or = some m) : Reads [.bar] l m := by
  intro outer
  simp [Reading.step?, h]

theorem parenthesized {φ : Formula} (h : Reads ls .empty m) (hφ : m.formula? = some φ)
    (l : Level) : Reads (.opening :: (ls ++ [.closing])) l (l.operand φ) := by
  intro outer
  have hopen : Reading.step? ⟨outer, l⟩ .opening = some ⟨l :: outer, .empty⟩ := rfl
  rw [List.foldlM_cons, hopen, Option.bind_eq_bind, Option.bind_some, List.foldlM_append,
    h (l :: outer)]
  simp [Reading.step?, hφ]

end Reads

theorem Formula.ofQuery?_of_reads {s : String} {ls : List Lexeme} {m : Level}
    (hs : Lexeme.Scans s.toList ls) (h : Reads ls .empty m) : ofQuery? s = m.formula? := by
  simp only [ofQuery?, Lexeme.ofText?_of_scans hs, Option.bind_eq_bind, Option.bind_some]
  rw [Reading.start, h [], Option.bind_some]
  rfl

end Storehouse.Query
