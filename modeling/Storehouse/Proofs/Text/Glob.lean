import Storehouse.Proofs.Text.Bytes
import Mathlib.Data.List.Infix

namespace Storehouse.Glob

/-- The bytes `*`, `?`, `[` and the backslash, which do not stand for themselves. -/
def special : List UInt8 := [42, 63, 91, 92]

/-- What stands for one byte: any byte, a byte itself, or a class of ranges. -/
inductive Single
  | any
  | byte (b : UInt8)
  | oneOf (negated : Bool) (ranges : List (UInt8 × UInt8))
  deriving DecidableEq, Repr

inductive Item
  | run
  | one (s : Single)
  deriving DecidableEq, Repr

/-- The ends of a range may come in either order. -/
def Single.admits : Single → UInt8 → Bool
  | any, _ => true
  | byte b, c => b = c
  | oneOf negated ranges, c =>
    (ranges.any fun (low, high) => low ≤ c && c ≤ high || high ≤ c && c ≤ low) != negated

def accepts : List Item → List UInt8 → Bool
  | [], key => key.isEmpty
  | .run :: items, key => key.tails.any (accepts items)
  | .one _ :: _, [] => false
  | .one s :: items, c :: key => s.admits c && accepts items key

mutual
/-- The items of a pattern: `*` is a run, `?` any byte, `[` opens a class, and what follows a
backslash stands for itself, as a backslash at the end does. -/
def items : List UInt8 → List Item
  | [] => []
  | 42 :: rest => .run :: items rest
  | 63 :: rest => .one .any :: items rest
  | 91 :: 94 :: rest => members true [] rest
  | 91 :: rest => members false [] rest
  | 92 :: b :: rest => .one (.byte b) :: items rest
  | b :: rest => .one (.byte b) :: items rest

/-- The items from the middle of a class on, with the ranges before. The class goes on to the next
`]`, or to the end of the pattern. -/
def members (negated : Bool) (ranges : List (UInt8 × UInt8)) : List UInt8 → List Item
  | [] => [.one (.oneOf negated ranges)]
  | 92 :: b :: rest => members negated ((b, b) :: ranges) rest
  | 93 :: rest => .one (.oneOf negated ranges) :: items rest
  | low :: 45 :: high :: rest => members negated ((low, high) :: ranges) rest
  | b :: rest => members negated ((b, b) :: ranges) rest
end

def covers (pattern : String) (key : List UInt8) : Bool := accepts (items (Text.bytes pattern)) key

variable {p key rest : List UInt8} {b : UInt8}

theorem accepts_run {items : List Item} :
    accepts (.run :: items) key ↔ ∃ skipped rest, key = skipped ++ rest ∧ accepts items rest := by
  rw [accepts, List.any_eq_true]
  constructor
  · rintro ⟨rest, hmem, haccepts⟩
    obtain ⟨skipped, rfl⟩ := (List.mem_tails rest key).mp hmem
    exact ⟨skipped, rest, rfl, haccepts⟩
  · rintro ⟨skipped, rest, rfl, haccepts⟩
    exact ⟨rest, (List.mem_tails _ _).mpr (List.suffix_append skipped rest), haccepts⟩

theorem accepts_one {s : Single} {items : List Item} :
    accepts (.one s :: items) key ↔
      ∃ c rest, key = c :: rest ∧ s.admits c ∧ accepts items rest := by
  cases key with
  | nil => simp [accepts]
  | cons c rest => simp [accepts]

theorem items_cons_of_plain (h : b ∉ special) :
    items (b :: rest) = .one (.byte b) :: items rest := by
  simp only [special, List.mem_cons, List.not_mem_nil, or_false, not_or] at h
  obtain ⟨hrun, hany, hclass, hescape⟩ := h
  rw [items.eq_def]
  split <;> simp_all

/-- The length of the shortest keys that the items accept. -/
def shortest : List Item → Nat
  | [] => 0
  | .run :: items => shortest items
  | .one _ :: items => shortest items + 1

theorem exists_shortest {items : List Item} (h : accepts items key) :
    ∃ short, accepts items short ∧ short.length = shortest items := by
  induction items generalizing key with
  | nil => exact ⟨[], rfl, rfl⟩
  | cons item items ih =>
    cases item with
    | run =>
      obtain ⟨skipped, rest, rfl, hrest⟩ := accepts_run.mp h
      obtain ⟨short, haccepts, hlength⟩ := ih hrest
      exact ⟨short, accepts_run.mpr ⟨[], short, rfl, haccepts⟩, hlength⟩
    | one s =>
      obtain ⟨c, rest, rfl, hadmits, hrest⟩ := accepts_one.mp h
      obtain ⟨short, haccepts, hlength⟩ := ih hrest
      exact ⟨c :: short, accepts_one.mpr ⟨c, short, rfl, hadmits, haccepts⟩,
        congrArg (· + 1) hlength⟩

/-- No pattern needs more bytes than it has, and one with a star needs fewer, for a star is a run,
or it is escaped, or it stands in a class. -/
theorem shortest_le :
    (∀ p, shortest (items p) ≤ p.length ∧ (42 ∈ p → shortest (items p) < p.length)) ∧
    ∀ negated ranges p, shortest (members negated ranges p) ≤ max 1 p.length ∧
      (42 ∈ p → shortest (members negated ranges p) < max 2 p.length) := by
  apply items.mutual_induct
  all_goals grind [items, members, shortest, List.length_pos_of_mem]

theorem shortest_star (p : List UInt8) : shortest (items (p ++ [42])) < p.length + 1 := by
  have hstar : 42 ∈ p ++ [42] := by simp
  simpa using (shortest_le.1 (p ++ [42])).2 hstar

theorem shortest_class (h : 42 ∈ p) : shortest (items (91 :: p)) < max 2 p.length := by
  by_cases hcaret : ∃ rest, p = 94 :: rest
  · obtain ⟨rest, rfl⟩ := hcaret
    have hlt := (shortest_le.2 true [] rest).2 (by simpa using h)
    rw [items, List.length_cons]
    omega
  · rw [items]
    · exact (shortest_le.2 false [] p).2 h
    · intro rest hrest
      exact hcaret ⟨rest, hrest⟩

theorem admits_byte {c : UInt8} : (Single.byte b).admits c ↔ b = c := by
  rw [Single.admits, decide_eq_true_eq]

theorem accepts_append_star_of_plain (h : ∀ b ∈ p, b ∉ special) :
    accepts (items (p ++ [42])) key ↔ p <+: key := by
  induction p generalizing key with
  | nil =>
    simp only [List.nil_append, List.nil_prefix, iff_true]
    exact accepts_run.mpr ⟨key, [], (List.append_nil key).symm, rfl⟩
  | cons b p ih =>
    obtain ⟨hb, hp⟩ := List.forall_mem_cons.mp h
    rw [List.cons_append, items_cons_of_plain hb, accepts_one]
    constructor
    · rintro ⟨c, rest, rfl, hadmits, hrest⟩
      exact List.cons_prefix_cons.mpr ⟨admits_byte.mp hadmits, (ih hp).mp hrest⟩
    · rintro ⟨rest, rfl⟩
      exact ⟨b, p ++ rest, rfl, admits_byte.mpr rfl, (ih hp).mpr (List.prefix_append p rest)⟩

/-- A pattern that needs fewer bytes than the text has covers a key that is too short. -/
theorem exists_foreign_of_shortest_lt {items : List Item} (h : accepts items key)
    (hlt : shortest items < p.length) : ∃ foreign, accepts items foreign ∧ ¬ p <+: foreign := by
  obtain ⟨short, haccepts, hlength⟩ := exists_shortest h
  refine ⟨short, haccepts, ?_⟩
  intro hprefix
  have hle := hprefix.length_le
  omega

theorem not_cons_prefix {c : UInt8} (h : b ≠ c) : ¬ b :: p <+: c :: rest :=
  fun hprefix => h (List.cons_prefix_cons.mp hprefix).1

/-- Where a byte of the text has a meaning in patterns, a key is covered that does not begin with
the text. -/
theorem exists_foreign (hspecial : ∃ b ∈ p, b ∈ special) (h : accepts (items (p ++ [42])) key) :
    ∃ foreign, accepts (items (p ++ [42])) foreign ∧ ¬ p <+: foreign := by
  induction p generalizing key with
  | nil => simp at hspecial
  | cons b p ih =>
    rw [List.cons_append] at h ⊢
    by_cases hb : b ∈ special
    · simp only [special, List.mem_cons, List.not_mem_nil, or_false] at hb
      rcases hb with rfl | rfl | rfl | rfl
      · apply exists_foreign_of_shortest_lt h
        rw [items, shortest, List.length_cons]
        exact shortest_star p
      · rw [items] at h ⊢
        obtain ⟨_, rest, rfl, _, hrest⟩ := accepts_one.mp h
        exact ⟨0 :: rest, accepts_one.mpr ⟨0, rest, rfl, rfl, hrest⟩, not_cons_prefix (by decide)⟩
      · cases p with
        | nil => exact ⟨[42], by decide, by decide⟩
        | cons c p =>
          apply exists_foreign_of_shortest_lt h
          have hlt : shortest (items (91 :: (c :: p ++ [42]))) < _ := shortest_class (by simp)
          simp only [List.length_cons, List.length_append, List.length_nil] at hlt ⊢
          omega
      · cases p with
        | nil => exact ⟨[42], by decide, by decide⟩
        | cons c p =>
          apply exists_foreign_of_shortest_lt h
          have hlt := shortest_star p
          rw [List.cons_append, items, shortest, List.length_cons, List.length_cons]
          omega
    · rw [items_cons_of_plain hb] at h ⊢
      obtain ⟨c, rest, rfl, hadmits, hrest⟩ := accepts_one.mp h
      have hp : ∃ b ∈ p, b ∈ special := by
        obtain ⟨b', hmem, hb'⟩ := hspecial
        rcases List.mem_cons.mp hmem with rfl | hmem
        · exact absurd hb' hb
        · exact ⟨b', hmem, hb'⟩
      obtain ⟨foreign, haccepts, hforeign⟩ := ih hp hrest
      refine ⟨c :: foreign, accepts_one.mpr ⟨c, foreign, rfl, hadmits, haccepts⟩, ?_⟩
      intro hprefix
      exact hforeign (List.cons_prefix_cons.mp hprefix).2

/-- A text followed by a star covers just the keys that begin with this text if and only if no byte
of the text has a meaning in patterns. -/
theorem accepts_append_star_iff :
    (∀ key, accepts (items (p ++ [42])) key ↔ p <+: key) ↔ ∀ b ∈ p, b ∉ special := by
  constructor
  · intro hexact b hb hspecial
    have hself := (hexact p).mpr List.prefix_rfl
    obtain ⟨foreign, haccepts, hforeign⟩ := exists_foreign ⟨b, hb, hspecial⟩ hself
    exact hforeign ((hexact foreign).mp haccepts)
  · intro hplain key
    exact accepts_append_star_of_plain hplain

end Storehouse.Glob
