import Storehouse.Proofs.Query.Written

namespace Storehouse

open Query (Atom Lexeme Test)

/-- The value as far as it shows in a query. -/
def Scalar.shown (v : Scalar) : Scalar := .text v.render

@[simp] theorem Scalar.render_shown (v : Scalar) : v.shown.render = v.render := rfl

def Query.Lexeme.atom? : Lexeme → Option Atom
  | .atom _ a => some a
  | _ => none

namespace Condition

/-- A test against one value is a test against a list of one. -/
def normal (c : Condition) : Condition :=
  match c.operator, c.operand with
  | .eq, .scalar v => isIn c.field [v.shown]
  | .ne, .scalar v => notIn c.field [v.shown]
  | op, .scalar v => ⟨c.field, op, .scalar v.shown⟩
  | op, .list vs => ⟨c.field, op, .list (vs.map Scalar.shown)⟩

@[simp] theorem tag_shown (field : String) (v : Scalar) : tag field v.shown = tag field v := rfl

theorem query_normal (c : Condition) : c.normal.query = c.query := by
  obtain ⟨field, op, operand⟩ := c
  cases operand <;> cases op <;> simp [normal, query, isIn, notIn, Function.comp_def]

theorem filterMap_lexemes (c : Condition) : c.lexemes.filterMap Lexeme.atom? = c.atoms := by
  have hjoint : c.operator.joint.filterMap Lexeme.atom? = [] := by
    rw [List.filterMap_eq_nil_iff]
    intro l hl
    rw [Operator.eq_bar_of_mem_joint hl]
    rfl
  cases hc : c.atoms with
  | nil =>
    rw [lexemes, hc]
    rfl
  | cons a as =>
    simp [lexemes_eq_cons hc, List.filterMap_flatMap, hjoint, Lexeme.atom?]

def ofTest (field : String) (negated : Bool) (test : Test) (values : List Scalar) : Condition :=
  match test, values with
  | .equal, vs => if negated then notIn field vs else isIn field vs
  | .above, v :: _ => gt field v
  | .below, v :: _ => lt field v
  | .atLeast, v :: _ => gte field v
  | .atMost, v :: _ => lte field v
  | .contains, v :: _ => like field v
  | _, [] => isIn field []

theorem normal_eq_ofTest {c : Condition} (h : c.WellShaped) :
    c.normal = ofTest c.field c.operator.negates c.operator.test
      (c.operand.scalars.map Scalar.shown) := by
  obtain ⟨field, op, operand⟩ := c
  cases operand <;> cases op <;> first | rfl | cases h

theorem map_shown_eq (c : Condition) :
    c.operand.scalars.map Scalar.shown = c.atoms.map fun a => .text a.value := by
  rw [atoms, List.map_map]
  rfl

theorem normal_eq_of_lexemes {c d : Condition} (hc : c.WellShaped) (hd : d.WellShaped)
    (hne : c.operand.scalars ≠ []) (h : c.lexemes = d.lexemes) : c.normal = d.normal := by
  have hatoms : c.atoms = d.atoms := by
    rw [← filterMap_lexemes, h, filterMap_lexemes]
  obtain ⟨a, as, ha⟩ := atoms_eq_cons hne
  have hda : d.atoms = a :: as := hatoms ▸ ha
  have hneg : c.operator.negates = d.operator.negates := by
    rw [lexemes_eq_cons ha, lexemes_eq_cons hda] at h
    exact (Lexeme.atom.inj (List.cons.inj h).1).1
  have hfirst {e : Condition} (he : e.atoms = a :: as) :
      a.field = e.field ∧ a.test = e.operator.test := by
    have hmem : a ∈ e.atoms := he ▸ List.mem_cons_self
    obtain ⟨v, -, rfl⟩ := List.mem_map.mp hmem
    exact ⟨rfl, rfl⟩
  rw [normal_eq_ofTest hc, normal_eq_ofTest hd, map_shown_eq, map_shown_eq, hatoms, hneg,
    ← (hfirst ha).1, ← (hfirst ha).2, ← (hfirst hda).1, ← (hfirst hda).2]

end Condition

namespace Filter

mutual

/-- Conditions in normal form; groups of fewer than two are joined by "and". -/
def normal : Filter → Filter
  | .leaf c => .leaf c.normal
  | .group combinator operands =>
    .group (if operands.length < 2 then .and else combinator) (normalAll operands)

def normalAll : List Filter → List Filter
  | [] => []
  | f :: rest => normal f :: normalAll rest

end

theorem normalAll_eq_map (fs : List Filter) : normalAll fs = fs.map normal := by
  induction fs with
  | nil => rfl
  | cons f fs ih => rw [normalAll, ih, List.map_cons]

theorem queries_normalAll {fs : List Filter} (h : ∀ f ∈ fs, f.normal.query = f.query) :
    queries (normalAll fs) = queries fs := by
  induction fs with
  | nil => rfl
  | cons f fs ih =>
    rw [normalAll, queries, queries, h f List.mem_cons_self,
      ih fun g hg => h g (List.mem_cons_of_mem f hg)]

theorem query_normal (f : Filter) : f.normal.query = f.query := by
  induction f with
  | leaf c => exact c.query_normal
  | group k fs ih =>
    rw [normal, query, query, queries_normalAll ih]
    cases fs with
    | nil => simp [queries]
    | cons f fs =>
      cases fs with
      | nil => simp [queries]
      | cons g fs => rw [if_neg (by simp)]

end Filter
end Storehouse
