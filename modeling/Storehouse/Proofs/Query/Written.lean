import Storehouse.Proofs.Filter.Leaves
import Storehouse.Proofs.Query.Plain

namespace Storehouse

open Query (Atom Lexeme Test)

theorem Query.intercalate_cons (sep x : List Lexeme) (xs : List (List Lexeme)) :
    sep.intercalate (x :: xs) = x ++ xs.flatMap (sep ++ ·) := by
  induction xs generalizing x with
  | nil => simp
  | cons y ys ih =>
    rw [List.intercalate_cons_cons, ih, List.flatMap_cons, List.append_assoc, List.append_assoc]

namespace Operator

def test : Operator → Test
  | gt => .above
  | lt => .below
  | gte => .atLeast
  | lte => .atMost
  | like => .contains
  | _ => .equal

def negates : Operator → Bool
  | ne | notIn => true
  | _ => false

/-- What stands between the clauses of a condition: bars only for a membership test. -/
def joint (op : Operator) : List Lexeme :=
  if op = isIn then [.bar] else []

theorem eq_bar_of_mem_joint {op : Operator} {l : Lexeme} (h : l ∈ op.joint) : l = .bar := by
  rw [joint] at h
  split at h
  · exact List.mem_singleton.mp h
  · cases h

end Operator

namespace Condition

def atoms (c : Condition) : List Atom :=
  c.operand.scalars.map fun v => ⟨c.field, c.operator.test, v.render⟩

def lexemes (c : Condition) : List Lexeme :=
  c.operator.joint.intercalate (c.atoms.map fun a => [.atom c.operator.negates a])

theorem lexemes_eq_cons {c : Condition} {a : Atom} {as : List Atom} (h : c.atoms = a :: as) :
    c.lexemes = .atom c.operator.negates a ::
      as.flatMap fun b => c.operator.joint ++ [.atom c.operator.negates b] := by
  rw [lexemes, h, List.map_cons, Query.intercalate_cons, List.flatMap_map]
  rfl

theorem atoms_eq_cons {c : Condition} (h : c.operand.scalars ≠ []) :
    ∃ a as, c.atoms = a :: as := by
  obtain ⟨v, vs, hvs⟩ := List.exists_cons_of_ne_nil h
  rw [atoms, hvs]
  exact ⟨_, _, List.map_cons⟩

/-- The operand has the right kind and holds a value, and nothing in the condition can be taken for
query syntax. -/
structure Plain (c : Condition) : Prop where
  wellShaped : c.WellShaped
  nonempty : c.operand.scalars ≠ []
  field : Query.Plain c.field
  values : ∀ v ∈ c.operand.scalars, Query.Plain v.render

theorem Plain.plain_of_mem {c : Condition} (h : c.Plain) : ∀ a ∈ c.atoms, a.Plain := by
  intro a ha
  obtain ⟨v, hv, rfl⟩ := List.mem_map.mp ha
  exact ⟨h.field, h.values v hv⟩

theorem tag_toList (field : String) (v : Scalar) :
    (tag field v).toList = '@' :: (Atom.mk field .equal v.render).text := by
  simp [tag, Atom.text, Test.opener, Test.body, Test.closer]

theorem query_scalar {op : Operator} (h : op.takesList = false) (field : String) (v : Scalar) :
    ∃ s, query ⟨field, op, .scalar v⟩ = .ok s ∧
      s.toList = (if op.negates then ['-'] else []) ++
        '@' :: (Atom.mk field op.test v.render).text ++ if op = .like then [' '] else [] := by
  cases op <;> try cases h
  all_goals
    refine ⟨_, rfl, ?_⟩
    simp [tag, range, Atom.text, Operator.negates, Operator.test, Test.opener, Test.body,
      Test.closer, Query.plusInfinity, Query.minusInfinity]

theorem query_list {op : Operator} (h : op.takesList = true) (field : String)
    (vs : List Scalar) :
    ∃ s, query ⟨field, op, .list vs⟩ = .ok s ∧
      s.toList = (if op = .isIn then " | ".toList else [' ']).intercalate
        (vs.map fun v => (if op.negates then ['-'] else []) ++
          '@' :: (Atom.mk field op.test v.render).text) := by
  cases op <;> try cases h
  all_goals
    refine ⟨_, rfl, ?_⟩
    simp [String.toList_intercalate, Function.comp_def, tag_toList, Operator.negates, Operator.test]

theorem Plain.scans_query {c : Condition} (h : c.Plain) :
    ∃ s, c.query = .ok s ∧ Lexeme.Scans s.toList c.lexemes := by
  obtain ⟨field, op, operand⟩ := c
  have hatoms := h.plain_of_mem
  cases operand with
  | scalar v =>
    obtain ⟨s, hs, htext⟩ := query_scalar h.wellShaped field v
    have hin : op ≠ .isIn := by
      rintro rfl
      cases h.wellShaped
    have hclause := Lexeme.Scans.atom (hatoms _ (List.mem_singleton.mpr rfl)) op.negates
    have hblank : Lexeme.Scans (if op = .like then [' '] else []) [] := by
      split
      · exact .blank
      · exact .nil
    have hscan : Lexeme.Scans s.toList (lexemes ⟨field, op, .scalar v⟩) := by
      rw [htext]
      simpa [lexemes, atoms, Operand.scalars, hin] using hclause.append hblank
    exact ⟨s, hs, hscan⟩
  | list vs =>
    obtain ⟨s, hs, htext⟩ := query_list h.wellShaped field vs
    have hjoint : Lexeme.Scans (if op = .isIn then " | ".toList else [' ']) op.joint := by
      rw [Operator.joint]
      split
      · exact .bar
      · exact .blank
    have hscan : Lexeme.Scans s.toList (lexemes ⟨field, op, .list vs⟩) := by
      rw [htext, lexemes, atoms, List.map_map]
      apply hjoint.intercalate
      rw [List.forall₂_map_left_iff, List.forall₂_map_right_iff]
      apply List.forall₂_same.mpr
      intro v hv
      exact .atom (hatoms _ (List.mem_map_of_mem hv)) op.negates
    exact ⟨s, hs, hscan⟩

end Condition

namespace Filter

def Plain (f : Filter) : Prop :=
  ∀ c ∈ f.leaves, c.Plain

theorem Plain.leaf {c : Condition} (h : (Filter.leaf c).Plain) : c.Plain :=
  h c (List.mem_singleton.mpr rfl)

theorem Plain.of_mem {k : Combinator} {fs : List Filter} (h : (group k fs).Plain) {f : Filter}
    (hf : f ∈ fs) : f.Plain :=
  fun c hc => h c (mem_leaves_group.mpr ⟨f, hf, hc⟩)

mutual

def lexemes : Filter → List Lexeme
  | .leaf c => c.lexemes
  | .group combinator operands =>
    .opening :: ([.keyword combinator].intercalate (lexemesAll operands) ++ [.closing])

def lexemesAll : List Filter → List (List Lexeme)
  | [] => []
  | f :: rest => lexemes f :: lexemesAll rest

end

theorem lexemesAll_eq_map (fs : List Filter) : lexemesAll fs = fs.map lexemes := by
  induction fs with
  | nil => rfl
  | cons f fs ih => rw [lexemesAll, ih, List.map_cons]

def following (k : Combinator) (fs : List Filter) : List Lexeme :=
  fs.flatMap fun f => .keyword k :: f.lexemes

theorem lexemes_group_cons (k : Combinator) (f : Filter) (fs : List Filter) :
    (group k (f :: fs)).lexemes = .opening :: (f.lexemes ++ (following k fs ++ [.closing])) := by
  rw [lexemes, lexemesAll_eq_map, List.map_cons, Query.intercalate_cons, List.flatMap_map,
    List.append_assoc]
  rfl

theorem scans_queries {fs : List Filter}
    (h : ∀ f ∈ fs, ∃ s, f.query = .ok s ∧ Lexeme.Scans s.toList f.lexemes) :
    ∃ parts, queries fs = .ok parts ∧
      List.Forall₂ Lexeme.Scans (parts.map String.toList) (lexemesAll fs) := by
  induction fs with
  | nil => exact ⟨[], rfl, .nil⟩
  | cons f fs ih =>
    obtain ⟨s, hs, hscan⟩ := h f List.mem_cons_self
    obtain ⟨parts, hparts, hscans⟩ := ih fun g hg => h g (List.mem_cons_of_mem f hg)
    have hqueries : queries (f :: fs) = .ok (s :: parts) := by
      rw [queries, hs, hparts]
      rfl
    exact ⟨s :: parts, hqueries, .cons hscan hscans⟩

theorem Plain.scans_query {f : Filter} (h : f.Plain) :
    ∃ s, f.query = .ok s ∧ Lexeme.Scans s.toList f.lexemes := by
  induction f with
  | leaf c => exact h.leaf.scans_query
  | group k fs ih =>
    obtain ⟨parts, hparts, hscans⟩ := scans_queries fun f hf => ih f hf (h.of_mem hf)
    obtain ⟨s, hs⟩ : ∃ s, s = "(" ++ (" " ++ k.keyword ++ " ").intercalate parts ++ ")" := ⟨_, rfl⟩
    have hquery : (group k fs).query = .ok s := by
      rw [query, hparts, hs]
      rfl
    have hjoined := (Lexeme.Scans.keyword k).intercalate hscans
    have hscan : Lexeme.Scans s.toList (group k fs).lexemes := by
      rw [hs]
      simpa [lexemes, String.toList_intercalate] using hjoined.parenthesized
    exact ⟨s, hquery, hscan⟩

end Filter
end Storehouse
