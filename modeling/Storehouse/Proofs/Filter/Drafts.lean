import Storehouse.Proofs.Query.Compiled

namespace Storehouse.Filter

/-- A call to a draft: to join its filters by "or", to add a filter, or to add a condition that one
of the constructors makes. -/
inductive Draft.Call
  | any
  | push (f : Filter)
  | condition {c : Condition} (h : BuiltCondition c)

namespace Draft

def Call.added? : Call → Option Filter
  | any => none
  | push f => some f
  | @condition c _ => some (.leaf c)

def Call.apply (d : Draft) : Call → Draft
  | any => d.any
  | push f => d.push f
  | @condition c _ => d.pushCondition c

/-- A new draft after some calls, the first of them first. -/
def ofCalls (calls : List Call) : Draft := calls.foldl Call.apply empty

def added (calls : List Call) : List Filter := calls.filterMap Call.added?

/-- The group of all filters added, also where there is only one. -/
def joined (calls : List Call) : Filter := .group (ofCalls calls).combinator (added calls)

variable {calls : List Call} {d : Draft}

theorem nodes_foldl : (calls.foldl Call.apply d).nodes = d.nodes ++ added calls := by
  induction calls generalizing d with
  | nil => exact (List.append_nil _).symm
  | cons call calls ih =>
    rw [List.foldl_cons, ih]
    cases call with
    | any => rfl
    | push f => exact List.append_assoc d.nodes [f] (added calls)
    | @condition c _ => exact List.append_assoc d.nodes [.leaf c] (added calls)

/-- Once the filters are to be joined by "or", no call takes that back. -/
theorem combinator_foldl : (calls.foldl Call.apply d).combinator = .or ↔
    d.combinator = .or ∨ Call.any ∈ calls := by
  induction calls generalizing d with
  | nil => simp
  | cons call calls ih =>
    rw [List.foldl_cons, ih]
    cases call with
    | any => simp [Call.apply, Draft.any]
    | push f => simp [Call.apply, Draft.push]
    | condition h => simp [Call.apply, pushCondition, Draft.push]

theorem nodes_ofCalls : (ofCalls calls).nodes = added calls := nodes_foldl

theorem combinator_ofCalls : (ofCalls calls).combinator = .or ↔ Call.any ∈ calls := by
  rw [ofCalls, combinator_foldl]
  simp [empty]

theorem build_of_single {f : Filter} (h : d.nodes = [f]) : d.build = f := by
  rw [build, h]

theorem build_of_length_ne (h : d.nodes.length ≠ 1) : d.build = .group d.combinator d.nodes := by
  rw [build]
  split
  · next f hf =>
    rw [hf] at h
    exact absurd rfl h
  · rfl

theorem joined_of_mem (h : Call.any ∈ calls) : joined calls = Filter.any (added calls) := by
  rw [joined, combinator_ofCalls.mpr h]
  rfl

theorem joined_of_not_mem (h : Call.any ∉ calls) : joined calls = all (added calls) := by
  have hand : (ofCalls calls).combinator = .and := by
    cases hk : (ofCalls calls).combinator with
    | and => rfl
    | or => exact absurd (combinator_ofCalls.mp hk) h
  rw [joined, hand]
  rfl

end Draft

theorem query_group_singleton (k : Combinator) (f : Filter) :
    (group k [f]).query = (fun s => "(" ++ s ++ ")") <$> f.query := by
  rw [query, queries]
  cases f.query <;> rfl

/-- A draft after any calls stands for the filters added, in the order of the calls. A single one
is built as it is; any other number makes the group of all of them, whose combinator is "or" if and
only if one of the calls asked for it. So the draft has the query of that group, or its fault, and
only around a single filter the parentheses of the group are missing. -/
theorem draft_joins_added (calls : List Draft.Call) :
    ((Draft.ofCalls calls).combinator = .or ↔ Draft.Call.any ∈ calls) ∧
    (Draft.Call.any ∈ calls → Draft.joined calls = Filter.any (Draft.added calls)) ∧
    (Draft.Call.any ∉ calls → Draft.joined calls = Filter.all (Draft.added calls)) ∧
    (∀ f, Draft.added calls = [f] → (Draft.ofCalls calls).build = f ∧
      Clause.query (some (.draft (Draft.ofCalls calls))) = f.query ∧
      (Draft.joined calls).query = (fun s => "(" ++ s ++ ")") <$> f.query) ∧
    ((Draft.added calls).length ≠ 1 →
      (Draft.ofCalls calls).build = .group (Draft.ofCalls calls).combinator (Draft.added calls) ∧
      Clause.query (some (.draft (Draft.ofCalls calls))) = (Draft.joined calls).query) := by
  refine ⟨Draft.combinator_ofCalls, Draft.joined_of_mem, Draft.joined_of_not_mem, ?_, ?_⟩
  · intro f hf
    have hbuild : (Draft.ofCalls calls).build = f :=
      Draft.build_of_single (Draft.nodes_ofCalls.trans hf)
    refine ⟨hbuild, congrArg query hbuild, ?_⟩
    rw [Draft.joined, hf]
    exact query_group_singleton _ f
  · intro hlength
    have hbuild : (Draft.ofCalls calls).build = Draft.joined calls := by
      rw [Draft.joined, ← Draft.nodes_ofCalls]
      rw [← Draft.nodes_ofCalls] at hlength
      exact Draft.build_of_length_ne hlength
    exact ⟨hbuild, congrArg query hbuild⟩

/-- A call between two filters joins both of them, and leaves a single one as it is. -/
theorem draft_joins_two :
    (Draft.ofCalls [.push (all []), .any, .push (any [])]).build = any [all [], any []] ∧
    (Draft.ofCalls [.any, .push (all [])]).build = all [] ∧ (Draft.ofCalls []).build = all [] := by
  obtain ⟨-, hany, -, -, hgroup⟩ := draft_joins_added [.push (all []), .any, .push (any [])]
  obtain ⟨-, -, -, hsingle, -⟩ := draft_joins_added [.any, .push (all [])]
  obtain ⟨-, -, hall, -, hnone⟩ := draft_joins_added []
  refine ⟨?_, (hsingle _ rfl).1, ?_⟩
  · exact (hgroup (by decide)).1.trans (hany (by simp))
  · exact (hnone (by decide)).1.trans (hall List.not_mem_nil)

end Storehouse.Filter
