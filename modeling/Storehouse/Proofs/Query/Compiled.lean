import Storehouse.Filter.Clause
import Storehouse.Proofs.Query.Written

namespace Storehouse

open Storehouse.Filter (Fault)

def Operand.isList : Operand → Bool
  | .scalar _ => false
  | .list _ => true

namespace Condition

variable {c : Condition}

theorem wellShaped_iff : c.WellShaped ↔ c.operator.takesList = c.operand.isList := by
  obtain ⟨field, op, operand⟩ := c
  cases operand <;> exact Iff.rfl

instance (c : Condition) : Decidable c.WellShaped := decidable_of_iff _ wellShaped_iff.symm

def fault (c : Condition) : Fault := .wrongOperand c.operator c.field

theorem message_fault (c : Condition) : c.fault.message =
    "Invalid condition format: " ++ ("operator '" ++ c.operator.name ++ "' on field '" ++ c.field
      ++ "' expects a " ++ (if c.operator.takesList then "list" else "scalar") ++ " value") :=
  rfl

/-- The first condition whose operand is of the wrong kind. -/
def misfit? (cs : List Condition) : Option Condition := cs.find? fun c => !decide c.WellShaped

theorem misfit?_eq_none_iff {cs : List Condition} :
    misfit? cs = none ↔ ∀ c ∈ cs, c.WellShaped := by
  simp [misfit?]

theorem misfit?_eq_some_iff {cs : List Condition} : misfit? cs = some c ↔
    ∃ first rest, cs = first ++ c :: rest ∧ (∀ d ∈ first, d.WellShaped) ∧ ¬ c.WellShaped := by
  rw [misfit?, List.find?_eq_some_iff_append]
  constructor
  · intro ⟨hc, first, rest, hcs, hfirst⟩
    exact ⟨first, rest, hcs, by simpa using hfirst, by simpa using hc⟩
  · intro ⟨first, rest, hcs, hfirst, hc⟩
    exact ⟨by simpa using hc, first, rest, hcs, by simpa using hfirst⟩

theorem misfit?_append {cs ds : List Condition} :
    misfit? (cs ++ ds) = (misfit? cs).or (misfit? ds) :=
  List.find?_append

/-- Conditions among which there is no misfit come to a result, others to the fault of the first
misfit. -/
inductive Verdict {α : Type} (cs : List Condition) : Except Fault α → Prop
  | ok (h : misfit? cs = none) (a : α) : Verdict cs (.ok a)
  | error {c : Condition} (h : misfit? cs = some c) : Verdict cs (.error c.fault)

namespace Verdict

variable {α β : Type} {cs ds : List Condition} {x : Except Fault α}

theorem map (h : Verdict cs x) (f : α → β) : Verdict cs (f <$> x) := by
  cases h with
  | ok h a => exact .ok h (f a)
  | error h => exact .error h

theorem append (h : Verdict ds x) (hcs : misfit? cs = none) : Verdict (cs ++ ds) x := by
  have hmisfit : misfit? (cs ++ ds) = misfit? ds := by
    rw [misfit?_append, hcs, Option.none_or]
  cases h with
  | ok h a => exact .ok (hmisfit.trans h) a
  | error h => exact .error (hmisfit.trans h)

theorem bind {f : α → Except Fault β} (h : Verdict cs x) (hf : ∀ a, Verdict ds (f a)) :
    Verdict (cs ++ ds) (x >>= f) := by
  cases h with
  | ok h a => exact (hf a).append h
  | error h =>
    apply Verdict.error
    rw [misfit?_append, h, Option.some_or]

theorem ok_iff (h : Verdict cs x) : (∃ a, x = .ok a) ↔ ∀ c ∈ cs, c.WellShaped := by
  rw [← misfit?_eq_none_iff]
  cases h with
  | ok h a => exact iff_of_true ⟨a, rfl⟩ h
  | error h => simp [h]

theorem error_iff (h : Verdict cs x) {e : Fault} :
    x = .error e ↔ ∃ c, misfit? cs = some c ∧ e = c.fault := by
  cases h with
  | ok h a => simp [h]
  | error h => simp [h, eq_comm]

end Verdict

theorem query_of_wellShaped (h : c.WellShaped) : ∃ s, c.query = .ok s := by
  obtain ⟨field, op, operand⟩ := c
  cases operand with
  | scalar v =>
    obtain ⟨s, hs, _⟩ := query_scalar h field v
    exact ⟨s, hs⟩
  | list vs =>
    obtain ⟨s, hs, _⟩ := query_list h field vs
    exact ⟨s, hs⟩

theorem query_of_not_wellShaped (h : ¬ c.WellShaped) : c.query = .error c.fault := by
  obtain ⟨field, op, operand⟩ := c
  cases operand with
  | scalar v =>
    cases op with
    | isIn => rfl
    | notIn => rfl
    | _ => exact absurd rfl h
  | list vs =>
    cases op with
    | isIn => exact absurd rfl h
    | notIn => exact absurd rfl h
    | _ => rfl

theorem verdict_query (c : Condition) : Verdict [c] c.query := by
  by_cases h : c.WellShaped
  · obtain ⟨s, hs⟩ := query_of_wellShaped h
    rw [hs]
    exact .ok (misfit?_eq_none_iff.mpr (List.forall_mem_singleton.mpr h)) s
  · rw [query_of_not_wellShaped h]
    exact .error (misfit?_eq_some_iff.mpr ⟨[], [], rfl, nofun, h⟩)

end Condition

namespace Filter

open Condition (Verdict)

theorem verdict_queries {fs : List Filter} (h : ∀ f ∈ fs, Verdict f.leaves f.query) :
    Verdict (leavesAll fs) (queries fs) := by
  induction fs with
  | nil => exact .ok rfl []
  | cons f fs ih =>
    have hrest := ih fun g hg => h g (List.mem_cons_of_mem f hg)
    exact (h f List.mem_cons_self).bind fun first => hrest.map (first :: ·)

theorem verdict_query (f : Filter) : Verdict f.leaves f.query := by
  induction f with
  | leaf c => exact c.verdict_query
  | group k fs ih => exact (verdict_queries ih).map _

/-- The conditions before the one that is reported are in shape; nothing is said of those behind it.
-/
theorem query_eq_error_iff (f : Filter) (e : Fault) : f.query = .error e ↔
    ∃ first c rest, f.leaves = first ++ c :: rest ∧ (∀ d ∈ first, d.WellShaped) ∧
      ¬ c.WellShaped ∧ e = c.fault := by
  rw [f.verdict_query.error_iff]
  simp only [Condition.misfit?_eq_some_iff]
  constructor
  · intro ⟨c, ⟨first, rest, hleaves, hfirst, hc⟩, he⟩
    exact ⟨first, c, rest, hleaves, hfirst, hc, he⟩
  · intro ⟨first, c, rest, hleaves, hfirst, hc, he⟩
    exact ⟨c, ⟨first, rest, hleaves, hfirst, hc⟩, he⟩

inductive BuiltCondition : Condition → Prop
  | eq (field : String) (v : Scalar) : BuiltCondition (.eq field v)
  | ne (field : String) (v : Scalar) : BuiltCondition (.ne field v)
  | gt (field : String) (v : Scalar) : BuiltCondition (.gt field v)
  | lt (field : String) (v : Scalar) : BuiltCondition (.lt field v)
  | gte (field : String) (v : Scalar) : BuiltCondition (.gte field v)
  | lte (field : String) (v : Scalar) : BuiltCondition (.lte field v)
  | isIn (field : String) (vs : List Scalar) : BuiltCondition (.isIn field vs)
  | notIn (field : String) (vs : List Scalar) : BuiltCondition (.notIn field vs)
  | like (field : String) (v : Scalar) : BuiltCondition (.like field v)

theorem BuiltCondition.wellShaped {c : Condition} (h : BuiltCondition c) : c.WellShaped := by
  cases h <;> rfl

mutual

/-- A filter that is made of such conditions by joining, grouping and drafting. -/
inductive Built : Filter → Prop
  | condition {c : Condition} (h : BuiltCondition c) : Built (.leaf c)
  | and {f g : Filter} (hf : Built f) (hg : Built g) : Built (f.and g)
  | or {f g : Filter} (hf : Built f) (hg : Built g) : Built (f.or g)
  | allOf {fs : List Filter} (h : ∀ f ∈ fs, Built f) : Built (all fs)
  | anyOf {fs : List Filter} (h : ∀ f ∈ fs, Built f) : Built (any fs)
  | draft {d : Draft} (h : BuiltDraft d) : Built d.build

/-- A draft after any calls that add such filters or conditions to it. -/
inductive BuiltDraft : Draft → Prop
  | empty : BuiltDraft .empty
  | any {d : Draft} (h : BuiltDraft d) : BuiltDraft d.any
  | push {d : Draft} {f : Filter} (h : BuiltDraft d) (hf : Built f) : BuiltDraft (d.push f)
  | pushCondition {d : Draft} {c : Condition} (h : BuiltDraft d) (hc : BuiltCondition c) :
    BuiltDraft (d.pushCondition c)

end

/-- A clause with such a filter or draft under any number of wrappers. -/
inductive BuiltClause : Clause → Prop
  | ready {f : Filter} (h : Built f) : BuiltClause (.ready f)
  | draft {d : Draft} (h : BuiltDraft d) : BuiltClause (.draft d)
  | resolved {c : Clause} (h : BuiltClause c) : BuiltClause (.resolved c)

def WellShaped (f : Filter) : Prop :=
  ∀ c ∈ f.leaves, c.WellShaped

def Draft.WellShaped (d : Draft) : Prop :=
  ∀ f ∈ d.nodes, f.WellShaped

theorem wellShaped_leaf {c : Condition} (h : c.WellShaped) : (leaf c).WellShaped :=
  List.forall_mem_singleton.mpr h

theorem wellShaped_group {k : Combinator} {fs : List Filter} (h : ∀ f ∈ fs, f.WellShaped) :
    (group k fs).WellShaped := by
  intro c hc
  obtain ⟨f, hf, hc⟩ := mem_leaves_group.mp hc
  exact h f hf c hc

theorem wellShaped_pair {k : Combinator} {f g : Filter} (hf : f.WellShaped) (hg : g.WellShaped) :
    (group k [f, g]).WellShaped :=
  wellShaped_group (List.forall_mem_cons.mpr ⟨hf, List.forall_mem_singleton.mpr hg⟩)

namespace Draft

variable {d : Draft}

theorem WellShaped.build (h : d.WellShaped) : d.build.WellShaped := by
  rw [Draft.build]
  split
  · next f hf =>
    apply h
    rw [hf]
    exact List.mem_singleton_self f
  · exact wellShaped_group h

theorem WellShaped.push {f : Filter} (h : d.WellShaped) (hf : f.WellShaped) :
    (d.push f).WellShaped :=
  List.forall_mem_append.mpr ⟨h, List.forall_mem_singleton.mpr hf⟩

end Draft

/-- Every call keeps the filters of a draft in shape, and so does building it. -/
theorem Built.wellShaped {f : Filter} (h : Built f) : f.WellShaped := by
  induction h using Built.rec (motive_2 := fun d _ => d.WellShaped) with
  | condition h => exact wellShaped_leaf h.wellShaped
  | and _ _ ihf ihg => exact wellShaped_pair ihf ihg
  | or _ _ ihf ihg => exact wellShaped_pair ihf ihg
  | allOf _ ih => exact wellShaped_group ih
  | anyOf _ ih => exact wellShaped_group ih
  | draft _ ih => exact ih.build
  | empty => exact List.forall_mem_nil _
  | any _ ih => exact ih
  | push _ _ ih ihf => exact ih.push ihf
  | pushCondition _ hc ih => exact ih.push (wellShaped_leaf hc.wellShaped)

theorem BuiltClause.built_resolve {c : Clause} (h : BuiltClause c) : c.resolve.Built := by
  induction h with
  | ready h => exact h
  | draft h => exact .draft h
  | resolved _ ih => exact ih

theorem BuiltClause.query_eq_ok {c : Clause} (h : BuiltClause c) :
    ∃ s, Clause.query (some c) = .ok s :=
  c.resolve.verdict_query.ok_iff.mpr h.built_resolve.wellShaped

/-- A filter compiles exactly when all its conditions are in shape; otherwise the first that is not
is reported with its operator, its field and the kind of value that it lacks. What is built
compiles, by itself and in every clause. -/
theorem query_judges_conditions :
    (∀ f : Filter, (∃ s, f.query = .ok s) ↔ ∀ c ∈ f.leaves, c.WellShaped) ∧
    (∀ (f : Filter) (e : Fault), f.query = .error e ↔ ∃ first c rest,
      f.leaves = first ++ c :: rest ∧ (∀ d ∈ first, d.WellShaped) ∧ ¬ c.WellShaped ∧
        e = c.fault) ∧
    (∀ c : Condition, c.fault.ofOperator = false ∧ c.fault.message =
      "Invalid condition format: " ++ ("operator '" ++ c.operator.name ++ "' on field '" ++ c.field
        ++ "' expects a " ++ (if c.operator.takesList then "list" else "scalar") ++ " value")) ∧
    (∀ f : Filter, f.Built → ∃ s, f.query = .ok s) ∧
    ∀ c : Clause, BuiltClause c → ∃ s, Clause.query (some c) = .ok s := by
  have hbuilt (f : Filter) (h : f.Built) : ∃ s, f.query = .ok s :=
    f.verdict_query.ok_iff.mpr h.wellShaped
  exact ⟨fun f => f.verdict_query.ok_iff, query_eq_error_iff, fun c => ⟨rfl, c.message_fault⟩,
    hbuilt, fun c h => h.query_eq_ok⟩

/-- A draft of two conditions, one of them on an empty list, in a wrapper. -/
theorem query_wrapped_draft : ∃ c : Clause, BuiltClause c ∧ c.resolve =
      any [.leaf (.eq "status" (.text "active")), .leaf (.isIn "role" [])] ∧
    ∃ s, Clause.query (some c) = .ok s := by
  have hdraft : BuiltDraft ((Draft.empty.pushCondition (.eq "status" (.text "active"))).any
      |>.pushCondition (.isIn "role" [])) :=
    .pushCondition (.any (.pushCondition .empty (.eq _ _))) (.isIn _ _)
  obtain ⟨-, -, -, -, hclause⟩ := query_judges_conditions
  exact ⟨_, .resolved (.draft hdraft), rfl, hclause _ (.resolved (.draft hdraft))⟩

end Filter
end Storehouse
