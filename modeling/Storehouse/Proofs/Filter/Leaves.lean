import Storehouse.Filter.Query

namespace Storehouse

/-- The operand is of the kind that the operator takes. -/
def Condition.WellShaped (c : Condition) : Prop :=
  match c.operand with
  | .scalar _ => c.operator.takesList = false
  | .list _ => c.operator.takesList = true

def Operand.scalars : Operand → List Scalar
  | .scalar v => [v]
  | .list vs => vs

namespace Filter

/-- A property of filters that passes from the operands of a group to the group holds of all. -/
@[elab_as_elim, induction_eliminator]
theorem induction {motive : Filter → Prop} (leaf : ∀ c, motive (.leaf c))
    (group : ∀ combinator operands, (∀ f ∈ operands, motive f) →
      motive (.group combinator operands))
    (f : Filter) : motive f := by
  refine Filter.rec (motive_1 := motive) (motive_2 := fun fs => ∀ f ∈ fs, motive f)
    leaf group ?_ ?_ f
  · intro f hf
    cases hf
  · intro f fs hf hfs g hg
    cases hg with
    | head => exact hf
    | tail _ hg => exact hfs g hg

mutual

def leaves : Filter → List Condition
  | .leaf c => [c]
  | .group _ operands => leavesAll operands

def leavesAll : List Filter → List Condition
  | [] => []
  | f :: rest => leaves f ++ leavesAll rest

end

theorem leavesAll_eq_flatMap (fs : List Filter) : leavesAll fs = fs.flatMap leaves := by
  induction fs with
  | nil => rfl
  | cons f fs ih => rw [leavesAll, ih, List.flatMap_cons]

theorem mem_leaves_group {c : Condition} {k : Combinator} {fs : List Filter} :
    c ∈ (group k fs).leaves ↔ ∃ f ∈ fs, c ∈ f.leaves := by
  rw [leaves, leavesAll_eq_flatMap, List.mem_flatMap]

end Filter
end Storehouse
