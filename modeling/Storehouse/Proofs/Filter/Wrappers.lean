import Mathlib.Logic.Function.Iterate
import Mathlib.Logic.Relation
import Storehouse.Filter.Clause
import Storehouse.Proofs.Filter.Decoded

namespace Storehouse.Filter

variable {members members' : List (String × Json)} {v w : Json}

/-- Only the named member is another one. -/
def AgreeExcept (name : String) (members members' : List (String × Json)) : Prop :=
  ∀ other, other ≠ name → members'.lookup other = members.lookup other

theorem agreeExcept_head (name : String) (v w : Json) (rest : List (String × Json)) :
    AgreeExcept name ((name, v) :: rest) ((name, w) :: rest) := by
  intro other hother
  rw [List.lookup_cons, List.lookup_cons, beq_false_of_ne hother]

/-- One of the nodes that are decoded has been put into a wrapper: the value itself, what it wraps,
or an operand of a group, at any depth. The wrapper may look like anything else as well. -/
inductive WrapsOnce : Json → Json → Prop
  | here {v : Json} {members : List (String × Json)} (h : members.lookup "result" = some v) :
    WrapsOnce v (.object members)
  | inside {v w : Json} {members members' : List (String × Json)}
    (h : HasShape members (.wrapper v)) (h' : members'.lookup "result" = some w)
    (hrest : AgreeExcept "result" members members') (hw : WrapsOnce v w) :
    WrapsOnce (.object members) (.object members')
  | operand {v w combinator : Json} {first rest : List Json}
    {members members' : List (String × Json)}
    (h : HasShape members (.group (.array (first ++ v :: rest)) combinator))
    (h' : members'.lookup "operands" = some (.array (first ++ w :: rest)))
    (hrest : AgreeExcept "operands" members members') (hw : WrapsOnce v w) :
    WrapsOnce (.object members) (.object members')

theorem HasShape.group_of_agree {operands operands' combinator : Json}
    (h : HasShape members (.group operands combinator))
    (h' : members'.lookup "operands" = some operands')
    (hrest : AgreeExcept "operands" members members') :
    HasShape members' (.group operands' combinator) := by
  cases h with
  | group hresult hlacks _ hcombinator =>
    obtain ⟨name, hname, hnone⟩ := hlacks
    have hne : name ≠ "operands" := by
      intro heq
      subst heq
      simp at hname
    apply HasShape.group
    · exact (hrest "result" (by decide)).trans hresult
    · exact ⟨name, hname, (hrest name hne).trans hnone⟩
    · exact h'
    · exact (hrest "combinator" (by decide)).trans hcombinator

theorem WrapsOnce.ofJson_eq (h : WrapsOnce v w) : ofJson w = ofJson v := by
  induction h with
  | here h => exact ofJson_of_shape (.wrapper h)
  | inside h h' _ _ ih =>
    rw [ofJson_of_shape (.wrapper h'), ofJson_of_shape h]
    exact ih
  | operand h h' hrest _ ih =>
    rw [ofJson_of_shape (h.group_of_agree h' hrest), ofJson_of_shape h]
    simp only [listOfJson, List.mapM_append, List.mapM_cons, ih]

theorem ofJson_eq_of_wraps (h : Relation.ReflTransGen WrapsOnce v w) : ofJson w = ofJson v := by
  induction h with
  | refl => rfl
  | tail _ hstep ih => exact hstep.ofJson_eq.trans ih

theorem Clause.resolve_wrapped (c : Clause) (times : Nat) :
    (Clause.resolved^[times] c).resolve = c.resolve := by
  induction times with
  | zero => rfl
  | succ times ih =>
    rw [Function.iterate_succ_apply', Clause.resolve]
    exact ih

theorem Draft.exists_build (f : Filter) : ∃ d : Draft, d.build = f := ⟨Draft.empty.push f, rfl⟩

/-- Wrappers around any of the nodes that are decoded change neither the filter nor the fault, and
wrappers around a clause change neither the filter it stands for, whichever that is, nor the query.
-/
theorem wrappers_transparent :
    (∀ v w, Relation.ReflTransGen WrapsOnce v w → ofJson w = ofJson v) ∧
    (∀ (f : Filter) (times : Nat), (Clause.resolved^[times] (.ready f)).resolve = f ∧
      Clause.query (some (Clause.resolved^[times] (.ready f))) = f.query) ∧
    (∀ (d : Draft) (times : Nat), (Clause.resolved^[times] (.draft d)).resolve = d.build ∧
      Clause.query (some (Clause.resolved^[times] (.draft d))) = d.build.query) ∧
    ∀ f : Filter, ∃ d : Draft, d.build = f := by
  refine ⟨fun v w => ofJson_eq_of_wraps, fun f times => ?_, fun d times => ?_, Draft.exists_build⟩
  · have hresolve := Clause.resolve_wrapped (.ready f) times
    exact ⟨hresolve, congrArg query hresolve⟩
  · have hresolve := Clause.resolve_wrapped (.draft d) times
    exact ⟨hresolve, congrArg query hresolve⟩

/-- Two wrappers, the outer one with the members of a group and the inner one with those of a
condition. -/
theorem wrappers_transparent_disguised :
    ofJson (.object [("result", .object [("operands", .array [.object [("field", .null),
        ("operator", .null), ("value", .null), ("result", .bool true)]]),
        ("combinator", .string "AND")]), ("operands", .array []), ("combinator", .string "or")]) =
      .error (.notObject (.bool true)) := by
  have hgroup (v : Json) : HasShape [("operands", .array [v]), ("combinator", .string "AND")]
      (.group (.array ([] ++ v :: [])) (.string "AND")) :=
    .group rfl ⟨"field", by simp, rfl⟩ rfl rfl
  obtain ⟨hwrapped, -⟩ := wrappers_transparent
  rw [hwrapped (.object [("operands", .array [.bool true]), ("combinator", .string "AND")])]
  · apply ((judged _).2 _).mpr
    apply FirstFault.operand (hgroup (.bool true)) (.name (k := .and) ?_) .nil
    · exact .notObject nofun
    · exact Combinator.ofName_eq_ok_iff.mp rfl
  · have hinner : WrapsOnce (.object [("operands", .array [.bool true]),
        ("combinator", .string "AND")]) (.object [("operands", .array [.object [("field", .null),
        ("operator", .null), ("value", .null), ("result", .bool true)]]),
        ("combinator", .string "AND")]) := by
      apply WrapsOnce.operand (hgroup (.bool true)) rfl
      · exact agreeExcept_head _ _ _ _
      · exact .here rfl
    exact .tail (.single hinner) (.here rfl)

end Storehouse.Filter
