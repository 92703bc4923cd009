import Mathlib.Data.List.Forall2
import Storehouse.Filter.Fault

namespace Storehouse

open Storehouse.Filter (Fault)

/-- Whole numbers in the range of signed 64-bit words are integers, all other numbers floats. -/
inductive Scalar.Decodes : Json → Scalar → Prop
  | null : Decodes .null .null
  | bool (b : Bool) : Decodes (.bool b) (.bool b)
  | text (s : String) : Decodes (.string s) (.text s)
  | int {n : Int} (h : -2 ^ 63 ≤ n ∧ n < 2 ^ 64) (i : Int64) (hi : i.toInt = n) :
    Decodes (.number (.whole n h)) (.int i)
  | large {n : Int} (h : -2 ^ 63 ≤ n ∧ n < 2 ^ 64) (hn : 2 ^ 63 ≤ n) :
    Decodes (.number (.whole n h)) (.float (Double.ofInt n))
  | real (x : Float) (h : Double.finite x = true) : Decodes (.number (.real x h)) (.float x)

inductive Operand.Decodes : Json → Operand → Prop
  | scalar {v : Json} {s : Scalar} (h : Scalar.Decodes v s) : Decodes v (.scalar s)
  | list {items : List Json} {vs : List Scalar} (h : List.Forall₂ Scalar.Decodes items vs) :
    Decodes (.array items) (.list vs)

inductive Operand.FirstFault : Json → Fault → Prop
  | scalar {v : Json} (hlist : ∀ items, v ≠ .array items) (h : ∀ s, ¬ Scalar.Decodes v s) :
    FirstFault v (.notScalar v)
  | item {first rest : List Json} {v : Json} {vs : List Scalar}
    (hfirst : List.Forall₂ Scalar.Decodes first vs) (h : ∀ s, ¬ Scalar.Decodes v s) :
    FirstFault (.array (first ++ v :: rest)) (.notScalar v)

inductive Operator.Decodes : Json → Operator → Prop
  | name (op : Operator) : Decodes (.string op.name) op

inductive Operator.FirstFault : Json → Fault → Prop
  | notText {v : Json} (h : ∀ s, v ≠ .string s) : FirstFault v (.operatorNotText v)
  | unknown {name : String} (h : ∀ op : Operator, op.name ≠ name) :
    FirstFault (.string name) (.unknownOperator name)

inductive Condition.Decodes : Json → Json → Json → Condition → Prop
  | parts {field : String} {op : Operator} {operand : Operand} {u v : Json}
    (hop : Operator.Decodes u op) (hv : Operand.Decodes v operand) :
    Decodes (.string field) u v ⟨field, op, operand⟩

inductive Condition.FirstFault : Json → Json → Json → Fault → Prop
  | field {field u v : Json} (h : ∀ s, field ≠ .string s) : FirstFault field u v .fieldNotText
  | operator {field : String} {u v : Json} {e : Fault} (h : Operator.FirstFault u e) :
    FirstFault (.string field) u v e
  | operand {field : String} {op : Operator} {u v : Json} {e : Fault}
    (hop : Operator.Decodes u op) (h : Operand.FirstFault v e) :
    FirstFault (.string field) u v e

/-- The name of the combinator, each letter small or capital. -/
def Combinator.Spelled (k : Combinator) (s : String) : Prop :=
  List.Forall₂ (fun c d => c = d ∨ c = d.toUpper) s.toList k.name.toList

inductive Combinator.Decodes : Json → Combinator → Prop
  | name {s : String} {k : Combinator} (h : k.Spelled s) : Decodes (.string s) k

inductive Combinator.FirstFault : Json → Fault → Prop
  | notText {v : Json} (h : ∀ s, v ≠ .string s) : FirstFault v .combinatorNotText
  | unknown {s : String} (h : ∀ k : Combinator, ¬ k.Spelled s) :
    FirstFault (.string s) (.unknownCombinator s)

namespace Filter

/-- What an object can be, with the members that matter then. -/
inductive Shape
  | wrapper (v : Json)
  | condition (field operator operand : Json)
  | group (operands combinator : Json)
  | unknown

/-- A wrapper may have any other members, a condition also those of a group. -/
inductive HasShape (members : List (String × Json)) : Shape → Prop
  | wrapper {v : Json} (h : members.lookup "result" = some v) : HasShape members (.wrapper v)
  | condition {field operator operand : Json} (hresult : members.lookup "result" = none)
    (hfield : members.lookup "field" = some field)
    (hoperator : members.lookup "operator" = some operator)
    (hvalue : members.lookup "value" = some operand) :
    HasShape members (.condition field operator operand)
  | group {operands combinator : Json} (hresult : members.lookup "result" = none)
    (hlacks : ∃ name ∈ ["field", "operator", "value"], members.lookup name = none)
    (hoperands : members.lookup "operands" = some operands)
    (hcombinator : members.lookup "combinator" = some combinator) :
    HasShape members (.group operands combinator)
  | unknown (hresult : members.lookup "result" = none)
    (hlacks : ∃ name ∈ ["field", "operator", "value"], members.lookup name = none)
    (hgroup : ∃ name ∈ ["operands", "combinator"], members.lookup name = none) :
    HasShape members .unknown

inductive Decodes : Json → Filter → Prop
  | wrapper {members : List (String × Json)} {v : Json} {f : Filter}
    (h : HasShape members (.wrapper v)) (hv : Decodes v f) : Decodes (.object members) f
  | leaf {members : List (String × Json)} {field operator operand : Json} {c : Condition}
    (h : HasShape members (.condition field operator operand))
    (hc : Condition.Decodes field operator operand c) : Decodes (.object members) (.leaf c)
  | group {members : List (String × Json)} {items : List Json} {combinator : Json}
    {k : Combinator} {fs : List Filter} (h : HasShape members (.group (.array items) combinator))
    (hk : Combinator.Decodes combinator k) (hs : List.Forall₂ Decodes items fs) :
    Decodes (.object members) (.group k fs)

inductive FirstFault : Json → Fault → Prop
  | notObject {v : Json} (h : ∀ members, v ≠ .object members) : FirstFault v (.notObject v)
  | wrapper {members : List (String × Json)} {v : Json} {e : Fault}
    (h : HasShape members (.wrapper v)) (hv : FirstFault v e) : FirstFault (.object members) e
  | condition {members : List (String × Json)} {field operator operand : Json} {e : Fault}
    (h : HasShape members (.condition field operator operand))
    (hc : Condition.FirstFault field operator operand e) : FirstFault (.object members) e
  | combinator {members : List (String × Json)} {operands combinator : Json} {e : Fault}
    (h : HasShape members (.group operands combinator)) (hk : Combinator.FirstFault combinator e) :
    FirstFault (.object members) e
  | operands {members : List (String × Json)} {operands combinator : Json} {k : Combinator}
    (h : HasShape members (.group operands combinator)) (hk : Combinator.Decodes combinator k)
    (hlist : ∀ items, operands ≠ .array items) : FirstFault (.object members) .operandsNotList
  | operand {members : List (String × Json)} {first rest : List Json} {v combinator : Json}
    {k : Combinator} {fs : List Filter} {e : Fault}
    (h : HasShape members (.group (.array (first ++ v :: rest)) combinator))
    (hk : Combinator.Decodes combinator k) (hfirst : List.Forall₂ Decodes first fs)
    (hv : FirstFault v e) : FirstFault (.object members) e
  | unknown {members : List (String × Json)} (h : HasShape members .unknown) :
    FirstFault (.object members) (.unknownShape (.object members))

theorem FirstFault.ofOperator_iff {v : Json} {e : Fault} (h : FirstFault v e) :
    e.ofOperator = true ↔ ∃ operator, Operator.FirstFault operator e := by
  constructor
  · intro he
    induction h with
    | wrapper _ _ ih => exact ih he
    | operand _ _ _ _ ih => exact ih he
    | condition _ hc =>
      cases hc with
      | operator h => exact ⟨_, h⟩
      | operand _ h => cases h <;> cases he
      | field _ => cases he
    | combinator _ hk => cases hk <;> cases he
    | notObject _ => cases he
    | operands _ _ _ => cases he
    | unknown _ => cases he
  · rintro ⟨operator, hop⟩
    cases hop <;> rfl

theorem HasShape.exists (members : List (String × Json)) : ∃ shape, HasShape members shape := by
  cases hr : members.lookup "result" with
  | some v => exact ⟨_, .wrapper hr⟩
  | none =>
    by_cases hlacks : ∃ name ∈ ["field", "operator", "value"], members.lookup name = none
    · by_cases hgroup : ∃ name ∈ ["operands", "combinator"], members.lookup name = none
      · exact ⟨_, .unknown hr hlacks hgroup⟩
      · have hhas : ∀ name ∈ ["operands", "combinator"], ∃ v, members.lookup name = some v :=
          fun name hname => Option.ne_none_iff_exists'.mp fun h => hgroup ⟨name, hname, h⟩
        obtain ⟨operands, ho⟩ := hhas "operands" (by simp)
        obtain ⟨combinator, hk⟩ := hhas "combinator" (by simp)
        exact ⟨_, .group hr hlacks ho hk⟩
    · have hhas : ∀ name ∈ ["field", "operator", "value"], ∃ v, members.lookup name = some v :=
        fun name hname => Option.ne_none_iff_exists'.mp fun h => hlacks ⟨name, hname, h⟩
      obtain ⟨field, hf⟩ := hhas "field" (by simp)
      obtain ⟨operator, ho⟩ := hhas "operator" (by simp)
      obtain ⟨value, hv⟩ := hhas "value" (by simp)
      exact ⟨_, .condition hr hf ho hv⟩

theorem HasShape.unique {members : List (String × Json)} {s t : Shape} (hs : HasShape members s)
    (ht : HasShape members t) : s = t := by
  cases hs <;> cases ht <;> simp_all [-List.lookup_eq_none_iff]

theorem decodes_object_iff {members : List (String × Json)} {shape : Shape}
    (h : HasShape members shape) {f : Filter} : Decodes (.object members) f ↔ match shape with
      | .wrapper v => Decodes v f
      | .condition field operator operand =>
        ∃ c, Condition.Decodes field operator operand c ∧ leaf c = f
      | .group operands combinator => ∃ k, Combinator.Decodes combinator k ∧ ∃ fs,
        (∃ items, operands = .array items ∧ List.Forall₂ Decodes items fs) ∧ group k fs = f
      | .unknown => False := by
  constructor
  · intro hf
    cases hf with
    | wrapper h' hv =>
      cases h.unique h'
      exact hv
    | leaf h' hc =>
      cases h.unique h'
      exact ⟨_, hc, rfl⟩
    | group h' hk hs =>
      cases h.unique h'
      exact ⟨_, hk, _, ⟨_, rfl, hs⟩, rfl⟩
  · intro hf
    cases shape with
    | wrapper v => exact .wrapper h hf
    | condition field operator operand =>
      obtain ⟨c, hc, rfl⟩ := hf
      exact .leaf h hc
    | group operands combinator =>
      obtain ⟨k, hk, fs, ⟨items, rfl, hs⟩, rfl⟩ := hf
      exact .group h hk hs
    | unknown => cases hf

theorem firstFault_object_iff {members : List (String × Json)} {shape : Shape}
    (h : HasShape members shape) {e : Fault} : FirstFault (.object members) e ↔ match shape with
      | .wrapper v => FirstFault v e
      | .condition field operator operand => Condition.FirstFault field operator operand e
      | .group operands combinator => Combinator.FirstFault combinator e ∨
        ∃ k, Combinator.Decodes combinator k ∧
          (((∀ items, operands ≠ .array items) ∧ e = .operandsNotList) ∨
            ∃ first v rest fs, operands = .array (first ++ v :: rest) ∧
              List.Forall₂ Decodes first fs ∧ FirstFault v e)
      | .unknown => e = .unknownShape (.object members) := by
  constructor
  · intro he
    cases he with
    | notObject h' => exact absurd rfl (h' members)
    | wrapper h' hv =>
      cases h.unique h'
      exact hv
    | condition h' hc =>
      cases h.unique h'
      exact hc
    | combinator h' hk =>
      cases h.unique h'
      exact .inl hk
    | operands h' hk hlist =>
      cases h.unique h'
      exact .inr ⟨_, hk, .inl ⟨hlist, rfl⟩⟩
    | operand h' hk hfirst hv =>
      cases h.unique h'
      exact .inr ⟨_, hk, .inr ⟨_, _, _, _, rfl, hfirst, hv⟩⟩
    | unknown h' =>
      cases h.unique h'
      rfl
  · intro he
    cases shape with
    | wrapper v => exact .wrapper h he
    | condition field operator operand => exact .condition h he
    | group operands combinator =>
      rcases he with hk | ⟨k, hk, ⟨hlist, rfl⟩ | ⟨first, v, rest, fs, rfl, hfirst, hv⟩⟩
      · exact .combinator h hk
      · exact .operands h hk hlist
      · exact .operand h hk hfirst hv
    | unknown =>
      cases he
      exact .unknown h

end Filter
end Storehouse
