import Storehouse.Filter.Json
import Storehouse.Proofs.Double.Arithmetic
import Storehouse.Proofs.Except
import Storehouse.Proofs.Filter.Grammar
import Storehouse.Json.Basic
import Storehouse.Proofs.Text.Words

namespace Storehouse

open Storehouse.Filter (Fault)

namespace Scalar

theorem ofJson_eq_ok_iff {v : Json} {s : Scalar} : ofJson v = .ok s ↔ Decodes v s := by
  constructor
  · intro h
    cases v with
    | null => cases h; exact .null
    | bool b => cases h; exact .bool b
    | string t => cases h; exact .text t
    | number n =>
      cases h
      cases n with
      | whole n hn =>
        rw [ofNumber, Json.Number.int64?]
        split
        · next i hi =>
          split at hi
          · next hlt =>
            cases hi
            exact .int hn _ (Int64.toInt_ofInt_of_le hn.1 hlt)
          · cases hi
        · next hnone =>
          split at hnone
          · cases hnone
          · next hge => exact .large hn (Int.not_lt.mp hge)
      | real x hx => exact .real x hx
    | array items => cases h
    | object members => cases h
  · intro h
    cases h with
    | null => rfl
    | bool b => rfl
    | text t => rfl
    | int hn i hi =>
      subst hi
      simp only [ofJson, ofNumber, Json.Number.int64?, if_pos i.toInt_lt, Int64.ofInt_toInt]
    | large hn hge =>
      simp only [ofJson, ofNumber, Json.Number.int64?, if_neg (Int.not_lt.mpr hge)]
      rfl
    | real x hx => rfl

theorem ofJson_eq_error_iff {v : Json} {e : Fault} :
    ofJson v = .error e ↔ (∀ s, ¬ Decodes v s) ∧ e = .notScalar v := by
  simp only [← ofJson_eq_ok_iff]
  cases v <;> simp [ofJson, eq_comm]

/-- A number above the signed words becomes the nearest double: the nearest multiple of 2048, and of
two the even one. -/
theorem Decodes.amounts_of_large {n : Nat} {h : -2 ^ 63 ≤ (n : Int) ∧ (n : Int) < 2 ^ 64}
    {s : Scalar} (hs : Decodes (.number (.whole n h)) s) (hn : 2 ^ 63 ≤ n) :
    ∃ x, s = .float x ∧
      (Double.parts x).Amounts (Double.roundHalfEven n 2048 * 2048 * 2 ^ Double.places) := by
  cases hs with
  | int _ i hi =>
    have hlt := i.toInt_lt
    omega
  | large => exact ⟨_, rfl, Double.amounts_ofInt_large hn (by omega)⟩

end Scalar

namespace Operand

theorem ofJson_of_ne_array {v : Json} (h : ∀ items, v ≠ .array items) :
    ofJson v = scalar <$> Scalar.ofJson v := by
  cases v with
  | array items => exact absurd rfl (h items)
  | _ => rfl

theorem ofJson_eq_ok_iff {v : Json} {o : Operand} : ofJson v = .ok o ↔ Decodes v o := by
  by_cases hv : ∃ items, v = .array items
  · obtain ⟨items, rfl⟩ := hv
    have hitems {vs} : items.mapM Scalar.ofJson = .ok vs ↔ List.Forall₂ Scalar.Decodes items vs :=
      Except.mapM_eq_ok_iff fun v _ s => Scalar.ofJson_eq_ok_iff
    rw [ofJson, Except.map_eq_ok_iff]
    constructor
    · rintro ⟨vs, hvs, rfl⟩
      exact .list (hitems.mp hvs)
    · intro h
      cases h with
      | scalar h => cases h
      | list h => exact ⟨_, hitems.mpr h, rfl⟩
  · rw [not_exists] at hv
    rw [ofJson_of_ne_array hv, Except.map_eq_ok_iff]
    constructor
    · rintro ⟨s, hs, rfl⟩
      exact .scalar (Scalar.ofJson_eq_ok_iff.mp hs)
    · intro h
      cases h with
      | scalar h => exact ⟨_, Scalar.ofJson_eq_ok_iff.mpr h, rfl⟩
      | list h => exact absurd rfl (hv _)

theorem ofJson_eq_error_iff {v : Json} {e : Fault} : ofJson v = .error e ↔ FirstFault v e := by
  by_cases hv : ∃ items, v = .array items
  · obtain ⟨items, rfl⟩ := hv
    rw [ofJson, Except.map_eq_error_iff, Except.mapM_eq_error_iff
      (fun x _ y => Scalar.ofJson_eq_ok_iff) (fun x _ e => Scalar.ofJson_eq_error_iff)]
    constructor
    · rintro ⟨first, x, rest, ys, rfl, hys, hx, rfl⟩
      exact .item hys hx
    · intro h
      cases h with
      | scalar hlist _ => exact absurd rfl (hlist _)
      | item hys hx => exact ⟨_, _, _, _, rfl, hys, hx, rfl⟩
  · rw [not_exists] at hv
    rw [ofJson_of_ne_array hv, Except.map_eq_error_iff, Scalar.ofJson_eq_error_iff]
    constructor
    · rintro ⟨h, rfl⟩
      exact .scalar hv h
    · intro h
      cases h with
      | scalar _ h => exact ⟨h, rfl⟩
      | item _ _ => exact absurd rfl (hv _)

end Operand

namespace Operator

theorem ofName?_eq_some_iff {name : String} {op : Operator} :
    ofName? name = some op ↔ op.name = name := by
  constructor
  · intro h
    simpa using List.find?_some h
  · rintro rfl
    exact ofName?_name op

theorem ofJson_eq_ok_iff {v : Json} {op : Operator} : ofJson v = .ok op ↔ Decodes v op := by
  constructor
  · intro h
    cases v with
    | string name =>
      rw [ofJson, ofName] at h
      split at h
      · next hname =>
        cases h
        rw [← ofName?_eq_some_iff.mp hname]
        exact .name op
      · cases h
    | _ => cases h
  · rintro ⟨⟩
    rw [ofJson, ofName, ofName?_name]

theorem ofJson_eq_error_iff {v : Json} {e : Fault} : ofJson v = .error e ↔ FirstFault v e := by
  constructor
  · intro h
    cases v with
    | string name =>
      rw [ofJson, ofName] at h
      split at h
      · cases h
      · next hname =>
        cases h
        apply FirstFault.unknown
        intro op hop
        rw [ofName?_eq_some_iff.mpr hop] at hname
        cases hname
    | _ =>
      cases h
      exact .notText fun s hs => by cases hs
  · intro h
    cases h with
    | notText h =>
      cases v with
      | string s => exact absurd rfl (h s)
      | _ => rfl
    | @unknown name h =>
      have hnone : ofName? name = none := by
        rw [Option.eq_none_iff_forall_ne_some]
        exact fun op hop => h op (ofName?_eq_some_iff.mp hop)
      rw [ofJson, ofName, hnone]

end Operator

namespace Combinator

theorem lower_eq_name_iff {k : Combinator} {s : String} :
    Text.lower s = k.name ↔ k.Spelled s := by
  have hsmall : (k.name.toList.all fun d => !d.isUpper) = true := by
    cases k <;> decide
  apply Text.lower_eq_iff
  intro d hd
  rw [← Bool.not_eq_true']
  exact List.all_eq_true.mp hsmall d hd

theorem ofName_eq_ok_iff {s : String} {k : Combinator} : ofName s = .ok k ↔ k.Spelled s := by
  rw [← lower_eq_name_iff, ofName]
  by_cases hand : Text.lower s = "and"
  · rw [if_pos hand, hand]
    cases k <;> simp [name]
  · rw [if_neg hand]
    by_cases hor : Text.lower s = "or"
    · rw [if_pos hor, hor]
      cases k <;> simp [name]
    · rw [if_neg hor]
      cases k <;> simp [name, hand, hor]

theorem ofName_eq_error_iff {s : String} {e : Fault} :
    ofName s = .error e ↔ (∀ k : Combinator, ¬ k.Spelled s) ∧ e = .unknownCombinator s := by
  simp only [← ofName_eq_ok_iff]
  rw [ofName]
  split
  · simp
  · split
    · simp
    · simp [eq_comm]

theorem ofJson_eq_ok_iff {v : Json} {k : Combinator} : ofJson v = .ok k ↔ Decodes v k := by
  constructor
  · intro h
    cases v with
    | string s => exact .name (ofName_eq_ok_iff.mp h)
    | _ => cases h
  · rintro ⟨h⟩
    exact ofName_eq_ok_iff.mpr h

theorem ofJson_eq_error_iff {v : Json} {e : Fault} : ofJson v = .error e ↔ FirstFault v e := by
  constructor
  · intro h
    cases v with
    | string s =>
      obtain ⟨hk, rfl⟩ := ofName_eq_error_iff.mp h
      exact .unknown hk
    | _ =>
      cases h
      exact .notText fun s hs => by cases hs
  · intro h
    cases h with
    | notText h =>
      cases v with
      | string s => exact absurd rfl (h s)
      | _ => rfl
    | unknown hk => exact ofName_eq_error_iff.mpr ⟨hk, rfl⟩

end Combinator

namespace Condition

theorem ofParts_eq_ok_iff {field u v : Json} {c : Condition} :
    ofParts field u v = .ok c ↔ Decodes field u v c := by
  constructor
  · intro h
    cases field with
    | string field =>
      obtain ⟨op, hop, h⟩ := Except.bind_eq_ok_iff.mp h
      obtain ⟨operand, hv, h⟩ := Except.bind_eq_ok_iff.mp h
      cases h
      exact .parts (Operator.ofJson_eq_ok_iff.mp hop) (Operand.ofJson_eq_ok_iff.mp hv)
    | _ => cases h
  · rintro ⟨hop, hv⟩
    rw [ofParts, Operator.ofJson_eq_ok_iff.mpr hop, Operand.ofJson_eq_ok_iff.mpr hv]
    rfl

theorem ofParts_eq_error_iff {field u v : Json} {e : Fault} :
    ofParts field u v = .error e ↔ FirstFault field u v e := by
  constructor
  · intro h
    cases field with
    | string field =>
      rcases Except.bind_eq_error_iff.mp h with h | ⟨op, hop, h⟩
      · exact .operator (Operator.ofJson_eq_error_iff.mp h)
      · rcases Except.bind_eq_error_iff.mp h with h | ⟨operand, hv, h⟩
        · exact .operand (Operator.ofJson_eq_ok_iff.mp hop) (Operand.ofJson_eq_error_iff.mp h)
        · cases h
    | _ =>
      cases h
      exact .field fun s hs => by cases hs
  · intro h
    cases h with
    | field h =>
      cases field with
      | string s => exact absurd rfl (h s)
      | _ => rfl
    | operator h =>
      rw [ofParts, Operator.ofJson_eq_error_iff.mpr h]
      rfl
    | operand hop h =>
      rw [ofParts, Operator.ofJson_eq_ok_iff.mpr hop, Operand.ofJson_eq_error_iff.mpr h]
      rfl

end Condition

namespace Filter

theorem ofResult_eq (members : List (String × Json)) :
    ofResult members = (members.lookup "result").map ofJson := by
  induction members with
  | nil => rfl
  | cons m rest ih =>
    obtain ⟨name, v⟩ := m
    by_cases h : "result" = name
    · subst h
      simp [ofResult]
    · simp [ofResult, List.lookup_cons, beq_false_of_ne h, ih]

theorem ofItems_eq_mapM (items : List Json) : ofItems items = items.mapM ofJson := by
  induction items with
  | nil => rfl
  | cons v rest ih => rw [ofItems, ih, List.mapM_cons]

def listOfJson : Json → Except Fault (List Filter)
  | .array items => items.mapM ofJson
  | _ => .error .operandsNotList

theorem ofOperands_eq (members : List (String × Json)) :
    ofOperands members = (members.lookup "operands").map listOfJson := by
  induction members with
  | nil => rfl
  | cons m rest ih =>
    obtain ⟨name, v⟩ := m
    by_cases h : "operands" = name
    · subst h
      cases v <;> simp [ofOperands, listOfJson, ofItems_eq_mapM]
    · cases v <;> simp [ofOperands, List.lookup_cons, beq_false_of_ne h, ih]

theorem ofJson_of_shape {members : List (String × Json)} {shape : Shape}
    (h : HasShape members shape) : ofJson (.object members) = match shape with
      | .wrapper v => ofJson v
      | .condition field operator operand => leaf <$> Condition.ofParts field operator operand
      | .group operands combinator => do
        let combinator ← Combinator.ofJson combinator
        let operands ← listOfJson operands
        return group combinator operands
      | .unknown => .error (.unknownShape (.object members)) := by
  rw [ofJson, ofResult_eq, ofOperands_eq]
  cases h with
  | wrapper h => rw [h]; rfl
  | condition hresult hfield hoperator hvalue =>
    rw [hresult, hfield, hoperator, hvalue]
    rfl
  | group hresult hlacks hoperands hcombinator =>
    rw [hresult, hoperands, hcombinator, Option.map_none, Option.map_some]
    simp only
    split
    · next hfield hoperator hvalue =>
      simp [-List.lookup_eq_none_iff, hfield, hoperator, hvalue] at hlacks
    · rfl
  | unknown hresult hlacks hgroup =>
    rw [hresult, Option.map_none]
    simp only
    split
    · next hfield hoperator hvalue =>
      simp [-List.lookup_eq_none_iff, hfield, hoperator, hvalue] at hlacks
    · split
      · next hoperands hcombinator =>
        obtain ⟨_, hoperands, -⟩ := Option.map_eq_some_iff.mp hoperands
        simp [-List.lookup_eq_none_iff, hoperands, hcombinator] at hgroup
      · rfl

def Judged (v : Json) : Prop :=
  (∀ f, ofJson v = .ok f ↔ Decodes v f) ∧ ∀ e, ofJson v = .error e ↔ FirstFault v e

theorem judged_of_not_object {v : Json} (h : ∀ members, v ≠ .object members) : Judged v := by
  have hv : ofJson v = .error (.notObject v) := by
    cases v with
    | object members => exact absurd rfl (h members)
    | _ => rw [ofJson]; exact h
  constructor
  · intro f
    rw [hv]
    constructor
    · intro hf
      cases hf
    · intro hf
      cases hf <;> exact absurd rfl (h _)
  · intro e
    rw [hv]
    constructor
    · intro he
      cases he
      exact .notObject h
    · intro he
      cases he with
      | notObject _ => rfl
      | _ => exact absurd rfl (h _)

variable {members : List (String × Json)} {operands : Json}

theorem listOfJson_eq_ok_iff (hitems : ∀ items, operands = .array items → ∀ v ∈ items, Judged v)
    {fs : List Filter} : listOfJson operands = .ok fs ↔
      ∃ items, operands = .array items ∧ List.Forall₂ Decodes items fs := by
  cases operands with
  | array items =>
    have hok : items.mapM ofJson = .ok fs ↔ List.Forall₂ Decodes items fs :=
      Except.mapM_eq_ok_iff fun v hv f => (hitems items rfl v hv).1 f
    simpa [listOfJson] using hok
  | _ => simp [listOfJson]

theorem listOfJson_eq_error_iff
    (hitems : ∀ items, operands = .array items → ∀ v ∈ items, Judged v) {e : Fault} :
    listOfJson operands = .error e ↔
      ((∀ items, operands ≠ .array items) ∧ e = .operandsNotList) ∨
        ∃ first v rest fs, operands = .array (first ++ v :: rest) ∧
          List.Forall₂ Decodes first fs ∧ FirstFault v e := by
  cases operands with
  | array items =>
    have herr := Except.mapM_eq_error_iff (e := e) (fun v hv f => (hitems items rfl v hv).1 f)
      fun v hv e => (hitems items rfl v hv).2 e
    simpa [listOfJson] using herr
  | _ => simp [listOfJson, eq_comm]

theorem judged_object {shape : Shape} (h : HasShape members shape)
    (hwrapper : ∀ v, shape = .wrapper v → Judged v)
    (hgroup : ∀ operands combinator, shape = .group operands combinator →
      ∀ items, operands = .array items → ∀ v ∈ items, Judged v) : Judged (.object members) := by
  simp only [Judged, ofJson_of_shape h, decodes_object_iff h, firstFault_object_iff h]
  cases shape with
  | wrapper v => exact hwrapper v rfl
  | condition field operator operand =>
    simp only [Except.map_eq_ok_iff, Except.map_eq_error_iff, Condition.ofParts_eq_ok_iff,
      Condition.ofParts_eq_error_iff, implies_true, and_self]
  | group operands combinator =>
    have hitems := hgroup operands combinator rfl
    simp only [Except.bind_eq_ok_iff, Except.bind_eq_error_iff, Combinator.ofJson_eq_ok_iff,
      Combinator.ofJson_eq_error_iff, listOfJson_eq_ok_iff hitems, listOfJson_eq_error_iff hitems]
    simp [pure, Except.pure]
  | unknown => simp [eq_comm]

theorem judged (v : Json) : Judged v := by
  -- a group decodes the items of a member, so the induction takes the items of an array along
  suffices h : Judged v ∧ ∀ items, v = .array items → ∀ w ∈ items, Judged w from h.1
  induction v with
  | object members ih =>
    have hmember {name v} (h : members.lookup name = some v) :
        Judged v ∧ ∀ items, v = .array items → ∀ w ∈ items, Judged w := by
      obtain ⟨_, _, heq, -⟩ := List.lookup_eq_some_iff.mp h
      exact ih (name, v) (by simp [heq])
    obtain ⟨shape, h⟩ := HasShape.exists members
    have hobject : Judged (.object members) := by
      apply judged_object h
      · rintro v rfl
        cases h with
        | wrapper hv => exact (hmember hv).1
      · rintro operands combinator rfl
        cases h with
        | group _ _ hoperands _ => exact (hmember hoperands).2
    exact ⟨hobject, nofun⟩
  | array items ih =>
    have hitems : ∀ items', Json.array items = .array items' → ∀ w ∈ items', Judged w := by
      intro items' h w hw
      cases h
      exact (ih w hw).1
    exact ⟨judged_of_not_object nofun, hitems⟩
  | null => exact ⟨judged_of_not_object nofun, nofun⟩
  | bool b => exact ⟨judged_of_not_object nofun, nofun⟩
  | number n => exact ⟨judged_of_not_object nofun, nofun⟩
  | string s => exact ⟨judged_of_not_object nofun, nofun⟩

/-- The decoder accepts exactly the grammar and reports exactly the first fault. The fault is one of
the operator if the operator is at fault, and else one of the form. -/
theorem ofJson_iff (v : Json) :
    (∀ f, ofJson v = .ok f ↔ Decodes v f) ∧ (∀ e, ofJson v = .error e ↔ FirstFault v e) ∧
      ∀ e, FirstFault v e → (e.ofOperator = true ↔ ∃ operator, Operator.FirstFault operator e) :=
  ⟨(judged v).1, (judged v).2, fun _ h => h.ofOperator_iff⟩

end Filter
end Storehouse
