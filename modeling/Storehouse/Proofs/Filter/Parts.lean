import Storehouse.Filter.Record
import Storehouse.Proofs.Filter.Decoded

namespace Storehouse

namespace Scalar

theorem ofJson?_eq_toOption (v : Json) : ofJson? v = (ofJson v).toOption := by
  cases v with
  | number n =>
    rw [ofJson, ofNumber]
    cases h : n.int64? <;> simp [ofJson?, Json.bool?, Json.int64?, Json.float?, h, Except.toOption]
  | _ => rfl

end Scalar

namespace Operand

theorem ofJson?_of_ne_array {v : Json} (h : ∀ items, v ≠ .array items) :
    ofJson? v = scalar <$> Scalar.ofJson? v := by
  have hitems : v.items? = none := by
    cases v with
    | array items => exact absurd rfl (h items)
    | _ => rfl
  rw [ofJson?, hitems]
  cases Scalar.ofJson? v <;> rfl

theorem ofJson?_eq_toOption (v : Json) : ofJson? v = (ofJson v).toOption := by
  -- only an array is no scalar, so the order in which the kinds are tried makes no difference
  by_cases hv : ∃ items, v = .array items
  · obtain ⟨items, rfl⟩ := hv
    rw [ofJson, Except.toOption_map, Except.toOption_mapM]
    simp only [← Scalar.ofJson?_eq_toOption]
    rfl
  · rw [not_exists] at hv
    rw [ofJson?_of_ne_array hv, ofJson_of_ne_array hv, Except.toOption_map,
      Scalar.ofJson?_eq_toOption]

end Operand

namespace Operator

theorem ofJson?_string (name : String) :
    ofJson? (.string name) = (ofJson (.string name)).toOption := by
  rw [ofJson, ofName]
  change ofName? name = _
  cases ofName? name <;> rfl

end Operator

namespace Combinator

theorem ofJson?_string_eq_some_iff {name : String} {k : Combinator} :
    ofJson? (.string name) = some k ↔ k.name = name := by
  rw [ofJson?, Json.choice?]
  split
  · next h =>
    cases h
    cases k <;> decide
  · next h =>
    cases h
    cases k <;> decide
  · next hand hor =>
    cases k with
    | and => simpa [Combinator.name, eq_comm] using hand
    | or => simpa [Combinator.name, eq_comm] using hor

theorem ofJson_name (k : Combinator) : ofJson (.string k.name) = .ok k := by
  cases k <;> rfl

/-- Among the names that are read as a combinator, those in small letters are also read alone. -/
theorem ofJson?_eq_some_iff {name : String} {k : Combinator} :
    ofJson? (.string name) = some k ↔
      ofJson (.string name) = .ok k ∧ (name = "and" ∨ name = "or") := by
  rw [ofJson?_string_eq_some_iff]
  constructor
  · rintro rfl
    exact ⟨ofJson_name k, by cases k <;> decide⟩
  · rintro ⟨h, rfl | rfl⟩
    · cases h.symm.trans (ofJson_name .and)
      rfl
    · cases h.symm.trans (ofJson_name .or)
      rfl

end Combinator

variable {members : List (String × Json)}

namespace Condition

theorem ofJson?_object {field operator operand : Json}
    (hfield : members.lookup "field" = some field)
    (hoperator : members.lookup "operator" = some operator)
    (hoperand : members.lookup "value" = some operand) : ofJson? (.object members) = do
      let field ← field.string?
      let operator ← Operator.ofJson? operator
      let operand ← Operand.ofJson? operand
      return ⟨field, operator, operand⟩ := by
  have hfields : (Json.object members).fields? ["field", "operator", "value"] =
      some [some field, some operator, some operand] := by
    rw [Json.fields?, List.map_cons, List.map_cons, List.map_cons, List.map_nil, hfield, hoperator,
      hoperand]
  rw [ofJson?, hfields]

theorem ofJson?_eq_toOption {field operand : Json} {name : String}
    (hfield : members.lookup "field" = some field)
    (hoperator : members.lookup "operator" = some (.string name))
    (hoperand : members.lookup "value" = some operand) :
    ofJson? (.object members) = (ofParts field (.string name) operand).toOption := by
  rw [ofJson?_object hfield hoperator hoperand, Operator.ofJson?_string,
    Operand.ofJson?_eq_toOption]
  cases field with
  | string s =>
    rw [ofParts]
    cases Operator.ofJson (.string name) with
    | error e => rfl
    | ok op => cases Operand.ofJson operand <;> rfl
  | _ => rfl

end Condition

namespace Filter

theorem groupOfJson?_object {operands combinator : Json}
    (hoperands : members.lookup "operands" = some operands)
    (hcombinator : members.lookup "combinator" = some combinator) :
    groupOfJson? (.object members) = do
      let operands ← (listOfJson operands).toOption
      let combinator ← Combinator.ofJson? combinator
      return group combinator operands := by
  have hfields : (Json.object members).fields? ["operands", "combinator"] =
      some [some operands, some combinator] := by
    rw [Json.fields?, List.map_cons, List.map_cons, List.map_nil, hoperands, hcombinator]
  rw [groupOfJson?, hfields]
  cases operands with
  | array items =>
    rw [listOfJson, Except.toOption_mapM]
    rfl
  | _ => rfl

theorem groupOfJson?_eq_some_iff {operands : Json} {name : String}
    (h : HasShape members (.group operands (.string name))) {f : Filter} :
    groupOfJson? (.object members) = some f ↔
      ofJson (.object members) = .ok f ∧ (name = "and" ∨ name = "or") := by
  have hgroup : groupOfJson? (.object members) = some f ↔ ∃ fs, listOfJson operands = .ok fs ∧
      ∃ k, Combinator.ofJson? (.string name) = some k ∧ group k fs = f := by
    cases h with
    | group _ _ hoperands hcombinator =>
      rw [groupOfJson?_object hoperands hcombinator]
      simp [Option.bind_eq_some_iff, Except.toOption_eq_some_iff]
  have hwhole : ofJson (.object members) = .ok f ↔ ∃ k, Combinator.ofJson (.string name) = .ok k ∧
      ∃ fs, listOfJson operands = .ok fs ∧ group k fs = f := by
    rw [ofJson_of_shape h]
    simp [Except.bind_eq_ok_iff, pure, Except.pure]
  rw [hgroup, hwhole]
  constructor
  · rintro ⟨fs, hfs, k, hk, rfl⟩
    obtain ⟨hk, hname⟩ := Combinator.ofJson?_eq_some_iff.mp hk
    exact ⟨⟨k, hk, fs, hfs, rfl⟩, hname⟩
  · rintro ⟨⟨k, hk, fs, hfs, rfl⟩, hname⟩
    exact ⟨fs, hfs, k, Combinator.ofJson?_eq_some_iff.mpr ⟨hk, hname⟩, rfl⟩

theorem conditionOfJson?_eq_some_iff {field operand : Json} {name : String}
    (h : HasShape members (.condition field (.string name) operand)) {c : Condition} :
    Condition.ofJson? (.object members) = some c ↔ ofJson (.object members) = .ok (leaf c) := by
  rw [ofJson_of_shape h, Except.map_eq_ok_iff]
  cases h with
  | condition _ hfield hoperator hvalue =>
    rw [Condition.ofJson?_eq_toOption hfield hoperator hvalue, Except.toOption_eq_some_iff]
    simp

theorem operandOfJson?_eq_some_iff {field : String} {op : Operator} {v : Json}
    (h : HasShape members (.condition (.string field) (.string op.name) v)) {o : Operand} :
    Operand.ofJson? v = some o ↔ ofJson (.object members) = .ok (leaf ⟨field, op, o⟩) := by
  rw [Operand.ofJson?_eq_toOption, Except.toOption_eq_some_iff, ofJson_of_shape h,
    Except.map_eq_ok_iff]
  have hop : Operator.ofJson (.string op.name) = .ok op :=
    Operator.ofJson_eq_ok_iff.mpr (.name op)
  simp [Condition.ofParts, hop, Except.bind_eq_ok_iff, pure, Except.pure]

/-- A condition, and a value in the place of its operand, are read alone as in a whole filter. So is
a group if and only if its combinator is written in small letters. -/
theorem parts_read_alike (members : List (String × Json))
    (hresult : members.lookup "result" = none) :
    (∀ (field operand : Json) (name : String), members.lookup "field" = some field →
      members.lookup "operator" = some (.string name) → members.lookup "value" = some operand →
      ∀ c, Condition.ofJson? (.object members) = some c ↔ ofJson (.object members) = .ok (leaf c)) ∧
    (∀ (operands : Json) (name : String), members.lookup "operands" = some operands →
      members.lookup "combinator" = some (.string name) →
      (∃ name ∈ ["field", "operator", "value"], members.lookup name = none) →
      ∀ f, groupOfJson? (.object members) = some f ↔
        ofJson (.object members) = .ok f ∧ (name = "and" ∨ name = "or")) ∧
    ∀ (field : String) (op : Operator) (v : Json), members.lookup "field" = some (.string field) →
      members.lookup "operator" = some (.string op.name) → members.lookup "value" = some v →
      ∀ o, Operand.ofJson? v = some o ↔ ofJson (.object members) = .ok (leaf ⟨field, op, o⟩) := by
  refine ⟨?_, ?_, ?_⟩
  · intro field operand name hfield hoperator hvalue c
    exact conditionOfJson?_eq_some_iff (.condition hresult hfield hoperator hvalue)
  · intro operands name hoperands hcombinator hlacks f
    exact groupOfJson?_eq_some_iff (.group hresult hlacks hoperands hcombinator)
  · intro field op v hfield hoperator hvalue o
    exact operandOfJson?_eq_some_iff (.condition hresult hfield hoperator hvalue)

/-- A group in small letters, with a group in capital letters among its operands. -/
theorem small_group_reads_alike :
    [("combinator", Json.string "and"), ("operands", .array
      [.object [("combinator", .string "AND"), ("operands", .array [])]])].lookup "result" = none ∧
    groupOfJson? (.object [("combinator", .string "and"), ("operands", .array
      [.object [("combinator", .string "AND"), ("operands", .array [])]])]) =
        some (.group .and [.group .and []]) := by
  obtain ⟨-, hgroup, -⟩ := parts_read_alike [("combinator", .string "and"), ("operands", .array
    [.object [("combinator", .string "AND"), ("operands", .array [])]])] rfl
  exact ⟨rfl, (hgroup _ "and" rfl rfl ⟨"field", by decide, rfl⟩ _).mpr ⟨rfl, .inl rfl⟩⟩

/-- A combinator in capital letters is read in a whole filter, but a group on its own refuses it. -/
theorem group_refuses_capitals :
    ofJson (.object [("combinator", .string "AND"), ("operands", .array [])]) =
      .ok (.group .and []) ∧
    groupOfJson? (.object [("combinator", .string "AND"), ("operands", .array [])]) = none :=
  ⟨rfl, rfl⟩

end Filter
end Storehouse
