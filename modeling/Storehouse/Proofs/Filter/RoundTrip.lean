import Storehouse.Filter.Json
import Storehouse.Proofs.Double.Finite
import Storehouse.Proofs.Filter.Decoded
import Storehouse.Proofs.Filter.Leaves

namespace Storehouse

namespace Json

mutual

/-- The value as it is kept: the members of objects in ascending order of their names. -/
def sorted : Json → Json
  | .array items => .array (sortedItems items)
  | .object members => .object (Named.ofList (sortedMembers members))
  | v => v

def sortedItems : List Json → List Json
  | [] => []
  | v :: rest => sorted v :: sortedItems rest

def sortedMembers : List (String × Json) → List (String × Json)
  | [] => []
  | (name, v) :: rest => (name, sorted v) :: sortedMembers rest

end

theorem sortedItems_eq_map (items : List Json) : sortedItems items = items.map sorted := by
  induction items with
  | nil => rfl
  | cons v rest ih => rw [sortedItems, ih, List.map_cons]

end Json

namespace Scalar

def settled : Scalar → Scalar
  | .float x => if Double.finite x then .float x else .null
  | v => v

def Finite : Scalar → Prop
  | .float x => Double.finite x = true
  | _ => True

theorem Finite.settled_eq {v : Scalar} (h : v.Finite) : v.settled = v := by
  cases v with
  | float x => exact if_pos h
  | _ => rfl

theorem decodes_toJson (v : Scalar) : Decodes v.toJson v.settled := by
  cases v with
  | null => exact .null
  | bool b => exact .bool b
  | int n => exact .int _ n rfl
  | float x =>
    rw [toJson, settled, Json.ofFloat]
    split
    · next h => exact .real x h
    · exact .null
  | text s => exact .text s

theorem Decodes.finite {v : Json} {s : Scalar} (h : Decodes v s) : s.Finite := by
  cases h with
  | large hn hge => exact Double.finite_ofInt hge hn.2
  | real x hx => exact hx
  | _ => trivial

theorem sorted_toJson (v : Scalar) : v.toJson.sorted = v.toJson := by
  cases v with
  | float x =>
    rw [toJson, Json.ofFloat]
    split <;> rfl
  | _ => rfl

end Scalar

namespace Operand

def settled : Operand → Operand
  | .scalar v => .scalar v.settled
  | .list vs => .list (vs.map Scalar.settled)

theorem settled_eq {o : Operand} (h : ∀ v ∈ o.scalars, v.Finite) : o.settled = o := by
  cases o with
  | scalar v => rw [settled, (h v (List.mem_singleton.mpr rfl)).settled_eq]
  | list vs =>
    have hvs : vs.map Scalar.settled = vs :=
      (List.map_congr_left fun v hv => (h v hv).settled_eq).trans vs.map_id'
    rw [settled, hvs]

theorem decodes_toJson (o : Operand) : Decodes o.toJson o.settled := by
  cases o with
  | scalar v => exact .scalar v.decodes_toJson
  | list vs =>
    apply Decodes.list
    rw [List.forall₂_map_left_iff, List.forall₂_map_right_iff]
    exact List.forall₂_same.mpr fun v _ => v.decodes_toJson

theorem Decodes.finite {v : Json} {o : Operand} (h : Decodes v o) : ∀ s ∈ o.scalars, s.Finite := by
  cases h with
  | scalar h => exact fun s hs => List.mem_singleton.mp hs ▸ h.finite
  | list h =>
    induction h with
    | nil => exact fun s hs => by cases hs
    | cons hv _ ih =>
      intro s hs
      rcases List.mem_cons.mp hs with rfl | hs
      · exact hv.finite
      · exact ih s hs

theorem sorted_toJson (o : Operand) : o.toJson.sorted = o.toJson := by
  cases o with
  | scalar v => exact v.sorted_toJson
  | list vs =>
    rw [toJson, Json.sorted, Json.sortedItems_eq_map, List.map_map]
    congr 1
    exact List.map_congr_left fun v _ => v.sorted_toJson

end Operand

def Condition.settled (c : Condition) : Condition := { c with operand := c.operand.settled }

namespace Filter

mutual

/-- The filter as far as JSON can hold it. -/
def settled : Filter → Filter
  | .leaf c => .leaf c.settled
  | .group combinator operands => .group combinator (settledAll operands)

def settledAll : List Filter → List Filter
  | [] => []
  | f :: rest => settled f :: settledAll rest

end

theorem settledAll_eq_map (fs : List Filter) : settledAll fs = fs.map settled := by
  induction fs with
  | nil => rfl
  | cons f fs ih => rw [settledAll, ih, List.map_cons]

theorem toItems_eq_map (fs : List Filter) : toItems fs = fs.map toJson := by
  induction fs with
  | nil => rfl
  | cons f fs ih => rw [toItems, ih, List.map_cons]

def Finite (f : Filter) : Prop :=
  ∀ c ∈ f.leaves, ∀ v ∈ c.operand.scalars, v.Finite

theorem Finite.settled_eq {f : Filter} (h : f.Finite) : f.settled = f := by
  induction f with
  | leaf c =>
    rw [settled, Condition.settled, Operand.settled_eq (h c (List.mem_singleton.mpr rfl))]
  | group k fs ih =>
    have hfs : fs.map settled = fs := by
      have hmap := List.map_congr_left fun f hf => ih f hf fun c hc =>
        h c (mem_leaves_group.mpr ⟨f, hf, hc⟩)
      rw [hmap, List.map_id']
    rw [settled, settledAll_eq_map, hfs]

theorem Decodes.finite {v : Json} {f : Filter} (h : Decodes v f) : f.Finite := by
  induction h using Decodes.rec (motive_2 := fun _ fs _ => ∀ f ∈ fs, f.Finite) with
  | wrapper h hv ih => exact ih
  | leaf h hc =>
    intro c hmem
    cases List.mem_singleton.mp hmem
    cases hc with
    | parts hop hv => exact hv.finite
  | group h hk hs ih =>
    intro c hc
    obtain ⟨f, hf, hc⟩ := mem_leaves_group.mp hc
    exact ih f hf c hc
  | nil f hf => cases hf
  | cons hv hs ihv ihs f hf =>
    rcases List.mem_cons.mp hf with rfl | hf
    · exact ihv
    · exact ihs f hf

theorem decodes_group {k : Combinator} {items : List Json} {fs : List Filter}
    (h : List.Forall₂ Decodes items fs) :
    Decodes (.object [("operands", .array items), ("combinator", .string k.name)]) (group k fs) ∧
      Decodes (.object [("combinator", .string k.name), ("operands", .array items)])
        (group k fs) := by
  have hk : Combinator.Decodes (.string k.name) k :=
    .name (List.forall₂_same.mpr fun c _ => .inl rfl)
  exact ⟨.group (.group rfl ⟨"field", by simp, rfl⟩ rfl rfl) hk h,
    .group (.group rfl ⟨"field", by simp, rfl⟩ rfl rfl) hk h⟩

theorem sorted_toJson_leaf (c : Condition) : (leaf c).toJson.sorted = (leaf c).toJson := by
  simp only [toJson, Condition.toJson, Json.sorted, Json.sortedMembers, c.operand.sorted_toJson]
  rfl

theorem sorted_toJson_group (k : Combinator) (fs : List Filter) : (group k fs).toJson.sorted =
    .object [("combinator", .string k.name),
      ("operands", .array (fs.map fun f => f.toJson.sorted))] := by
  simp only [toJson, Json.sorted, Json.sortedMembers, Json.sortedItems_eq_map, toItems_eq_map,
    List.map_map]
  rfl

theorem decodes_toJson (f : Filter) :
    Decodes f.toJson f.settled ∧ Decodes f.toJson.sorted f.settled := by
  induction f with
  | leaf c =>
    have hc : Decodes (leaf c).toJson (leaf c).settled :=
      .leaf (.condition rfl rfl rfl rfl) (.parts (.name c.operator) c.operand.decodes_toJson)
    exact ⟨hc, by rw [sorted_toJson_leaf]; exact hc⟩
  | group k fs ih =>
    rw [sorted_toJson_group, toJson, settled, settledAll_eq_map, toItems_eq_map]
    have hkept : List.Forall₂ Decodes (fs.map toJson) (fs.map settled) := by
      rw [List.forall₂_map_left_iff, List.forall₂_map_right_iff]
      exact List.forall₂_same.mpr fun f hf => (ih f hf).1
    have hsorted : List.Forall₂ Decodes (fs.map fun f => f.toJson.sorted) (fs.map settled) := by
      rw [List.forall₂_map_left_iff, List.forall₂_map_right_iff]
      exact List.forall₂_same.mpr fun f hf => (ih f hf).2
    exact ⟨(decodes_group hkept).1, (decodes_group hsorted).2⟩

/-- A filter is read back from its JSON form as far as JSON can hold it, by either decoder. One that
was read from JSON is held whole, and keeps its query. -/
theorem ofJson_toJson (f : Filter) :
    ofJson f.toJson = .ok f.settled ∧ ofJson f.toJson.sorted = .ok f.settled ∧
      ∀ v, ofJson v = .ok f → f.Finite ∧ ofJson f.toJson = .ok f ∧
        ∀ g, ofJson f.toJson = .ok g → g.query = f.query := by
  have hkept : ofJson f.toJson = .ok f.settled := ((judged _).1 _).mpr f.decodes_toJson.1
  have hsorted : ofJson f.toJson.sorted = .ok f.settled := ((judged _).1 _).mpr f.decodes_toJson.2
  have hread : ∀ v, ofJson v = .ok f → f.Finite ∧ ofJson f.toJson = .ok f ∧
      ∀ g, ofJson f.toJson = .ok g → g.query = f.query := by
    intro v hv
    have hfinite : f.Finite := (((judged v).1 f).mp hv).finite
    have hsame : ofJson f.toJson = .ok f := by rw [hkept, hfinite.settled_eq]
    have hquery : ∀ g, ofJson f.toJson = .ok g → g.query = f.query := by
      intro g hg
      rw [hsame] at hg
      cases hg
      rfl
    exact ⟨hfinite, hsame, hquery⟩
  exact ⟨hkept, hsorted, hread⟩

end Filter
end Storehouse
