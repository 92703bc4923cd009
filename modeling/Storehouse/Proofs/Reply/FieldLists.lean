import Storehouse.Collection
import Storehouse.Exchange.Script
import Storehouse.Proofs.Except
import Storehouse.Proofs.Exchange.Endings
import Storehouse.Proofs.Reply.Fields
import Storehouse.Proofs.Text.Order

namespace Storehouse
namespace Reply

/-- What a name and its value say. A nil value says nothing, whatever the name is; attributes around
a value make no difference. -/
inductive FieldReads : Reply × Reply → Option (String × String) → Prop
  | absent {name value : Reply} (h : value.data = .nil) : FieldReads (name, value) none
  | present {name value : Reply} {s t : String} (hvalue : value.data.toText = .ok t)
    (hname : name.toText = .ok s) : FieldReads (name, value) (some (s, t))

/-- The value is at fault before the name, and the name only if there is a value. -/
inductive FieldFault : Reply × Reply → Unexpected → Prop
  | value {name value : Reply} (hnil : value.data ≠ .nil)
    (h : ∀ t, value.data.toText ≠ .ok t) : FieldFault (name, value) (.expected .fieldValue value)
  | name {name value : Reply} {t : String} (hvalue : value.data.toText = .ok t)
    (h : ∀ s, name.toText ≠ .ok s) : FieldFault (name, value) (.expected .fieldName name)

variable {r name value : Reply} {e : Reply × Reply} {es : List (Reply × Reply)}

theorem toOptionalText_of_nil (h : r.data = .nil) : r.toOptionalText = .ok none := by
  rw [toOptionalText, h]

theorem toOptionalText_of_ne_nil (h : r.data ≠ .nil) :
    r.toOptionalText = some <$> r.data.toText := by
  rw [toOptionalText]
  split
  · next hnil => exact absurd hnil h
  · rfl

theorem data_ne_nil_of_toText {t : String} (h : r.data.toText = .ok t) : r.data ≠ .nil := by
  intro hnil
  rw [hnil] at h
  cases h

theorem toOptionalText_cases (r : Reply) :
    (r.data = .nil ∧ r.toOptionalText = .ok none) ∨
    (∃ t, r.data.toText = .ok t ∧ r.toOptionalText = .ok (some t)) ∨
    (r.data ≠ .nil ∧ (∀ t, r.data.toText ≠ .ok t) ∧ ∃ m, r.toOptionalText = .error m) := by
  by_cases hnil : r.data = .nil
  · exact .inl ⟨hnil, toOptionalText_of_nil hnil⟩
  · have hread := toOptionalText_of_ne_nil hnil
    cases htext : r.data.toText with
    | ok t =>
      rw [htext] at hread
      exact .inr (.inl ⟨t, rfl, hread⟩)
    | error m =>
      rw [htext] at hread
      exact .inr (.inr ⟨hnil, nofun, m, hread⟩)

def keep (named : List (String × String)) : Option (String × String) → List (String × String)
  | none => named
  | some (name, value) => Named.insert name value named

theorem FieldReads.addField_eq {said : Option (String × String)} (h : FieldReads e said)
    (named : List (String × String)) : addField named e = .ok (keep named said) := by
  cases h with
  | absent hnil =>
    rw [addField, toOptionalText_of_nil hnil]
    rfl
  | present hvalue hname =>
    rw [addField, toOptionalText_of_ne_nil (data_ne_nil_of_toText hvalue), hvalue, hname]
    rfl

theorem FieldFault.addField_eq {u : Unexpected} (h : FieldFault e u)
    (named : List (String × String)) : addField named e = .error u := by
  cases h with
  | @value name value hnil h =>
    obtain ⟨habsent, -⟩ | ⟨t, ht, -⟩ | ⟨-, -, m, hread⟩ := toOptionalText_cases value
    · exact absurd habsent hnil
    · exact absurd ht (h t)
    · rw [addField, hread]
  | @name name value t hvalue h =>
    cases hname : name.toText with
    | ok s => exact absurd hname (h s)
    | error m =>
      rw [addField, toOptionalText_of_ne_nil (data_ne_nil_of_toText hvalue), hvalue, hname]
      rfl

theorem fieldReads_or_fault (e : Reply × Reply) :
    (∃ said, FieldReads e said) ∨ ∃ u, FieldFault e u := by
  obtain ⟨name, value⟩ := e
  obtain ⟨hnil, -⟩ | ⟨t, hvalue, -⟩ | ⟨hnil, h, -⟩ := toOptionalText_cases value
  · exact .inl ⟨_, .absent hnil⟩
  · cases hname : name.toText with
    | ok s => exact .inl ⟨_, .present hvalue hname⟩
    | error m => exact .inr ⟨_, .name hvalue (by simp [hname])⟩
  · exact .inr ⟨_, .value hnil h⟩

theorem addField_eq_ok_iff (named : List (String × String)) (e : Reply × Reply)
    (other : List (String × String)) :
    addField named e = .ok other ↔ ∃ said, FieldReads e said ∧ keep named said = other := by
  refine ⟨fun h => ?_, fun ⟨said, hsaid, hother⟩ => hother ▸ hsaid.addField_eq named⟩
  obtain ⟨said, hsaid⟩ | ⟨u, hu⟩ := fieldReads_or_fault e
  · rw [hsaid.addField_eq] at h
    exact ⟨said, hsaid, Except.ok.inj h⟩
  · rw [hu.addField_eq] at h
    cases h

theorem addField_eq_error_iff (named : List (String × String)) (e : Reply × Reply)
    (u : Unexpected) : addField named e = .error u ↔ FieldFault e u := by
  refine ⟨fun h => ?_, fun h => h.addField_eq named⟩
  obtain ⟨said, hsaid⟩ | ⟨u', hu⟩ := fieldReads_or_fault e
  · rw [hsaid.addField_eq] at h
    cases h
  · rw [hu.addField_eq] at h
    cases h
    exact hu

variable {named : List (String × String)} {u : Unexpected}

theorem FieldReads.unique {said said' : Option (String × String)} (h : FieldReads e said)
    (h' : FieldReads e said') : said = said' := by
  cases h with
  | absent hnil =>
    cases h' with
    | absent => rfl
    | present hvalue => exact absurd hnil (data_ne_nil_of_toText hvalue)
  | present hvalue hname =>
    cases h' with
    | absent hnil => exact absurd hnil (data_ne_nil_of_toText hvalue)
    | present hvalue' hname' =>
      cases hvalue.symm.trans hvalue'
      cases hname.symm.trans hname'
      rfl

theorem exists_fieldReads_iff : (∃ said, FieldReads e said) ↔
    e.2.data = .nil ∨ (∃ t, e.2.data.toText = .ok t) ∧ ∃ s, e.1.toText = .ok s := by
  constructor
  · rintro ⟨said, h⟩
    cases h with
    | absent hnil => exact .inl hnil
    | present hvalue hname => exact .inr ⟨⟨_, hvalue⟩, _, hname⟩
  · rintro (hnil | ⟨⟨t, hvalue⟩, s, hname⟩)
    · exact ⟨_, .absent hnil⟩
    · exact ⟨_, .present hvalue hname⟩

/-- The field says this value under this name, and no field after it has a value under the name. -/
def LastField (es : List (Reply × Reply)) (name value : String) : Prop :=
  ∃ earlier e later, es = earlier ++ e :: later ∧ FieldReads e (some (name, value)) ∧
    ∀ other ∈ later, ∀ t, ¬ FieldReads other (some (name, t))

theorem lastField_cons {name value : String} : LastField (e :: es) name value ↔
    LastField es name value ∨ (FieldReads e (some (name, value)) ∧
      ∀ other ∈ es, ∀ t, ¬ FieldReads other (some (name, t))) := by
  constructor
  · rintro ⟨earlier, last, later, h, hlast, hlater⟩
    cases earlier with
    | nil =>
      cases h
      exact .inr ⟨hlast, hlater⟩
    | cons first earlier =>
      cases h
      exact .inl ⟨earlier, last, later, rfl, hlast, hlater⟩
  · rintro (⟨earlier, last, later, rfl, hlast, hlater⟩ | ⟨hlast, hlater⟩)
    · exact ⟨e :: earlier, last, later, rfl, hlast, hlater⟩
    · exact ⟨[], e, es, rfl, hlast, hlater⟩

theorem ascending_keep (h : Named.Ascending named) (said : Option (String × String)) :
    Named.Ascending (keep named said) := by
  cases said with
  | none => exact h
  | some p => exact h.insert p.1 p.2

theorem ascending_foldl_keep (h : Named.Ascending named) (saids : List (Option (String × String))) :
    Named.Ascending (saids.foldl keep named) := by
  induction saids generalizing named with
  | nil => exact h
  | cons said saids ih => exact ih (ascending_keep h said)

theorem mem_keep {said : Option (String × String)} {name value : String}
    (h : Named.Ascending named) : (name, value) ∈ keep named said ↔
      said = some (name, value) ∨ ((∀ t, said ≠ some (name, t)) ∧ (name, value) ∈ named) := by
  cases said with
  | none => simp [keep]
  | some p =>
    rw [keep, Named.mem_insert h]
    grind

/-- The names that are kept have the values of the last fields, or those from before. -/
theorem mem_foldl_keep {saids : List (Option (String × String))} {name value : String}
    (h : List.Forall₂ FieldReads es saids) (hnamed : Named.Ascending named) :
    (name, value) ∈ saids.foldl keep named ↔ LastField es name value ∨
      ((∀ e ∈ es, ∀ t, ¬ FieldReads e (some (name, t))) ∧ (name, value) ∈ named) := by
  induction h generalizing named with
  | nil => simp [LastField]
  | @cons e said es saids hsaid _ ih =>
    have hreads {t : String} : FieldReads e (some (name, t)) ↔ said = some (name, t) :=
      ⟨fun h => hsaid.unique h, fun h => h ▸ hsaid⟩
    rw [List.foldl_cons, ih (ascending_keep hnamed said), mem_keep hnamed, lastField_cons]
    simp only [List.forall_mem_cons, hreads]
    tauto

theorem exists_lastField_iff {name : String} :
    (∃ value, LastField es name value) ↔ ∃ e ∈ es, ∃ value, FieldReads e (some (name, value)) := by
  constructor
  · rintro ⟨value, earlier, e, later, rfl, he, -⟩
    exact ⟨e, by simp, value, he⟩
  · intro h
    induction es with
    | nil => simp at h
    | cons e es ih =>
      by_cases hlater : ∃ other ∈ es, ∃ value, FieldReads other (some (name, value))
      · obtain ⟨value, hvalue⟩ := ih hlater
        exact ⟨value, lastField_cons.mpr (.inl hvalue)⟩
      · obtain ⟨other, hother, value, hvalue⟩ := h
        cases hother with
        | head =>
          have hnone : ∀ other ∈ es, ∀ t, ¬ FieldReads other (some (name, t)) :=
            fun other hother t ht => hlater ⟨other, hother, t, ht⟩
          exact ⟨value, lastField_cons.mpr (.inr ⟨hvalue, hnone⟩)⟩
        | tail _ hother => exact absurd ⟨other, hother, value, hvalue⟩ hlater

theorem fields_of_pairs (h : r.pairs = .ok es) : r.fields = es.foldlM addField [] := by
  rw [fields, h]
  rfl

theorem fields_inTurn (es : List (Reply × Reply)) :
    fields (.array (inTurn es)) = fields (.map es) ∧
      fields (.set (inTurn es)) = fields (.map es) := by
  have harray : pairs (.array (inTurn es)) = .ok es := by
    rw [pairs, pairUp?_inTurn]
  have hset : pairs (.set (inTurn es)) = .ok es := by
    rw [pairs, pairUp?_inTurn]
  have hmap : fields (.map es) = es.foldlM addField [] := fields_of_pairs rfl
  exact ⟨(fields_of_pairs harray).trans hmap.symm, (fields_of_pairs hset).trans hmap.symm⟩

theorem fields_odd {items : List Reply} (h : items.length % 2 = 1) :
    fields (.array items) = .error (.expected .evenFieldList (.array items)) ∧
      fields (.set items) = .error (.expected .evenFieldList (.set items)) := by
  have hnone := pairUp?_eq_none_iff.mpr h
  constructor
  · rw [fields, pairs, hnone]
    rfl
  · rw [fields, pairs, hnone]
    rfl

theorem fields_map_eq_ok_iff : fields (.map es) = .ok named ↔
    ∃ saids, List.Forall₂ FieldReads es saids ∧ saids.foldl keep [] = named := by
  rw [fields_of_pairs rfl]
  exact Except.foldlM_eq_ok_iff addField_eq_ok_iff

theorem fields_map_eq_error_iff : fields (.map es) = .error u ↔ ∃ first e rest,
    es = first ++ e :: rest ∧ (∀ other ∈ first, ∃ said, FieldReads other said) ∧
      FieldFault e u := by
  rw [fields_of_pairs rfl, Except.foldlM_eq_error_iff addField_eq_ok_iff addField_eq_error_iff]
  simp only [← Except.exists_forall₂_iff]
  grind

theorem ascending_fields (h : r.fields = .ok named) : Named.Ascending named := by
  obtain ⟨es, hpairs, hfold⟩ := Except.bind_eq_ok_iff.mp h
  obtain ⟨saids, -, rfl⟩ := (Except.foldlM_eq_ok_iff addField_eq_ok_iff).mp hfold
  exact ascending_foldl_keep List.Pairwise.nil saids

/-- A name is there if some field has a value under it, and then with the value of the last such
field. -/
structure AmountsTo (es : List (Reply × Reply)) (named : List (String × String)) : Prop where
  mem_names (name : String) :
    name ∈ named.map Prod.fst ↔ ∃ e ∈ es, ∃ value, FieldReads e (some (name, value))
  mem (name value : String) : (name, value) ∈ named ↔ LastField es name value

theorem amountsTo_of_fields_map (h : fields (.map es) = .ok named) : AmountsTo es named := by
  obtain ⟨saids, hsaids, rfl⟩ := fields_map_eq_ok_iff.mp h
  have hmem (name value : String) :
      (name, value) ∈ saids.foldl keep [] ↔ LastField es name value := by
    rw [mem_foldl_keep hsaids List.Pairwise.nil]
    simp
  refine ⟨fun name => ?_, hmem⟩
  rw [← exists_lastField_iff]
  simp only [← hmem, List.mem_map, Prod.exists, exists_and_right, exists_eq_right]

/-- Names and values are read alike from a list, a set or a map. They are read if each value is nil,
or it is a text and so is its name; otherwise the first field at fault is reported. The members of a
hash are the fields of the reply; they come in the order of the bytes of their names, none of them
twice. A list or a set of odd length is refused as a whole. -/
theorem fields_read_alike (es : List (Reply × Reply)) :
    (fields (.array (inTurn es)) = fields (.map es) ∧
      fields (.set (inTurn es)) = fields (.map es)) ∧
    ((∃ named, fields (.map es) = .ok named) ↔ ∀ e ∈ es, e.2.data = .nil ∨
      (∃ value, e.2.data.toText = .ok value) ∧ ∃ name, e.1.toText = .ok name) ∧
    (∀ u, fields (.map es) = .error u ↔ ∃ first e rest, es = first ++ e :: rest ∧
      (∀ other ∈ first, ∃ said, FieldReads other said) ∧ FieldFault e u) ∧
    (∀ named, fields (.map es) = .ok named → AmountsTo es named) ∧
    (∀ (σ : Type) (execute : Executor σ) (x : Exchange σ) (space : Keyspace) (key : String),
      (∀ reply t, execute ["HGETALL", space.apply key] x.server = (.ok reply, t) →
        (Collection.Hash.members.keyed.on space key).run execute x =
          (reply.fields.mapError .unexpected, ⟨t, x.events⟩)) ∧
      ∀ named y, (Collection.Hash.members.keyed.on space key).run execute x = (.ok named, y) →
        (named.Pairwise fun a b => Text.bytes a.1 < Text.bytes b.1) ∧
          (named.map Prod.fst).Nodup) ∧
    ∀ items : List Reply, items.length % 2 = 1 →
      fields (.array items) = .error (.expected .evenFieldList (.array items)) ∧
        fields (.set items) = .error (.expected .evenFieldList (.set items)) := by
  have haccepted : (∃ named, fields (.map es) = .ok named) ↔ ∀ e ∈ es, e.2.data = .nil ∨
      (∃ value, e.2.data.toText = .ok value) ∧ ∃ name, e.1.toText = .ok name := by
    simp only [← exists_fieldReads_iff, ← Except.exists_forall₂_iff, fields_map_eq_ok_iff]
    grind
  refine ⟨fields_inTurn es, haccepted, fun u => fields_map_eq_error_iff,
    fun named => amountsTo_of_fields_map, ?_, fun items => fields_odd⟩
  intro σ execute x space key
  refine ⟨fun reply t hreply => Keyed.run_on_of_ok hreply, ?_⟩
  intro named y h
  obtain ⟨reply, -, hread⟩ := Keyed.exists_read_of_run_on h
  have hascending := ascending_fields hread
  exact ⟨hascending.imp Text.bytes_lt_of_lt, hascending.nodup⟩

/-- A name with three values, of which the last is nil and the one before counts; and the members of
a hash that is answered with them. -/
theorem fields_read_renamed :
    fields (.array (inTurn [(text "name", text "Ada"), (text "name", text "Eve"),
      (text "name", .nil)])) = .ok [("name", "Eve")] ∧
    LastField [(text "name", text "Ada"), (text "name", text "Eve"), (text "name", .nil)]
      "name" "Eve" ∧
    ∃ y, (Collection.Hash.members.keyed.on ⟨"app:"⟩ "1").run Script.execute ⟨.ofReplies [.array
      (inTurn [(text "name", text "Ada"), (text "name", text "Eve"), (text "name", .nil)])], []⟩ =
        (.ok [("name", "Eve")], y) := by
  obtain ⟨⟨harray, -⟩, -, -, hmem, hmembers, -⟩ := fields_read_alike
    [(text "name", text "Ada"), (text "name", text "Eve"), (text "name", .nil)]
  have hmap : fields (.map [(text "name", text "Ada"), (text "name", text "Eve"),
      (text "name", .nil)]) = .ok [("name", "Eve")] := by
    refine fields_map_eq_ok_iff.mpr
      ⟨[some ("name", "Ada"), some ("name", "Eve"), none], ?_, by decide⟩
    have hpresent (value : String) :
        FieldReads (text "name", text value) (some ("name", value)) :=
      .present (toText_text value) (toText_text "name")
    exact .cons (hpresent "Ada") (.cons (hpresent "Eve") (.cons (.absent rfl) .nil))
  have hread := harray.trans hmap
  have hrun := (hmembers Script Script.execute ⟨.ofReplies [.array (inTurn
    [(text "name", text "Ada"), (text "name", text "Eve"), (text "name", .nil)])], []⟩
    ⟨"app:"⟩ "1").1 _ _ rfl
  rw [hread] at hrun
  exact ⟨hread, ((hmem _ hmap).mem _ _).mp List.mem_cons_self, _, hrun⟩

end Reply
end Storehouse
