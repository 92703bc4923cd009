import Storehouse.Named
import Storehouse.Reply.Fields

namespace Storehouse

namespace Reply

theorem fromUTF8?_toUTF8 (s : String) : String.fromUTF8? s.toUTF8 = some s :=
  dif_pos s.isValidUTF8

theorem toText_text (s : String) : (text s).toText = .ok s := by
  have hdata : (text s).data = .bulk s.toUTF8 := rfl
  rw [toText, hdata]
  simp only [fromUTF8?_toUTF8]

theorem toWord?_text (s : String) : (text s).toWord? = Text.word? s := by
  have hdata : (text s).data = .bulk s.toUTF8 := rfl
  rw [toWord?, hdata]
  simp only [fromUTF8?_toUTF8]
  rfl

theorem toOptionalText_text (s : String) : (text s).toOptionalText = .ok (some s) := by
  have hdata : (text s).data = text s := rfl
  have hread : (text s).toOptionalText = some <$> (text s).toText := by
    rw [toOptionalText, hdata]
    rfl
  rw [hread, toText_text]
  rfl

def listOfTexts (fields : List (String × String)) : Reply :=
  .array (fields.flatMap fun p => [text p.1, text p.2])

def mapOfTexts (fields : List (String × String)) : Reply :=
  .map (fields.map fun p => (text p.1, text p.2))

/-- The two sides of each pair, one after the other. -/
def inTurn (pairs : List (Reply × Reply)) : List Reply := pairs.flatMap fun p => [p.1, p.2]

@[simp]
theorem inTurn_nil : inTurn [] = [] := rfl

@[simp]
theorem inTurn_cons (p : Reply × Reply) (pairs : List (Reply × Reply)) :
    inTurn (p :: pairs) = p.1 :: p.2 :: inTurn pairs := rfl

theorem length_inTurn (pairs : List (Reply × Reply)) :
    (inTurn pairs).length = 2 * pairs.length := by
  induction pairs with
  | nil => rfl
  | cons p pairs ih =>
    rw [inTurn_cons, List.length_cons, List.length_cons, List.length_cons, ih]
    omega

theorem pairUp?_inTurn (pairs : List (Reply × Reply)) : pairUp? (inTurn pairs) = some pairs := by
  induction pairs with
  | nil => rfl
  | cons p pairs ih =>
    rw [inTurn_cons, pairUp?, ih]
    rfl

theorem pairUp?_eq_some_iff {items : List Reply} {pairs : List (Reply × Reply)} :
    pairUp? items = some pairs ↔ items = inTurn pairs := by
  constructor
  · intro h
    induction items using pairUp?.induct generalizing pairs with
    | case1 =>
      cases h
      rfl
    | case2 item => cases h
    | case3 name value rest ih =>
      obtain ⟨others, hothers, rfl⟩ := Option.map_eq_some_iff.mp h
      rw [inTurn_cons, ← ih hothers]
  · rintro rfl
    exact pairUp?_inTurn pairs

theorem pairUp?_eq_none_iff {items : List Reply} :
    pairUp? items = none ↔ items.length % 2 = 1 := by
  induction items using pairUp?.induct with
  | case1 => exact iff_of_false nofun nofun
  | case2 item => exact iff_of_true rfl rfl
  | case3 name value rest ih =>
    have hrest : pairUp? (name :: value :: rest) = none ↔ pairUp? rest = none :=
      Option.map_eq_none_iff
    rw [hrest, ih, List.length_cons, List.length_cons]
    omega

theorem addField_text (named : List (String × String)) (name value : String) :
    addField named (text name, text value) = .ok (Named.insert name value named) := by
  rw [addField, toOptionalText_text, toText_text]

theorem foldlM_addField_texts (fields named : List (String × String)) :
    (fields.map fun p => (text p.1, text p.2)).foldlM addField named =
      .ok (fields.foldl (fun named p => Named.insert p.1 p.2 named) named) := by
  induction fields generalizing named with
  | nil => rfl
  | cons p fields ih =>
    rw [List.map_cons, List.foldlM_cons, addField_text]
    exact ih _

theorem fields_mapOfTexts (fields : List (String × String)) :
    (mapOfTexts fields).fields = .ok (Named.ofList fields) :=
  foldlM_addField_texts fields []

theorem fields_listOfTexts (fields : List (String × String)) :
    (listOfTexts fields).fields = .ok (Named.ofList fields) := by
  have hitems : listOfTexts fields =
      .array (inTurn (fields.map fun p => (text p.1, text p.2))) := by
    rw [listOfTexts, inTurn, List.flatMap_map]
  have hpairs : (listOfTexts fields).pairs = .ok (fields.map fun p => (text p.1, text p.2)) := by
    rw [hitems, pairs, pairUp?_inTurn]
  rw [Reply.fields, hpairs]
  exact foldlM_addField_texts fields []

end Reply
end Storehouse
