import Storehouse.Json.Reader

namespace Storehouse.Json

/-- The fields of a record in the order of the given names. Other members of an object are passed
over; an array may stop early but not go on past the last field. -/
def fields? (names : List String) : Json → Option (List (Option Json))
  | .object members => some (names.map fun name => members.lookup name)
  | .array items =>
    if items.length ≤ names.length then
      some (items.map some ++ List.replicate (names.length - items.length) none)
    else none
  | _ => none

/-- A name alone, or as the only member of an object that holds nothing. -/
def choice? : Json → Option String
  | .string name => some name
  | .object [(name, .null)] => some name
  | _ => none

/-- A field that has a value of its own when it is missing. -/
def orElse {α : Type} (default : α) (read : Json → Option α) : Option Json → Option α
  | none => some default
  | some v => read v

def nullable {α : Type} (read : Json → Option α) : Json → Option (Option α)
  | .null => some none
  | v => some <$> read v

inductive FieldKind
  | text
  | natural (bound : Nat)
  | float

/-- The value of a field in its own form: a float stays one even if it is written as a whole
number. -/
def FieldKind.read? : FieldKind → Json → Option Json
  | text, v => Json.string <$> v.string?
  | natural bound, v => (fun _ => v) <$> v.natural? bound
  | float, v => Json.ofFloat <$> v.float?

def readFields? : List (String × FieldKind) → List (Option Json) → Option (List (String × Json))
  | [], [] => some []
  | (name, kind) :: shape, some v :: rest => do
    let first ← kind.read? v
    let others ← readFields? shape rest
    return (name, first) :: others
  | _, _ => none

/-- A record with the given fields, all of them present, with its members in the given order. -/
def shaped? (shape : List (String × FieldKind)) (v : Json) : Option Json := do
  let values ← v.fields? (shape.map (·.1))
  Json.object <$> readFields? shape values

/-- Reads a record with the given fields from text. -/
def shapedOfText? (shape : List (String × FieldKind)) (s : String) : Option Json := do
  let source ← Source.ofText? s
  let v ← source.record? (shape.map (·.1))
  shaped? shape v

end Storehouse.Json
