import Storehouse.Collection
import Storehouse.Filter.Json
import Storehouse.Json.Record
import Storehouse.Json.Writer

namespace Storehouse

/-- How values are written as text and read back; not every value has a text, nor every text a
value. -/
structure Codec (α : Type) where
  encode : α → Option String
  decode : String → Option α

namespace Codec

def ofJson {α : Type} (encode : α → Json) (decode : Json → Option α) : Codec α where
  encode a := some (encode a).write
  decode s := Json.ofText? s >>= decode

def json : Codec Json := .ofJson id some

def text : Codec String := .ofJson .string Json.string?

def integer : Codec Int64 := .ofJson Json.ofInt64 Json.int64?

def flag : Codec Bool := .ofJson .bool Json.bool?

def filter : Codec Filter := .ofJson Filter.toJson fun v => (Filter.ofJson v).toOption

/-- Records with the given fields, as objects with exactly these members. -/
def shaped (shape : List (String × Json.FieldKind)) : Codec Json where
  encode v := some v.write
  decode s := Json.shapedOfText? shape s

def scored : Codec ScoredMember where
  encode m := some m.toJson.write
  decode s := Json.shapedOfText? ScoredMember.shape s >>= ScoredMember.ofShaped?

end Codec
end Storehouse
