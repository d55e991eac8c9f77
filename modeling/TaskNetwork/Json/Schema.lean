import TaskNetwork.Json.Basic
import TaskNetwork.OrderedMap.Basic

/-!
# Shapes of JSON documents

A schema says which JSON values stand for a value of some type. Each such value has one canonical
form, the one that is written, and `Schema.decode` takes any accepted value to it: members that a
record does not know are dropped, fields come in the order of the schema, an absent optional field
becomes `null`, and the entries of a map are sorted.
-/

namespace TaskNetwork.Json

/-- The shape of a JSON document. -/
inductive Schema where
  | text
  /-- An unsigned number of so many bits. -/
  | word (bits : Nat)
  | bool
  /-- The shape itself, or `null`. -/
  | option (s : Schema)
  | list (s : Schema)
  /-- An object with any keys; a repeated key keeps its last value. -/
  | map (s : Schema)
  /-- An object with these fields, or the list of their values. -/
  | record (fields : List (String × Schema))
  /-- A record that says in the member `tag` which variant it is; each variant is a record. -/
  | tagged (tag : String) (variants : List (String × Schema))
  /-- The name of a plain variant, or an object of one member: a variant's name and content. -/
  | choice (plain : List String) (wrapped : List (String × Schema))
deriving Repr, Inhabited

namespace Schema

/-- Whether a field of this shape may be absent. -/
def isOption : Schema → Bool
  | .option _ => true
  | _ => false

/-- A field of a record with its reading of JSON values. -/
structure FieldDecoder where
  name : String
  optional : Bool
  decode : Json → Option Json

/-- The values of all members with a key. -/
def membersNamed (name : String) (members : List (String × Json)) : List Json :=
  (members.filter fun m => m.1 == name).map (·.2)

/-- Finds and reads one field among the members of an object. -/
def FieldDecoder.ofMembers (members : List (String × Json)) (f : FieldDecoder) :
    Option (String × Json) :=
  match membersNamed f.name members with
  | [] => if f.optional then some (f.name, .null) else none
  | [value] => (f.decode value).map fun v => (f.name, v)
  | _ => none

/-- Reads the fields of a record from the items of a list. -/
def decodeItems : List FieldDecoder → List Json → Option (List (String × Json))
  | [], [] => some []
  | f :: fs, item :: items => do
    let value ← f.decode item
    let rest ← decodeItems fs items
    return (f.name, value) :: rest
  | _, _ => none

/-- Reads a record from an object or from a list. -/
def decodeRecord (fields : List FieldDecoder) : Json → Option Json
  | .object members => (fields.mapM (FieldDecoder.ofMembers members)).map .object
  | .list items => (decodeItems fields items).map .object
  | _ => none

/-- Puts the tag in front of a variant's fields. -/
def withTag (tag name : String) : Json → Option Json
  | .object fields => some (.object ((tag, .text name) :: fields))
  | _ => none

/-- Reads a variant's content with the decoder of its name. -/
def decodeVariant (tag name : String) (variants : List (String × (Json → Option Json)))
    (content : Json) : Option Json := do
  let decode ← variants.lookup name
  withTag tag name (← decode content)

/-- Reads a tagged record from an object or from a list that starts with the tag. -/
def decodeTagged (tag : String) (variants : List (String × (Json → Option Json))) :
    Json → Option Json
  | .object members =>
    match membersNamed tag members with
    | [.text name] =>
      decodeVariant tag name variants (.object (members.filter fun m => !(m.1 == tag)))
    | _ => none
  | .list (.text name :: items) => decodeVariant tag name variants (.list items)
  | _ => none

/-- Whether a value says nothing: `null`, or an object without members. -/
def isUnit : Json → Bool
  | .null => true
  | .object [] => true
  | _ => false

/-- Reads a choice from a name or from an object of one member. -/
def decodeChoice (plain : List String) (wrapped : List (String × (Json → Option Json))) :
    Json → Option Json
  | .text name => if plain.contains name then some (.text name) else none
  | .object [(name, value)] =>
    if plain.contains name then
      if isUnit value then some (.text name) else none
    else do
      let decode ← wrapped.lookup name
      return .object [(name, ← decode value)]
  | _ => none

/-- Whether a number is an unsigned one of so many bits. -/
def isWord (bits : Nat) : Number → Bool
  | .integer n => 0 ≤ n && n < Nat.pow 2 bits
  | .decimal _ => false

/-- Sorts the entries of a map, the last one of each key. -/
def mapObject (entries : List (String × Json)) : Json :=
  .object (OrderedMap.ofList entries).toList

mutual

/-- The canonical form of an accepted value, nothing for a value of another shape. -/
def decode : Schema → Json → Option Json
  | .text, value =>
    match value with
    | .text s => some (.text s)
    | _ => none
  | .word bits, value =>
    match value with
    | .number n => if isWord bits n then some (.number n) else none
    | _ => none
  | .bool, value =>
    match value with
    | .bool b => some (.bool b)
    | _ => none
  | .option s, value =>
    match value with
    | .null => some .null
    | value => s.decode value
  | .list s, value =>
    match value with
    | .list items => (items.mapM s.decode).map .list
    | _ => none
  | .map s, value =>
    match value with
    | .object members =>
      (members.mapM fun m => (s.decode m.2).map fun v => (m.1, v)).map mapObject
    | _ => none
  | .record fields, value => decodeRecord (fieldDecoders fields) value
  | .tagged tag variants, value => decodeTagged tag (variantDecoders variants) value
  | .choice plain wrapped, value => decodeChoice plain (variantDecoders wrapped) value

/-- The fields of a record with their readings. -/
def fieldDecoders : List (String × Schema) → List FieldDecoder
  | [] => []
  | (name, s) :: rest => ⟨name, s.isOption, s.decode⟩ :: fieldDecoders rest

/-- The variants with their readings. -/
def variantDecoders : List (String × Schema) → List (String × (Json → Option Json))
  | [] => []
  | (name, s) :: rest => (name, s.decode) :: variantDecoders rest

end

end Schema

end TaskNetwork.Json
