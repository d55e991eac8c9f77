import TaskNetwork.Json.Reader

/-!
# Types with JSON documents

A type with documents has a shape, a canonical JSON value for each of its values, and the way
back. Writing gives the compact text of the canonical value; reading goes through the shape, so
the way back only ever meets canonical values.
-/

namespace TaskNetwork.Json

/-- A type whose values are kept as JSON documents. -/
class Document (α : Type) where
  /-- The shape of the documents. -/
  schema : Schema
  /-- The canonical JSON value. -/
  toJson : α → Json
  /-- The value of a canonical JSON value. -/
  ofJson? : Json → Option α

export Document (toJson ofJson?)

namespace Document

variable {α : Type} [Document α]

/-- The document of a value. -/
def text (a : α) : String := (toJson a).render

/-- The document of a value in UTF-8. -/
def bytes (a : α) : ByteArray := (text a).toUTF8

/-- Reads a document. -/
def parse (α : Type) [Document α] (data : ByteArray) : Except Failure α := do
  match ofJson? (← (schema α).readDocument data) with
  | some a => return a
  | none => .error .mismatch

end Document

/-! ## Parts of canonical values -/

/-- The text of a string. -/
def text? : Json → Option String
  | .text s => some s
  | _ => none

/-- The truth value of `true` and `false`. -/
def bool? : Json → Option Bool
  | .bool b => some b
  | _ => none

/-- The number of an unsigned 32-bit number. -/
def uint32? : Json → Option UInt32
  | .number (.integer n) => some (UInt32.ofNat n.toNat)
  | _ => none

/-- The number of an unsigned 64-bit number. -/
def uint64? : Json → Option UInt64
  | .number (.integer n) => some (UInt64.ofNat n.toNat)
  | _ => none

/-- The items of a list, each read by a function. -/
def listOf? {α : Type} (item? : Json → Option α) : Json → Option (List α)
  | .list items => items.mapM item?
  | _ => none

/-- The texts of a list of strings. -/
def texts? : Json → Option (List String) := listOf? text?

/-- Nothing for `null`, else a value read by a function. -/
def optionOf? {α : Type} (value? : Json → Option α) : Json → Option (Option α)
  | .null => some none
  | j => (value? j).map some

/-- An optional value, `null` for nothing. -/
def ofOption {α : Type} (toJson : α → Json) : Option α → Json
  | none => .null
  | some a => toJson a

end TaskNetwork.Json
