import TaskNetwork.Json.Number
import TaskNetwork.Text.Basic

/-!
# JSON values

A JSON value and its compact text: no blanks, members in the order in which they stand, and
escapes only where the grammar demands them.
-/

namespace TaskNetwork

/-- A JSON value. The members of an object keep their order, and a key may occur twice. -/
inductive Json where
  | null
  | bool (value : Bool)
  | number (value : Json.Number)
  | text (value : String)
  | list (items : List Json)
  | object (members : List (String × Json))
deriving Repr, Inhabited

namespace Json

/-- A natural number as a JSON value. -/
def ofNat (n : Nat) : Json := .number (.integer n)

/-- A list of texts as a JSON value. -/
def ofTexts (ts : List String) : Json := .list (ts.map .text)

/-! ## Text -/

/-- One character inside a JSON string. -/
def escapedChar (c : Char) : List Char :=
  match c with
  | '"' => ['\\', '"']
  | '\\' => ['\\', '\\']
  | '\x08' => ['\\', 'b']
  | '\x0c' => ['\\', 'f']
  | '\n' => ['\\', 'n']
  | '\r' => ['\\', 'r']
  | '\t' => ['\\', 't']
  | c =>
    if c.toNat < 0x20 then
      ['\\', 'u', '0', '0', Text.hexDigit (c.toNat / 16), Text.hexDigit (c.toNat % 16)]
    else [c]

/-- The characters of a JSON string. -/
def textChars (s : String) : List Char := '"' :: (s.toList.flatMap escapedChar ++ ['"'])

/-- The characters of a JSON number. -/
def numberChars : Number → List Char
  | .integer n => (Text.decimalInt n).toList
  | .decimal literal => literal.toList

mutual

/-- The characters of a value's compact text. -/
def chars : Json → List Char
  | .null => "null".toList
  | .bool true => "true".toList
  | .bool false => "false".toList
  | .number n => numberChars n
  | .text s => textChars s
  | .list items => '[' :: (itemsChars items ++ [']'])
  | .object members => '\x7b' :: (membersChars members ++ ['\x7d'])

/-- The items of a list, separated by commas. -/
def itemsChars : List Json → List Char
  | [] => []
  | [item] => item.chars
  | item :: item' :: rest => item.chars ++ ',' :: itemsChars (item' :: rest)

/-- The members of an object, separated by commas. -/
def membersChars : List (String × Json) → List Char
  | [] => []
  | [(key, value)] => textChars key ++ ':' :: value.chars
  | (key, value) :: member :: rest =>
      textChars key ++ ':' :: (value.chars ++ ',' :: membersChars (member :: rest))

end

/-- The compact text of a value. -/
def render (j : Json) : String := String.ofList j.chars

end Json

end TaskNetwork
