import TaskNetwork.Json.Schema
import TaskNetwork.Json.Token

/-!
# Reading documents by their shape

A reader takes the tokens of one value off the front of a document and gives its canonical form.
It stops at the first problem, so a document with several problems fails with the first one in
input order. Values nest at most 127 deep; only what a plain record passes over, the value of a
member that it does not know, may nest deeper.
-/

namespace TaskNetwork.Json

/-- What has been read and the tokens behind it. -/
abbrev Taken (α : Type) := α × List Token

/-- Reads one value off the front of a list of tokens. -/
abbrev ValueReader := List Token → Except Failure (Taken Json)

/-- Reads one value; the number says how many more brackets may be open at once. -/
abbrev Reader := Nat → ValueReader

namespace Reader

/-- The failure of a reader that finds a value of another kind, or no value. A string or number
is looked at first, and fails as such if it has no value. -/
def wrongValue : List Token → Failure
  | [] => .ended
  | .opening _ :: _ => .mismatch
  | .null :: _ => .mismatch
  | .bool _ :: _ => .mismatch
  | .text (some _) :: _ => .mismatch
  | .number (some _) :: _ => .mismatch
  | .broken _ failure _ :: _ => failure
  | _ => .malformed

/-! ## Plain values -/

/-- Reads a string. -/
def text : Reader
  | _, .text (some s) :: ts => .ok (.text s, ts)
  | _, ts => .error (wrongValue ts)

/-- Reads an unsigned number of so many bits. -/
def word (bits : Nat) : Reader
  | _, .number (some n) :: ts =>
    if Schema.isWord bits n then .ok (.number n, ts) else .error .mismatch
  | _, ts => .error (wrongValue ts)

/-- Reads a truth value. -/
def bool : Reader
  | _, .bool b :: ts => .ok (.bool b, ts)
  | _, ts => .error (wrongValue ts)

/-- Reads `null`. -/
def null : Reader
  | _, .null :: ts => .ok (.null, ts)
  | _, ts => .error (wrongValue ts)

/-- Reads `null` or a value. -/
def option (read : Reader) : Reader
  | _, .null :: ts => .ok (.null, ts)
  | room, ts => read room ts

/-! ## Lists -/

/-- Reads the items of a list behind an item, and its end. The number bounds the items. -/
def moreItems (read : ValueReader) :
    Nat → List Token → Except Failure (Taken (List Json))
  | _, [] => .error .ended
  | _, .closing .square :: ts => .ok ([], ts)
  | bound + 1, .comma :: ts => do
    let (item, ts) ← read ts
    let (items, ts) ← moreItems read bound ts
    return (item :: items, ts)
  | _, _ => .error .malformed

/-- Reads the items of a list behind its opening bracket, and its end. -/
def items (read : ValueReader) : List Token → Except Failure (Taken (List Json))
  | [] => .error .ended
  | .closing .square :: ts => .ok ([], ts)
  | ts => do
    let (item, rest) ← read ts
    let (items, rest) ← moreItems read ts.length rest
    return (item :: items, rest)

/-- Reads a list. -/
def list (read : Reader) : Reader
  | room + 1, .opening .square :: ts => do
    let (items, ts) ← items (read room) ts
    return (.list items, ts)
  | 0, .opening .square :: _ => .error .malformed
  | _, ts => .error (wrongValue ts)

/-! ## Values that are passed over -/

/-- What may come next in a value that is passed over. -/
inductive Position where
  | value
  | firstItem
  | firstKey
  | key
  | colon
  /-- A comma, or the end of the innermost bracket. -/
  | next
deriving DecidableEq, Repr

/-- Passes over the start of a value. -/
def passValue (stack : List Bracket) : Token → Except Failure (List Bracket × Position)
  | .opening .square => .ok (.square :: stack, .firstItem)
  | .opening .curly => .ok (.curly :: stack, .firstKey)
  | .null => .ok (stack, .next)
  | .bool _ => .ok (stack, .next)
  | .text _ => .ok (stack, .next)
  | .number _ => .ok (stack, .next)
  | .broken _ _ failure => .error failure
  | _ => .error .malformed

/-- Passes over a key. -/
def passKey (stack : List Bracket) : Token → Except Failure (List Bracket × Position)
  | .text _ => .ok (stack, .colon)
  | .broken true _ failure => .error failure
  | _ => .error .malformed

/-- Passes over one token; `stack` holds the open brackets, the innermost first. -/
def passToken (stack : List Bracket) (t : Token) :
    Position → Except Failure (List Bracket × Position)
  | .value => passValue stack t
  | .firstItem =>
    match t with
    | .closing .square => .ok (stack.tail, .next)
    | t => passValue stack t
  | .firstKey =>
    match t with
    | .closing .curly => .ok (stack.tail, .next)
    | t => passKey stack t
  | .key => passKey stack t
  | .colon =>
    match t with
    | .colon => .ok (stack, .value)
    | _ => .error .malformed
  | .next =>
    match stack, t with
    | .square :: _, .comma => .ok (stack, .value)
    | .square :: outer, .closing .square => .ok (outer, .next)
    | .curly :: _, .comma => .ok (stack, .key)
    | .curly :: outer, .closing .curly => .ok (outer, .next)
    | _, _ => .error .malformed

/-- Passes over the rest of a value. -/
def passRest (stack : List Bracket) (position : Position) :
    List Token → Except Failure (List Token)
  | [] => .error .ended
  | t :: ts =>
    match passToken stack t position with
    | .error failure => .error failure
    | .ok ([], .next) => .ok ts
    | .ok (stack, position) => passRest stack position ts

/-- Passes over a value of any kind and depth. -/
def pass (ts : List Token) : Except Failure (List Token) := passRest [] .value ts

/-! ## Objects -/

/-- Reads a key. -/
def key : List Token → Except Failure (Taken String)
  | [] => .error .ended
  | .text (some s) :: ts => .ok (s, ts)
  | .broken true failure _ :: _ => .error failure
  | _ => .error .malformed

/-- Passes over a colon. -/
def colon : List Token → Except Failure (List Token)
  | [] => .error .ended
  | .colon :: ts => .ok ts
  | _ => .error .malformed

/-- What an object's reader does with a key, given the members that it has read: it refuses the
key, passes over the member, or reads its value. -/
abbrev Choosing := List (String × Json) → String → Except Failure (Option ValueReader)

/-- Reads one member and adds it to those read before, the last one first. -/
def member (choose : Choosing) (read : List (String × Json)) (ts : List Token) :
    Except Failure (Taken (List (String × Json))) := do
  let (k, ts) ← key ts
  let choice ← choose read k
  let ts ← colon ts
  match choice with
  | none => do
    let ts ← pass ts
    return (read, ts)
  | some reader => do
    let (v, ts) ← reader ts
    return ((k, v) :: read, ts)

/-- Reads the members of an object behind a member, and its end. The number bounds the members. -/
def moreMembers (choose : Choosing) :
    Nat → List (String × Json) → List Token → Except Failure (Taken (List (String × Json)))
  | _, _, [] => .error .ended
  | _, read, .closing .curly :: ts => .ok (read.reverse, ts)
  | bound + 1, read, .comma :: ts => do
    let (read, ts) ← member choose read ts
    moreMembers choose bound read ts
  | _, _, _ => .error .malformed

/-- Reads the members of an object behind its opening brace, and its end. -/
def members (choose : Choosing) : List Token → Except Failure (Taken (List (String × Json)))
  | .closing .curly :: ts => .ok ([], ts)
  | ts => do
    let (read, rest) ← member choose [] ts
    moreMembers choose ts.length read rest

/-- Reads a map with values of one shape. -/
def map (read : Reader) : Reader
  | room + 1, .opening .curly :: ts => do
    let (entries, ts) ← members (fun _ _ => .ok (some (read room))) ts
    return (Schema.mapObject entries, ts)
  | 0, .opening .curly :: _ => .error .malformed
  | _, ts => .error (wrongValue ts)

/-- Reads any value. -/
def any : Reader
  | _, .null :: ts => .ok (.null, ts)
  | _, .bool b :: ts => .ok (.bool b, ts)
  | _, .text (some s) :: ts => .ok (.text s, ts)
  | _, .number (some n) :: ts => .ok (.number n, ts)
  | room + 1, .opening .square :: ts => do
    let (items, ts) ← items (any room) ts
    return (.list items, ts)
  | room + 1, .opening .curly :: ts => do
    let (members, ts) ← members (fun _ _ => .ok (some (any room))) ts
    return (.object members, ts)
  | 0, .opening _ :: _ => .error .malformed
  | _, ts => .error (wrongValue ts)

/-! ## Records -/

/-- A field of a record with its reader. -/
structure Field where
  name : String
  optional : Bool
  read : Reader

/-- Reads the fields that the record knows, each once, and passes over other members. -/
def chooseField (fields : List Field) (room : Nat) : Choosing := fun read k =>
  match fields.find? fun f => f.name == k with
  | none => .ok none
  | some f =>
    if read.any fun m => m.1 == k then .error .mismatch else .ok (some (f.read room))

/-- The fields in their order, from the members that were read. -/
def gather (fields : List Field) (members : List (String × Json)) :
    Except Failure (List (String × Json)) :=
  fields.mapM fun f =>
    match members.lookup f.name with
    | some v => .ok (f.name, v)
    | none => if f.optional then .ok (f.name, .null) else .error .mismatch

/-- Reads the end of a list. -/
def endItems : List Token → Except Failure (List Token)
  | [] => .error .ended
  | .closing .square :: ts => .ok ts
  | _ => .error .malformed

/-- Reads the values of all fields as the items of a list; `first` says whether no item has been
read. -/
def positional (room : Nat) (first : Bool) :
    List Field → List Token → Except Failure (Taken (List (String × Json)))
  | [], ts => do
    let ts ← endItems ts
    return ([], ts)
  | _ :: _, [] => .error .ended
  | _ :: _, .closing .square :: _ => .error .mismatch
  | f :: fs, t :: ts => do
    let ts ← if first then .ok (t :: ts) else
      match t with
      | .comma => .ok ts
      | _ => .error .malformed
    let (v, ts) ← f.read room ts
    let (rest, ts) ← positional room false fs ts
    return ((f.name, v) :: rest, ts)

/-- Reads a record from an object or from a list. -/
def record (fields : List Field) : Reader
  | 0, .opening _ :: _ => .error .malformed
  | room + 1, .opening .curly :: ts => do
    let (members, ts) ← members (chooseField fields room) ts
    let fields ← gather fields members
    return (.object fields, ts)
  | room + 1, .opening .square :: ts => do
    let (fields, ts) ← positional room true fields ts
    return (.object fields, ts)
  | _, ts => .error (wrongValue ts)

/-! ## Variants -/

/-- Reads the name of a variant. -/
def variantName (names : List String) : ValueReader
  | .text (some s) :: ts => if names.contains s then .ok (.text s, ts) else .error .mismatch
  | ts => .error (wrongValue ts)

/-- Reads the tag once as the name of a variant, and other members as they are. -/
def chooseTag (tag : String) (names : List String) (room : Nat) : Choosing := fun read k =>
  if k == tag then
    if read.any fun m => m.1 == tag then .error .mismatch else .ok (some (variantName names))
  else .ok (some (any room))

/-- Reads a tagged record. Its members are read whole before its content is looked at, because
the tag may come last. -/
def tagged (tag : String) (variants : List (String × (Json → Option Json))) : Reader
  | 0, .opening _ :: _ => .error .malformed
  | room + 1, .opening .curly :: ts => do
    let (members, ts) ← members (chooseTag tag (variants.map (·.1)) room) ts
    match Schema.decodeTagged tag variants (.object members) with
    | some value => .ok (value, ts)
    | none => .error .mismatch
  | _ + 1, .opening .square :: [] => .error .ended
  | _ + 1, .opening .square :: .closing .square :: _ => .error .mismatch
  | room + 1, .opening .square :: ts => do
    let (name, ts) ← variantName (variants.map (·.1)) ts
    let (rest, ts) ← moreItems (any room) ts.length ts
    match Schema.decodeTagged tag variants (.list (name :: rest)) with
    | some value => .ok (value, ts)
    | none => .error .mismatch
  | _, ts => .error (wrongValue ts)

/-- Reads the end of an object of one member. -/
def endSingle : List Token → Except Failure (List Token)
  | [] => .error .ended
  | .closing .curly :: ts => .ok ts
  | _ => .error .malformed

/-- Reads the content of the variant of a choice that has this name. -/
def choiceContent (plain : List String) (wrapped : List (String × Reader)) (room : Nat)
    (name : String) (ts : List Token) : Except Failure (Taken Json) :=
  if plain.contains name then do
    let (_, ts) ← null room (← colon ts)
    return (.text name, ts)
  else
    match wrapped.lookup name with
    | none => .error .mismatch
    | some read => do
      let (value, ts) ← read room (← colon ts)
      return (.object [(name, value)], ts)

/-- Reads a choice from a name or from an object of one member. -/
def choice (plain : List String) (wrapped : List (String × Reader)) : Reader
  | _, .text (some s) :: ts =>
    if plain.contains s then .ok (.text s, ts) else .error .mismatch
  | 0, .opening .curly :: _ => .error .malformed
  | room + 1, .opening .curly :: ts => do
    let (name, ts) ← key ts
    let (value, ts) ← choiceContent plain wrapped room name ts
    let ts ← endSingle ts
    return (value, ts)
  | _, .broken true failure _ :: _ => .error failure
  | _, [] => .error .ended
  | _, _ => .error .malformed

end Reader

/-! ## Readers of shapes -/

namespace Schema

mutual

/-- The reader of a shape. -/
def read : Schema → Reader
  | .text => Reader.text
  | .word bits => Reader.word bits
  | .bool => Reader.bool
  | .option s => Reader.option s.read
  | .list s => Reader.list s.read
  | .map s => Reader.map s.read
  | .record fields => Reader.record (fieldReaders fields)
  | .tagged tag variants => Reader.tagged tag (variantDecoders variants)
  | .choice plain wrapped => Reader.choice plain (variantReaders wrapped)

/-- The fields of a record with their readers. -/
def fieldReaders : List (String × Schema) → List Reader.Field
  | [] => []
  | (name, s) :: rest => ⟨name, s.isOption, s.read⟩ :: fieldReaders rest

/-- The variants with their readers. -/
def variantReaders : List (String × Schema) → List (String × Reader)
  | [] => []
  | (name, s) :: rest => (name, s.read) :: variantReaders rest

end

/-- How many brackets may be open at once. -/
def maxNesting : Nat := 127

/-- Reads a whole document, behind which only blanks may follow. -/
def readDocument (s : Schema) (bytes : ByteArray) : Except Failure Json := do
  let (value, rest) ← s.read maxNesting (tokens bytes.data.toList)
  if rest.isEmpty then return value else .error .malformed

end Schema

end TaskNetwork.Json
