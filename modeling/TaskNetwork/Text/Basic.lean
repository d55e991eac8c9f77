/-!
# Texts and bytes

Numbers and bytes in decimal and hexadecimal digits, texts without white space at either end, and
the text that bytes stand for.
-/

namespace TaskNetwork

/-- Decides equality on the bytes, whatever other decision is in scope. -/
instance (priority := 1100) decideBytes : DecidableEq ByteArray := fun a b =>
  decidable_of_iff (a.data = b.data) ⟨ByteArray.ext, congrArg ByteArray.data⟩

namespace Text

/-! ## Decimal digits -/

/-- The decimal digit of a number below ten. -/
def decimalDigit (n : Nat) : Char := Char.ofNat (0x30 + n)

/-- The decimal digits of a number, the highest first. -/
def decimalDigits (n : Nat) : List Char :=
  if n < 10 then [decimalDigit n] else decimalDigits (n / 10) ++ [decimalDigit (n % 10)]

/-- A number in decimal digits. -/
def decimal (n : Nat) : String := String.ofList (decimalDigits n)

/-- A whole number in decimal digits, with a minus sign if it is negative. -/
def decimalInt : Int → String
  | .ofNat n => decimal n
  | .negSucc n => "-" ++ decimal (n + 1)

/-! ## Hexadecimal digits -/

/-- The hexadecimal digit of a number below sixteen. -/
def hexDigit (n : Nat) : Char := "0123456789abcdef".toList.getD n '0'

/-- A number in hexadecimal digits, without leading zeros. -/
def hexOfNat (n : Nat) : String := String.ofList (Nat.toDigits 16 n)

/-- A byte as two hexadecimal digits. -/
def hexOfByte (b : UInt8) : List Char := [hexDigit (b.toNat / 16), hexDigit (b.toNat % 16)]

/-- Bytes as hexadecimal digits, two each. -/
def hexOfBytes (bs : List UInt8) : String := String.ofList (bs.flatMap hexOfByte)

/-- The value of a hexadecimal digit of either case, given by its character code. -/
def hexValue? (b : UInt8) : Option Nat :=
  if 0x30 ≤ b && b ≤ 0x39 then some (b.toNat - 0x30)
  else if 0x61 ≤ b && b ≤ 0x66 then some (b.toNat - 0x61 + 10)
  else if 0x41 ≤ b && b ≤ 0x46 then some (b.toNat - 0x41 + 10)
  else none

/-! ## White space -/

/-- White space, as closed ranges of code points in ascending order. -/
def blankRanges : List (Nat × Nat) :=
  [(0x9, 0xd), (0x20, 0x20), (0x85, 0x85), (0xa0, 0xa0), (0x1680, 0x1680), (0x2000, 0x200a),
    (0x2028, 0x2029), (0x202f, 0x202f), (0x205f, 0x205f), (0x3000, 0x3000)]

/-- Whether a character is white space. -/
def isBlank (c : Char) : Bool := blankRanges.any fun r => r.1 ≤ c.toNat && c.toNat ≤ r.2

/-- Drops white space at both ends. -/
def trimChars (cs : List Char) : List Char :=
  ((cs.dropWhile isBlank).reverse.dropWhile isBlank).reverse

/-- A text without white space at either end. -/
def trim (s : String) : String := String.ofList (trimChars s.toList)

/-! ## Lenient decoding

Bytes are decoded as UTF-8, and each longest piece that starts a character and then breaks off is
decoded as one replacement character, as is each byte that starts no character. -/

/-- What stands for bytes that are no character. -/
def replacement : Char := '\ufffd'

/-- The ranges in which the bytes after a leading byte have to lie, none for a byte that leads no
longer sequence. -/
def followers (b : UInt8) : List (UInt8 × UInt8) :=
  if 0xc2 ≤ b && b ≤ 0xdf then [(0x80, 0xbf)]
  else if b == 0xe0 then [(0xa0, 0xbf), (0x80, 0xbf)]
  else if b == 0xed then [(0x80, 0x9f), (0x80, 0xbf)]
  else if 0xe1 ≤ b && b ≤ 0xef then [(0x80, 0xbf), (0x80, 0xbf)]
  else if b == 0xf0 then [(0x90, 0xbf), (0x80, 0xbf), (0x80, 0xbf)]
  else if b == 0xf4 then [(0x80, 0x8f), (0x80, 0xbf), (0x80, 0xbf)]
  else if 0xf1 ≤ b && b ≤ 0xf3 then [(0x80, 0xbf), (0x80, 0xbf), (0x80, 0xbf)]
  else []

/-- The bits of a leading byte that belong to the code point. -/
def leadBits (b : UInt8) : Nat :=
  if b < 0xe0 then b.toNat % 0x20 else if b < 0xf0 then b.toNat % 0x10 else b.toNat % 0x08

/-- A character being decoded: its bits so far, and the ranges of the bytes that it still needs. -/
structure Partial where
  bits : Nat
  needs : List (UInt8 × UInt8)

/-- Starts a character: gives what is decoded at once and what has to be continued. -/
def startChar (b : UInt8) : List Char × Option Partial :=
  if b < 0x80 then ([Char.ofNat b.toNat], none)
  else
    match followers b with
    | [] => ([replacement], none)
    | needs => ([], some ⟨leadBits b, needs⟩)

/-- Takes one byte. -/
def stepChar (pending : Option Partial) (b : UInt8) : List Char × Option Partial :=
  match pending with
  | some ⟨bits, (low, high) :: needs⟩ =>
    if low ≤ b && b ≤ high then
      let bits := bits * 0x40 + (b.toNat - 0x80)
      if needs.isEmpty then ([Char.ofNat bits], none) else ([], some ⟨bits, needs⟩)
    else
      let (chars, pending) := startChar b
      (replacement :: chars, pending)
  | _ => startChar b

/-- Decodes bytes, going on from a character that is being decoded. -/
def lenientChars (pending : Option Partial) : List UInt8 → List Char
  | [] => if pending.isSome then [replacement] else []
  | b :: rest =>
    let (chars, pending) := stepChar pending b
    chars ++ lenientChars pending rest

/-- Decodes bytes as UTF-8, with replacement characters where they are not. -/
def decodeLenient (data : ByteArray) : String :=
  String.ofList (lenientChars none data.data.toList)

end Text

end TaskNetwork
