/-!
# JSON numbers

A number literal stands for a whole number of 64 bits, or for a decimal number that only has to
fit a double. How the literal is read decides which literals are too large, so the rule is kept
to the digit: leading digits are taken while they fit an unsigned 64-bit number, further whole
digits only raise the exponent, and further fraction digits are dropped.
-/

namespace TaskNetwork.Json

/-- What a number literal stands for. -/
inductive Number where
  /-- A whole number of 64 bits, signed or unsigned. -/
  | integer (value : Int)
  /-- Any other number that fits a double, as it is written. -/
  | decimal (literal : String)
deriving DecidableEq, Repr, Inhabited

/-- The parts of a number literal; digits are values below ten. -/
structure NumberLiteral where
  negative : Bool
  whole : List Nat
  /-- The digits behind the point, if there is a point. -/
  fraction : Option (List Nat)
  /-- The exponent: whether it is negative, and its digits. -/
  exponent : Option (Bool × List Nat)
deriving Repr

namespace NumberLiteral

/-- One more than the largest unsigned 64-bit number. -/
def wordBound : Nat := UInt64.size

/-- The number that a list of digits spells. -/
def value (digits : List Nat) : Nat := digits.foldl (fun n d => 10 * n + d) 0

/-- Takes digits into a significand while it fits 64 bits; gives it and the digits left over. -/
def takeDigits (significand : Nat) : List Nat → Nat × List Nat
  | [] => (significand, [])
  | d :: ds =>
    if 10 * significand + d < wordBound then takeDigits (10 * significand + d) ds
    else (significand, d :: ds)

/-- The literal as a significand of 64 bits and a power of ten. -/
def scientific (l : NumberLiteral) : Nat × Int :=
  let (s, dropped) := takeDigits 0 l.whole
  let fraction := l.fraction.getD []
  let (s', rest) := takeDigits s fraction
  let shift : Int := dropped.length - (fraction.length - rest.length : Nat)
  match l.exponent with
  | none => (s', shift)
  | some (true, digits) => (s', shift - value digits)
  | some (false, digits) => (s', shift + value digits)

/-- Rounds to a multiple of a power of two that leaves 53 binary digits, ties to even. -/
def roundTo53 (n : Nat) : Nat :=
  if n < Nat.pow 2 53 then n
  else
    let unit := Nat.pow 2 (n.log2 - 52)
    let quotient := n / unit
    let remainder := n % unit
    if 2 * remainder > unit ∨ (2 * remainder = unit ∧ quotient % 2 = 1) then (quotient + 1) * unit
    else quotient * unit

/-- The least number that rounds past the largest double. -/
def doubleBound : Nat := Nat.pow 2 1024 - Nat.pow 2 970

/-- Whether a significand times a power of ten is a finite double. -/
def fitsDouble : Nat × Int → Bool
  | (_, .negSucc _) => true
  | (s, .ofNat e) =>
    s = 0 || (e ≤ 308 && roundTo53 s * roundTo53 (Nat.pow 10 e) < doubleBound)

/-- What the literal, written as `spelling`, stands for; nothing if it fits no double. -/
def number? (l : NumberLiteral) (spelling : String) : Option Number :=
  let n := value l.whole
  if l.fraction.isNone && l.exponent.isNone && !l.negative && n < wordBound then
    some (.integer n)
  else if l.fraction.isNone && l.exponent.isNone && l.negative && 0 < n && 2 * n ≤ wordBound then
    some (.integer (-n))
  else if fitsDouble l.scientific then some (.decimal spelling)
  else none

end NumberLiteral

end TaskNetwork.Json
