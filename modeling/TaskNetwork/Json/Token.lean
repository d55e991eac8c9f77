import TaskNetwork.Json.Basic

/-!
# JSON tokens

A document is read as bytes and cut into tokens. A string or a number may be complete and yet
have no value: a string that is no sequence of Unicode scalar values, a number that fits no
double. Such a token matters only to a reader that wants its value. A token that breaks off is the
last one, because nothing after it can be read.
-/

namespace TaskNetwork.Json

/-- Why a document cannot be read. -/
inductive Failure where
  /-- The input ends inside a value. -/
  | ended
  /-- The input is not JSON. -/
  | malformed
  /-- The input is JSON of another shape. -/
  | mismatch
deriving DecidableEq, Repr

/-- The two kinds of bracket. -/
inductive Bracket where
  | square
  | curly
deriving DecidableEq, Repr

/-- A piece of a document. -/
inductive Token where
  | opening (b : Bracket)
  | closing (b : Bracket)
  | comma
  | colon
  | null
  | bool (value : Bool)
  /-- A string, with its value if it has one. -/
  | text (value : Option String)
  /-- A number, with its value if it has one. -/
  | number (value : Option Number)
  /-- A string, number or word that breaks off, with what it is to a reader of its value and
  to one that passes over it. -/
  | broken (isText : Bool) (asValue asPassed : Failure)
  /-- A byte that starts no token. -/
  | stray
deriving Repr

/-! ## Bytes -/

/-- Blanks between tokens. -/
def isBlank (b : UInt8) : Bool := b == 0x20 || b == 0x0a || b == 0x09 || b == 0x0d

/-- The decimal digits. -/
def isDigit (b : UInt8) : Bool := 0x30 ≤ b && b ≤ 0x39

/-- The value of a decimal digit. -/
def digitValue (b : UInt8) : Nat := b.toNat - 0x30

/-- The byte that a one-letter escape stands for. -/
def simpleEscape? (b : UInt8) : Option UInt8 :=
  if b == 0x22 || b == 0x5c || b == 0x2f then some b
  else if b == 0x62 then some 0x08
  else if b == 0x66 then some 0x0c
  else if b == 0x6e then some 0x0a
  else if b == 0x72 then some 0x0d
  else if b == 0x74 then some 0x09
  else none

/-- The number that four hexadecimal digits spell. -/
def hexValue4? (a b c d : UInt8) : Option Nat := do
  let a ← Text.hexValue? a
  let b ← Text.hexValue? b
  let c ← Text.hexValue? c
  let d ← Text.hexValue? d
  return ((a * 16 + b) * 16 + c) * 16 + d

/-! ## Strings -/

/-- The input behind the closing quote of a string whose opening quote has been read. -/
def passText : List UInt8 → Except Failure (List UInt8)
  | [] => .error .ended
  | 0x22 :: rest => .ok rest
  | [0x5c] => .error .ended
  | 0x5c :: 0x75 :: a :: b :: c :: d :: rest =>
    if (hexValue4? a b c d).isSome then passText rest else .error .malformed
  | 0x5c :: e :: rest =>
    if (simpleEscape? e).isSome then passText rest
    else if e == 0x75 then .error .ended
    else .error .malformed
  | b :: rest => if b < 0x20 then .error .malformed else passText rest

/-- Whether a number is the first half of a surrogate pair. -/
def isLeading (n : Nat) : Bool := 0xd800 ≤ n && n < 0xdc00

/-- Whether a number is the second half of a surrogate pair. -/
def isTrailing (n : Nat) : Bool := 0xdc00 ≤ n && n < 0xe000

/-- The code point of a surrogate pair. -/
def pairValue (high low : Nat) : Nat := 0x10000 + (high - 0xd800) * 0x400 + (low - 0xdc00)

/-- The UTF-8 bytes of a code point. -/
def utf8Bytes (n : Nat) : List UInt8 := String.utf8EncodeChar (Char.ofNat n)

/-- The bytes that a string spells, up to its closing quote; `read` holds those read before,
the last one first. -/
def spelledBytes (read : List UInt8) : List UInt8 → Except Failure (List UInt8)
  | [] => .error .ended
  | 0x22 :: _ => .ok read.reverse
  | [0x5c] => .error .ended
  | 0x5c :: 0x75 :: a :: b :: c :: d :: rest =>
    match hexValue4? a b c d with
    | none => .error .malformed
    | some n =>
      if isTrailing n then .error .malformed
      else if isLeading n then
        match rest with
        | [] => .error .ended
        | [0x5c] => .error .ended
        | 0x5c :: 0x75 :: a :: b :: c :: d :: rest =>
          match hexValue4? a b c d with
          | none => .error .malformed
          | some n' =>
            if isTrailing n' then spelledBytes ((utf8Bytes (pairValue n n')).reverse ++ read) rest
            else .error .malformed
        | 0x5c :: 0x75 :: _ => .error .ended
        | _ => .error .malformed
      else spelledBytes ((utf8Bytes n).reverse ++ read) rest
  | 0x5c :: e :: rest =>
    match simpleEscape? e with
    | some b => spelledBytes (b :: read) rest
    | none => if e == 0x75 then .error .ended else .error .malformed
  | b :: rest => if b < 0x20 then .error .malformed else spelledBytes (b :: read) rest

/-- The value of a string, read up to its closing quote. -/
def textValue (bs : List UInt8) : Except Failure String :=
  match spelledBytes [] bs with
  | .error e => .error e
  | .ok spelled =>
    match String.fromUTF8? ⟨spelled.toArray⟩ with
    | some s => .ok s
    | none => .error .malformed

/-- The token that starts with a quote, and the input behind it. -/
def textToken (bs : List UInt8) : Token × List UInt8 :=
  match passText bs with
  | .ok rest => (.text (textValue bs).toOption, rest)
  | .error passed =>
    match textValue bs with
    | .error e => (.broken true e passed, [])
    | .ok _ => (.broken true passed passed, [])

/-! ## Numbers and words -/

/-- Where a number breaks off: to a reader of its value the end of the input is the cause, if the
input ends there. -/
def brokenNumber (rest : List UInt8) : Token :=
  .broken false (if rest.isEmpty then .ended else .malformed) .malformed

/-- The digits at the front of the input, and the input behind them. -/
def digitRun (bs : List UInt8) : List Nat × List UInt8 :=
  ((bs.takeWhile isDigit).map digitValue, bs.dropWhile isDigit)

/-- Whether the input starts with a minus sign, and the input behind it. -/
def minusSign : List UInt8 → Bool × List UInt8
  | 0x2d :: rest => (true, rest)
  | bs => (false, bs)

/-- The sign of an exponent, plus unless it says minus, and the input behind it. -/
def exponentSign : List UInt8 → Bool × List UInt8
  | 0x2b :: rest => (false, rest)
  | bs => minusSign bs

/-- Reads an exponent behind its `e`, and ends the number there. -/
def exponentToken (finish : Option (Bool × List Nat) → List UInt8 → Token) (bs : List UInt8) :
    Token × List UInt8 :=
  let sign := exponentSign bs
  match digitRun sign.2 with
  | ([], rest) => (brokenNumber rest, [])
  | (digits, rest) => (finish (some (sign.1, digits)) rest, rest)

/-- Reads what follows the whole digits and the fraction of a number. -/
def tailToken (finish : Option (Bool × List Nat) → List UInt8 → Token) :
    List UInt8 → Token × List UInt8
  | 0x65 :: rest => exponentToken finish rest
  | 0x45 :: rest => exponentToken finish rest
  | rest => (finish none rest, rest)

/-- Reads what follows the whole digits of a number. -/
def fractionToken
    (finish : Option (List Nat) → Option (Bool × List Nat) → List UInt8 → Token) :
    List UInt8 → Token × List UInt8
  | 0x2e :: rest =>
    match digitRun rest with
    | ([], rest) => (brokenNumber rest, [])
    | (digits, rest) => tailToken (finish (some digits)) rest
  | rest => tailToken (finish none) rest

/-- The part of `bs` that stands before `rest`, which ends it. -/
def spelling (bs rest : List UInt8) : String :=
  String.ofList ((bs.take (bs.length - rest.length)).map fun b => Char.ofNat b.toNat)

/-- The token that starts with a minus sign or a digit, and the input behind it. -/
def numberToken (bs : List UInt8) : Token × List UInt8 :=
  let sign := minusSign bs
  match digitRun sign.2 with
  | ([], rest) => (brokenNumber rest, [])
  | (0 :: _ :: _, _) => (.broken false .malformed .malformed, [])
  | (whole, rest) =>
    fractionToken (fun fraction exponent rest =>
      .number ((NumberLiteral.mk sign.1 whole fraction exponent).number? (spelling bs rest))) rest

/-- Reads the remaining letters of a word. -/
def wordToken (word : Token) : List UInt8 → List UInt8 → Token × List UInt8
  | [], rest => (word, rest)
  | _ :: _, [] => (.broken false .ended .ended, [])
  | l :: letters, b :: rest =>
    if b == l then wordToken word letters rest else (.broken false .malformed .malformed, [])

/-! ## Documents -/

/-- The token that starts with the byte `b`, and the input behind it. -/
def nextToken (b : UInt8) (rest : List UInt8) : Token × List UInt8 :=
  if b == 0x5b then (.opening .square, rest)
  else if b == 0x5d then (.closing .square, rest)
  else if b == 0x7b then (.opening .curly, rest)
  else if b == 0x7d then (.closing .curly, rest)
  else if b == 0x2c then (.comma, rest)
  else if b == 0x3a then (.colon, rest)
  else if b == 0x22 then textToken rest
  else if b == 0x2d || isDigit b then numberToken (b :: rest)
  else if b == 0x6e then wordToken .null [0x75, 0x6c, 0x6c] rest
  else if b == 0x74 then wordToken (.bool true) [0x72, 0x75, 0x65] rest
  else if b == 0x66 then wordToken (.bool false) [0x61, 0x6c, 0x73, 0x65] rest
  else (.stray, [])

/-! ### Every token takes input -/

theorem length_passText {bs rest : List UInt8} (h : passText bs = .ok rest) :
    rest.length ≤ bs.length := by
  fun_induction passText bs with
  | case2 => cases h; exact Nat.le_succ _
  | case4 _ _ _ _ _ _ ih => exact Nat.le_trans (ih h) (by simp only [List.length_cons]; omega)
  | case6 _ _ _ _ ih => exact Nat.le_trans (ih h) (by simp only [List.length_cons]; omega)
  | case10 _ _ _ _ _ _ _ ih => exact Nat.le_succ_of_le (ih h)
  | _ => cases h

theorem length_textToken (bs : List UInt8) : (textToken bs).2.length ≤ bs.length := by
  rw [textToken]
  split
  · exact length_passText ‹_›
  · split <;> simp

theorem length_digitRun (bs : List UInt8) :
    (digitRun bs).1.length + (digitRun bs).2.length = bs.length := by
  simp only [digitRun, List.length_map]
  rw [← List.length_append, List.takeWhile_append_dropWhile]

theorem length_minusSign (bs : List UInt8) : (minusSign bs).2.length ≤ bs.length := by
  rw [minusSign.eq_def]
  split <;> simp

theorem length_exponentSign (bs : List UInt8) : (exponentSign bs).2.length ≤ bs.length := by
  rw [exponentSign.eq_def]
  split
  · simp
  · exact length_minusSign _

theorem length_exponentToken (finish) (bs : List UInt8) :
    (exponentToken finish bs).2.length ≤ bs.length := by
  have hrun := length_digitRun (exponentSign bs).2
  have hsign := length_exponentSign bs
  rw [exponentToken]
  split
  · simp
  · rename_i heq
    rw [heq] at hrun
    exact Nat.le_trans (Nat.le_trans (Nat.le_add_left ..) (Nat.le_of_eq hrun)) hsign

theorem length_tailToken (finish) (bs : List UInt8) :
    (tailToken finish bs).2.length ≤ bs.length := by
  rw [tailToken.eq_def]
  split
  · exact Nat.le_succ_of_le (length_exponentToken ..)
  · exact Nat.le_succ_of_le (length_exponentToken ..)
  · exact Nat.le_refl _

theorem length_fractionToken (finish) (bs : List UInt8) :
    (fractionToken finish bs).2.length ≤ bs.length := by
  rw [fractionToken.eq_def]
  split
  · rename_i rest
    have hrun := length_digitRun rest
    split
    · simp
    · rename_i digits rest' _ heq
      refine Nat.le_trans (length_tailToken ..) ?_
      simp only [heq] at hrun
      simp only [List.length_cons]
      omega
  · exact length_tailToken ..

theorem length_numberToken (b : UInt8) (bs : List UInt8) :
    (numberToken (b :: bs)).2.length ≤ bs.length := by
  have hrun := length_digitRun (minusSign (b :: bs)).2
  have hsign := length_minusSign (b :: bs)
  rw [numberToken]
  split
  · simp
  · simp
  · rename_i whole rest hne _ heq
    refine Nat.le_trans (length_fractionToken ..) ?_
    cases whole with
    | nil => exact absurd rfl hne
    | cons d ds =>
        simp only [heq, List.length_cons] at hrun hsign
        omega

theorem length_wordToken (word : Token) (letters bs : List UInt8) :
    (wordToken word letters bs).2.length ≤ bs.length := by
  fun_induction wordToken word letters bs <;> grind

theorem length_snd_ite {p : Prop} [Decidable p] {x y : Token × List UInt8} {n : Nat}
    (hx : x.2.length ≤ n) (hy : y.2.length ≤ n) : (if p then x else y).2.length ≤ n := by
  split
  · exact hx
  · exact hy

theorem length_nextToken (b : UInt8) (rest : List UInt8) :
    (nextToken b rest).2.length ≤ rest.length :=
  have same := Nat.le_refl rest.length
  length_snd_ite same <| length_snd_ite same <| length_snd_ite same <| length_snd_ite same <|
  length_snd_ite same <| length_snd_ite same <| length_snd_ite (length_textToken rest) <|
  length_snd_ite (length_numberToken b rest) <| length_snd_ite (length_wordToken ..) <|
  length_snd_ite (length_wordToken ..) <| length_snd_ite (length_wordToken ..) (Nat.zero_le _)

/-- The tokens of a document, up to one that breaks off. -/
def tokens : List UInt8 → List Token
  | [] => []
  | b :: rest =>
    if isBlank b then tokens rest
    else (nextToken b rest).1 :: tokens (nextToken b rest).2
termination_by bs => bs.length
decreasing_by
  · simp
  · have := length_nextToken b rest
    grind

end TaskNetwork.Json
