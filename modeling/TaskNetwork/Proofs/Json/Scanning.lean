import Mathlib.Algebra.Group.Int.Defs
import Mathlib.Algebra.Group.Nat.Defs
import TaskNetwork.Json.Document

/-!
# Scanning what was written

The compact text of a JSON value, cut into tokens, gives the tokens of the value, and the cut does
not depend on what comes behind the text. This holds for values whose numbers are whole numbers of
64 bits, signed or unsigned; no others are written.
-/

namespace TaskNetwork.Json

/-! ## Bytes of texts -/

/-- The UTF-8 bytes of characters. -/
def utf8 (cs : List Char) : List UInt8 := cs.flatMap String.utf8EncodeChar

@[simp] theorem utf8_nil : utf8 [] = [] := rfl

@[simp] theorem utf8_append (cs ds : List Char) : utf8 (cs ++ ds) = utf8 cs ++ utf8 ds :=
  List.flatMap_append

@[simp] theorem utf8_cons (c : Char) (cs : List Char) :
    utf8 (c :: cs) = String.utf8EncodeChar c ++ utf8 cs := List.flatMap_cons

theorem toArray_utf8 (cs : List Char) : (⟨(utf8 cs).toArray⟩ : ByteArray) = cs.utf8Encode :=
  ByteArray.ext List.data_toByteArray.symm

theorem fromUTF8?_utf8 (s : String) : String.fromUTF8? ⟨(utf8 s.toList).toArray⟩ = some s := by
  have hvalid : ByteArray.IsValidUTF8 s.toList.utf8Encode := ⟨s.toList, rfl⟩
  rw [toArray_utf8, String.fromUTF8?, dif_pos hvalid]
  exact congrArg some String.ofList_toList

theorem toList_toUTF8_render (j : Json) : j.render.toUTF8.data.toList = utf8 j.chars := by
  show (String.ofList j.chars).toByteArray.data.toList = _
  rw [String.toByteArray_ofList, ← toArray_utf8]

/-! ## Strings -/

/-- A byte that stands for itself in a string. -/
def IsPlain (b : UInt8) : Prop := b ≠ 0x22 ∧ b ≠ 0x5c ∧ 0x20 ≤ b

/-- How a character is spelled in a string. -/
inductive Spells (c : Char) : List UInt8 → Prop where
  | plain : (∀ b ∈ String.utf8EncodeChar c, IsPlain b) → Spells c (String.utf8EncodeChar c)
  | letter {e b : UInt8} : e ≠ 0x75 → simpleEscape? e = some b → String.utf8EncodeChar c = [b] →
      Spells c [0x5c, e]
  | digits {x y z w : UInt8} : hexValue4? x y z w = some c.toNat → c.toNat < 0x20 →
      Spells c [0x5c, 0x75, x, y, z, w]

theorem isPlain_ofNat {n : Nat} (hlt : n < 256) (hquote : n ≠ 0x22) (hbackslash : n ≠ 0x5c)
    (hcontrol : 0x20 ≤ n) : IsPlain (UInt8.ofNat n) := by
  have hn : (UInt8.ofNat n).toNat = n := UInt8.toNat_ofNat_of_lt' hlt
  refine ⟨fun h => hquote ?_, fun h => hbackslash ?_, UInt8.le_iff_toNat_le.mpr ?_⟩
  · rw [← hn, h]
    rfl
  · rw [← hn, h]
    rfl
  · rwa [hn]

theorem isPlain_utf8EncodeChar {c : Char} (hquote : c ≠ '"') (hbackslash : c ≠ '\\')
    (hcontrol : ¬ c.toNat < 0x20) : ∀ b ∈ String.utf8EncodeChar c, IsPlain b := by
  have hquote : c.toNat ≠ 0x22 := fun h => hquote (Char.toNat_inj.mp h)
  have hbackslash : c.toNat ≠ 0x5c := fun h => hbackslash (Char.toNat_inj.mp h)
  intro b hb
  rw [String.utf8EncodeChar] at hb
  change b ∈ if c.toNat ≤ 127 then _ else _ at hb
  split at hb
  · obtain rfl := List.mem_singleton.mp hb
    exact isPlain_ofNat (n := c.toNat) (by omega) hquote hbackslash (by omega)
  -- All bytes of a longer sequence are above the ASCII characters.
  · have hhigh (n : Nat) (hn : 128 ≤ n ∧ n < 256) (heq : b = UInt8.ofNat n) : IsPlain b :=
      heq ▸ isPlain_ofNat hn.2 (by omega) (by omega) (by omega)
    split at hb
    · simp only [List.mem_cons, List.not_mem_nil, or_false] at hb
      rcases hb with hb | hb
      · exact hhigh _ (by omega) hb
      · exact hhigh _ (by omega) hb
    · split at hb
      · simp only [List.mem_cons, List.not_mem_nil, or_false] at hb
        rcases hb with hb | hb | hb
        · exact hhigh _ (by omega) hb
        · exact hhigh _ (by omega) hb
        · exact hhigh _ (by omega) hb
      · simp only [List.mem_cons, List.not_mem_nil, or_false] at hb
        rcases hb with hb | hb | hb | hb
        · exact hhigh _ (by omega) hb
        · exact hhigh _ (by omega) hb
        · exact hhigh _ (by omega) hb
        · exact hhigh _ (by omega) hb

theorem hexValue?_hexDigit : ∀ n < 16, ∃ b, String.utf8EncodeChar (Text.hexDigit n) = [b] ∧
    Text.hexValue? b = some n := by
  have hall : ∀ n < 16, String.utf8EncodeChar (Text.hexDigit n) =
      [(Text.hexDigit n).toNat.toUInt8] ∧
        Text.hexValue? (Text.hexDigit n).toNat.toUInt8 = some n := by decide
  exact fun n hn => ⟨_, hall n hn⟩

theorem spells_escapedChar (c : Char) : Spells c (utf8 (escapedChar c)) := by
  unfold escapedChar
  split
  · exact .letter (e := 0x22) (by decide) rfl rfl
  · exact .letter (e := 0x5c) (by decide) rfl rfl
  · exact .letter (e := 0x62) (by decide) rfl rfl
  · exact .letter (e := 0x66) (by decide) rfl rfl
  · exact .letter (e := 0x6e) (by decide) rfl rfl
  · exact .letter (e := 0x72) (by decide) rfl rfl
  · exact .letter (e := 0x74) (by decide) rfl rfl
  · rename_i hquote hbackslash _ _ _ _ _
    split
    · rename_i hcontrol
      obtain ⟨x, hx, hhigh⟩ := hexValue?_hexDigit (c.toNat / 16) (by omega)
      obtain ⟨y, hy, hlow⟩ := hexValue?_hexDigit (c.toNat % 16) (by omega)
      have hvalue : hexValue4? 0x30 0x30 x y = some c.toNat := by
        have hzero : Text.hexValue? 0x30 = some 0 := rfl
        simp only [hexValue4?, hzero, hhigh, hlow]
        show some (((0 * 16 + 0) * 16 + c.toNat / 16) * 16 + c.toNat % 16) = _
        congr 1
        omega
      have hspelled := Spells.digits hvalue hcontrol
      rw [utf8_cons, utf8_cons, utf8_cons, utf8_cons, utf8_cons, utf8_cons, hx, hy]
      exact hspelled
    · rename_i hcontrol
      rw [utf8_cons, utf8_nil, List.append_nil]
      exact .plain (isPlain_utf8EncodeChar hquote hbackslash hcontrol)

theorem passText_of_plain {bs rest : List UInt8} (h : ∀ b ∈ bs, IsPlain b) :
    passText (bs ++ rest) = passText rest := by
  induction bs with
  | nil => rfl
  | cons b bs ih =>
      obtain ⟨hquote, hbackslash, hcontrol⟩ := h b List.mem_cons_self
      rw [List.cons_append, passText, if_neg (UInt8.not_lt.mpr hcontrol),
        ih fun b' hb' => h b' (List.mem_cons_of_mem _ hb')]
      · exact hquote
      · exact fun heq => absurd heq hbackslash
      · exact fun _ _ _ _ _ heq => absurd heq hbackslash
      · exact fun _ _ heq => absurd heq hbackslash

theorem spelledBytes_of_plain {bs rest read : List UInt8} (h : ∀ b ∈ bs, IsPlain b) :
    spelledBytes read (bs ++ rest) = spelledBytes (bs.reverse ++ read) rest := by
  induction bs generalizing read with
  | nil => rfl
  | cons b bs ih =>
      obtain ⟨hquote, hbackslash, hcontrol⟩ := h b List.mem_cons_self
      rw [List.cons_append, spelledBytes, if_neg (UInt8.not_lt.mpr hcontrol),
        ih fun b' hb' => h b' (List.mem_cons_of_mem _ hb'), List.reverse_cons, List.append_assoc]
      · rfl
      · exact hquote
      · exact fun heq => absurd heq hbackslash
      · exact fun _ _ _ _ _ heq => absurd heq hbackslash
      · exact fun _ _ heq => absurd heq hbackslash

theorem passText_of_spells {c : Char} {bs rest : List UInt8} (h : Spells c bs) :
    passText (bs ++ rest) = passText rest := by
  cases h with
  | plain h => exact passText_of_plain h
  | letter hne he _ =>
      simp [passText, hne, he]
  | digits hvalue _ => simp [passText, hvalue]

theorem spelledBytes_of_spells {c : Char} {bs rest read : List UInt8} (h : Spells c bs) :
    spelledBytes read (bs ++ rest) =
      spelledBytes ((String.utf8EncodeChar c).reverse ++ read) rest := by
  cases h with
  | plain h => exact spelledBytes_of_plain h
  | letter hne he hc => simp [spelledBytes, hne, he, hc]
  | digits hvalue hlt =>
      have htrailing : isTrailing c.toNat = false := by
        simp only [isTrailing, Bool.and_eq_false_iff, decide_eq_false_iff_not]
        omega
      have hleading : isLeading c.toNat = false := by
        simp only [isLeading, Bool.and_eq_false_iff, decide_eq_false_iff_not]
        omega
      simp [spelledBytes, hvalue, htrailing, hleading, utf8Bytes]

theorem passText_utf8 (cs : List Char) (rest : List UInt8) :
    passText (utf8 (cs.flatMap escapedChar) ++ 0x22 :: rest) = .ok rest := by
  induction cs with
  | nil => rfl
  | cons c cs ih =>
      rw [List.flatMap_cons, utf8_append, List.append_assoc,
        passText_of_spells (spells_escapedChar c), ih]

theorem spelledBytes_utf8 (read : List UInt8) (cs : List Char) (rest : List UInt8) :
    spelledBytes read (utf8 (cs.flatMap escapedChar) ++ 0x22 :: rest) =
      .ok (read.reverse ++ utf8 cs) := by
  induction cs generalizing read with
  | nil => exact congrArg Except.ok (List.append_nil _).symm
  | cons c cs ih =>
      rw [List.flatMap_cons, utf8_append, List.append_assoc,
        spelledBytes_of_spells (spells_escapedChar c), ih, utf8_cons]
      simp

theorem textToken_utf8 (s : String) (rest : List UInt8) :
    textToken (utf8 (s.toList.flatMap escapedChar) ++ 0x22 :: rest) =
      (.text (some s), rest) := by
  have hvalue : textValue (utf8 (s.toList.flatMap escapedChar) ++ 0x22 :: rest) = .ok s := by
    simp only [textValue, spelledBytes_utf8, List.reverse_nil, List.nil_append, fromUTF8?_utf8]
  rw [textToken, passText_utf8, hvalue]
  rfl

/-! ## Numbers -/

/-- What may come behind a value: nothing, a comma or a closing bracket. -/
def IsBoundary : List UInt8 → Prop
  | [] => True
  | b :: _ => b = 0x2c ∨ b = 0x5d ∨ b = 0x7d

theorem isBoundary_comma (rest : List UInt8) : IsBoundary (0x2c :: rest) := Or.inl rfl

theorem isBoundary_square (rest : List UInt8) : IsBoundary (0x5d :: rest) := Or.inr (Or.inl rfl)

theorem isBoundary_curly (rest : List UInt8) : IsBoundary (0x7d :: rest) := Or.inr (Or.inr rfl)

/-- The digits of a number as bytes. -/
def digitBytes (n : Nat) : List UInt8 := utf8 (Text.decimalDigits n)

theorem utf8EncodeChar_decimalDigit : ∀ n < 10, String.utf8EncodeChar (Text.decimalDigit n) =
    [UInt8.ofNat (0x30 + n)] := by
  decide

theorem digitBytes_of_lt {n : Nat} (h : n < 10) : digitBytes n = [UInt8.ofNat (0x30 + n)] := by
  rw [digitBytes, Text.decimalDigits, if_pos h, utf8_cons, utf8EncodeChar_decimalDigit n h]
  rfl

theorem digitBytes_of_le {n : Nat} (h : 10 ≤ n) :
    digitBytes n = digitBytes (n / 10) ++ [UInt8.ofNat (0x30 + n % 10)] := by
  rw [digitBytes, Text.decimalDigits, if_neg (Nat.not_lt.mpr h), utf8_append, utf8_cons,
    utf8EncodeChar_decimalDigit _ (Nat.mod_lt _ (by omega))]
  rfl

theorem isDigit_ofNat : ∀ d < 10, isDigit (UInt8.ofNat (0x30 + d)) = true ∧
    digitValue (UInt8.ofNat (0x30 + d)) = d := by
  decide

theorem isDigit_digitBytes (n : Nat) : ∀ b ∈ digitBytes n, isDigit b = true := by
  induction n using Nat.strongRecOn with
  | ind n ih =>
      intro b hb
      rcases Nat.lt_or_ge n 10 with hlt | hle
      · rw [digitBytes_of_lt hlt] at hb
        rw [List.mem_singleton.mp hb]
        exact (isDigit_ofNat n hlt).1
      · rw [digitBytes_of_le hle] at hb
        rcases List.mem_append.mp hb with hb | hb
        · exact ih (n / 10) (by omega) b hb
        · rw [List.mem_singleton.mp hb]
          exact (isDigit_ofNat (n % 10) (Nat.mod_lt _ (by omega))).1

theorem value_concat (ds : List Nat) (d : Nat) :
    NumberLiteral.value (ds ++ [d]) = 10 * NumberLiteral.value ds + d := by
  rw [NumberLiteral.value, List.foldl_append]
  rfl

theorem value_digitBytes (n : Nat) :
    NumberLiteral.value ((digitBytes n).map digitValue) = n := by
  induction n using Nat.strongRecOn with
  | ind n ih =>
      rcases Nat.lt_or_ge n 10 with hlt | hle
      · rw [digitBytes_of_lt hlt, List.map_singleton, (isDigit_ofNat n hlt).2]
        exact Nat.zero_add n
      · rw [digitBytes_of_le hle, List.map_append, List.map_singleton, value_concat,
          ih (n / 10) (by omega), (isDigit_ofNat (n % 10) (Nat.mod_lt _ (by omega))).2]
        omega

theorem decimal_inj {n m : Nat} (h : Text.decimal n = Text.decimal m) : n = m := by
  have hdigits : Text.decimalDigits n = Text.decimalDigits m := String.ofList_injective h
  rw [← value_digitBytes n, digitBytes, hdigits, ← digitBytes, value_digitBytes]

/-- Only zero is written with a leading zero. -/
theorem exists_digitBytes_eq_cons (n : Nat) :
    ∃ b bs, digitBytes n = b :: bs ∧ (digitValue b = 0 → n = 0) := by
  induction n using Nat.strongRecOn with
  | ind n ih =>
      rcases Nat.lt_or_ge n 10 with hlt | hle
      · refine ⟨_, [], digitBytes_of_lt hlt, fun h => ?_⟩
        rwa [(isDigit_ofNat n hlt).2] at h
      · obtain ⟨b, bs, heq, hzero⟩ := ih (n / 10) (by omega)
        refine ⟨b, _, by rw [digitBytes_of_le hle, heq, List.cons_append], fun h => ?_⟩
        have := hzero h
        omega

theorem digitRun_digitBytes (n : Nat) {rest : List UInt8} (h : IsBoundary rest) :
    digitRun (digitBytes n ++ rest) = ((digitBytes n).map digitValue, rest) := by
  have hrest : rest.takeWhile isDigit = [] ∧ rest.dropWhile isDigit = rest := by
    cases rest with
    | nil => exact ⟨rfl, rfl⟩
    | cons b rest =>
        have hb : ¬ isDigit b = true := by
          rcases h with rfl | rfl | rfl <;> decide
        exact ⟨List.takeWhile_cons_of_neg hb, List.dropWhile_cons_of_neg hb⟩
  rw [digitRun, List.takeWhile_append_of_pos (isDigit_digitBytes n),
    List.dropWhile_append_of_pos (isDigit_digitBytes n), hrest.1, hrest.2, List.append_nil]

theorem fractionToken_of_isBoundary {rest : List UInt8} (h : IsBoundary rest)
    (finish : Option (List Nat) → Option (Bool × List Nat) → List UInt8 → Token) :
    fractionToken finish rest = (finish none none rest, rest) := by
  cases rest with
  | nil => rfl
  | cons b rest => rcases h with rfl | rfl | rfl <;> rfl

theorem minusSign_digitBytes (n : Nat) (rest : List UInt8) :
    minusSign (digitBytes n ++ rest) = (false, digitBytes n ++ rest) := by
  obtain ⟨b, bs, heq, -⟩ := exists_digitBytes_eq_cons n
  rw [heq, List.cons_append, minusSign]
  intro rest' hcons
  rw [List.head_eq_of_cons_eq hcons] at heq
  exact absurd (isDigit_digitBytes n 0x2d (heq ▸ List.mem_cons_self)) (by decide)

/-- Digits behind which nothing belongs to the number are read as a whole number. -/
theorem numberToken_of_minusSign {bs rest : List UInt8} {negative : Bool} {n : Nat}
    (hsign : minusSign bs = (negative, digitBytes n ++ rest)) (h : IsBoundary rest) :
    numberToken bs = (.number ((NumberLiteral.mk negative ((digitBytes n).map digitValue) none
      none).number? (spelling bs rest)), rest) := by
  obtain ⟨b, bs, heq, hzero⟩ := exists_digitBytes_eq_cons n
  have hdigits : digitRun (digitBytes n ++ rest) = (digitValue b :: bs.map digitValue, rest) := by
    rw [digitRun_digitBytes n h, heq, List.map_cons]
  simp only [numberToken, hsign, hdigits]
  split
  · rename_i hnil
    cases hnil
  · rename_i hleading
    injection hleading with hcons
    injection hcons with hb hbs
    rw [hzero hb, digitBytes_of_lt (by decide)] at heq
    injection heq with _ hbs'
    rw [← hbs'] at hbs
    cases hbs
  · rename_i hwhole
    injection hwhole with hwhole hrest
    subst hwhole hrest
    rw [fractionToken_of_isBoundary h, heq, List.map_cons]

theorem numberToken_digitBytes {n : Nat} (hn : n < 2 ^ 64) {rest : List UInt8}
    (h : IsBoundary rest) :
    numberToken (digitBytes n ++ rest) = (.number (some (.integer n)), rest) := by
  have hword : n < NumberLiteral.wordBound := hn
  rw [numberToken_of_minusSign (minusSign_digitBytes n rest) h]
  simp [NumberLiteral.number?, value_digitBytes, hword]

theorem numberToken_minus_digitBytes {n : Nat} (hpos : 0 < n) (hn : n ≤ 2 ^ 63) {rest : List UInt8}
    (h : IsBoundary rest) :
    numberToken (0x2d :: (digitBytes n ++ rest)) = (.number (some (.integer (-n))), rest) := by
  have hword : 2 * n ≤ NumberLiteral.wordBound := Nat.mul_le_mul_left 2 hn
  rw [numberToken_of_minusSign rfl h]
  simp [NumberLiteral.number?, value_digitBytes, hpos, hword]

/-! ## Tokens -/

theorem tokens_cons {b : UInt8} {rest rest' : List UInt8} {t : Token} (hb : isBlank b = false)
    (h : nextToken b rest = (t, rest')) : tokens (b :: rest) = t :: tokens rest' := by
  rw [tokens, hb, h]
  rfl

theorem nextToken_quote (rest : List UInt8) : nextToken 0x22 rest = textToken rest := rfl

theorem tokens_textChars (s : String) (rest : List UInt8) :
    tokens (utf8 (textChars s) ++ rest) = .text (some s) :: tokens rest := by
  have hnext : nextToken 0x22 (utf8 (s.toList.flatMap escapedChar) ++ 0x22 :: rest) =
      (.text (some s), rest) := by
    rw [nextToken_quote, textToken_utf8]
  have hquote : utf8 ['"'] ++ rest = 0x22 :: rest := rfl
  rw [textChars, utf8_cons, utf8_append, List.append_assoc, List.append_assoc, hquote]
  exact tokens_cons rfl hnext

theorem nextToken_of_isDigit {b : UInt8} (h : isDigit b = true) (rest : List UInt8) :
    isBlank b = false ∧ nextToken b rest = numberToken (b :: rest) := by
  have hne (b' : UInt8) (hb' : isDigit b' = false) : ¬ b = b' := by
    rintro rfl
    rw [h] at hb'
    cases hb'
  refine ⟨?_, ?_⟩
  · simp [isBlank, hne 0x20 rfl, hne 0x0a rfl, hne 0x09 rfl, hne 0x0d rfl]
  · simp [nextToken, h, hne 0x5b rfl, hne 0x5d rfl, hne 0x7b rfl, hne 0x7d rfl, hne 0x2c rfl,
      hne 0x3a rfl, hne 0x22 rfl]

theorem tokens_digitBytes {n : Nat} (hn : n < 2 ^ 64) {rest : List UInt8} (h : IsBoundary rest) :
    tokens (digitBytes n ++ rest) = .number (some (.integer n)) :: tokens rest := by
  obtain ⟨b, bs, heq, -⟩ := exists_digitBytes_eq_cons n
  have hb : isDigit b = true := isDigit_digitBytes n b (heq ▸ List.mem_cons_self)
  have hnumber := numberToken_digitBytes hn h
  rw [heq, List.cons_append] at hnumber ⊢
  obtain ⟨hblank, hnext⟩ := nextToken_of_isDigit hb (bs ++ rest)
  exact tokens_cons hblank (hnext.trans hnumber)

theorem tokens_minus_digitBytes {n : Nat} (hpos : 0 < n) (hn : n ≤ 2 ^ 63) {rest : List UInt8}
    (h : IsBoundary rest) :
    tokens (0x2d :: (digitBytes n ++ rest)) = .number (some (.integer (-n))) :: tokens rest :=
  tokens_cons rfl (numberToken_minus_digitBytes hpos hn h)

/-- The text of a whole number of 64 bits is cut off as one token. -/
theorem tokens_decimalInt {n : Int} (hlow : -2 ^ 63 ≤ n) (hhigh : n < 2 ^ 64) {rest : List UInt8}
    (h : IsBoundary rest) :
    tokens (utf8 (Text.decimalInt n).toList ++ rest) =
      .number (some (.integer n)) :: tokens rest := by
  cases n with
  | ofNat n =>
      have hchars : (Text.decimalInt (.ofNat n)).toList = Text.decimalDigits n :=
        String.toList_ofList
      rw [Int.ofNat_eq_natCast] at hhigh
      rw [hchars]
      exact tokens_digitBytes (by omega) h
  | negSucc n =>
      have hchars : (Text.decimalInt (.negSucc n)).toList = '-' :: Text.decimalDigits (n + 1) := by
        rw [Text.decimalInt, Text.decimal, String.toList_append]
        exact congrArg ('-' :: ·) String.toList_ofList
      have hminus : utf8 ('-' :: Text.decimalDigits (n + 1)) ++ rest =
          0x2d :: (digitBytes (n + 1) ++ rest) := rfl
      rw [hchars, hminus, tokens_minus_digitBytes (Nat.succ_pos n) (by omega) h]
      rfl

/-! ## Values -/

mutual

/-- The tokens of a value's compact text. -/
def tokensOf : Json → List Token
  | .null => [.null]
  | .bool b => [.bool b]
  | .number n => [.number (some n)]
  | .text s => [.text (some s)]
  | .list items => .opening .square :: itemsTokens items
  | .object members => .opening .curly :: membersTokens members

/-- The tokens behind the opening bracket of a list. -/
def itemsTokens : List Json → List Token
  | [] => [.closing .square]
  | item :: rest => item.tokensOf ++ moreItemsTokens rest

/-- The tokens behind an item of a list. -/
def moreItemsTokens : List Json → List Token
  | [] => [.closing .square]
  | item :: rest => .comma :: (item.tokensOf ++ moreItemsTokens rest)

/-- The tokens behind the opening brace of an object. -/
def membersTokens : List (String × Json) → List Token
  | [] => [.closing .curly]
  | (key, value) :: rest =>
      .text (some key) :: .colon :: (value.tokensOf ++ moreMembersTokens rest)

/-- The tokens behind a member of an object. -/
def moreMembersTokens : List (String × Json) → List Token
  | [] => [.closing .curly]
  | (key, value) :: rest =>
      .comma :: .text (some key) :: .colon :: (value.tokensOf ++ moreMembersTokens rest)

end

/-- A value whose numbers are whole ones of 64 bits, with at most `room` brackets open at once. -/
inductive Fits : (room : Nat) → Json → Prop where
  | null (room : Nat) : Fits room .null
  | bool (room : Nat) (b : Bool) : Fits room (.bool b)
  | number (room : Nat) {n : Int} : -2 ^ 63 ≤ n → n < 2 ^ 64 → Fits room (.number (.integer n))
  | text (room : Nat) (s : String) : Fits room (.text s)
  | list {room : Nat} {items : List Json} :
      (∀ item ∈ items, Fits room item) → Fits (room + 1) (.list items)
  | object {room : Nat} {members : List (String × Json)} :
      (∀ m ∈ members, Fits room m.2) → Fits (room + 1) (.object members)

/-- A value whose tokens are cut off its text, whatever comes behind it. -/
def IsScanned (j : Json) : Prop :=
  ∀ ⦃rest : List UInt8⦄, IsBoundary rest → tokens (utf8 j.chars ++ rest) = j.tokensOf ++ tokens rest

theorem itemsTokens_cons_cons (item item' : Json) (rest : List Json) :
    itemsTokens (item :: item' :: rest) =
      item.tokensOf ++ .comma :: itemsTokens (item' :: rest) := rfl

theorem tokens_itemsChars {items : List Json} (h : ∀ item ∈ items, IsScanned item)
    (rest : List UInt8) :
    tokens (utf8 (itemsChars items) ++ 0x5d :: rest) = itemsTokens items ++ tokens rest := by
  have hclose : tokens (0x5d :: rest) = .closing .square :: tokens rest := tokens_cons rfl rfl
  induction items with
  | nil => exact hclose
  | cons item items ih =>
      have hitem := h item List.mem_cons_self
      cases items with
      | nil =>
          rw [itemsChars, hitem (isBoundary_square rest), hclose, itemsTokens, moreItemsTokens,
            List.append_assoc]
          rfl
      | cons item' items =>
          have hcomma : tokens (0x2c :: (utf8 (itemsChars (item' :: items)) ++ 0x5d :: rest)) =
              .comma :: (itemsTokens (item' :: items) ++ tokens rest) := by
            rw [← ih fun i hi => h i (List.mem_cons_of_mem _ hi)]
            exact tokens_cons rfl rfl
          rw [itemsChars, utf8_append, List.append_assoc]
          refine (hitem (isBoundary_comma _)).trans ?_
          rw [itemsTokens_cons_cons, List.append_assoc]
          exact congrArg _ hcomma

theorem membersTokens_cons_cons (m m' : String × Json) (rest : List (String × Json)) :
    membersTokens (m :: m' :: rest) =
      .text (some m.1) :: .colon :: (m.2.tokensOf ++ .comma :: membersTokens (m' :: rest)) := rfl

theorem tokens_member {m : String × Json} (h : IsScanned m.2) {rest : List UInt8}
    (hrest : IsBoundary rest) :
    tokens (utf8 (textChars m.1) ++ 0x3a :: (utf8 m.2.chars ++ rest)) =
      .text (some m.1) :: .colon :: (m.2.tokensOf ++ tokens rest) := by
  rw [tokens_textChars, ← h hrest]
  exact congrArg _ (tokens_cons rfl rfl)

theorem tokens_membersChars {members : List (String × Json)} (h : ∀ m ∈ members, IsScanned m.2)
    (rest : List UInt8) :
    tokens (utf8 (membersChars members) ++ 0x7d :: rest) =
      membersTokens members ++ tokens rest := by
  have hclose : tokens (0x7d :: rest) = .closing .curly :: tokens rest := tokens_cons rfl rfl
  induction members with
  | nil => exact hclose
  | cons m members ih =>
      have hm := h m List.mem_cons_self
      cases members with
      | nil =>
          have hmember := tokens_member hm (isBoundary_curly rest)
          rw [hclose] at hmember
          rw [membersChars, utf8_append, List.append_assoc]
          refine hmember.trans ?_
          rw [membersTokens, moreMembersTokens]
          simp
      | cons m' members =>
          have hcomma : tokens (0x2c :: (utf8 (membersChars (m' :: members)) ++ 0x7d :: rest)) =
              .comma :: (membersTokens (m' :: members) ++ tokens rest) := by
            rw [← ih fun i hi => h i (List.mem_cons_of_mem _ hi)]
            exact tokens_cons rfl rfl
          have hmember := tokens_member hm
            (isBoundary_comma (utf8 (membersChars (m' :: members)) ++ 0x7d :: rest))
          rw [hcomma] at hmember
          have hbytes : utf8 (membersChars (m :: m' :: members)) ++ 0x7d :: rest =
              utf8 (textChars m.1) ++ 0x3a :: (utf8 m.2.chars ++
                0x2c :: (utf8 (membersChars (m' :: members)) ++ 0x7d :: rest)) := by
            rw [membersChars, utf8_append, List.append_assoc, utf8_cons, utf8_append, utf8_cons,
              List.append_assoc, List.append_assoc, List.append_assoc]
            rfl
          rw [hbytes, hmember, membersTokens_cons_cons, List.cons_append, List.cons_append,
            List.append_assoc]
          rfl

/-- The text of a value is cut into the tokens of the value. -/
theorem Fits.isScanned {room : Nat} {j : Json} (h : Fits room j) : IsScanned j := by
  intro rest hrest
  induction h generalizing rest with
  | null room => exact tokens_cons rfl rfl
  | bool room b =>
      cases b with
      | true => exact tokens_cons rfl rfl
      | false => exact tokens_cons rfl rfl
  | number room hlow hhigh => exact tokens_decimalInt hlow hhigh hrest
  | text room s => exact tokens_textChars s rest
  | @list room items _ ih =>
      have hitems := tokens_itemsChars (fun item hi _ hrest => ih item hi hrest) rest
      have hchars : (Json.list items).chars =
          '[' :: (itemsChars items ++ [']']) := rfl
      have hbytes : utf8 (Json.list items).chars ++ rest =
          0x5b :: (utf8 (itemsChars items) ++ 0x5d :: rest) := by
        rw [hchars, utf8_cons, utf8_append, List.append_assoc, List.append_assoc]
        rfl
      have hopen (bs : List UInt8) : tokens (0x5b :: bs) = .opening .square :: tokens bs :=
        tokens_cons rfl rfl
      rw [hbytes, hopen, hitems]
      rfl
  | @object room members _ ih =>
      have hmembers := tokens_membersChars (fun m hm _ hrest => ih m hm hrest) rest
      have hchars : (Json.object members).chars =
          '\x7b' :: (membersChars members ++ ['\x7d']) := rfl
      have hbytes : utf8 (Json.object members).chars ++ rest =
          0x7b :: (utf8 (membersChars members) ++ 0x7d :: rest) := by
        rw [hchars, utf8_cons, utf8_append, List.append_assoc, List.append_assoc]
        rfl
      have hopen (bs : List UInt8) : tokens (0x7b :: bs) = .opening .curly :: tokens bs :=
        tokens_cons rfl rfl
      rw [hbytes, hopen, hmembers]
      rfl

end TaskNetwork.Json
