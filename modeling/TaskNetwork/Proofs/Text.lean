import Mathlib.Data.List.DropRight
import Mathlib.Data.List.Forall2
import Mathlib.Tactic.SplitIfs
import TaskNetwork.Proofs.Json.Scanning
import TaskNetwork.Text.Basic

/-!
# Texts and their bytes

Lenient decoding puts a replacement character wherever bytes are no text. So a text is decoded from
its encoding, and bytes that are decoded without a replacement are the encoding of what they are
decoded to. Texts have the order of their encodings.
-/

namespace TaskNetwork.Text

open Json (utf8 utf8_nil utf8_cons toArray_utf8)

/-! ## Characters of several bytes -/

/-- A byte lies in a range. -/
def InRange (r : UInt8 × UInt8) (b : UInt8) : Prop := r.1.toNat ≤ b.toNat ∧ b.toNat ≤ r.2.toNat

/-- The bits of a character after some more of its bytes. -/
def bitsAfter (bits : Nat) (bytes : List UInt8) : Nat :=
  bytes.foldl (fun bits b => bits * 0x40 + (b.toNat - 0x80)) bits

theorem bitsAfter_cons (bits : Nat) (b : UInt8) (bytes : List UInt8) :
    bitsAfter bits (b :: bytes) = bitsAfter (bits * 0x40 + (b.toNat - 0x80)) bytes :=
  List.foldl_cons ..

theorem utf8EncodeChar_ofNat {n : Nat} (h : n.isValidChar) :
    String.utf8EncodeChar (Char.ofNat n) =
      if n ≤ 127 then [UInt8.ofNat n]
      else if n ≤ 2047 then [UInt8.ofNat (n / 64 % 32 + 192), UInt8.ofNat (n % 64 + 128)]
      else if n ≤ 65535 then
        [UInt8.ofNat (n / 4096 % 16 + 224), UInt8.ofNat (n / 64 % 64 + 128),
          UInt8.ofNat (n % 64 + 128)]
      else
        [UInt8.ofNat (n / 262144 % 8 + 240), UInt8.ofNat (n / 4096 % 64 + 128),
          UInt8.ofNat (n / 64 % 64 + 128), UInt8.ofNat (n % 64 + 128)] := by
  have hn : (Char.ofNat n).val.toNat = n := by
    rw [Char.ofNat, dif_pos h]
    rfl
  rw [String.utf8EncodeChar, hn]

theorem ofNat_eq {n : Nat} {b : UInt8} (h : n = b.toNat) : UInt8.ofNat n = b := by
  rw [h, UInt8.ofNat_toNat]

variable {b x y z : UInt8}

/-- A leading byte is followed by the bytes that it calls for, and together they encode the
character that has these bits. -/
structure IsSequence (b : UInt8) (bytes : List UInt8) (bits : Nat) : Prop where
  high : ∀ x ∈ b :: bytes, 0x80 ≤ x.toNat
  inRange : List.Forall₂ InRange (followers b) bytes
  nonempty : followers b ≠ []
  bits_eq : bitsAfter (leadBits b) bytes = bits
  encode_eq : String.utf8EncodeChar (Char.ofNat bits) = b :: bytes

theorem isSequence_two (hb : 0xc2 ≤ b.toNat ∧ b.toNat ≤ 0xdf)
    (hx : 0x80 ≤ x.toNat ∧ x.toNat ≤ 0xbf) :
    IsSequence b [x] (b.toNat % 0x20 * 0x40 + (x.toNat - 0x80)) := by
  have hfollowers : followers b = [(0x80, 0xbf)] := by
    simp only [followers, Bool.and_eq_true, decide_eq_true_eq, UInt8.le_iff_toNat_le]
    exact if_pos hb
  have hbits : leadBits b = b.toNat % 0x20 :=
    if_pos (UInt8.lt_iff_toNat_lt.mpr (Nat.lt_succ_of_le hb.2))
  refine ⟨by simp; omega, ?_, by simp [hfollowers], ?_, ?_⟩
  · rw [hfollowers]
    exact .cons hx .nil
  · rw [hbits]
    rfl
  · rw [utf8EncodeChar_ofNat (.inl (by omega)), if_neg (by omega), if_pos (by omega)]
    rw [ofNat_eq (b := b) (by omega), ofNat_eq (b := x) (by omega)]

theorem isSequence_three (hb : 0xe0 ≤ b.toNat ∧ b.toNat ≤ 0xef)
    (hx : 0x80 ≤ x.toNat ∧ x.toNat ≤ 0xbf) (hy : 0x80 ≤ y.toNat ∧ y.toNat ≤ 0xbf)
    (hshort : b.toNat = 0xe0 → 0xa0 ≤ x.toNat) (hsurrogate : b.toNat = 0xed → x.toNat ≤ 0x9f) :
    IsSequence b [x, y]
      ((b.toNat % 0x10 * 0x40 + (x.toNat - 0x80)) * 0x40 + (y.toNat - 0x80)) := by
  have hfollowers : ∃ r, followers b = [r, (0x80, 0xbf)] ∧ InRange r x := by
    simp only [followers, Bool.and_eq_true, decide_eq_true_eq, UInt8.le_iff_toNat_le, beq_iff_eq,
      ← UInt8.toNat_inj, UInt8.reduceToNat]
    rw [if_neg (by omega)]
    split_ifs with hfirst hlast
    · exact ⟨_, rfl, hshort hfirst, hx.2⟩
    · exact ⟨_, rfl, hx.1, hsurrogate hlast⟩
    · exact ⟨_, rfl, hx⟩
    all_goals omega
  have hbits : leadBits b = b.toNat % 0x10 := by
    simp only [leadBits, UInt8.lt_iff_toNat_lt, UInt8.reduceToNat]
    rw [if_neg (by omega), if_pos (by omega)]
  obtain ⟨r, hfollowers, hr⟩ := hfollowers
  refine ⟨by simp; omega, ?_, by simp [hfollowers], ?_, ?_⟩
  · rw [hfollowers]
    exact .cons hr (.cons hy .nil)
  · rw [hbits]
    rfl
  · rw [utf8EncodeChar_ofNat (by unfold Nat.isValidChar; omega), if_neg (by omega),
      if_neg (by omega), if_pos (by omega)]
    rw [ofNat_eq (b := b) (by omega), ofNat_eq (b := x) (by omega), ofNat_eq (b := y) (by omega)]

theorem isSequence_four (hb : 0xf0 ≤ b.toNat ∧ b.toNat ≤ 0xf4)
    (hx : 0x80 ≤ x.toNat ∧ x.toNat ≤ 0xbf) (hy : 0x80 ≤ y.toNat ∧ y.toNat ≤ 0xbf)
    (hz : 0x80 ≤ z.toNat ∧ z.toNat ≤ 0xbf) (hshort : b.toNat = 0xf0 → 0x90 ≤ x.toNat)
    (hlong : b.toNat = 0xf4 → x.toNat ≤ 0x8f) :
    IsSequence b [x, y, z] (((b.toNat % 0x08 * 0x40 + (x.toNat - 0x80)) * 0x40 +
      (y.toNat - 0x80)) * 0x40 + (z.toNat - 0x80)) := by
  have hfollowers : ∃ r, followers b = [r, (0x80, 0xbf), (0x80, 0xbf)] ∧ InRange r x := by
    simp only [followers, Bool.and_eq_true, decide_eq_true_eq, UInt8.le_iff_toNat_le, beq_iff_eq,
      ← UInt8.toNat_inj, UInt8.reduceToNat]
    rw [if_neg (by omega), if_neg (by omega), if_neg (by omega), if_neg (by omega)]
    split_ifs with hfirst hlast
    · exact ⟨_, rfl, hshort hfirst, hx.2⟩
    · exact ⟨_, rfl, hx.1, hlong hlast⟩
    · exact ⟨_, rfl, hx⟩
    all_goals omega
  have hbits : leadBits b = b.toNat % 0x08 := by
    simp only [leadBits, UInt8.lt_iff_toNat_lt, UInt8.reduceToNat]
    rw [if_neg (by omega), if_neg (by omega)]
  obtain ⟨r, hfollowers, hr⟩ := hfollowers
  refine ⟨by simp; omega, ?_, by simp [hfollowers], ?_, ?_⟩
  · rw [hfollowers]
    exact .cons hr (.cons hy (.cons hz .nil))
  · rw [hbits]
    rfl
  · rw [utf8EncodeChar_ofNat (by unfold Nat.isValidChar; omega), if_neg (by omega),
      if_neg (by omega), if_neg (by omega)]
    rw [ofNat_eq (b := b) (by omega), ofNat_eq (b := x) (by omega), ofNat_eq (b := y) (by omega),
      ofNat_eq (b := z) (by omega)]

/-- The bytes that a leading byte calls for encode a character with it. -/
theorem exists_isSequence_of_inRange {bytes : List UInt8} (hlead : followers b ≠ [])
    (h : List.Forall₂ InRange (followers b) bytes) : ∃ bits, IsSequence b bytes bits := by
  unfold followers at h hlead
  simp only [Bool.and_eq_true, decide_eq_true_eq, UInt8.le_iff_toNat_le, beq_iff_eq,
    ← UInt8.toNat_inj, UInt8.reduceToNat] at h hlead
  split_ifs at h hlead
  all_goals simp only [List.forall₂_cons_left_iff, List.forall₂_nil_left_iff, InRange,
    UInt8.reduceToNat] at h
  · obtain ⟨x, _, hx, rfl, rfl⟩ := h
    exact ⟨_, isSequence_two (by omega) (by omega)⟩
  iterate 3
    · obtain ⟨x, _, hx, ⟨y, _, hy, rfl, rfl⟩, rfl⟩ := h
      exact ⟨_, isSequence_three (by omega) (by omega) (by omega) (by omega) (by omega)⟩
  iterate 3
    · obtain ⟨x, _, hx, ⟨y, _, hy, ⟨z, _, hz, rfl, rfl⟩, rfl⟩, rfl⟩ := h
      exact ⟨_, isSequence_four (by omega) (by omega) (by omega) (by omega) (by omega) (by omega)⟩
  · exact absurd rfl hlead

/-- Bytes that a leading byte calls for are decoded to the character that they encode. -/
theorem utf8EncodeChar_bitsAfter {bytes : List UInt8} (hlead : followers b ≠ [])
    (h : List.Forall₂ InRange (followers b) bytes) :
    String.utf8EncodeChar (Char.ofNat (bitsAfter (leadBits b) bytes)) = b :: bytes := by
  obtain ⟨bits, hsequence⟩ := exists_isSequence_of_inRange hlead h
  rw [hsequence.bits_eq, hsequence.encode_eq]

/-- A character beyond ASCII is encoded as a leading byte with the bytes that it calls for. -/
theorem exists_isSequence {c : Char} (h : ¬ c.toNat < 0x80) :
    ∃ b bytes, String.utf8EncodeChar c = b :: bytes ∧ IsSequence b bytes c.toNat := by
  have hvalid : c.toNat.isValidChar := c.valid
  have hencode := utf8EncodeChar_ofNat hvalid
  rw [Char.ofNat_toNat] at hencode
  generalize c.toNat = n at *
  have hbyte (m : Nat) (hm : m < 256) : (UInt8.ofNat m).toNat = m := UInt8.toNat_ofNat_of_lt' hm
  unfold Nat.isValidChar at hvalid
  rw [if_neg (by omega)] at hencode
  split_ifs at hencode
  · have hb := hbyte (n / 64 % 32 + 192) (by omega)
    have hx := hbyte (n % 64 + 128) (by omega)
    have hseq := isSequence_two (by rw [hb]; omega) (by rw [hx]; omega)
    rw [hb, hx] at hseq
    refine ⟨_, _, hencode, ?_⟩
    convert hseq using 1
    omega
  · have hb := hbyte (n / 4096 % 16 + 224) (by omega)
    have hx := hbyte (n / 64 % 64 + 128) (by omega)
    have hy := hbyte (n % 64 + 128) (by omega)
    have hseq := isSequence_three (by rw [hb]; omega) (by rw [hx]; omega) (by rw [hy]; omega)
      (by rw [hb, hx]; omega) (by rw [hb, hx]; omega)
    rw [hb, hx, hy] at hseq
    refine ⟨_, _, hencode, ?_⟩
    convert hseq using 1
    omega
  · have hb := hbyte (n / 262144 % 8 + 240) (by omega)
    have hx := hbyte (n / 4096 % 64 + 128) (by omega)
    have hy := hbyte (n / 64 % 64 + 128) (by omega)
    have hz := hbyte (n % 64 + 128) (by omega)
    have hseq := isSequence_four (by rw [hb]; omega) (by rw [hx]; omega) (by rw [hy]; omega)
      (by rw [hz]; omega) (by rw [hb, hx]; omega) (by rw [hb, hx]; omega)
    rw [hb, hx, hy, hz] at hseq
    refine ⟨_, _, hencode, ?_⟩
    convert hseq using 1
    omega

/-- The ASCII bytes in the encoding of a character are those of ASCII characters. -/
theorem toNat_eq_of_mem_utf8EncodeChar {c : Char} (hb : b.toNat < 0x80)
    (h : b ∈ String.utf8EncodeChar c) : c.toNat = b.toNat := by
  by_cases hascii : c.toNat < 0x80
  · have hencode : String.utf8EncodeChar c = [UInt8.ofNat c.toNat] :=
      if_pos (Nat.le_of_lt_succ hascii)
    rw [hencode, List.mem_singleton] at h
    rw [h, UInt8.toNat_ofNat_of_lt' (Nat.lt_trans hascii (by decide))]
  · obtain ⟨lead, bytes, hencode, hsequence⟩ := exists_isSequence hascii
    have hhigh := hsequence.high b (hencode ▸ h)
    omega

/-! ## Decoding with care -/

/-- A character that is begun goes on with the bytes that it calls for, or it is replaced. -/
theorem lenientChars_some {bits : Nat} {needs : List (UInt8 × UInt8)} {bytes : List UInt8}
    (hneeds : needs ≠ []) (h : replacement ∉ lenientChars (some ⟨bits, needs⟩) bytes) :
    ∃ first rest, bytes = first ++ rest ∧ List.Forall₂ InRange needs first ∧
      lenientChars (some ⟨bits, needs⟩) bytes =
        Char.ofNat (bitsAfter bits first) :: lenientChars none rest := by
  induction needs generalizing bits bytes with
  | nil => exact absurd rfl hneeds
  | cons r needs ih =>
      obtain ⟨low, high⟩ := r
      cases bytes with
      | nil => simp [lenientChars] at h
      | cons b bytes =>
          by_cases hin : (low ≤ b && b ≤ high) = true
          · have hrange : InRange (low, high) b := by
              simpa [InRange, UInt8.le_iff_toNat_le] using hin
            by_cases hmore : needs = []
            · subst hmore
              refine ⟨[b], bytes, rfl, .cons hrange .nil, ?_⟩
              rw [lenientChars, stepChar, if_pos hin]
              rfl
            · have hstep : lenientChars (some ⟨bits, (low, high) :: needs⟩) (b :: bytes) =
                  lenientChars (some ⟨bits * 0x40 + (b.toNat - 0x80), needs⟩) bytes := by
                rw [lenientChars, stepChar, if_pos hin]
                simp [hmore]
              rw [hstep] at h ⊢
              obtain ⟨first, rest, rfl, hfirst, hdecoded⟩ := ih hmore h
              refine ⟨b :: first, rest, rfl, .cons hrange hfirst, ?_⟩
              rw [bitsAfter_cons]
              exact hdecoded
          · rw [lenientChars, stepChar, if_neg hin] at h
            simp at h

theorem lenientChars_cons (b : UInt8) (bytes : List UInt8) : lenientChars none (b :: bytes) =
    (startChar b).1 ++ lenientChars (startChar b).2 bytes := by
  rw [lenientChars, stepChar]
  exact nofun

theorem lenientChars_of_ascii (bytes : List UInt8) (h : b.toNat < 0x80) :
    lenientChars none (b :: bytes) = Char.ofNat b.toNat :: lenientChars none bytes := by
  rw [lenientChars_cons, startChar, if_pos (UInt8.lt_iff_toNat_lt.mpr h)]
  rfl

theorem lenientChars_of_lead (bytes : List UInt8) (h : ¬ b.toNat < 0x80)
    (hlead : followers b ≠ []) : lenientChars none (b :: bytes) =
      lenientChars (some ⟨leadBits b, followers b⟩) bytes := by
  rw [lenientChars_cons, startChar, if_neg fun hlt => h (UInt8.lt_iff_toNat_lt.mp hlt)]
  cases hneeds : followers b with
  | nil => exact absurd hneeds hlead
  | cons r needs => rfl

theorem lenientChars_of_stray (bytes : List UInt8) (h : ¬ b.toNat < 0x80)
    (hstray : followers b = []) :
    lenientChars none (b :: bytes) = replacement :: lenientChars none bytes := by
  rw [lenientChars_cons, startChar, if_neg fun hlt => h (UInt8.lt_iff_toNat_lt.mp hlt), hstray]
  rfl

/-- Bytes that are decoded without a replacement are the encoding of what they are decoded to. -/
theorem utf8_lenientChars {bytes : List UInt8} (h : replacement ∉ lenientChars none bytes) :
    utf8 (lenientChars none bytes) = bytes := by
  match bytes with
  | [] => rfl
  | b :: bytes =>
      by_cases hascii : b.toNat < 0x80
      · rw [lenientChars_of_ascii bytes hascii] at h ⊢
        have hrest := utf8_lenientChars fun hmem => h (List.mem_cons_of_mem _ hmem)
        rw [utf8_cons, hrest, utf8EncodeChar_ofNat (.inl (by omega)), if_pos (by omega),
          ofNat_eq rfl]
        rfl
      · by_cases hlead : followers b = []
        · rw [lenientChars_of_stray bytes hascii hlead] at h
          exact absurd List.mem_cons_self h
        · rw [lenientChars_of_lead bytes hascii hlead] at h ⊢
          obtain ⟨first, rest, hsplit, hfirst, hdecoded⟩ := lenientChars_some hlead h
          rw [hdecoded] at h ⊢
          have hrest := utf8_lenientChars fun hmem => h (List.mem_cons_of_mem _ hmem)
          rw [utf8_cons, hrest, utf8EncodeChar_bitsAfter hlead hfirst, hsplit]
          rfl
termination_by bytes.length
decreasing_by
  · simp
  · rw [hsplit, List.length_cons, List.length_append]
    omega

/-- A character that is begun is decoded from bytes in the ranges that it needs. -/
theorem lenientChars_of_inRange {needs : List (UInt8 × UInt8)} {first : List UInt8}
    (h : List.Forall₂ InRange needs first) (hneeds : needs ≠ []) (bits : Nat)
    (rest : List UInt8) : lenientChars (some ⟨bits, needs⟩) (first ++ rest) =
      Char.ofNat (bitsAfter bits first) :: lenientChars none rest := by
  induction h generalizing bits with
  | nil => exact absurd rfl hneeds
  | @cons r b needs first hrange hmore ih =>
      obtain ⟨low, high⟩ := r
      have hin : (low ≤ b && b ≤ high) = true := by
        simpa [InRange, UInt8.le_iff_toNat_le] using hrange
      rw [List.cons_append, lenientChars, stepChar, if_pos hin]
      cases hmore with
      | nil => rfl
      | cons hnext hmore =>
          rw [bitsAfter_cons]
          exact ih (List.cons_ne_nil _ _) _

theorem lenientChars_utf8EncodeChar (c : Char) (bytes : List UInt8) :
    lenientChars none (String.utf8EncodeChar c ++ bytes) = c :: lenientChars none bytes := by
  by_cases hascii : c.toNat < 0x80
  · have hbyte : (UInt8.ofNat c.toNat).toNat = c.toNat :=
      UInt8.toNat_ofNat_of_lt' (Nat.lt_trans hascii (by decide))
    have hencode : String.utf8EncodeChar c = [UInt8.ofNat c.toNat] :=
      if_pos (Nat.le_of_lt_succ hascii)
    rw [hencode, List.singleton_append, lenientChars_of_ascii _ (hbyte.trans_lt hascii), hbyte,
      Char.ofNat_toNat]
  · obtain ⟨b, first, hencode, hsequence⟩ := exists_isSequence hascii
    have hlead : ¬ b.toNat < 0x80 := Nat.not_lt.mpr (hsequence.high b List.mem_cons_self)
    rw [hencode, List.cons_append, lenientChars_of_lead _ hlead hsequence.nonempty,
      lenientChars_of_inRange hsequence.inRange hsequence.nonempty, hsequence.bits_eq,
      Char.ofNat_toNat]

/-- The encoding of a text is decoded to it. -/
theorem lenientChars_utf8 (cs : List Char) : lenientChars none (utf8 cs) = cs := by
  induction cs with
  | nil => rfl
  | cons c cs ih => rw [utf8_cons, lenientChars_utf8EncodeChar, ih]

theorem toUTF8_ofList (cs : List Char) : (String.ofList cs).toUTF8 = ⟨(utf8 cs).toArray⟩ := by
  rw [toArray_utf8]
  exact String.toByteArray_ofList

theorem toList_toUTF8 (s : String) : s.toUTF8.data.toList = utf8 s.toList := by
  rw [← String.ofList_toList (s := s), toUTF8_ofList, String.toList_ofList]

theorem decodeLenient_toUTF8 (s : String) : decodeLenient s.toUTF8 = s := by
  rw [decodeLenient, toList_toUTF8, lenientChars_utf8, String.ofList_toList]

/-! ## Blanks around a text -/

/-- A text with blanks around it, in bytes. -/
def IsPadded (s : String) (data : ByteArray) : Prop :=
  ∃ front back : List Char, (∀ c ∈ front ++ back, isBlank c = true) ∧
    data = (String.ofList (front ++ s.toList ++ back)).toUTF8

theorem trimChars_eq_self {cs : List Char} (h : ∀ c ∈ cs, isBlank c = false) :
    trimChars cs = cs := by
  have hdrop (ds : List Char) (hds : ∀ c ∈ ds, isBlank c = false) :
      ds.dropWhile isBlank = ds := by
    cases ds with
    | nil => rfl
    | cons d ds => rw [List.dropWhile_cons, hds d List.mem_cons_self, if_neg Bool.false_ne_true]
  rw [trimChars, hdrop cs h, hdrop cs.reverse fun c hc => h c (List.mem_reverse.mp hc),
    List.reverse_reverse]

theorem exists_blanks_of_trimChars (cs : List Char) : ∃ front back,
    (∀ c ∈ front ++ back, isBlank c = true) ∧ cs = front ++ trimChars cs ++ back := by
  refine ⟨cs.takeWhile isBlank, (cs.dropWhile isBlank).rtakeWhile isBlank, fun c hc => ?_, ?_⟩
  · rcases List.mem_append.mp hc with hc | hc
    · exact List.mem_takeWhile_imp hc
    · exact List.mem_rtakeWhile_imp hc
  · have htrim : trimChars cs = (cs.dropWhile isBlank).rdropWhile isBlank := rfl
    rw [htrim, List.append_assoc, List.rdropWhile_append_rtakeWhile,
      List.takeWhile_append_dropWhile]

/-- A text without blanks is read back from its bytes. -/
theorem trim_decodeLenient {s : String} (h : ∀ c ∈ s.toList, isBlank c = false) :
    trim (decodeLenient s.toUTF8) = s := by
  rw [decodeLenient_toUTF8, trim, trimChars_eq_self h, String.ofList_toList]

/-- Bytes in which an ASCII text is found are that text with blanks around it. -/
theorem isPadded_of_trim {s : String} {data : ByteArray} (hs : ∀ c ∈ s.toList, c.toNat < 0x80)
    (h : trim (decodeLenient data) = s) : IsPadded s data := by
  obtain ⟨front, back, hblank, hsplit⟩ :=
    exists_blanks_of_trimChars (lenientChars none data.data.toList)
  have htext : trimChars (lenientChars none data.data.toList) = s.toList := by
    rw [← h, trim, decodeLenient, String.toList_ofList, String.toList_ofList]
  rw [htext] at hsplit
  refine ⟨front, back, hblank, ?_⟩
  have hexact : replacement ∉ lenientChars none data.data.toList := by
    intro hmem
    rw [hsplit, List.mem_append, List.mem_append] at hmem
    rcases hmem with (hmem | hmem) | hmem
    · exact absurd (hblank _ (List.mem_append_left _ hmem)) (by decide)
    · exact absurd (hs _ hmem) (by decide)
    · exact absurd (hblank _ (List.mem_append_right _ hmem)) (by decide)
  rw [← hsplit, toUTF8_ofList, utf8_lenientChars hexact]

/-! ## The order of texts

Texts are ordered by their code points. Their UTF-8 bytes have the same order, since the encoding of
a character comes before those of all later characters, whatever bytes follow. -/

theorem cons_ofNat_lt_iff {n m : Nat} (hn : n < 256) (hm : m < 256) {bytes bytes' : List UInt8} :
    UInt8.ofNat n :: bytes < UInt8.ofNat m :: bytes' ↔ n < m ∨ n = m ∧ bytes < bytes' := by
  rw [List.cons_lt_cons_iff, UInt8.ofNat_lt_iff_lt hn hm, ← UInt8.toNat_inj,
    UInt8.toNat_ofNat_of_lt' hn, UInt8.toNat_ofNat_of_lt' hm]

theorem utf8EncodeChar_append_lt {c d : Char} (h : c < d) (bytes bytes' : List UInt8) :
    String.utf8EncodeChar c ++ bytes < String.utf8EncodeChar d ++ bytes' := by
  have hlt : c.val.toNat < d.val.toNat := h
  have hmax : d.val.toNat < 0x110000 := by
    rcases d.valid with hvalid | hvalid <;> omega
  -- Each byte takes the next six bits.
  have hbits (n : Nat) : n / 4096 = n / 64 / 64 := (Nat.div_div_eq_div_mul n 64 64).symm
  have hbits' (n : Nat) : n / 262144 = n / 64 / 64 / 64 := by
    rw [Nat.div_div_eq_div_mul, Nat.div_div_eq_div_mul]
  simp only [String.utf8EncodeChar, hbits, hbits']
  split_ifs
  all_goals simp (disch := omega) only [List.cons_append, List.nil_append, cons_ofNat_lt_iff]
  all_goals omega

theorem utf8_lt_utf8 {cs ds : List Char} (h : cs < ds) : utf8 cs < utf8 ds := by
  induction cs generalizing ds with
  | nil =>
      cases ds with
      | nil => exact absurd h (List.lt_irrefl _)
      | cons d ds =>
          have hne : String.utf8EncodeChar d ≠ [] := String.utf8EncodeChar_ne_nil
          obtain ⟨b, bytes, hb⟩ := List.exists_cons_of_ne_nil hne
          rw [utf8_nil, utf8_cons, hb]
          exact List.nil_lt_cons _ _
  | cons c cs ih =>
      cases ds with
      | nil => exact absurd h (List.not_lt_nil _)
      | cons d ds =>
          rw [utf8_cons, utf8_cons]
          rcases List.cons_lt_cons_iff.mp h with hlt | ⟨rfl, hlt⟩
          · exact utf8EncodeChar_append_lt hlt _ _
          · exact List.append_left_lt (ih hlt)

/-- Texts have the order of their bytes. -/
theorem toUTF8_lt_toUTF8 {s t : String} (h : s < t) :
    s.toUTF8.data.toList < t.toUTF8.data.toList := by
  rw [toList_toUTF8, toList_toUTF8]
  exact utf8_lt_utf8 (String.lt_iff.mp h)

end TaskNetwork.Text
