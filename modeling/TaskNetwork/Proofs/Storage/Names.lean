import Mathlib.Data.List.DropRight
import TaskNetwork.Proofs.Text
import TaskNetwork.Storage.Path

/-!
# Names in paths

A text is told from its bytes, so a text that is shown or looked up as a name comes back. A name
without slashes is one segment of a path, and behind a path it is the last one.
-/

namespace TaskNetwork

/-! ## Names that are texts -/

namespace FileName

variable {name : FileName} {s s' : String}

theorem text?_ofText (s : String) : (ofText s).text? = some s := by
  rw [text?, ofText, Text.toList_toUTF8]
  exact Json.fromUTF8?_utf8 s

theorem text?_eq_some : name.text? = some s ↔ name = ofText s := by
  constructor
  · intro h
    rw [text?, String.fromUTF8?] at h
    split at h
    · cases h
      rfl
    · cases h
  · rintro rfl
    exact text?_ofText s

theorem ofText_inj : ofText s = ofText s' ↔ s = s' := by
  rw [← text?_eq_some, text?_ofText, Option.some.injEq]

theorem ofText_ne (h : s ≠ s') : ofText s ≠ ofText s' := fun heq => h (ofText_inj.mp heq)

theorem shown_ofText (s : String) : (ofText s).shown = s := Text.decodeLenient_toUTF8 s

theorem bytes_ofText (s : String) : (ofText s).bytes = Json.utf8 s.toList := Text.toList_toUTF8 s

theorem bytes_ofText_append (s s' : String) :
    (ofText (s ++ s')).bytes = (ofText s).bytes ++ (ofText s').bytes := by
  rw [bytes_ofText, bytes_ofText, bytes_ofText, String.toList_append, Json.utf8_append]

/-- An ASCII byte of a text is that of an ASCII character. -/
theorem exists_char_of_mem_bytes {b : UInt8} (hb : b.toNat < 0x80) (h : b ∈ (ofText s).bytes) :
    ∃ c ∈ s.toList, c.toNat = b.toNat := by
  rw [bytes_ofText, Json.utf8, List.mem_flatMap] at h
  obtain ⟨c, hc, h⟩ := h
  exact ⟨c, hc, Text.toNat_eq_of_mem_utf8EncodeChar hb h⟩

theorem head?_toList_of_head?_bytes {b : UInt8} (hb : b.toNat < 0x80)
    (h : (ofText s).bytes.head? = some b) : ∃ c, s.toList.head? = some c ∧ c.toNat = b.toNat := by
  rw [bytes_ofText] at h
  cases hs : s.toList with
  | nil =>
      rw [hs] at h
      cases h
  | cons c cs =>
      have hne : String.utf8EncodeChar c ≠ [] := String.utf8EncodeChar_ne_nil
      rw [hs, Json.utf8_cons, List.head?_append_of_ne_nil _ hne] at h
      exact ⟨c, rfl, Text.toNat_eq_of_mem_utf8EncodeChar hb (List.mem_of_mem_head? h)⟩

end FileName

namespace Path

/-! ## Segments -/

/-- A segment of a path that names what it leads to. -/
structure IsSegment (name : FileName) : Prop where
  no_slash : slash ∉ name.bytes
  not_here : isHere name = false
  not_up : name ≠ ".."

instance (name : FileName) : Decidable (IsSegment name) :=
  decidable_of_iff (slash ∉ name.bytes ∧ isHere name = false ∧ name ≠ "..")
    ⟨fun ⟨hslash, hhere, hup⟩ => ⟨hslash, hhere, hup⟩,
      fun h => ⟨h.no_slash, h.not_here, h.not_up⟩⟩

theorem slash_notMem_bytes {s : String} (h : '/' ∉ s.toList) :
    slash ∉ (FileName.ofText s).bytes := by
  intro hmem
  obtain ⟨c, hc, heq⟩ := FileName.exists_char_of_mem_bytes (by decide) hmem
  have hslash : c = '/' := Char.toNat_inj.mp heq
  exact h (hslash ▸ hc)

theorem splitAtSlashes_eq {bytes : List UInt8} (h : slash ∉ bytes) :
    splitAtSlashes bytes = [bytes] := by
  induction bytes with
  | nil => rfl
  | cons b bytes ih =>
      rw [List.mem_cons, not_or] at h
      rw [splitAtSlashes, if_neg (Ne.symm h.1), ih h.2]

theorem ofText_eq {name : String} (h : slash ∉ (FileName.ofText name).bytes) :
    ofText name = ⟨false, [FileName.ofText name]⟩ := by
  have hhead : (FileName.ofText name).bytes.head? ≠ some slash :=
    fun hhead => h (List.mem_of_mem_head? hhead)
  simp only [ofText, if_neg hhead, splitAtSlashes_eq h, List.map_singleton]

/-! ## Names behind a path -/

/-- Both paths are one but for segments at the end that stand for the directory itself. -/
structure IsSame (p q : Path) : Prop where
  absolute_eq : p.absolute = q.absolute
  leading_eq : p.segments.rdropWhile isHere = q.segments.rdropWhile isHere

theorem IsSame.symm {p q : Path} (h : p.IsSame q) : q.IsSame p :=
  ⟨h.absolute_eq.symm, h.leading_eq.symm⟩

theorem leadingSegments_eq (p : Path) : p.leadingSegments = p.segments.rdropWhile isHere := rfl

variable {p : Path} {name : String}

theorem exists_child_eq (hname : IsSegment name) : ∃ q : Path, q.IsSame p ∧
    p.child name = ⟨q.absolute, q.segments ++ [FileName.ofText name]⟩ := by
  rw [child, ofText_eq hname.no_slash, join, if_neg Bool.false_ne_true]
  split
  · rename_i hlast
    refine ⟨⟨p.absolute, p.segments.dropLast⟩, ⟨rfl, ?_⟩, rfl⟩
    have hsplit : p.segments = p.segments.dropLast ++ [FileName.ofText ""] :=
      (List.dropLast_append_getLast? _ hlast).symm
    conv_rhs => rw [hsplit]
    exact (List.rdropWhile_concat_pos isHere _ (FileName.ofText "") rfl).symm
  · exact ⟨p, ⟨rfl, rfl⟩, rfl⟩

theorem leadingSegments_concat {segment : FileName} (hsegment : IsSegment segment)
    (absolute : Bool) (segments : List FileName) :
    leadingSegments ⟨absolute, segments ++ [segment]⟩ = segments ++ [segment] :=
  List.rdropWhile_concat_neg isHere segments segment (by simp [hsegment.not_here])

theorem fileName?_child (hname : IsSegment name) :
    (p.child name).fileName? = some (FileName.ofText name) := by
  obtain ⟨q, -, hchild⟩ := exists_child_eq (p := p) hname
  rw [hchild, fileName?, leadingSegments_concat hname, List.getLast?_concat]
  simp [hname.not_up]

theorem exists_parent?_child (hname : IsSegment name) :
    ∃ d : Path, (p.child name).parent? = some d ∧ d.IsSame p := by
  obtain ⟨q, ⟨habsolute, hleading⟩, hchild⟩ := exists_child_eq (p := p) hname
  rw [hchild, parent?, leadingSegments_concat hname]
  split
  · rename_i hnil
    exact absurd hnil (List.concat_ne_nil _ q.segments)
  · rw [List.dropLast_concat, leadingSegments_eq]
    split
    · rename_i hnil
      have hheres := List.rdropWhile_eq_nil_iff.mp hnil
      refine ⟨_, rfl, habsolute, ?_⟩
      rw [← hleading, hnil, List.rdropWhile_eq_nil_iff]
      exact fun s hs => hheres s (List.mem_of_mem_take hs)
    · exact ⟨_, rfl, habsolute, by rw [List.rdropWhile_idempotent, hleading]⟩

end Path

end TaskNetwork
