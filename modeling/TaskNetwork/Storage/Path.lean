import TaskNetwork.Text.Basic

/-!
# Names and paths

A name in a file tree is a sequence of bytes, which need not be a text. A path is a list of
segments, absolute or not. Segments are kept as they are written: an empty one, as in `a//b` or
`a/`, and `.` stand for the directory itself, and `..` for the one above.
-/

namespace TaskNetwork

/-! ## Names -/

/-- A name in a file tree. -/
structure FileName where
  bytes : List UInt8
deriving DecidableEq, Repr, Inhabited

namespace FileName

/-- The name that a text is. -/
def ofText (s : String) : FileName := ⟨s.toUTF8.data.toList⟩

instance : Coe String FileName := ⟨ofText⟩

/-- The text that a name is, if it is one. -/
def text? (name : FileName) : Option String := String.fromUTF8? ⟨name.bytes.toArray⟩

/-- The text that stands for a name, whether it is one or not. -/
def shown (name : FileName) : String := Text.decodeLenient ⟨name.bytes.toArray⟩

instance : Ord FileName := ⟨compareOn bytes⟩

instance : Std.TransOrd FileName := inferInstanceAs (Std.TransCmp (compareOn bytes))

instance : Std.LawfulEqOrd FileName where
  compare_self := Std.ReflCmp.compare_self
  eq_of_compare {a b} h := by
    have heq : a.bytes = b.bytes := Std.LawfulEqCmp.eq_of_compare h
    cases a
    exact congrArg mk heq

end FileName

/-! ## Paths -/

/-- A path in a file tree. -/
structure Path where
  absolute : Bool
  segments : List FileName
deriving DecidableEq, Repr, Inhabited

namespace Path

/-- The byte between two segments. -/
def slash : UInt8 := 0x2f

/-- Cuts a list of bytes at each slash. -/
def splitAtSlashes : List UInt8 → List (List UInt8)
  | [] => [[]]
  | b :: bytes =>
    if b = slash then [] :: splitAtSlashes bytes
    else
      match splitAtSlashes bytes with
      | [] => [[b]]
      | segment :: segments => (b :: segment) :: segments

/-- Reads a path. -/
def ofText (s : String) : Path :=
  let bytes := (FileName.ofText s).bytes
  if bytes.head? = some slash then ⟨true, (splitAtSlashes bytes.tail).map FileName.mk⟩
  else ⟨false, (splitAtSlashes bytes).map FileName.mk⟩

/-- The written form of a path. -/
def bytes (p : Path) : List UInt8 :=
  (if p.absolute then [slash] else []) ++ [slash].intercalate (p.segments.map FileName.bytes)

/-- The text that stands for a path, whether its segments are texts or not. -/
def shown (p : Path) : String := Text.decodeLenient ⟨p.bytes.toArray⟩

/-- The longest path that can be used, in bytes. -/
def maxBytes : Nat := 4095

/-- Whether a path can be used as far as its length goes. -/
def isShort (p : Path) : Bool := p.bytes.length ≤ maxBytes

/-- Whether a link can lead to a path. -/
def isTarget (p : Path) : Bool := p.bytes ≠ [] && p.isShort && !p.bytes.contains 0

/-- Whether a segment stands for the directory itself. -/
def isHere (segment : FileName) : Bool := segment = "" || segment = "."

/-- The segments up to the last one that leads somewhere. -/
def leadingSegments (p : Path) : List FileName := (p.segments.reverse.dropWhile isHere).reverse

/-- The name that a path ends in, unless it ends at a root or in `..`. -/
def fileName? (p : Path) : Option FileName :=
  p.leadingSegments.getLast?.filter fun s => s ≠ ".."

/-- The path of the directory that holds the last segment that leads somewhere. A relative path
keeps a leading `.`. -/
def parent? (p : Path) : Option Path :=
  match p.leadingSegments with
  | [] => none
  | segments =>
    match (⟨p.absolute, segments.dropLast⟩ : Path).leadingSegments with
    | [] => some ⟨p.absolute, segments.dropLast.take 1⟩
    | outer => some ⟨p.absolute, outer⟩

theorem length_leadingSegments_le (p : Path) : p.leadingSegments.length ≤ p.segments.length := by
  have := (List.dropWhile_sublist isHere (l := p.segments.reverse)).length_le
  simpa [leadingSegments] using this

theorem length_parent?_lt {p q : Path} (h : p.parent? = some q) :
    q.segments.length < p.segments.length := by
  have hp := p.length_leadingSegments_le
  unfold parent? at h
  split at h
  · cases h
  · rename_i segments hne
    have hpos : 0 < p.leadingSegments.length := List.length_pos_iff.2 hne
    have hq := length_leadingSegments_le ⟨p.absolute, p.leadingSegments.dropLast⟩
    simp only [List.length_dropLast] at hq
    split at h <;> cases h <;> simp only [List.length_take, List.length_dropLast] <;> omega

/-- Whether a path ends in a name, so that it names what it leads to, and is no roundabout way such
as `a/.` or `a/..`. -/
def endsInName (p : Path) : Bool :=
  match p.segments.reverse.dropWhile fun s : FileName => s = "" with
  | [] => false
  | last :: _ => last ≠ "." && last ≠ ".."

/-- The path without slashes at its end. -/
def withoutEndSlashes (p : Path) : Path :=
  ⟨p.absolute, (p.segments.reverse.dropWhile fun s : FileName => s = "").reverse⟩

/-- The path `q` as seen from `p`. -/
def join (p q : Path) : Path :=
  if q.absolute then q
  else if p.segments.getLast? = some "" then ⟨p.absolute, p.segments.dropLast ++ q.segments⟩
  else ⟨p.absolute, p.segments ++ q.segments⟩

/-- A name in a directory; a name with slashes is a path. -/
def child (p : Path) (name : String) : Path := p.join (ofText name)

end Path

end TaskNetwork
