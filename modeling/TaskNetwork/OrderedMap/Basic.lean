/-!
# Ordered maps

A finite map is the list of its entries in strictly increasing key order. The order is part of
the type, so two maps with the same bindings are equal, and listing a map needs no sorting.
Strings compare by code point, which is also the order of their UTF-8 bytes.
-/

namespace TaskNetwork

/-- Entries in strictly increasing order of their keys. -/
def Ascending {κ α : Type} [Ord κ] (entries : List (κ × α)) : Prop :=
  entries.Pairwise fun a b => compare a.1 b.1 = .lt

/-- A finite map from `κ` to `α`, listed in key order. -/
structure OrderedMap (κ α : Type) [Ord κ] where
  /-- The bindings, in key order. -/
  entries : List (κ × α)
  ascending : Ascending entries

namespace OrderedMap

variable {κ α β : Type} [Ord κ]

/-! ## Changes to a list of entries -/

/-- Puts a binding at its place, over an older binding of the same key. -/
def insertEntry (k : κ) (v : α) : List (κ × α) → List (κ × α)
  | [] => [(k, v)]
  | (k', v') :: rest =>
    match compare k k' with
    | .lt => (k, v) :: (k', v') :: rest
    | .eq => (k, v) :: rest
    | .gt => (k', v') :: insertEntry k v rest

theorem mem_insertEntry {k : κ} {v : α} {e : κ × α} {es : List (κ × α)}
    (h : e ∈ insertEntry k v es) : e = (k, v) ∨ e ∈ es := by
  induction es with
  | nil => simpa [insertEntry] using h
  | cons e' es ih =>
      rw [insertEntry] at h
      split at h
      · simpa using h
      · rcases List.mem_cons.1 h with rfl | h
        · exact .inl rfl
        · exact .inr (List.mem_cons_of_mem _ h)
      · rcases List.mem_cons.1 h with rfl | h
        · exact .inr List.mem_cons_self
        · exact (ih h).imp_right (List.mem_cons_of_mem _)

theorem ascending_insertEntry [Std.TransOrd κ] [Std.LawfulEqOrd κ] (k : κ) (v : α)
    {es : List (κ × α)} (h : Ascending es) : Ascending (insertEntry k v es) := by
  induction es with
  | nil => simp [insertEntry, Ascending]
  | cons e es ih =>
      obtain ⟨hfirst, hrest⟩ := List.pairwise_cons.1 h
      rw [insertEntry]
      split
      · rename_i hlt
        refine List.pairwise_cons.2 ⟨fun e' he' => ?_, h⟩
        rcases List.mem_cons.1 he' with rfl | he'
        · exact hlt
        · exact Std.TransCmp.lt_trans hlt (hfirst e' he')
      · rename_i heq
        have : k = e.1 := Std.LawfulEqOrd.eq_of_compare heq
        subst this
        exact List.pairwise_cons.2 ⟨hfirst, hrest⟩
      · rename_i hgt
        refine List.pairwise_cons.2 ⟨fun e' he' => ?_, ih hrest⟩
        rcases mem_insertEntry he' with rfl | he'
        · exact Std.OrientedCmp.lt_of_gt hgt
        · exact hfirst e' he'

/-! ## The map -/

/-- The map without bindings. -/
def empty : OrderedMap κ α := ⟨[], List.Pairwise.nil⟩

instance : EmptyCollection (OrderedMap κ α) := ⟨empty⟩

instance : Inhabited (OrderedMap κ α) := ⟨empty⟩

instance [DecidableEq κ] [DecidableEq α] : DecidableEq (OrderedMap κ α) := fun m n =>
  decidable_of_iff (m.entries = n.entries)
    ⟨fun h => by cases m; cases n; simp_all, fun h => h ▸ rfl⟩

/-- The bindings, in key order. -/
def toList (m : OrderedMap κ α) : List (κ × α) := m.entries

/-- The keys, in order. -/
def keys (m : OrderedMap κ α) : List κ := m.entries.map (·.1)

/-- The values, in the order of their keys. -/
def values (m : OrderedMap κ α) : List α := m.entries.map (·.2)

/-- The number of bindings. -/
def size (m : OrderedMap κ α) : Nat := m.entries.length

/-- Whether there is no binding. -/
def isEmpty (m : OrderedMap κ α) : Bool := m.entries.isEmpty

/-- The value bound to a key. -/
def get? [BEq κ] (m : OrderedMap κ α) (k : κ) : Option α := m.entries.lookup k

/-- Whether a key is bound. -/
def contains [BEq κ] (m : OrderedMap κ α) (k : κ) : Bool := (m.get? k).isSome

/-- Binds a key, over an older binding. -/
def insert [Std.TransOrd κ] [Std.LawfulEqOrd κ] (m : OrderedMap κ α) (k : κ) (v : α) :
    OrderedMap κ α :=
  ⟨insertEntry k v m.entries, ascending_insertEntry k v m.ascending⟩

/-- Removes the binding of a key, if there is one. -/
def erase [BEq κ] (m : OrderedMap κ α) (k : κ) : OrderedMap κ α :=
  ⟨m.entries.filter fun e => !(e.1 == k), m.ascending.filter _⟩

/-- Changes the value of a key that is bound, and adds no binding. -/
def replace [BEq κ] [Std.TransOrd κ] [Std.LawfulEqOrd κ] (m : OrderedMap κ α) (k : κ) (v : α) :
    OrderedMap κ α :=
  if m.contains k then m.insert k v else m

/-- Adds bindings one after the other; a later one wins. -/
def insertAll [Std.TransOrd κ] [Std.LawfulEqOrd κ] (m : OrderedMap κ α) (es : List (κ × α)) :
    OrderedMap κ α :=
  es.foldl (fun m e => m.insert e.1 e.2) m

/-- The map of a list of bindings; a later binding of a key wins. -/
def ofList [Std.TransOrd κ] [Std.LawfulEqOrd κ] (es : List (κ × α)) : OrderedMap κ α :=
  empty.insertAll es

/-- Changes every value by a function of its key and itself. -/
def mapValues (f : κ → α → β) (m : OrderedMap κ α) : OrderedMap κ β :=
  ⟨m.entries.map fun e => (e.1, f e.1 e.2), by
    simpa only [Ascending, List.pairwise_map] using m.ascending⟩

end OrderedMap

/-! ## Sets -/

/-- A finite set, listed in order. -/
abbrev OrderedSet (κ : Type) [Ord κ] := OrderedMap κ Unit

namespace OrderedSet

variable {κ : Type} [Ord κ] [Std.TransOrd κ] [Std.LawfulEqOrd κ]

/-- Adds a member. -/
def add (s : OrderedSet κ) (k : κ) : OrderedSet κ := s.insert k ()

/-- The set of the members of a list. -/
def ofMembers (ks : List κ) : OrderedSet κ := ks.foldl add OrderedMap.empty

end OrderedSet

end TaskNetwork
