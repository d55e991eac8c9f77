import TaskNetwork.OrderedMap.Lemmas
import TaskNetwork.Storage.Path
import TaskNetwork.Text.Basic

/-!
# Entries of directories

A directory lists by name, in order, the files, links and directories that it holds. Every file has
a content of its own: no two places share one, as hard links would. A place is a list of names that
leads down from a directory. To set a place changes what stands there and leaves other places alone
(`entry?_set_self`, `entry?_set_of_not_isPrefix`).
-/

namespace TaskNetwork

/-- What stands at a place. -/
inductive Entry where
  | file (content : ByteArray)
  | link (target : Path)
  /-- A directory with its entries in the order of their names. -/
  | directory (entries : List (FileName × Entry))

mutual

/-- Decides equality of entries. -/
def Entry.decEq : (a b : Entry) → Decidable (a = b)
  | .file a, .file b => decidable_of_iff (a = b) ⟨congrArg _, Entry.file.inj⟩
  | .link a, .link b => decidable_of_iff (a = b) ⟨congrArg _, Entry.link.inj⟩
  | .directory as, .directory bs =>
    match Entry.decEqAll as bs with
    | isTrue h => isTrue (congrArg _ h)
    | isFalse h => isFalse fun e => h (Entry.directory.inj e)
  | .file _, .link _ => isFalse nofun
  | .file _, .directory _ => isFalse nofun
  | .link _, .file _ => isFalse nofun
  | .link _, .directory _ => isFalse nofun
  | .directory _, .file _ => isFalse nofun
  | .directory _, .link _ => isFalse nofun

/-- Decides equality of lists of named entries. -/
def Entry.decEqAll : (as bs : List (FileName × Entry)) → Decidable (as = bs)
  | [], [] => isTrue rfl
  | [], _ :: _ => isFalse nofun
  | _ :: _, [] => isFalse nofun
  | (k, a) :: as, (l, b) :: bs =>
    match instDecidableEqFileName k l, Entry.decEq a b, Entry.decEqAll as bs with
    | isTrue hk, isTrue ha, isTrue has => isTrue (by rw [hk, ha, has])
    | isFalse h, _, _ => isFalse fun e => h (by injection e with e _; injection e)
    | _, isFalse h, _ => isFalse fun e => h (by injection e with e _; injection e)
    | _, _, isFalse h => isFalse fun e => h (by injection e)

end

instance : DecidableEq Entry := Entry.decEq

/-- The entries of a directory. -/
abbrev Directory := List (FileName × Entry)

namespace Directory

/-- What stands at a place below a directory; the directory itself stands at the empty place. -/
def entry? (d : Directory) : List FileName → Option Entry
  | [] => some (.directory d)
  | name :: rest =>
    match d.lookup name with
    | some (.directory inner) => entry? inner rest
    | some e => if rest.isEmpty then some e else none
    | none => none

/-- Puts an entry under a name, or takes away what stands there. -/
def setName (d : Directory) (name : FileName) : Option Entry → Directory
  | some e => OrderedMap.insertEntry name e d
  | none => d.filter fun e => !(e.1 == name)

/-- Puts an entry at a place in some directory below, or takes away what stands there. -/
def set (d : Directory) (e : Option Entry) : List FileName → Directory
  | [] => d
  | [name] => d.setName name e
  | name :: rest =>
    match d.lookup name with
    | some (.directory inner) => d.setName name (some (.directory (set inner e rest)))
    | _ => d

theorem lookup_setName (d : Directory) (name name' : FileName) (e : Option Entry) :
    (d.setName name e).lookup name' = if name' == name then e else d.lookup name' := by
  cases e with
  | none => exact OrderedMap.lookup_filter_ne name name' d
  | some e => exact OrderedMap.lookup_insertEntry name name' e d

theorem mem_setName {d : Directory} {name : FileName} {e : Option Entry} {x : FileName × Entry}
    (h : x ∈ d.setName name e) : (x.1 = name ∧ e = some x.2) ∨ x ∈ d := by
  cases e with
  | none => exact .inr (List.mem_filter.mp h).1
  | some e =>
      rcases OrderedMap.mem_insertEntry h with rfl | h
      · exact .inl ⟨rfl, rfl⟩
      · exact .inr h

theorem entry?_cons (d : Directory) (name : FileName) (rest : List FileName) :
    entry? d (name :: rest) =
      match d.lookup name with
      | some (.directory inner) => entry? inner rest
      | some e => if rest.isEmpty then some e else none
      | none => none := rfl

/-- The place of a name has the entry of that name. -/
theorem entry?_singleton (d : Directory) (name : FileName) : entry? d [name] = d.lookup name := by
  rw [entry?_cons]
  cases d.lookup name with
  | none => rfl
  | some e => cases e <;> rfl

/-- A place below a directory is a place of that directory. -/
theorem entry?_append {d inner : Directory} {above : List FileName}
    (h : entry? d above = some (.directory inner)) (rest : List FileName) :
    entry? d (above ++ rest) = entry? inner rest := by
  induction above generalizing d with
  | nil =>
      cases h
      rfl
  | cons name above ih =>
      rw [entry?_cons] at h
      rw [List.cons_append, entry?_cons]
      split at h
      · exact ih h
      · split at h <;> simp_all
      · cases h

/-- What stands below a place stands in a directory there. -/
theorem exists_directory_of_entry?_append {d : Directory} {above rest : List FileName} {e : Entry}
    (h : entry? d (above ++ rest) = some e) (hrest : rest ≠ []) :
    ∃ inner, entry? d above = some (.directory inner) := by
  induction above generalizing d with
  | nil => exact ⟨d, rfl⟩
  | cons name above ih =>
      rw [List.cons_append, entry?_cons] at h
      rw [entry?_cons]
      split at h
      · exact ih h
      · simp [hrest] at h
      · cases h

theorem set_cons {d inner : Directory} {name : FileName} {rest : List FileName} (e : Option Entry)
    (h : d.lookup name = some (.directory inner)) (hrest : rest ≠ []) :
    set d e (name :: rest) = d.setName name (some (.directory (set inner e rest))) := by
  cases rest with
  | nil => exact absurd rfl hrest
  | cons _ _ => simp only [set, h]

/-- To set a place below a directory sets it in that directory. -/
theorem entry?_set_append {d inner : Directory} {above rest : List FileName} (e : Option Entry)
    (h : entry? d above = some (.directory inner)) (hrest : rest ≠ []) :
    entry? (set d e (above ++ rest)) above = some (.directory (set inner e rest)) := by
  induction above generalizing d with
  | nil =>
      cases h
      rfl
  | cons name above ih =>
      rw [entry?_cons] at h
      split at h
      · rename_i below hbelow
        rw [List.cons_append, set_cons e hbelow (by simp [hrest]), entry?_cons, lookup_setName]
        simpa using ih h
      · split at h <;> simp_all
      · cases h

/-- A place that is set, in a directory that is there, has what it was set to. -/
theorem entry?_set_self {d inner : Directory} {above : List FileName} (name : FileName)
    (e : Option Entry) (h : entry? d above = some (.directory inner)) :
    entry? (set d e (above ++ [name])) (above ++ [name]) = e := by
  rw [entry?_append (entry?_set_append e h (List.cons_ne_nil name [])), set, entry?_singleton,
    lookup_setName]
  simp

/-- To set a place leaves every place alone that is neither above nor below it. -/
theorem entry?_set_of_not_isPrefix {d : Directory} {place other : List FileName} (e : Option Entry)
    (h : ¬ place <+: other) (h' : ¬ other <+: place) :
    entry? (set d e place) other = entry? d other := by
  induction place generalizing d other with
  | nil => exact absurd List.nil_prefix h
  | cons first place ih =>
      cases other with
      | nil => exact absurd List.nil_prefix h'
      | cons name other =>
          by_cases hname : name = first
          · subst hname
            cases place with
            | nil => exact absurd ⟨other, rfl⟩ h
            | cons second place =>
                simp only [set]
                split
                · rename_i inner hinner
                  rw [entry?_cons, lookup_setName, entry?_cons, hinner]
                  simp only [beq_self_eq_true, if_true]
                  exact ih (fun hp => h (List.cons_prefix_cons.2 ⟨rfl, hp⟩))
                    fun hp => h' (List.cons_prefix_cons.2 ⟨rfl, hp⟩)
                · rfl
          · have hlookup : (set d e (first :: place)).lookup name = d.lookup name := by
              cases place with
              | nil => simp [set, lookup_setName, hname]
              | cons second place =>
                  simp only [set]
                  split <;> simp [lookup_setName, hname]
            rw [entry?_cons, entry?_cons, hlookup]

end Directory

end TaskNetwork
