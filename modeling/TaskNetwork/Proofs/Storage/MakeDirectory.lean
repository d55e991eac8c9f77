import TaskNetwork.Proofs.Storage.Flat

/-!
# Making a directory that is there

To make a directory where there is one changes nothing: the way to it leads through a directory, in
which the last name of its path is taken.
-/

namespace TaskNetwork

/-! ## Parts of paths -/

theorem Path.length_intercalate_le (xs ys : List (List UInt8)) :
    ([slash].intercalate xs).length ≤ ([slash].intercalate (xs ++ ys)).length := by
  induction xs with
  | nil => exact Nat.zero_le _
  | cons x xs ih =>
      cases hrest : xs ++ ys with
      | nil => rw [List.cons_append, hrest, (List.append_eq_nil_iff.mp hrest).1]
      | cons z zs =>
          rw [List.cons_append, hrest, List.intercalate_cons_cons, ← hrest]
          cases xs with
          | nil => simp
          | cons y ys =>
              rw [List.intercalate_cons_cons]
              simp only [List.length_append] at ih ⊢
              omega

theorem Path.isShort_of_append {absolute : Bool} {xs ys : List FileName}
    (h : isShort ⟨absolute, xs ++ ys⟩ = true) : isShort ⟨absolute, xs⟩ = true := by
  have hle := length_intercalate_le (xs.map FileName.bytes) (ys.map FileName.bytes)
  simp only [isShort, bytes, List.length_append, List.map_append, decide_eq_true_eq] at h ⊢
  omega

/-- A path is that of a directory, a last segment and slashes. -/
theorem Path.exists_slashes {p : Path} {name : FileName}
    (h : p.withoutEndSlashes.segments.getLast? = some name) :
    ∃ slashes, name ≠ "" ∧
      p.segments = p.withoutEndSlashes.segments.dropLast ++ (name :: slashes) ∧
      p.withoutEndSlashes.endsInName = (name ≠ "." && name ≠ "..") := by
  have hnamed :
      p.withoutEndSlashes.segments = p.segments.rdropWhile fun s : FileName => s = "" := rfl
  obtain ⟨init, hinit⟩ := List.getLast?_eq_some_iff.mp h
  have hne : name ≠ "" := by
    have hlast := List.rdropWhile_last_not (fun s : FileName => s = "") p.segments
      (by simp [← hnamed, hinit])
    simpa [← hnamed, hinit] using hlast
  refine ⟨p.segments.rtakeWhile fun s : FileName => s = "", hne, ?_, ?_⟩
  · rw [hinit, List.dropLast_concat, ← List.singleton_append, ← List.append_assoc, ← hinit, hnamed,
      List.rdropWhile_append_rtakeWhile]
  · rw [endsInName, hinit]
    simp [hne]

namespace FileTree

variable {t : FileTree} {cwd place : Place} {p : Path}

theorem isDirectory_eq_true :
    t.isDirectory cwd p = true ↔
      ∃ place, t.resolve cwd true p = some place ∧ t.passage place = .directory := by
  rw [isDirectory]
  cases hresolve : t.resolve cwd true p with
  | none => simp
  | some place =>
      simp only [Option.bind_some, Option.some.injEq, exists_eq_left', passage_eq_directory]
      cases hentry : t.entry? place with
      | none => simp
      | some e => cases e <;> simp

/-- A path to a directory leads to a name that is taken. -/
theorem lookup_isSome_of_leads {links : Nat} {above : Place} {entries : Directory} {name : FileName}
    {slashes : List FileName} (hentries : t.entry? above = some (.directory entries))
    (hhere : Path.isHere name = false) (hup : name ≠ "..")
    (h : Leads t true links above (name :: slashes) place) (hplace : t.passage place = .directory) :
    (entries.lookup name).isSome = true := by
  by_contra hnone
  rw [Bool.not_eq_true, Option.isSome_eq_false_iff, Option.isNone_iff_eq_none] at hnone
  have hclosed : t.passage (above ++ [name]) = .closed := by
    rw [passage, entry?, Directory.entry?_append hentries, Directory.entry?_singleton, hnone]
    rfl
  have hroute : route t.passage true above (name :: slashes) = .reached (above ++ [name]) ∨
      route t.passage true above (name :: slashes) = .blocked := by
    rw [route, hhere, if_neg hup, hclosed]
    cases isName name <;> cases slashes <;> simp
  rcases hroute with hreached | hblocked
  · obtain rfl := (Leads.reached_iff hreached).mp h
    rw [hclosed] at hplace
    cases hplace
  · exact Leads.not_blocked hblocked h

theorem makeOne_of_isDirectory (h : t.isDirectory cwd p = true) : t.makeOne cwd p = .refused := by
  obtain ⟨place, hresolve, hplace⟩ := isDirectory_eq_true.mp h
  obtain ⟨hshort, hleads⟩ := resolve_eq_some.mp hresolve
  rw [makeOne]
  cases hlast : p.withoutEndSlashes.segments.getLast? with
  | none => rfl
  | some name =>
      obtain ⟨slashes, hne, hsplit, hends⟩ := Path.exists_slashes hlast
      have hmore : name :: slashes ≠ [] := List.cons_ne_nil name slashes
      have hshort' : Path.isShort ⟨p.absolute,
          p.withoutEndSlashes.segments.dropLast ++ (name :: slashes)⟩ = true := by
        rw [← hsplit]
        exact hshort
      rw [hsplit, ← List.append_assoc] at hleads
      obtain ⟨above, habove, hdir⟩ := hleads.exists_directory rfl hmore
      obtain ⟨entries, hentries⟩ := passage_eq_directory.mp hdir
      obtain ⟨links, hiff⟩ := habove.append_iff rfl hdir hmore
      have hresolve' : t.resolve cwd true
          ⟨p.withoutEndSlashes.absolute, p.withoutEndSlashes.segments.dropLast⟩ = some above :=
        resolve_eq_some.mpr ⟨Path.isShort_of_append hshort', habove⟩
      have htaken : (!p.withoutEndSlashes.endsInName || !isName name ||
          (entries.lookup name).isSome) = true := by
        by_cases hname : name = "." ∨ name = ".."
        · rcases hname with rfl | rfl <;> simp [hends]
        · rw [not_or] at hname
          have htaken := lookup_isSome_of_leads hentries (by simp [Path.isHere, hne, hname.1])
            hname.2 (hiff.mp hleads) hplace
          simp [htaken]
      simp only [hshort, hresolve', hentries, htaken]
      rfl

theorem makeDirectory_of_isDirectory (h : t.isDirectory cwd p = true) :
    (t.makeDirectory cwd p).1 = t := by
  rw [makeDirectory]
  split
  · rfl
  · rw [makeMissing, makeOne_of_isDirectory h]

end FileTree

end TaskNetwork
