import TaskNetwork.Proofs.Storage.Flat

/-!
# What a change leaves alone

Trees are compared by the files and links that stand at their places. A change of a name in a
directory leaves those at other places alone, and to make a directory leaves all of them alone.
-/

namespace TaskNetwork.FileTree

variable {t t' : FileTree} {cwd place other : Place} {p : Path} {entries : Directory}
  {name : FileName}

/-- The file or link that stands at a place. -/
def fileAt? (t : FileTree) (place : Place) : Option Entry :=
  match t.entry? place with
  | some (.directory _) => none
  | e => e

theorem fileAt?_eq_none (h : t.passage place = .directory) : t.fileAt? place = none := by
  obtain ⟨inner, hinner⟩ := passage_eq_directory.mp h
  rw [fileAt?, hinner]

/-- To set a name in a directory keeps what stands anywhere but at that name and below. -/
theorem fileAt?_set (e : Option Entry) (hplace : t.entry? place = some (.directory entries))
    (hother : ¬ place ++ [name] <+: other) :
    (t.set (place ++ [name]) e).fileAt? other = t.fileAt? other := by
  by_cases habove : other <+: place
  · obtain ⟨rest, rfl⟩ := habove
    obtain ⟨inner, hinner⟩ : ∃ inner, t.entry? other = some (.directory inner) := by
      by_cases hnil : rest = []
      · exact ⟨entries, by rwa [hnil, List.append_nil] at hplace⟩
      · exact Directory.exists_directory_of_entry?_append hplace hnil
    have hset : (t.set (other ++ rest ++ [name]) e).passage other = .directory := by
      rw [List.append_assoc]
      exact passage_eq_directory.mpr
        ⟨_, Directory.entry?_set_append e hinner (List.concat_ne_nil name rest)⟩
    rw [fileAt?_eq_none hset, fileAt?_eq_none (passage_eq_directory.mpr ⟨_, hinner⟩)]
  · have hnot : ¬ other <+: place ++ [name] := by
      intro hprefix
      rcases List.prefix_concat_iff.mp hprefix with rfl | hprefix
      · exact hother (List.prefix_refl _)
      · exact habove hprefix
    rw [fileAt?, fileAt?, set, entry?, entry?,
      Directory.entry?_set_of_not_isPrefix e hother hnot]

/-! ## Making directories -/

/-- A directory is made under a name that is free. -/
theorem makeOne_eq_made (h : t.makeOne cwd p = .made t') :
    ∃ above entries name, t.entry? above = some (.directory entries) ∧
      entries.lookup name = none ∧ t' = t.set (above ++ [name]) (some (.directory [])) := by
  rw [makeOne] at h
  split at h
  · cases h
  · split at h
    · cases h
    · split at h
      · cases h
      · split at h
        · split at h
          · cases h
          · rename_i hfree
            cases h
            rw [Bool.not_eq_true, Bool.or_eq_false_iff] at hfree
            exact ⟨_, _, _, ‹_›, by simpa using hfree.2, rfl⟩
        · cases h

theorem fileAt?_makeOne (h : t.makeOne cwd p = .made t') (other : Place) :
    t'.fileAt? other = t.fileAt? other := by
  obtain ⟨above, entries, name, hentries, hfree, rfl⟩ := makeOne_eq_made h
  by_cases hother : above ++ [name] <+: other
  · -- There was nothing at the name or below, and now there is an empty directory.
    obtain ⟨rest, rfl⟩ := hother
    have hbefore : t.entry? (above ++ [name] ++ rest) = none := by
      rw [List.append_assoc, entry?, Directory.entry?_append hentries, List.singleton_append,
        Directory.entry?_cons, hfree]
    have hmade := Directory.entry?_set_self name (some (.directory [])) hentries
    rw [fileAt?, fileAt?, hbefore, set, entry?, Directory.entry?_append hmade]
    cases rest with
    | nil => rfl
    | cons first rest => rfl
  · exact fileAt?_set _ hentries hother

theorem fileAt?_makeMissing (t : FileTree) (cwd : Place) (p : Path) (other : Place) :
    (t.makeMissing cwd p).1.fileAt? other = t.fileAt? other := by
  fun_induction makeMissing t cwd p with
  | case1 p t' hmade => exact fileAt?_makeOne hmade other
  | case2 | case3 => rfl
  | case4 p _ above _ t' habove ih => rwa [habove] at ih
  | case5 p _ above _ t₁ habove t' hmade ih =>
      rw [habove] at ih
      exact (fileAt?_makeOne hmade other).trans ih
  | case6 p _ above _ t₁ habove _ ih => rwa [habove] at ih

/-- To make a directory changes no file and no link anywhere. -/
theorem fileAt?_makeDirectory (t : FileTree) (cwd : Place) (p : Path) (other : Place) :
    (t.makeDirectory cwd p).1.fileAt? other = t.fileAt? other := by
  rw [makeDirectory]
  split
  · rfl
  · exact fileAt?_makeMissing t cwd p other

end TaskNetwork.FileTree
