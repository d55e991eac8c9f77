import TaskNetwork.Proofs.Storage.Route

/-!
# Directories without links

In a directory that holds no links the path of a name leads to the place of that name. What an
operation on a file there does is said in one lemma for each, and it leaves the directory such a
directory, at the same place. A directory of plain files is one that holds no directories either.
-/

namespace TaskNetwork

/-- A name can be used behind a path, as far as lengths and characters go. -/
def Path.Admits (p : Path) (name : String) : Prop :=
  (p.child name).isShort = true ∧ FileTree.isName name = true

instance (p : Path) (name : String) : Decidable (p.Admits name) :=
  inferInstanceAs (Decidable (_ ∧ _))

/-! ## Directories without links -/

namespace FileTree

/-- A path leads to a directory with these entries, none of them a link. -/
structure HoldsUnlinked (t : FileTree) (cwd : Place) (p : Path) (place : Place)
    (entries : Directory) : Prop where
  leads : t.resolve cwd true p = some place
  entry : t.entry? place = some (.directory entries)
  isSegment : ∀ e ∈ entries, Path.IsSegment e.1
  unlinked : ∀ e ∈ entries, ∀ target, e.2 ≠ .link target

theorem Leads.of_isSame {t : FileTree} {links : Nat} {base : List FileName} {place : Place}
    {p q : Path} (hsame : p.IsSame q) (hplace : t.passage place = .directory)
    (h : Leads t true links [] (base ++ p.segments) place) :
    Leads t true links [] (base ++ q.segments) place := by
  have hheres (r : Path) : ∀ s ∈ r.segments.rtakeWhile Path.isHere, Path.isHere s = true :=
    fun s hs => List.mem_rtakeWhile_imp hs
  have hsplit (r : Path) : base ++ r.segments =
      (base ++ r.segments.rdropWhile Path.isHere) ++ r.segments.rtakeWhile Path.isHere := by
    rw [List.append_assoc, List.rdropWhile_append_rtakeWhile]
  rw [hsplit, Leads.append_isHere_iff (hheres _) hplace] at h ⊢
  rwa [← hsame.leading_eq]

theorem passage_append_of_closed {t : FileTree} {above rest : Place}
    (h : t.passage above = .closed) : t.passage (above ++ rest) = .closed := by
  by_cases hnil : rest = []
  · rw [hnil, List.append_nil, h]
  · cases he : t.entry? (above ++ rest) with
    | none => rw [passage, he, Passage.ofEntry]
    | some e =>
        obtain ⟨inner, hinner⟩ := Directory.exists_directory_of_entry?_append he hnil
        rw [passage_eq_directory.mpr ⟨inner, hinner⟩] at h
        cases h

/-- A change of what no path leads through changes no passage. -/
theorem passage_set {t : FileTree} {place : Place} {segment : FileName} {files : Directory}
    {e : Option Entry} (hplace : t.entry? place = some (.directory files))
    (hclosed : t.passage (place ++ [segment]) = .closed) (he : Passage.ofEntry e = .closed) :
    (t.set (place ++ [segment]) e).passage = t.passage := by
  have hclosed' : (t.set (place ++ [segment]) e).passage (place ++ [segment]) = .closed := by
    rw [passage, entry?, set, Directory.entry?_set_self segment e hplace, he]
  funext q
  -- Above the place there are directories before and after, and below it nothing can be reached.
  by_cases habove : q <+: place
  · obtain ⟨rest, rfl⟩ := habove
    have hdir : ∃ inner, t.root.entry? q = some (.directory inner) := by
      by_cases hnil : rest = []
      · exact ⟨files, by rwa [hnil, List.append_nil] at hplace⟩
      · exact Directory.exists_directory_of_entry?_append hplace hnil
    obtain ⟨inner, hinner⟩ := hdir
    have hset := Directory.entry?_set_append e hinner (List.concat_ne_nil segment rest)
    rw [passage_eq_directory.mpr ⟨inner, hinner⟩, passage_eq_directory]
    refine ⟨Directory.set inner e (rest ++ [segment]), ?_⟩
    rw [set, entry?, List.append_assoc, hset]
  · by_cases hbelow : place ++ [segment] <+: q
    · obtain ⟨rest, rfl⟩ := hbelow
      rw [passage_append_of_closed hclosed, passage_append_of_closed hclosed']
    · have hnot : ¬ q <+: place ++ [segment] := by
        intro hprefix
        rcases List.prefix_concat_iff.mp hprefix with rfl | hprefix
        · exact hbelow (List.prefix_refl _)
        · exact habove hprefix
      rw [passage, entry?, set, Directory.entry?_set_of_not_isPrefix e hbelow hnot]
      rfl

namespace HoldsUnlinked

variable {t t' : FileTree} {cwd place q : Place} {p d : Path} {entries : Directory}
  {followLast : Bool} {segment : FileName} {name : String} {content : ByteArray}
  (h : t.HoldsUnlinked cwd p place entries)

include h

theorem entry?_child : t.entry? (place ++ [segment]) = entries.lookup segment :=
  (Directory.entry?_append h.entry [segment]).trans (Directory.entry?_singleton entries segment)

theorem passage_child_ne_link (target : Path) : t.passage (place ++ [segment]) ≠ .link target := by
  rw [passage, h.entry?_child]
  intro hlink
  cases he : entries.lookup segment with
  | none =>
      rw [he] at hlink
      cases hlink
  | some e =>
      rw [he] at hlink
      cases e with
      | file content => cases hlink
      | link target' => exact absurd rfl (h.unlinked _ (OrderedMap.mem_of_lookup_eq_some he) _)
      | directory inner => cases hlink

theorem passage_child (hfree : ∀ inner, entries.lookup segment ≠ some (.directory inner)) :
    t.passage (place ++ [segment]) = .closed := by
  cases hat : t.passage (place ++ [segment]) with
  | directory =>
      obtain ⟨inner, hinner⟩ := passage_eq_directory.mp hat
      exact absurd (h.entry?_child.symm.trans hinner) (hfree inner)
  | link target => exact absurd hat (h.passage_child_ne_link target)
  | closed => rfl

theorem resolve_child_iff (hsame : d.IsSame p) (hname : Path.IsSegment name) :
    t.resolve cwd followLast (d.child name) = some q ↔
      d.Admits name ∧ q = place ++ [.ofText name] := by
  obtain ⟨d', hsame', hchild⟩ := Path.exists_child_eq (p := d) hname
  have hdir : t.passage place = .directory := passage_eq_directory.mpr ⟨entries, h.entry⟩
  have hp := (resolve_eq_some.mp h.leads).2.of_isSame hsame.symm hdir
  rw [← hsame.absolute_eq] at hp
  have hd := hp.of_isSame hsame'.symm hdir
  rw [← hsame'.absolute_eq] at hd
  rw [Path.Admits, resolve_eq_some, hchild, ← List.append_assoc, and_assoc,
    hd.append_singleton_iff hdir hname h.passage_child_ne_link]

theorem set (hsegment : Path.IsSegment segment)
    (hfree : ∀ inner, entries.lookup segment ≠ some (.directory inner)) {e : Option Entry}
    (he : ∀ x, e = some x → ∃ content, x = .file content) :
    (t.set (place ++ [segment]) e).HoldsUnlinked cwd p place (entries.setName segment e) where
  leads := by
    have hclosed : Passage.ofEntry e = .closed := by
      cases e with
      | none => rfl
      | some x =>
          obtain ⟨content, rfl⟩ := he x rfl
          rfl
    obtain ⟨hshort, hleads⟩ := resolve_eq_some.mp h.leads
    have hpassage : (t.set (place ++ [segment]) e).passage = t.passage :=
      passage_set h.entry (h.passage_child hfree) hclosed
    exact resolve_eq_some.mpr ⟨hshort, hleads.congr hpassage.symm⟩
  entry := Directory.entry?_set_append e h.entry (List.cons_ne_nil segment [])
  isSegment x hx := by
    rcases Directory.mem_setName hx with ⟨heq, -⟩ | hx
    · exact heq ▸ hsegment
    · exact h.isSegment x hx
  unlinked x hx target := by
    rcases Directory.mem_setName hx with ⟨-, heq⟩ | hx
    · obtain ⟨content, hfile⟩ := he _ heq
      rw [hfile]
      nofun
    · exact h.unlinked x hx target

theorem setFile (hsegment : Path.IsSegment segment)
    (hfree : ∀ inner, entries.lookup segment ≠ some (.directory inner)) (content : ByteArray) :
    (t.set (place ++ [segment]) (some (.file content))).HoldsUnlinked cwd p place
      (entries.setName segment (some (.file content))) :=
  h.set hsegment hfree fun _ hx => ⟨content, (Option.some.inj hx).symm⟩

/-! ### Operations on a name -/

theorem read?_child_iff (hname : Path.IsSegment name) :
    t.read? cwd (p.child name) = some content ↔
      p.Admits name ∧ entries.lookup (.ofText name) = some (.file content) := by
  have hbind : (t.resolve cwd true (p.child name)).bind t.entry? = some (.file content) ↔
      p.Admits name ∧ entries.lookup (.ofText name) = some (.file content) := by
    rw [Option.bind_eq_some_iff]
    simp only [h.resolve_child_iff ⟨rfl, rfl⟩ hname, and_assoc, exists_and_left, exists_eq_left,
      h.entry?_child]
  rw [← hbind, read?]
  split
  · rename_i hentry
    rw [hentry, Option.some.injEq, Option.some.injEq, Entry.file.injEq]
  · rename_i hno
    exact iff_of_false nofun fun heq => hno content heq

theorem remove?_child (hname : Path.IsSegment name)
    (ht : t.remove? cwd (p.child name) = some t') :
    (∀ inner, entries.lookup (.ofText name) ≠ some (.directory inner)) ∧
      t' = t.set (place ++ [.ofText name]) none := by
  obtain ⟨q, hq, ht⟩ := Option.bind_eq_some_iff.mp ht
  obtain ⟨-, rfl⟩ := (h.resolve_child_iff ⟨rfl, rfl⟩ hname).mp hq
  rw [h.entry?_child] at ht
  split at ht
  · cases ht
  · cases ht
  · rename_i hno heq
    cases ht
    exact ⟨fun inner hinner => hno inner (Option.some.inj (heq.symm.trans hinner)), rfl⟩

theorem write?_child_iff (hsame : d.IsSame p) (hname : Path.IsSegment name) :
    t.write? cwd (d.child name) content = some t' ↔
      d.Admits name ∧ (∀ inner, entries.lookup (.ofText name) ≠ some (.directory inner)) ∧
        t' = t.set (place ++ [.ofText name]) (some (.file content)) := by
  constructor
  · intro ht
    obtain ⟨q, hq, ht⟩ := Option.bind_eq_some_iff.mp ht
    obtain ⟨hadmits, rfl⟩ := (h.resolve_child_iff hsame hname).mp hq
    rw [h.entry?_child] at ht
    split at ht
    · cases ht
    · rename_i hfree
      cases ht
      exact ⟨hadmits, hfree, rfl⟩
  · rintro ⟨hadmits, hfree, rfl⟩
    have hq : t.resolve cwd true (d.child name) = some (place ++ [.ofText name]) :=
      (h.resolve_child_iff hsame hname).mpr ⟨hadmits, rfl⟩
    refine Option.bind_eq_some_iff.mpr ⟨_, hq, ?_⟩
    rw [h.entry?_child]
    split
    · exact absurd ‹_› (hfree _)
    · rfl

theorem rename?_child_iff {name' : String} (hsame : d.IsSame p) (hname : Path.IsSegment name)
    (hname' : Path.IsSegment name') :
    t.rename? cwd (d.child name) (p.child name') = some t' ↔
      d.Admits name ∧ p.Admits name' ∧
        (∀ inner, entries.lookup (.ofText name') ≠ some (.directory inner)) ∧
        ∃ content, entries.lookup (.ofText name) = some (.file content) ∧
          t' = (t.set (place ++ [.ofText name]) none).set (place ++ [.ofText name'])
            (some (.file content)) := by
  constructor
  · intro ht
    obtain ⟨origin, horigin, ht⟩ := Option.bind_eq_some_iff.mp ht
    obtain ⟨q, hq, ht⟩ := Option.bind_eq_some_iff.mp ht
    obtain ⟨hadmits, rfl⟩ := (h.resolve_child_iff hsame hname).mp horigin
    obtain ⟨hadmits', rfl⟩ := (h.resolve_child_iff ⟨rfl, rfl⟩ hname').mp hq
    rw [h.entry?_child, h.entry?_child] at ht
    split at ht
    · cases ht
    · cases ht
    · cases ht
    · rename_i e hnot hlookup hfree
      cases ht
      cases e with
      | file content => exact ⟨hadmits, hadmits', fun inner => hfree inner, content, hlookup, rfl⟩
      | link target =>
          exact absurd rfl (h.unlinked _ (OrderedMap.mem_of_lookup_eq_some hlookup) target)
      | directory inner => exact absurd rfl (hnot inner)
  · rintro ⟨hadmits, hadmits', hfree, content, hlookup, rfl⟩
    have horigin : t.resolve cwd false (d.child name) = some (place ++ [.ofText name]) :=
      (h.resolve_child_iff hsame hname).mpr ⟨hadmits, rfl⟩
    have hq : t.resolve cwd false (p.child name') = some (place ++ [.ofText name']) :=
      (h.resolve_child_iff ⟨rfl, rfl⟩ hname').mpr ⟨hadmits', rfl⟩
    refine Option.bind_eq_some_iff.mpr ⟨_, horigin, Option.bind_eq_some_iff.mpr ⟨_, hq, ?_⟩⟩
    rw [h.entry?_child, h.entry?_child, hlookup]
    split
    · rename_i heq
      cases heq
    · rename_i heq
      cases heq
    · exact absurd ‹_› (hfree _)
    · rename_i heq _
      cases heq
      rfl

end HoldsUnlinked

/-! ## Directories of plain files -/

/-- A path leads to a directory that holds these files, plain ones only. -/
structure Holds (t : FileTree) (cwd : Place) (p : Path) (place : Place) (files : Directory) :
    Prop where
  leads : t.resolve cwd true p = some place
  entry : t.entry? place = some (.directory files)
  isSegment : ∀ e ∈ files, Path.IsSegment e.1
  plain : ∀ e ∈ files, ∃ content, e.2 = .file content

namespace Holds

variable {t t' : FileTree} {cwd place : Place} {p d : Path} {files : Directory}
  {segment : FileName} {name : String} {content : ByteArray}

theorem ofUnlinked (h : t.HoldsUnlinked cwd p place files)
    (hplain : ∀ e ∈ files, ∃ content, e.2 = .file content) : t.Holds cwd p place files :=
  ⟨h.leads, h.entry, h.isSegment, hplain⟩

variable (h : t.Holds cwd p place files)

include h

theorem unlinked : t.HoldsUnlinked cwd p place files where
  leads := h.leads
  entry := h.entry
  isSegment := h.isSegment
  unlinked e he target := by
    obtain ⟨content, hfile⟩ := h.plain e he
    rw [hfile]
    nofun

theorem not_directory (inner : Directory) : files.lookup segment ≠ some (.directory inner) := by
  intro hlookup
  obtain ⟨content, hfile⟩ := h.plain _ (OrderedMap.mem_of_lookup_eq_some hlookup)
  cases hfile

theorem plain_setName {e : Option Entry} (he : ∀ x, e = some x → ∃ content, x = .file content) :
    ∀ x ∈ files.setName segment e, ∃ content, x.2 = .file content := by
  intro x hx
  rcases Directory.mem_setName hx with ⟨-, heq⟩ | hx
  · exact he _ heq
  · exact h.plain x hx

theorem setFile (hsegment : Path.IsSegment segment) (content : ByteArray) :
    (t.set (place ++ [segment]) (some (.file content))).Holds cwd p place
      (files.setName segment (some (.file content))) :=
  .ofUnlinked (h.unlinked.setFile hsegment h.not_directory content)
    (h.plain_setName fun _ hx => ⟨content, (Option.some.inj hx).symm⟩)

theorem setNone (hsegment : Path.IsSegment segment) :
    (t.set (place ++ [segment]) none).Holds cwd p place (files.setName segment none) :=
  .ofUnlinked (h.unlinked.set hsegment h.not_directory nofun) (h.plain_setName nofun)

theorem lookup_of_read? (hname : Path.IsSegment name)
    (hread : t.read? cwd (p.child name) = some content) :
    files.lookup (.ofText name) = some (.file content) :=
  ((h.unlinked.read?_child_iff hname).mp hread).2

theorem remove? (hname : Path.IsSegment name) (ht : t.remove? cwd (p.child name) = some t') :
    t'.Holds cwd p place (files.setName (.ofText name) none) := by
  obtain ⟨-, rfl⟩ := h.unlinked.remove?_child hname ht
  exact h.setNone hname

theorem write? (hsame : d.IsSame p) (hname : Path.IsSegment name)
    (ht : t.write? cwd (d.child name) content = some t') :
    t'.Holds cwd p place (files.setName (.ofText name) (some (.file content))) := by
  obtain ⟨-, -, rfl⟩ := (h.unlinked.write?_child_iff hsame hname).mp ht
  exact h.setFile hname content

theorem rename? {name' : String} (hsame : d.IsSame p) (hname : Path.IsSegment name)
    (hname' : Path.IsSegment name')
    (ht : t.rename? cwd (d.child name) (p.child name') = some t') :
    ∃ content, files.lookup (.ofText name) = some (.file content) ∧
      t'.Holds cwd p place
        ((files.setName (.ofText name) none).setName (.ofText name') (some (.file content))) := by
  obtain ⟨-, -, -, content, hlookup, rfl⟩ :=
    (h.unlinked.rename?_child_iff hsame hname hname').mp ht
  exact ⟨content, hlookup, (h.setNone hname).setFile hname' content⟩

end Holds

end FileTree

end TaskNetwork
