import TaskNetwork.Proofs.Report.Read
import TaskNetwork.Proofs.Storage.Outside

/-!
# What a finished write leaves

A write that goes through has put each file of the report in place and taken away all other plain
files with texts for names, those of broken-off writes apart. Outside of the directory it has
changed no file. All this is so for artifacts that are named like files of the directory; other
names are not refused. Files whose names are no texts stay.
-/

namespace TaskNetwork.ReportDirectory

variable {t t' : FileTree} {cwd place : FileTree.Place} {directory : Path}
  {before now : Directory} {file : FileName} {name : String} {content : ByteArray} {r : Report}

/-! ## Steps that go through -/

theorem perform_cons_eq_ok {change : Change} {steps : List Step} :
    perform cwd t (.ok change :: steps) = (.ok (), t') ↔
      ∃ t₁, change.apply t cwd = .ok t₁ ∧ perform cwd t₁ steps = (.ok (), t') := by
  rw [perform]
  cases change.apply t cwd with
  | error e => simp
  | ok t₁ => simp

theorem perform_append_eq_ok {xs ys : List Step} :
    perform cwd t (xs ++ ys) = (.ok (), t') ↔
      ∃ t₁, perform cwd t xs = (.ok (), t₁) ∧ perform cwd t₁ ys = (.ok (), t') := by
  induction xs generalizing t with
  | nil => simp [perform]
  | cons step steps ih =>
      cases step with
      | error e => simp [perform]
      | ok change =>
          rw [List.cons_append, perform_cons_eq_ok]
          simp only [perform_cons_eq_ok, ih]
          constructor
          · rintro ⟨t₁, happly, t₂, hfirst, hsecond⟩
            exact ⟨t₂, ⟨t₁, happly, hfirst⟩, hsecond⟩
          · rintro ⟨t₂, ⟨t₁, happly, hfirst⟩, hsecond⟩
            exact ⟨t₁, happly, t₂, hfirst, hsecond⟩

/-- A tree has come to hold these entries in a directory, and outside of it the files are those of
another tree. -/
structure Becomes (t : FileTree) (cwd : FileTree.Place) (directory : Path)
    (place : FileTree.Place) (t' : FileTree) (now : Directory) : Prop where
  holds : t'.HoldsUnlinked cwd directory place now
  outside {other : FileTree.Place} : ¬ place <+: other → t'.fileAt? other = t.fileAt? other

theorem Becomes.set (h : Becomes t cwd directory place t' now) (hfile : Path.IsSegment file)
    (hfree : ∀ inner, now.lookup file ≠ some (.directory inner)) {e : Option Entry}
    (he : ∀ x, e = some x → ∃ content, x = .file content) :
    Becomes t cwd directory place (t'.set (place ++ [file]) e) (now.setName file e) where
  holds := h.holds.set hfile hfree he
  outside hother :=
    (FileTree.fileAt?_set e h.holds.entry fun hbelow =>
      hother ((List.prefix_append place [file]).trans hbelow)).trans (h.outside hother)

theorem Becomes.setFile (h : Becomes t cwd directory place t' now) (hfile : Path.IsSegment file)
    (hfree : ∀ inner, now.lookup file ≠ some (.directory inner)) (content : ByteArray) :
    Becomes t cwd directory place (t'.set (place ++ [file]) (some (.file content)))
      (now.setName file (some (.file content))) :=
  h.set hfile hfree fun _ hx => ⟨content, (Option.some.inj hx).symm⟩

theorem Becomes.setNone (h : Becomes t cwd directory place t' now) (hfile : Path.IsSegment file)
    (hfree : ∀ inner, now.lookup file ≠ some (.directory inner)) :
    Becomes t cwd directory place (t'.set (place ++ [file]) none) (now.setName file none) :=
  h.set hfile hfree nofun

/-! ## One file -/

/-- What becomes of the entries of a directory when a file is written whole. -/
def putWhole (d : Directory) (f : String × ByteArray) : Directory :=
  let temporary := FileName.ofText (temporaryMark ++ f.1)
  ((d.setName temporary (some (.file f.2))).setName temporary none).setName (.ofText f.1)
    (some (.file f.2))

theorem lookup_putWhole (d : Directory) (f : String × ByteArray)
    (hfile : file ≠ .ofText (temporaryMark ++ f.1)) :
    (putWhole d f).lookup file =
      if file == .ofText f.1 then some (.file f.2) else d.lookup file := by
  simp only [putWhole, Directory.lookup_setName, beq_false_of_ne hfile, Bool.false_eq_true,
    if_false]

theorem ne_temporary (hfile : isTemporary file = false) (name : String) :
    file ≠ .ofText (temporaryMark ++ name) := by
  rintro rfl
  rw [isTemporary_temporary] at hfile
  cases hfile

theorem ne_ofText (hfile : file.text? = none) (name : String) : file ≠ .ofText name := by
  rintro rfl
  rw [FileName.text?_ofText] at hfile
  cases hfile

theorem mem_putWhole {d : Directory} {f : String × ByteArray} {x : FileName × Entry}
    (h : x ∈ putWhole d f) : x.1 = .ofText f.1 ∨ x ∈ d := by
  rw [putWhole] at h
  rcases Directory.mem_setName h with ⟨heq, -⟩ | h
  · exact .inl heq
  · obtain ⟨hmem, hne⟩ := List.mem_filter.mp h
    rcases Directory.mem_setName hmem with ⟨heq, -⟩ | hmem
    · simp [heq] at hne
    · exact .inr hmem

/-- To write a file whole is to write another one beside it and to rename that. -/
theorem exists_writeWhole_child (directory : Path) (hname : Path.IsSegment name)
    (content : ByteArray) :
    ∃ d : Path, d.IsSame directory ∧ writeWhole (directory.child name) content =
      [.ok (.write (d.child (temporaryMark ++ name)) content),
        .ok (.rename (d.child (temporaryMark ++ name)) (directory.child name))] := by
  obtain ⟨d, hparent, hsame⟩ := Path.exists_parent?_child (p := directory) hname
  refine ⟨d, hsame, ?_⟩
  simp only [writeWhole, hparent, Path.fileName?_child hname, FileName.shown_ofText]

theorem Becomes.of_writeWhole {t₀ : FileTree} (h : Becomes t₀ cwd directory place t now)
    (hname : Path.IsSegment name)
    (hrun : perform cwd t (writeWhole (directory.child name) content) = (.ok (), t')) :
    directory.Admits name ∧ Becomes t₀ cwd directory place t' (putWhole now (name, content)) := by
  have htemporary := isSegment_temporary hname
  obtain ⟨d, hsame, hsteps⟩ := exists_writeWhole_child directory hname content
  rw [hsteps] at hrun
  obtain ⟨t₁, hwrite, hrun⟩ := perform_cons_eq_ok.mp hrun
  obtain ⟨t₂, hrename, hrun⟩ := perform_cons_eq_ok.mp hrun
  cases hrun
  obtain ⟨-, hfree, rfl⟩ :=
    (h.holds.write?_child_iff hsame htemporary).mp (elim_eq_ok.mp hwrite)
  have hwritten := h.setFile htemporary hfree content
  obtain ⟨-, hadmits, hfree', moved, hmoved, rfl⟩ :=
    (hwritten.holds.rename?_child_iff hsame htemporary hname).mp (elim_eq_ok.mp hrename)
  rw [Directory.lookup_setName, if_pos BEq.rfl] at hmoved
  cases hmoved
  have hgone := hwritten.setNone htemporary fun inner => by simp [Directory.lookup_setName]
  refine ⟨hadmits, hgone.setFile hname (fun inner => ?_) content⟩
  rw [Directory.lookup_setName]
  split
  · nofun
  · exact hfree' inner

/-! ## All files -/

/-- The files of a report, in the order in which they are written. -/
def filesOf (r : Report) : List (String × ByteArray) :=
  r.artifacts.values.map (fun a => (a.name, a.content)) ++
    [(manifestFile, r.manifest), (digestFile, r.digest.text.toUTF8)]

/-- The files that are removed first. -/
def staleFiles (r : Report) (present : List String) : List String :=
  present.filter fun name => !r.artifacts.contains name && !isMetadata name

theorem writeSteps_eq (r : Report) (directory : Path) (present : List String) :
    writeSteps r directory present =
      (staleFiles r present).map (fun name => .ok (.remove (directory.child name))) ++
      (filesOf r).flatMap fun f => writeWhole (directory.child f.1) f.2 := by
  simp [writeSteps, staleFiles, filesOf, List.flatMap_append, List.flatMap_map]

theorem Becomes.of_removes {t₀ : FileTree} {names : List String}
    (h : Becomes t₀ cwd directory place t now)
    (hnames : ∀ name ∈ names, Path.IsSegment (.ofText name))
    (hrun : perform cwd t (names.map fun name => .ok (.remove (directory.child name))) =
      (.ok (), t')) :
    Becomes t₀ cwd directory place t'
      (names.foldl (fun d name => d.setName (.ofText name) none) now) := by
  induction names generalizing t now with
  | nil =>
      cases hrun
      exact h
  | cons name names ih =>
      obtain ⟨t₁, hremove, hrun⟩ := perform_cons_eq_ok.mp hrun
      have hname := hnames name List.mem_cons_self
      obtain ⟨hfree, rfl⟩ := h.holds.remove?_child hname (elim_eq_ok.mp hremove)
      have hgone := h.setNone hname hfree
      exact ih hgone (fun name' hname' => hnames name' (List.mem_cons_of_mem _ hname')) hrun

theorem Becomes.of_writes {t₀ : FileTree} {files : List (String × ByteArray)}
    (h : Becomes t₀ cwd directory place t now)
    (hnames : ∀ f ∈ files, Path.IsSegment (.ofText f.1))
    (hrun : perform cwd t (files.flatMap fun f => writeWhole (directory.child f.1) f.2) =
      (.ok (), t')) :
    (∀ f ∈ files, directory.Admits f.1) ∧
      Becomes t₀ cwd directory place t' (files.foldl putWhole now) := by
  induction files generalizing t now with
  | nil =>
      cases hrun
      exact ⟨nofun, h⟩
  | cons f files ih =>
      rw [List.flatMap_cons, perform_append_eq_ok] at hrun
      obtain ⟨t₁, hfirst, hrun⟩ := hrun
      obtain ⟨hadmits, hwritten⟩ := h.of_writeWhole (hnames f List.mem_cons_self) hfirst
      obtain ⟨hrest, hall⟩ :=
        ih hwritten (fun f' hf' => hnames f' (List.mem_cons_of_mem _ hf')) hrun
      exact ⟨List.forall_mem_cons.mpr ⟨hadmits, hrest⟩, hall⟩

theorem mem_foldl_setName_none {names : List String} {d : Directory} {x : FileName × Entry}
    (h : x ∈ names.foldl (fun d name => d.setName (.ofText name) none) d) :
    x ∈ d ∧ ∀ name ∈ names, x.1 ≠ .ofText name := by
  induction names generalizing d with
  | nil => exact ⟨h, nofun⟩
  | cons name names ih =>
      obtain ⟨hmem, hnot⟩ := ih h
      obtain ⟨hmem, hne⟩ := List.mem_filter.mp hmem
      exact ⟨hmem, List.forall_mem_cons.mpr ⟨by simpa using hne, hnot⟩⟩

theorem lookup_foldl_setName_none {names : List String} {d : Directory}
    (hfile : file.text? = none) :
    (names.foldl (fun d name => d.setName (.ofText name) none) d).lookup file = d.lookup file := by
  induction names generalizing d with
  | nil => rfl
  | cons name names ih =>
      rw [List.foldl_cons, ih, Directory.lookup_setName, beq_false_of_ne (ne_ofText hfile name)]
      rfl

theorem mem_foldl_putWhole {files : List (String × ByteArray)} {d : Directory}
    {x : FileName × Entry} (h : x ∈ files.foldl putWhole d) :
    (∃ f ∈ files, x.1 = .ofText f.1) ∨ x ∈ d := by
  induction files generalizing d with
  | nil => exact .inr h
  | cons f files ih =>
      rcases ih h with ⟨f', hf', heq⟩ | hmem
      · exact .inl ⟨f', List.mem_cons_of_mem _ hf', heq⟩
      · rcases mem_putWhole hmem with heq | hmem
        · exact .inl ⟨f, List.mem_cons_self, heq⟩
        · exact .inr hmem

theorem lookup_foldl_putWhole_of_ne {files : List (String × ByteArray)} {d : Directory}
    (htemporary : ∀ f ∈ files, file ≠ .ofText (temporaryMark ++ f.1))
    (h : ∀ f ∈ files, file ≠ .ofText f.1) :
    (files.foldl putWhole d).lookup file = d.lookup file := by
  induction files generalizing d with
  | nil => rfl
  | cons f files ih =>
      obtain ⟨hfirst, hrest⟩ := List.forall_mem_cons.mp h
      obtain ⟨hfirst', hrest'⟩ := List.forall_mem_cons.mp htemporary
      rw [List.foldl_cons, ih hrest' hrest, lookup_putWhole d f hfirst', beq_false_of_ne hfirst]
      rfl

theorem lookup_foldl_putWhole {files : List (String × ByteArray)} {d : Directory}
    (hname : isTemporary name = false) (hnodup : (files.map Prod.fst).Nodup)
    (h : (name, content) ∈ files) :
    (files.foldl putWhole d).lookup (.ofText name) = some (.file content) := by
  induction files generalizing d with
  | nil => cases h
  | cons f files ih =>
      obtain ⟨hnot, hnodup⟩ := List.nodup_cons.mp hnodup
      rcases List.mem_cons.mp h with rfl | h
      · have hne : ∀ f ∈ files, FileName.ofText name ≠ .ofText f.1 := fun f hf =>
          FileName.ofText_ne fun heq => hnot (List.mem_map.mpr ⟨f, hf, heq.symm⟩)
        rw [List.foldl_cons, lookup_foldl_putWhole_of_ne (fun f _ => ne_temporary hname f.1) hne,
          lookup_putWhole d _ (ne_temporary hname name), if_pos BEq.rfl]
      · exact ih hnodup h

/-! ## Reports -/

/-- A name under which an artifact can be kept: that of a file in the directory itself which is
neither metadata nor temporary. -/
structure IsFileName (name : String) : Prop where
  isSegment : Path.IsSegment name
  not_metadata : isMetadata name = false
  not_temporary : isTemporary name = false

theorem isFileName_of_isArtifactName (h : isArtifactName name = true) : IsFileName name :=
  ⟨isSegment_of_isArtifactName h, isMetadata_of_isArtifactName h, isTemporary_of_isArtifactName h⟩

theorem isMetadata_eq_true : isMetadata name = true ↔ name = manifestFile ∨ name = digestFile := by
  simp [isMetadata]

theorem isTemporary_manifestFile : isTemporary manifestFile = false := by decide

theorem isTemporary_digestFile : isTemporary digestFile = false := by decide

theorem isSome_contentOf? (r : Report) (name : String) :
    (contentOf? r name).isSome = (r.artifacts.contains name || isMetadata name) := by
  cases hmetadata : isMetadata name with
  | true =>
      rw [Bool.or_true]
      rcases isMetadata_eq_true.mp hmetadata with rfl | rfl
      · rw [contentOf?_manifestFile, Option.isSome_some]
      · rw [contentOf?_digestFile, Option.isSome_some]
  | false =>
      rw [contentOf?_of_not_metadata hmetadata, Option.isSome_map, Bool.or_false]
      rfl

theorem mem_staleFiles {present : List String} :
    name ∈ staleFiles r present ↔ name ∈ present ∧ ¬ (contentOf? r name).isSome = true := by
  rw [staleFiles, List.mem_filter, isSome_contentOf?, ← Bool.not_or, Bool.not_eq_true',
    Bool.not_eq_true]

section

variable (hsound : r.IsSound) (hnames : ∀ a ∈ r.artifacts.values, IsFileName a.name)

include hsound hnames

theorem nodup_names_filesOf : ((filesOf r).map Prod.fst).Nodup := by
  have heq : (filesOf r).map Prod.fst = r.artifacts.keys ++ [manifestFile, digestFile] := by
    rw [← hsound.names_values]
    simp [filesOf, Function.comp_def]
  rw [heq, List.nodup_append]
  refine ⟨r.artifacts.nodup_keys, by decide, fun name hname name' hname' => ?_⟩
  rw [← hsound.names_values] at hname
  obtain ⟨a, ha, rfl⟩ := List.mem_map.mp hname
  have hmetadata : isMetadata name' = true := isMetadata_eq_true.mpr (by simpa using hname')
  rintro rfl
  exact absurd hmetadata (by simp [(hnames a ha).not_metadata])

theorem mem_filesOf_iff : (name, content) ∈ filesOf r ↔ contentOf? r name = some content := by
  rw [filesOf, List.mem_append, List.mem_map]
  constructor
  · rintro (⟨a, ha, heq⟩ | hmem)
    · cases heq
      exact contentOf?_of_get? (hsound.get?_of_mem_values ha) (hnames a ha).not_metadata
    · rcases List.mem_pair.mp hmem with heq | heq <;> cases heq
      · exact contentOf?_manifestFile r
      · exact contentOf?_digestFile r
  · intro h
    cases hmetadata : isMetadata name with
    | true =>
        refine .inr (List.mem_pair.mpr ?_)
        rcases isMetadata_eq_true.mp hmetadata with rfl | rfl
        · exact .inl (by cases (contentOf?_manifestFile r).symm.trans h; rfl)
        · exact .inr (by cases (contentOf?_digestFile r).symm.trans h; rfl)
    | false =>
        obtain ⟨a, ha, rfl⟩ := exists_get?_of_contentOf? h hmetadata
        exact .inl ⟨a, OrderedMap.mem_values_iff.mpr ⟨name, ha⟩, by rw [hsound.name_eq ha]⟩

omit hsound in
theorem isSegment_of_mem_filesOf {f : String × ByteArray} (hf : f ∈ filesOf r) :
    Path.IsSegment f.1 ∧ isTemporary f.1 = false := by
  rcases List.mem_append.mp hf with hmem | hmem
  · obtain ⟨a, ha, rfl⟩ := List.mem_map.mp hmem
    exact ⟨(hnames a ha).isSegment, (hnames a ha).not_temporary⟩
  · rcases List.mem_pair.mp hmem with rfl | rfl
    · exact ⟨isSegment_manifestFile, isTemporary_manifestFile⟩
    · exact ⟨isSegment_digestFile, isTemporary_digestFile⟩

end

/-! ## Whole writes -/

theorem write_eq_ok (h : write t cwd directory r = (.ok (), t')) :
    ∃ t₁ present, t.makeDirectory cwd directory = (t₁, true) ∧
      files? t₁ cwd directory = some present ∧
      perform cwd t₁ (writeSteps r directory present) = (.ok (), t') := by
  rw [write] at h
  split at h
  · cases h
  · rename_i t₁ hmade
    split at h
    · cases h
    · rename_i present hpresent
      obtain ⟨hresult, htree⟩ := Prod.mk.inj h
      exact ⟨t₁, present, hmade, hpresent, Prod.ext (mapError_eq_ok.mp hresult) htree⟩

/-- A directory holds the files of a report and, temporary ones apart, no other ones whose names are
texts. The files with other names are those that were there before. -/
structure HasFilesOf (r : Report) (before now : Directory) : Prop where
  lookup {file : FileName} {content : ByteArray} :
    contentOf? r file = some content → now.lookup file = some (.file content)
  only {name : String} {content : ByteArray} : isTemporary name = false →
    (.ofText name, Entry.file content) ∈ now → (contentOf? r name).isSome = true
  kept {file : FileName} : file.text? = none → now.lookup file = before.lookup file

theorem HasFilesOf.lookup_iff (h : HasFilesOf r before now) (hfile : isTemporary file = false) :
    now.lookup file = some (.file content) ↔ contentOf? r file = some content ∨
      file.text? = none ∧ before.lookup file = some (.file content) := by
  constructor
  · intro hlookup
    cases htext : file.text? with
    | none => exact .inr ⟨rfl, (h.kept htext).symm.trans hlookup⟩
    | some name =>
        obtain rfl := FileName.text?_eq_some.mp htext
        obtain ⟨content', hcontent⟩ := Option.isSome_iff_exists.mp
          (h.only hfile (OrderedMap.mem_of_lookup_eq_some hlookup))
        cases hlookup.symm.trans (h.lookup hcontent)
        exact .inl hcontent
  · rintro (hcontent | ⟨htext, hlookup⟩)
    · exact h.lookup hcontent
    · exact (h.kept htext).trans hlookup

/-- The files of a report are put into a directory from which the stale ones were taken away. -/
theorem hasFilesOf_foldl {stale : List String} (hsound : r.IsSound)
    (hnames : ∀ a ∈ r.artifacts.values, IsFileName a.name)
    (hkept : ∀ name content, isTemporary (.ofText name) = false →
      (.ofText name, Entry.file content) ∈ before →
        name ∉ stale → (contentOf? r name).isSome = true) :
    HasFilesOf r before ((filesOf r).foldl putWhole
      (stale.foldl (fun d name => d.setName (.ofText name) none) before)) where
  lookup {file content} hcontent := by
    obtain ⟨name, rfl⟩ := exists_name_of_contentOf? hcontent
    have hf := (mem_filesOf_iff hsound hnames).mpr hcontent
    exact lookup_foldl_putWhole (isSegment_of_mem_filesOf hnames hf).2
      (nodup_names_filesOf hsound hnames) hf
  only {name content} hname hmem := by
    rcases mem_foldl_putWhole hmem with ⟨⟨name', content'⟩, hf, heq⟩ | hmem
    · obtain rfl := FileName.ofText_inj.mp heq
      exact Option.isSome_of_eq_some ((mem_filesOf_iff hsound hnames).mp hf)
    · obtain ⟨hmem, hnot⟩ := mem_foldl_setName_none hmem
      exact hkept name content hname hmem fun hstale => hnot name hstale rfl
  kept {file} htext := by
    rw [lookup_foldl_putWhole_of_ne (fun f _ => ne_ofText htext _) (fun f _ => ne_ofText htext _),
      lookup_foldl_setName_none htext]

/-- A write that goes through leaves the files of the report in the directory, whatever plain files
and directories were there, and no file elsewhere is touched. -/
theorem exists_becomes_of_write (hsound : r.IsSound)
    (hnames : ∀ a ∈ r.artifacts.values, IsFileName a.name)
    (hbefore : (t.makeDirectory cwd directory).1.HoldsUnlinked cwd directory place before)
    (h : write t cwd directory r = (.ok (), t')) :
    ∃ now, Becomes t cwd directory place t' now ∧ HasFilesOf r before now ∧
      ∀ (name : String) content, contentOf? r name = some content →
        t'.read? cwd (directory.child name) = some content := by
  obtain ⟨t₁, present, hmade, hpresent, hrun⟩ := write_eq_ok h
  rw [hmade] at hbefore
  have hlisted (name : String) : name ∈ present ↔
      isTemporary name = false ∧ ∃ content, (.ofText name, Entry.file content) ∈ before :=
    mem_present_iff hbefore hpresent
  have hstart : Becomes t cwd directory place t₁ before := by
    refine ⟨hbefore, fun {other} _ => ?_⟩
    simpa only [hmade] using FileTree.fileAt?_makeDirectory t cwd directory other
  rw [writeSteps_eq, perform_append_eq_ok] at hrun
  obtain ⟨t₂, hremoves, hwrites⟩ := hrun
  have hstale : ∀ name ∈ staleFiles r present, Path.IsSegment (.ofText name) := by
    intro name hname
    obtain ⟨-, content, hmem⟩ := (hlisted name).mp (mem_staleFiles.mp hname).1
    exact hbefore.isSegment _ hmem
  have hkept : ∀ name content, isTemporary (.ofText name) = false →
      (.ofText name, Entry.file content) ∈ before → name ∉ staleFiles r present →
        (contentOf? r name).isSome = true := by
    intro name content hname hmem hnot
    by_contra hother
    exact hnot (mem_staleFiles.mpr ⟨(hlisted name).mpr ⟨hname, content, hmem⟩, hother⟩)
  obtain ⟨hadmits, hwritten⟩ := (hstart.of_removes hstale hremoves).of_writes
    (fun f hf => (isSegment_of_mem_filesOf hnames hf).1) hwrites
  have hfiles := hasFilesOf_foldl hsound hnames hkept
  refine ⟨_, hwritten, hfiles, fun name content hcontent => ?_⟩
  have hf := (mem_filesOf_iff hsound hnames).mpr hcontent
  exact (hwritten.holds.read?_child_iff (isSegment_of_mem_filesOf hnames hf).1).mpr
    ⟨hadmits _ hf, hfiles.lookup hcontent⟩

/-! ## Names and places -/

/-- A built report whose artifacts have names of files is stored under these names, in the
directory itself, and no file or link outside of the directory is touched. -/
theorem stored_of_write {contents : List (String × ByteArray)}
    (hbuild : Report.build contents = .ok r)
    (hnames : ∀ a ∈ r.artifacts.values, IsFileName a.name)
    (hbefore : (t.makeDirectory cwd directory).1.HoldsUnlinked cwd directory place before)
    (hwrite : write t cwd directory r = (.ok (), t')) :
    (∀ a ∈ r.artifacts.values,
      t'.fileAt? (place ++ [.ofText a.name]) = some (.file a.content)) ∧
      ∀ other, ¬ place <+: other → t'.fileAt? other = t.fileAt? other := by
  have hsound := Report.isSound_of_build hbuild
  obtain ⟨now, hbecomes, hfiles, -⟩ := exists_becomes_of_write hsound hnames hbefore hwrite
  refine ⟨fun a ha => ?_, fun other => hbecomes.outside⟩
  have hcontent := contentOf?_of_get? (hsound.get?_of_mem_values ha) (hnames a ha).not_metadata
  have hentry : t'.entry? (place ++ [.ofText a.name]) = some (.file a.content) :=
    hbecomes.holds.entry?_child.trans (hfiles.lookup hcontent)
  rw [FileTree.fileAt?, hentry]

/-- A report is written to a directory that is not there yet, beside a file. -/
theorem stored_of_write_new :
    ∃ t t' r, t = FileTree.mk [("notes.txt", .file "kept".toUTF8)] ∧
      Report.build [("plan.json", "[1]".toUTF8)] = .ok r ∧
      write t [] ⟨false, ["out"]⟩ r = (.ok (), t') ∧
      t'.fileAt? ["out", "plan.json"] = some (.file "[1]".toUTF8) ∧
      t'.fileAt? ["notes.txt"] = some (.file "kept".toUTF8) := by
  obtain ⟨r, hr, hvalues, hnames⟩ := exists_build_sample
  have hempty : ((FileTree.mk [("notes.txt", .file "kept".toUTF8)]).makeDirectory []
      ⟨false, ["out"]⟩).1.HoldsUnlinked [] ⟨false, ["out"]⟩ ["out"] [] :=
    ⟨by decide +kernel, by decide +kernel, nofun, nofun⟩
  have hrun : (write ⟨[("notes.txt", .file "kept".toUTF8)]⟩ [] ⟨false, ["out"]⟩ r).1.toBool =
      true := by
    cases hr
    decide +kernel
  have hwrite := eq_ok_of_toBool hrun
  obtain ⟨hstored, houtside⟩ :=
    stored_of_write hr (fun a ha => isFileName_of_isArtifactName (hnames a ha)) hempty hwrite
  refine ⟨_, _, r, rfl, hr, hwrite, hstored (.ofContent "plan.json" "[1]".toUTF8) ?_, ?_⟩
  · rw [hvalues]
    exact List.mem_singleton_self _
  · exact houtside ["notes.txt"] (by decide)

/-- An artifact whose name leads out of the directory is put there: the directory has no file of
it, and outside there is a new one. -/
theorem exists_write_outside :
    ∃ t t' r, t = FileTree.mk [("out", .directory [])] ∧
      t.resolve [] true ⟨false, ["out"]⟩ = some [.ofText "out"] ∧
      Report.build [("../plan.json", "[1]".toUTF8)] = .ok r ∧
      write t [] ⟨false, ["out"]⟩ r = (.ok (), t') ∧
      files? t' [] ⟨false, ["out"]⟩ = some [digestFile, manifestFile] ∧
      t'.fileAt? ["out", "../plan.json"] = none ∧
      t.fileAt? ["plan.json"] = none ∧ t'.fileAt? ["plan.json"] = some (.file "[1]".toUTF8) := by
  obtain ⟨r, hr⟩ : ∃ r, Report.build [("../plan.json", "[1]".toUTF8)] = .ok r := ⟨_, rfl⟩
  obtain ⟨t', ht'⟩ : ∃ t', t' = (write ⟨[("out", .directory [])]⟩ [] ⟨false, ["out"]⟩ r).2 :=
    ⟨_, rfl⟩
  have hrun : (write ⟨[("out", .directory [])]⟩ [] ⟨false, ["out"]⟩ r).1.toBool = true := by
    cases hr
    decide +kernel
  have hleft : files? t' [] ⟨false, ["out"]⟩ = some [digestFile, manifestFile] ∧
      t'.fileAt? ["out", "../plan.json"] = none ∧
      t'.fileAt? ["plan.json"] = some (.file "[1]".toUTF8) := by
    cases hr
    rw [ht']
    decide +kernel
  have hwrite := eq_ok_of_toBool hrun
  rw [← ht'] at hwrite
  exact ⟨_, t', r, rfl, by decide +kernel, hr, hwrite, hleft.1, hleft.2.1, by decide, hleft.2.2⟩

end TaskNetwork.ReportDirectory
