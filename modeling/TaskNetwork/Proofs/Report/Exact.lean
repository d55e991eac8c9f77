import TaskNetwork.Proofs.Report.Written
import TaskNetwork.Proofs.Text

/-!
# What a verified directory holds

A directory of names that are texts, if it verifies, holds the files that a write of its report
makes in an empty directory, name for name and byte for byte. Only around the digest it may have
blanks.
-/

namespace TaskNetwork

/-! ## Paths with a name at their end -/

/-- A path whose last segment names what it leads to. -/
def Path.EndsNamed (p : Path) : Prop := p.segments ≠ [] ∧ p.leadingSegments = p.segments

theorem Path.parent?_child {p : Path} {name : String} (hp : p.EndsNamed)
    (hname : Path.IsSegment name) : (p.child name).parent? = some p := by
  obtain ⟨hne, hleading⟩ := hp
  obtain ⟨q, ⟨habsolute, hsame⟩, hchild⟩ := exists_child_eq (p := p) hname
  have hq : leadingSegments ⟨q.absolute, q.segments⟩ = p.segments := by
    rw [← hleading, leadingSegments_eq, leadingSegments_eq, hsame]
  rw [hchild, parent?, leadingSegments_concat hname]
  split
  · rename_i hnil
    exact absurd hnil (List.concat_ne_nil _ q.segments)
  · rw [List.dropLast_concat, hq]
    split
    · exact absurd ‹_› hne
    · rw [habsolute]

namespace ReportDirectory

variable {t t' : FileTree} {cwd place : FileTree.Place} {directory : Path}
  {entries now : Directory} {file : FileName} {name : String} {content : ByteArray} {r : Report}

/-! ## Files of a verified directory -/

theorem IsReadFrom.lookup_ofText_iff (hr : IsReadFrom t cwd directory r)
    (h : t.HoldsUnlinked cwd directory place entries) (htemporary : isTemporary name = false)
    (hdigest : name ≠ digestFile) :
    entries.lookup (.ofText name) = some (.file content) ↔ contentOf? r name = some content := by
  cases hmetadata : isMetadata name with
  | true =>
      obtain rfl : name = manifestFile := (isMetadata_eq_true.mp hmetadata).resolve_right hdigest
      have hlookup := ((h.read?_child_iff isSegment_manifestFile).mp hr.manifest).2
      rw [hlookup, contentOf?_manifestFile]
      simp
  | false =>
      constructor
      · intro hlookup
        obtain ⟨a, ha, hcontent⟩ := hr.exists_artifact h hlookup htemporary hmetadata
        rw [contentOf?_of_get? ha hmetadata, hcontent]
      · intro hcontent
        obtain ⟨a, ha, rfl⟩ := exists_get?_of_contentOf? hcontent hmetadata
        exact ((h.read?_child_iff (isSegment_of_isArtifactName (hr.isName ha))).mp
          (hr.content ha)).2

/-- Each file of a directory that is read holds what the report puts there. -/
theorem IsReadFrom.lookup_iff (hr : IsReadFrom t cwd directory r)
    (h : t.HoldsUnlinked cwd directory place entries)
    (htexts : ∀ e ∈ entries, e.1.text?.isSome = true) (htemporary : isTemporary file = false)
    (hdigest : file ≠ digestFile) :
    entries.lookup file = some (.file content) ↔ contentOf? r file = some content := by
  cases htext : file.text? with
  | some name =>
      obtain rfl := FileName.text?_eq_some.mp htext
      exact hr.lookup_ofText_iff h htemporary fun heq => hdigest (congrArg FileName.ofText heq)
  | none =>
      refine iff_of_false (fun hlookup => ?_) fun hcontent => ?_
      · have hsome := htexts _ (OrderedMap.mem_of_lookup_eq_some hlookup)
        rw [htext] at hsome
        cases hsome
      · rw [contentOf?, htext] at hcontent
        cases hcontent

theorem IsReadFrom.exists_padded (hr : IsReadFrom t cwd directory r) (hsound : r.IsSound)
    (h : t.HoldsUnlinked cwd directory place entries) :
    ∃ stored, entries.lookup (.ofText digestFile) = some (.file stored) ∧
      Text.IsPadded r.digest.text stored := by
  obtain ⟨stored, hread, htrim⟩ := hr.digest
  refine ⟨stored, ((h.read?_child_iff isSegment_digestFile).mp hread).2, ?_⟩
  refine Text.isPadded_of_trim (fun c hc => ?_) htrim
  rw [hsound.digest_eq] at hc
  exact (Subject.text_hash_ascii _ _ c hc).1

/-! ## Writes that go through -/

theorem exists_perform_writeWhole (h : t.Holds cwd directory place now)
    (hdirectory : directory.EndsNamed) (hname : Path.IsSegment name)
    (hadmits : directory.Admits name ∧ directory.Admits (temporaryMark ++ name)) :
    ∃ t' now', perform cwd t (writeWhole (directory.child name) content) = (.ok (), t') ∧
      t'.Holds cwd directory place now' := by
  have htemporary := isSegment_temporary hname
  have hwritten := h.setFile htemporary content
  have hwrite : t.write? cwd (directory.child (temporaryMark ++ name)) content = some _ :=
    (h.unlinked.write?_child_iff ⟨rfl, rfl⟩ htemporary).mpr ⟨hadmits.2, h.not_directory, rfl⟩
  have hrename : FileTree.rename? _ cwd (directory.child (temporaryMark ++ name))
      (directory.child name) = some _ :=
    (hwritten.unlinked.rename?_child_iff ⟨rfl, rfl⟩ htemporary hname).mpr
      ⟨hadmits.2, hadmits.1, hwritten.not_directory, content,
        by rw [Directory.lookup_setName, if_pos BEq.rfl], rfl⟩
  refine ⟨_, _, ?_, (hwritten.setNone htemporary).setFile hname content⟩
  simp only [writeWhole, Path.fileName?_child hname, Path.parent?_child hdirectory hname,
    FileName.shown_ofText]
  exact perform_cons_eq_ok.mpr ⟨_, elim_eq_ok.mpr hwrite, perform_cons_eq_ok.mpr
    ⟨_, elim_eq_ok.mpr hrename, rfl⟩⟩

theorem exists_perform_writes {files : List (String × ByteArray)}
    (h : t.Holds cwd directory place now) (hdirectory : directory.EndsNamed)
    (hnames : ∀ f ∈ files, Path.IsSegment (.ofText f.1))
    (hadmits : ∀ f ∈ files, directory.Admits f.1 ∧ directory.Admits (temporaryMark ++ f.1)) :
    ∃ t', perform cwd t (files.flatMap fun f => writeWhole (directory.child f.1) f.2) =
      (.ok (), t') := by
  induction files generalizing t now with
  | nil => exact ⟨t, rfl⟩
  | cons f files ih =>
      obtain ⟨hname, hnames⟩ := List.forall_mem_cons.mp hnames
      obtain ⟨hfits, hadmits⟩ := List.forall_mem_cons.mp hadmits
      obtain ⟨t₁, now', hfirst, hholds⟩ : ∃ t₁ now',
          perform cwd t (writeWhole (directory.child f.1) f.2) = (.ok (), t₁) ∧
            t₁.Holds cwd directory place now' :=
        exists_perform_writeWhole h hdirectory hname hfits
      obtain ⟨t', hrest⟩ := ih hholds hnames hadmits
      exact ⟨t', by rw [List.flatMap_cons]; exact perform_append_eq_ok.mpr ⟨t₁, hfirst, hrest⟩⟩

/-- A report can be written to an empty directory whose path admits the names of its files. -/
theorem exists_write_of_admits (hmade : t.makeDirectory cwd directory = (t', true))
    (hempty : t'.Holds cwd directory place []) (hdirectory : directory.EndsNamed)
    (hnames : ∀ a ∈ r.artifacts.values, IsFileName a.name)
    (hadmits : ∀ f ∈ filesOf r,
      directory.Admits f.1 ∧ directory.Admits (temporaryMark ++ f.1)) :
    ∃ t'', write t cwd directory r = (.ok (), t'') := by
  have hpresent : files? t' cwd directory = some [] := by
    rw [files?, list?_eq_some hempty.unlinked]
    rfl
  obtain ⟨t'', hrun⟩ := exists_perform_writes hempty hdirectory
    (fun f hf => (isSegment_of_mem_filesOf hnames hf).1) hadmits
  refine ⟨t'', ?_⟩
  have hsteps : perform cwd t' (writeSteps r directory []) = (.ok (), t'') := by
    rw [writeSteps_eq]
    exact hrun
  rw [write, hmade]
  dsimp only
  rw [hpresent]
  dsimp only
  rw [hsteps]
  rfl

/-! ## The same files -/

/-- A directory holds the same files as another one that was written, temporary ones apart; around
the digest it may have blanks. -/
structure HasSameFiles (d written : Directory) : Prop where
  same {file : FileName} {content : ByteArray} : isTemporary file = false → file ≠ digestFile →
    (d.lookup file = some (.file content) ↔ written.lookup file = some (.file content))
  digest : ∃ text stored, written.lookup (.ofText digestFile) = some (.file text.toUTF8) ∧
    d.lookup (.ofText digestFile) = some (.file stored) ∧ Text.IsPadded text stored

/-- A directory of names that are texts, if it verifies, holds what its report says and no other
file: its manifest is the one of its artifacts, and a write of the report to an empty directory
makes the same files. That write goes through if names are not too long for it. -/
theorem files_of_verify (h : t.HoldsUnlinked cwd directory place entries)
    (htexts : ∀ e ∈ entries, e.1.text?.isSome = true)
    (hverify : verify t cwd directory = .ok r) :
    r.IsSound ∧
      (∀ file content, isTemporary file = false → file ≠ digestFile →
        (entries.lookup file = some (.file content) ↔ contentOf? r file = some content)) ∧
      (∃ stored, entries.lookup (.ofText digestFile) = some (.file stored) ∧
        Text.IsPadded r.digest.text stored) ∧
      ∀ (t₀ t₁ : FileTree) (cwd₀ place₀ : FileTree.Place) (empty : Path),
        t₀.makeDirectory cwd₀ empty = (t₁, true) → t₁.HoldsUnlinked cwd₀ empty place₀ [] →
          (∀ t₂, write t₀ cwd₀ empty r = (.ok (), t₂) →
            ∃ written, t₂.HoldsUnlinked cwd₀ empty place₀ written ∧
              HasSameFiles entries written) ∧
          (empty.EndsNamed → (∀ f ∈ filesOf r,
            empty.Admits f.1 ∧ empty.Admits (temporaryMark ++ f.1)) →
              ∃ t₂, write t₀ cwd₀ empty r = (.ok (), t₂)) := by
  obtain ⟨hread, hsound⟩ := verify_eq_ok hverify
  have hnames : ∀ a ∈ r.artifacts.values, IsFileName a.name := fun a ha =>
    isFileName_of_isArtifactName (hread.isName (hsound.get?_of_mem_values ha))
  obtain ⟨stored, hstored, hpadded⟩ := hread.exists_padded hsound h
  refine ⟨hsound,
    fun file content htemporary hdigest => hread.lookup_iff h htexts htemporary hdigest,
    ⟨stored, hstored, hpadded⟩, fun t₀ t₁ cwd₀ place₀ empty hmade hempty =>
    ⟨fun t₂ hwrite => ?_, fun hends hadmits => ?_⟩⟩
  · have hmade' : (t₀.makeDirectory cwd₀ empty).1.HoldsUnlinked cwd₀ empty place₀ [] := by
      rw [hmade]
      exact hempty
    obtain ⟨written, hbecomes, hfiles, -⟩ := exists_becomes_of_write hsound hnames hmade' hwrite
    refine ⟨written, hbecomes.holds, fun {file content} htemporary hdigest => ?_,
      r.digest.text, stored, hfiles.lookup (contentOf?_digestFile r), hstored, hpadded⟩
    rw [hread.lookup_iff h htexts htemporary hdigest, hfiles.lookup_iff htemporary]
    exact (or_iff_left fun hempty => nomatch hempty.2).symm
  · exact exists_write_of_admits hmade (.ofUnlinked hempty nofun) hends hnames hadmits

/-- The report of a directory is written to a new one. -/
theorem files_of_verify_sample :
    ∃ r t₂ written, verify sampleTree [] sampleDirectory = .ok r ∧
      write .empty [] ⟨false, ["copy"]⟩ r = (.ok (), t₂) ∧
      t₂.HoldsUnlinked [] ⟨false, ["copy"]⟩ ["copy"] written ∧
      HasSameFiles sampleFiles written := by
  obtain ⟨r, hverify, -⟩ := exists_verify_sample
  obtain ⟨hsound, hfiles, -, hcopy⟩ :=
    files_of_verify holds_sample.unlinked (by decide +kernel) hverify
  have hnames : ∀ a ∈ r.artifacts.values, IsFileName a.name := fun a ha =>
    isFileName_of_isArtifactName ((verify_eq_ok hverify).1.isName (hsound.get?_of_mem_values ha))
  have hmade : FileTree.empty.makeDirectory [] ⟨false, ["copy"]⟩ =
      (⟨[("copy", .directory [])]⟩, true) := by decide +kernel
  have hempty : (FileTree.mk [("copy", .directory [])]).HoldsUnlinked [] ⟨false, ["copy"]⟩
      ["copy"] [] := ⟨by decide +kernel, rfl, nofun, nofun⟩
  have hadmits : ∀ e ∈ sampleFiles, Path.Admits ⟨false, ["copy"]⟩ e.1.shown ∧
      Path.Admits ⟨false, ["copy"]⟩ (temporaryMark ++ e.1.shown) := by decide +kernel
  have hlisted (f : String × ByteArray) (hf : f ∈ filesOf r) :
      ∃ e ∈ sampleFiles, e.1 = .ofText f.1 := by
    by_cases hdigest : f.1 = digestFile
    · exact ⟨_, List.mem_cons_self, congrArg FileName.ofText hdigest.symm⟩
    · have hcontent := (mem_filesOf_iff hsound hnames).mp hf
      have htemporary := (isSegment_of_mem_filesOf hnames hf).2
      have hlookup := (hfiles _ f.2 htemporary (FileName.ofText_ne hdigest)).mpr hcontent
      exact ⟨_, OrderedMap.mem_of_lookup_eq_some hlookup, rfl⟩
  obtain ⟨hsame, hwrites⟩ := hcopy _ _ [] ["copy"] _ hmade hempty
  obtain ⟨t₂, hwrite⟩ := hwrites ⟨by decide, by decide⟩ fun f hf => by
    obtain ⟨e, he, hname⟩ := hlisted f hf
    have hfits := hadmits e he
    rwa [hname, FileName.shown_ofText] at hfits
  obtain ⟨written, hholds, hsameFiles⟩ := hsame t₂ hwrite
  exact ⟨r, t₂, written, hverify, hwrite, hholds, hsameFiles⟩

end ReportDirectory

end TaskNetwork
