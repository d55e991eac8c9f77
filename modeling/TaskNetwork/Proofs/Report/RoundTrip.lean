import TaskNetwork.Proofs.Report.Written
import TaskNetwork.Proofs.Storage.MakeDirectory
import TaskNetwork.Proofs.Text

/-!
# Writing and reading back

What a finished write leaves is read back as the report that was written. The reader finds each
hash in the manifest as it was written, the digest without blanks around it, and no file too many.
A file whose name is no text is no file too many, though it is not the report's: the writer passes
it over, and so does the reader.
-/

namespace TaskNetwork.ReportDirectory

variable {t t' : FileTree} {cwd place : FileTree.Place} {directory : Path}
  {before now : Directory} {contents : List (String × ByteArray)} {r : Report}

/-! ## Reading what was written -/

section

variable (hsound : r.IsSound) (hnames : ∀ a ∈ r.artifacts.values, isArtifactName a.name = true)
  (h : t.HoldsUnlinked cwd directory place now) (hfiles : HasFilesOf r before now)
  (hread : ∀ (name : String) content, contentOf? r name = some content →
    t.read? cwd (directory.child name) = some content)

include hsound hnames hread in
theorem readArtifact_eq {a : Artifact} (ha : a ∈ r.artifacts.values) :
    readArtifact t cwd directory ⟨a.name, a.contentHash.text⟩ = .ok a := by
  have hget := hsound.get?_of_mem_values ha
  have hname := hnames a ha
  have hparse : ContentHash.parse? a.contentHash.text = some a.contentHash := by
    rw [hsound.artifact_eq hget]
    exact Subject.parse?_text_hash _ _
  have hcontent := hread _ _ (contentOf?_of_get? hget (isMetadata_of_isArtifactName hname))
  simp only [readArtifact, hname, hparse, hcontent, Bool.not_true, Bool.false_eq_true, if_false]

include h hfiles in
theorem checkFiles_eq_ok : checkFiles t cwd directory r.artifacts = .ok () := by
  obtain ⟨present, hpresent, hlisted⟩ := exists_files? h
  have hfind : present.find? (fun name => !r.artifacts.contains name && !isMetadata name) =
      none := by
    refine List.find?_eq_none.mpr fun name hname => ?_
    obtain ⟨htemporary, content, hmem⟩ := (hlisted name).mp hname
    have hsome := hfiles.only htemporary hmem
    rw [isSome_contentOf?] at hsome
    rw [← Bool.not_or, hsome]
    exact Bool.false_ne_true
  rw [checkFiles, hpresent]
  dsimp only
  rw [hfind]

include hsound hnames h hfiles hread in
/-- The files of a report are read as the report. -/
theorem read_eq_ok : read t cwd directory = .ok r := by
  have hmanifest : readManifest r.manifest = .ok (Report.manifestOf r.artifacts) := by
    simp only [readManifest, hsound.parse_manifest]
    exact if_pos rfl
  have hartifacts : (Report.manifestOf r.artifacts).artifacts.mapM (readArtifact t cwd directory) =
      .ok r.artifacts.values :=
    mapM_map_eq_ok fun a ha => readArtifact_eq hsound hnames hread ha
  have hdigest : Text.trim (Text.decodeLenient r.digest.text.toUTF8) = r.digest.text := by
    rw [hsound.digest_eq]
    exact Text.trim_decodeLenient fun c hc => (Subject.text_hash_ascii _ _ c hc).2
  refine bind_eq_ok.mpr ⟨_, elim_eq_ok.mpr (hread _ _ (contentOf?_manifestFile r)),
    bind_eq_ok.mpr ⟨_, elim_eq_ok.mpr (hread _ _ (contentOf?_digestFile r)),
    bind_eq_ok.mpr ⟨_, hmanifest, bind_eq_ok.mpr ⟨_, hartifacts, ?_⟩⟩⟩⟩
  dsimp only
  rw [hsound.ofList_values, checkFiles_eq_ok h hfiles, hdigest, ← hsound.digest_eq]
  exact if_pos rfl

end

theorem exists_holds_of_write (hbuild : Report.build contents = .ok r)
    (hnames : ∀ a ∈ r.artifacts.values, isArtifactName a.name = true)
    (hbefore : (t.makeDirectory cwd directory).1.HoldsUnlinked cwd directory place before)
    (hwrite : write t cwd directory r = (.ok (), t')) :
    read t' cwd directory = .ok r ∧
      ∃ now, t'.HoldsUnlinked cwd directory place now ∧ HasFilesOf r before now := by
  have hsound := Report.isSound_of_build hbuild
  have hfileNames : ∀ a ∈ r.artifacts.values, IsFileName a.name :=
    fun a ha => isFileName_of_isArtifactName (hnames a ha)
  obtain ⟨now, hbecomes, hfiles, hread⟩ :=
    exists_becomes_of_write hsound hfileNames hbefore hwrite
  exact ⟨read_eq_ok hsound hnames hbecomes.holds hfiles hread, now, hbecomes.holds, hfiles⟩

/-- A report that is written over any plain files and directories is read back. The plain files that
are then in the directory, temporary ones apart, are those of the report, and the ones from before
whose names are no texts. -/
theorem read_of_write (hbuild : Report.build contents = .ok r)
    (hnames : ∀ a ∈ r.artifacts.values, isArtifactName a.name = true)
    (hbefore : (t.makeDirectory cwd directory).1.HoldsUnlinked cwd directory place before)
    (hwrite : write t cwd directory r = (.ok (), t')) :
    read t' cwd directory = .ok r ∧
      ∃ now, t'.HoldsUnlinked cwd directory place now ∧
        ∀ file content, isTemporary file = false →
          (now.lookup file = some (.file content) ↔ contentOf? r file = some content ∨
            file.text? = none ∧ before.lookup file = some (.file content)) := by
  obtain ⟨hread, now, hholds, hfiles⟩ := exists_holds_of_write hbuild hnames hbefore hwrite
  exact ⟨hread, now, hholds, fun file content => hfiles.lookup_iff⟩

/-- A name that is no text: one of its bytes starts no character. -/
def noText : FileName := ⟨"stale".toUTF8.data.toList ++ 0xff :: ".json".toUTF8.data.toList⟩

/-- What may be found where a report is to be written: a file of a write that broke off, an older
plan, an older manifest, a file that no report knows, a directory, and a file whose name is no
text. -/
def leftovers : Directory :=
  [(".tmp_plan.json", .file "[".toUTF8), ("drafts", .directory []),
    ("notes.txt", .file "undeclared".toUTF8), ("plan.json", .file "[2]".toUTF8),
    (manifestFile, .file "\x7b\x7d".toUTF8), (noText, .file "stale".toUTF8),
    ("trace.json", .file "[]".toUTF8)]

theorem holdsUnlinked_leftovers :
    (FileTree.mk [("out", .directory leftovers)]).HoldsUnlinked [] ⟨false, ["out"]⟩ ["out"]
      leftovers where
  leads := by decide +kernel
  entry := rfl
  isSegment := by decide +kernel
  unlinked := by simp [leftovers]

/-- A report is written over all this and read back. Its plan stands in the place of the older one,
the file that no report knows is gone, and the one whose name is no text is still there. -/
theorem read_of_write_leftovers :
    ∃ t t' r, t = FileTree.mk [("out", .directory leftovers)] ∧
      Report.build [("plan.json", "[1]".toUTF8)] = .ok r ∧
      write t [] ⟨false, ["out"]⟩ r = (.ok (), t') ∧ read t' [] ⟨false, ["out"]⟩ = .ok r ∧
      ∃ now, t'.HoldsUnlinked [] ⟨false, ["out"]⟩ ["out"] now ∧
        now.lookup (.ofText "plan.json") = some (.file "[1]".toUTF8) ∧
        (∀ content, now.lookup (.ofText "notes.txt") ≠ some (.file content)) ∧
        now.lookup noText = some (.file "stale".toUTF8) := by
  obtain ⟨r, hr, -, hnames⟩ := exists_build_sample
  have hbefore : ((FileTree.mk [("out", .directory leftovers)]).makeDirectory []
      ⟨false, ["out"]⟩).1.HoldsUnlinked [] ⟨false, ["out"]⟩ ["out"] leftovers := by
    rw [FileTree.makeDirectory_of_isDirectory (by decide +kernel)]
    exact holdsUnlinked_leftovers
  have hrun : (write ⟨[("out", .directory leftovers)]⟩ [] ⟨false, ["out"]⟩ r).1.toBool = true := by
    cases hr
    decide +kernel
  have hplan : contentOf? r "plan.json" = some "[1]".toUTF8 := by
    cases hr
    decide +kernel
  have hnotes : contentOf? r "notes.txt" = none := by
    cases hr
    decide +kernel
  have hwrite := eq_ok_of_toBool hrun
  obtain ⟨hread, now, hnow, hfiles⟩ := read_of_write hr hnames hbefore hwrite
  refine ⟨_, _, r, rfl, hr, hwrite, hread, now, hnow, ?_, fun content hlookup => ?_, ?_⟩
  · exact (hfiles _ _ (by decide +kernel)).mpr (.inl hplan)
  · rcases (hfiles _ _ (by decide +kernel)).mp hlookup with hcontent | ⟨htext, -⟩
    · cases hnotes.symm.trans hcontent
    · cases (FileName.text?_ofText "notes.txt").symm.trans htext
  · exact (hfiles noText _ (by decide +kernel)).mpr
      (.inr ⟨by decide +kernel, by decide +kernel⟩)

/-- A file whose name is no text is neither removed nor refused: the report is written beside it and
read back, and the file is still there, though it is not one of the report. -/
theorem exists_file_kept :
    ∃ t t' r content, t = FileTree.mk [("out", .directory [(noText, .file content)])] ∧
      Report.build [("plan.json", "[1]".toUTF8)] = .ok r ∧
      write t [] ⟨false, ["out"]⟩ r = (.ok (), t') ∧ read t' [] ⟨false, ["out"]⟩ = .ok r ∧
      isTemporary noText = false ∧ contentOf? r noText = none ∧
      t'.entry? ["out", noText] = some (.file content) := by
  obtain ⟨r, hr, -, hnames⟩ := exists_build_sample
  have htext : noText.text? = none := by decide +kernel
  have hbefore : ((FileTree.mk [("out", .directory [(noText, .file "stale".toUTF8)])]).makeDirectory
      [] ⟨false, ["out"]⟩).1.HoldsUnlinked [] ⟨false, ["out"]⟩ ["out"]
        [(noText, .file "stale".toUTF8)] := by
    rw [FileTree.makeDirectory_of_isDirectory (by decide +kernel)]
    exact ⟨by decide +kernel, rfl, by decide +kernel, by simp⟩
  have hrun : (write ⟨[("out", .directory [(noText, .file "stale".toUTF8)])]⟩ []
      ⟨false, ["out"]⟩ r).1.toBool = true := by
    cases hr
    decide +kernel
  have hwrite := eq_ok_of_toBool hrun
  obtain ⟨hread, now, hnow, hfiles⟩ := exists_holds_of_write hr hnames hbefore hwrite
  refine ⟨_, _, r, "stale".toUTF8, rfl, hr, hwrite, hread, by decide +kernel, ?_, ?_⟩
  · rw [contentOf?, htext, Option.bind_none]
  · have hkept : now.lookup noText = some (.file "stale".toUTF8) :=
      (hfiles.kept htext).trans (by decide +kernel)
    exact hnow.entry?_child.trans hkept

end TaskNetwork.ReportDirectory
