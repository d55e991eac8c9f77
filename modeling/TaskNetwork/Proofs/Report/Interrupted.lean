import TaskNetwork.Proofs.Report.Written
import TaskNetwork.Proofs.Storage.MakeDirectory
import TaskNetwork.Report.Interrupted

/-!
# What an interrupted write leaves

A directory of plain files is a mixture at each moment of a write: under each name there is nothing,
or what was there before, or what the new report puts there. A report that verifies has the manifest
of the old report or of the new one, and with it all the rest.
-/

namespace TaskNetwork.ReportDirectory

variable {t t' : FileTree} {cwd place : FileTree.Place} {directory : Path}
  {before now : Directory} {file : FileName} {name : String} {content : ByteArray}
  {old new : Report}

/-! ## Mixtures -/

/-- Under each name, those of temporary files apart, there is nothing, or what was there before, or
what the new report puts there. -/
def IsMixture (new : Report) (before now : Directory) : Prop :=
  ∀ file, isTemporary file = false →
    now.lookup file = none ∨ now.lookup file = before.lookup file ∨
      ∃ content, contentOf? new file = some content ∧ now.lookup file = some (.file content)

theorem IsMixture.refl (new : Report) (before : Directory) : IsMixture new before before :=
  fun _ _ => .inr (.inl rfl)

theorem IsMixture.setName {e : Option Entry} (h : IsMixture new before now)
    (he : isTemporary file = false → e = none ∨
      ∃ content, contentOf? new file = some content ∧ e = some (.file content)) :
    IsMixture new before (now.setName file e) := by
  intro file' hfile'
  rw [Directory.lookup_setName]
  split
  · rename_i heq
    rw [eq_of_beq heq] at hfile' ⊢
    exact (he hfile').imp_right .inr
  · exact h file' hfile'

/-! ## Steps -/

/-- A directory of plain files is a mixture. -/
def HoldsMixture (cwd : FileTree.Place) (directory : Path) (place : FileTree.Place) (new : Report)
    (before : Directory) (t : FileTree) : Prop :=
  ∃ now, t.Holds cwd directory place now ∧ IsMixture new before now

theorem keep_remove (hname : Path.IsSegment name) :
    Keep cwd (HoldsMixture cwd directory place new before)
      [.ok (.remove (directory.child name))] := by
  rintro t t' hleft ⟨now, hholds, hmixture⟩
  cases hleft with
  | stop => exact ⟨now, hholds, hmixture⟩
  | next happly hrest =>
      cases hrest
      exact ⟨_, hholds.remove? hname (elim_eq_ok.mp happly), hmixture.setName fun _ => .inl rfl⟩

theorem keep_writeWhole (hname : Path.IsSegment name)
    (hcontent : contentOf? new name = some content) :
    Keep cwd (HoldsMixture cwd directory place new before)
      (writeWhole (directory.child name) content) := by
  rintro t t' hleft ⟨now, hholds, hmixture⟩
  have htemporary := isSegment_temporary hname
  have hkept (e : Option Entry) :
      IsMixture new before (now.setName (.ofText (temporaryMark ++ name)) e) :=
    hmixture.setName fun h => by simp [isTemporary_temporary] at h
  obtain ⟨d, hsame, hsteps⟩ := exists_writeWhole_child directory hname content
  rw [hsteps] at hleft
  -- Up to the rename only the temporary file has changed; the rename moves what it holds by then.
  cases hleft with
  | stop => exact ⟨now, hholds, hmixture⟩
  | torn hwrite => exact ⟨_, hholds.write? hsame htemporary hwrite, hkept _⟩
  | next happly hrest =>
      have hwritten := hholds.write? hsame htemporary (elim_eq_ok.mp happly)
      cases hrest with
      | stop => exact ⟨_, hwritten, hkept _⟩
      | next happly hrest =>
          cases hrest
          obtain ⟨moved, hmoved, hrenamed⟩ :=
            hwritten.rename? hsame htemporary hname (elim_eq_ok.mp happly)
          rw [Directory.lookup_setName, if_pos BEq.rfl] at hmoved
          cases hmoved
          refine ⟨_, hrenamed, IsMixture.setName ?_ fun _ => .inr ⟨content, hcontent, rfl⟩⟩
          exact (hkept _).setName fun _ => .inl rfl

/-! ## Writes -/

theorem keep_writeSteps {present : List String} (hsound : new.IsSound)
    (hnames : ∀ a ∈ new.artifacts.values, isArtifactName a.name = true)
    (hpresent : ∀ name ∈ present, Path.IsSegment (.ofText name)) :
    Keep cwd (HoldsMixture cwd directory place new before) (writeSteps new directory present) := by
  rw [writeSteps, List.map_eq_flatMap]
  refine .append (.append (.append (.flatMap fun name hname => ?_) (.flatMap fun a ha => ?_)) ?_) ?_
  · exact keep_remove (hpresent name (List.mem_filter.mp hname).1)
  · have hname := hnames a ha
    exact keep_writeWhole (isSegment_of_isArtifactName hname)
      (contentOf?_of_get? (hsound.get?_of_mem_values ha) (isMetadata_of_isArtifactName hname))
  · exact keep_writeWhole isSegment_manifestFile (contentOf?_manifestFile new)
  · exact keep_writeWhole isSegment_digestFile (contentOf?_digestFile new)

/-- To make a directory that is there leaves it as it is. -/
theorem eq_of_makeDirectory {t₁ : FileTree} {ok : Bool} (h : t.Holds cwd directory place before)
    (hmade : t.makeDirectory cwd directory = (t₁, ok)) : t₁ = t := by
  have hdir := FileTree.isDirectory_eq_true.mpr
    ⟨place, h.leads, FileTree.passage_eq_directory.mpr ⟨before, h.entry⟩⟩
  have hsame := FileTree.makeDirectory_of_isDirectory hdir
  rwa [hmade] at hsame

theorem holdsMixture_of_writeLeaves (hsound : new.IsSound)
    (hnames : ∀ a ∈ new.artifacts.values, isArtifactName a.name = true)
    (h : t.Holds cwd directory place before) (hleft : WriteLeaves cwd directory new t t') :
    HoldsMixture cwd directory place new before t' := by
  have hstart : HoldsMixture cwd directory place new before t := ⟨before, h, .refl new before⟩
  cases hleft with
  | start => exact hstart
  | made hmade =>
      rw [eq_of_makeDirectory h hmade]
      exact hstart
  | steps hmade hpresent hleft =>
      obtain rfl := eq_of_makeDirectory h hmade
      refine keep_writeSteps hsound hnames (fun name hname => ?_) hleft hstart
      obtain ⟨-, content, hmem⟩ := (mem_present_iff h.unlinked hpresent).mp hname
      exact h.isSegment _ hmem

/-! ## Reports in mixtures -/

/-- A message of a report in a mixture is one of the old report or of the new one. -/
theorem messages_subset {r : Report} (hold : IsReadFrom t cwd directory old)
    (hr : IsReadFrom t' cwd directory r) (h : t.Holds cwd directory place before)
    (h' : t'.Holds cwd directory place now) (hmixture : IsMixture new before now) :
    r.messages ⊆ old.messages ++ new.messages := by
  intro message hmessage
  obtain ⟨a, ha, rfl⟩ := List.mem_map.mp hmessage
  obtain ⟨name, hget⟩ := OrderedMap.mem_values_iff.mp ha
  have hname := hr.isName hget
  have hmetadata := isMetadata_of_isArtifactName hname
  have hlookup := h'.lookup_of_read? (isSegment_of_isArtifactName hname) (hr.content hget)
  rw [List.mem_append]
  rcases hmixture name (isTemporary_of_isArtifactName hname) with hnone | hsame | hnew
  · rw [hnone] at hlookup
    cases hlookup
  · rw [hsame] at hlookup
    obtain ⟨b, hb, hcontent⟩ := hold.exists_artifact h.unlinked hlookup
      (isTemporary_of_isArtifactName hname) hmetadata
    exact .inl (hcontent ▸ Report.mem_messages hb)
  · obtain ⟨content, hcontent, hfile⟩ := hnew
    cases hlookup.symm.trans hfile
    obtain ⟨b, hb, heq⟩ := exists_get?_of_contentOf? hcontent hmetadata
    exact .inr (heq ▸ Report.mem_messages hb)

theorem manifest_eq_or {r : Report} (hold : IsReadFrom t cwd directory old)
    (hr : IsReadFrom t' cwd directory r) (h : t.Holds cwd directory place before)
    (h' : t'.Holds cwd directory place now) (hmixture : IsMixture new before now) :
    r.manifest = old.manifest ∨ r.manifest = new.manifest := by
  have hlookup := h'.lookup_of_read? isSegment_manifestFile hr.manifest
  have hbefore := h.lookup_of_read? isSegment_manifestFile hold.manifest
  rcases hmixture manifestFile (by decide) with hnone | hsame | ⟨content, hcontent, hfile⟩
  · rw [hnone] at hlookup
    cases hlookup
  · rw [hsame, hbefore] at hlookup
    exact .inl (Entry.file.inj (Option.some.inj hlookup)).symm
  · rw [hlookup] at hfile
    rw [contentOf?_manifestFile] at hcontent
    rw [Entry.file.inj (Option.some.inj hfile), Option.some.inj hcontent]
    exact .inr rfl

/-! ## Results -/

/-- Whatever the writing of a report leaves of a directory of plain files that held another one:
the directory is refused, or it holds the old report, or it holds the new one. -/
theorem verify_of_writeLeaves {contents : List (String × ByteArray)}
    (hholds : t.Holds cwd directory place before) (hold : verify t cwd directory = .ok old)
    (hnew : Report.build contents = .ok new)
    (hnames : ∀ a ∈ new.artifacts.values, isArtifactName a.name = true)
    (hfree : Sha256.IsCollisionFree (old.messages ++ new.messages))
    (hleft : WriteLeaves cwd directory new t t') :
    (∃ e, verify t' cwd directory = .error e) ∨ verify t' cwd directory = .ok old ∨
      verify t' cwd directory = .ok new := by
  have hsoundNew := Report.isSound_of_build hnew
  obtain ⟨hfrom, hsoundOld⟩ := verify_eq_ok hold
  obtain ⟨now, hnow, hmixture⟩ := holdsMixture_of_writeLeaves hsoundNew hnames hholds hleft
  cases hverify : verify t' cwd directory with
  | error e => exact .inl ⟨e, rfl⟩
  | ok r =>
      obtain ⟨hfrom', hsound⟩ := verify_eq_ok hverify
      have hmessages := messages_subset hfrom hfrom' hholds hnow hmixture
      rcases manifest_eq_or hfrom hfrom' hholds hnow hmixture with hmanifest | hmanifest
      · rw [hsound.eq_of_manifest_eq hsoundOld hfree hmessages (List.subset_append_left _ _)
          hmanifest]
        exact .inr (.inl rfl)
      · rw [hsound.eq_of_manifest_eq hsoundNew hfree hmessages (List.subset_append_right _ _)
          hmanifest]
        exact .inr (.inr rfl)

/-! ## A write that breaks off -/

/-- The write breaks off when the first artifact of the old report is removed, so that the directory
holds its manifest but no longer its trace. -/
theorem verify_of_writeLeaves_removed :
    ∃ t t' old new, verify t [] sampleDirectory = .ok old ∧
      Report.build [("plan.json", "[1]".toUTF8)] = .ok new ∧
      WriteLeaves [] sampleDirectory new t t' ∧
      t.entry? ["out", "trace.json"] = some (.file "[]".toUTF8) ∧
      t'.entry? ["out", "trace.json"] = none ∧
      t'.entry? ["out", .ofText manifestFile] = some (.file sampleManifest.toUTF8) ∧
      ((∃ e, verify t' [] sampleDirectory = .error e) ∨
        verify t' [] sampleDirectory = .ok old ∨ verify t' [] sampleDirectory = .ok new) := by
  obtain ⟨old, hold, hfree⟩ := exists_verify_sample
  have hfree : Sha256.IsCollisionFree
      (old.messages ++ [Subject.reportArtifact.message "[1]".toUTF8]) :=
    hfree.mono (List.subset_cons_self _ _)
  obtain ⟨new, hnew, hvalues, hnames⟩ := exists_build_sample
  have hmessages : new.messages = [Subject.reportArtifact.message "[1]".toUTF8] := by
    rw [Report.messages, hvalues]
    rfl
  have hmade : sampleTree.makeDirectory [] sampleDirectory = (sampleTree, true) :=
    Prod.ext (FileTree.makeDirectory_of_isDirectory (by decide +kernel)) (by decide +kernel)
  have hpresent : files? sampleTree [] sampleDirectory =
      some [digestFile, manifestFile, "trace.json", "verification.json"] := by
    decide +kernel
  obtain ⟨t', hremoved⟩ : ∃ t', sampleTree.remove? [] (sampleDirectory.child "trace.json") =
      some t' := Option.isSome_iff_exists.mp (by decide +kernel)
  obtain ⟨steps, hsteps⟩ : ∃ steps, writeSteps new sampleDirectory
      [digestFile, manifestFile, "trace.json", "verification.json"] =
        .ok (.remove (sampleDirectory.child "trace.json")) :: steps := by
    cases hnew
    exact ⟨_, rfl⟩
  obtain ⟨-, hset⟩ := holds_sample.unlinked.remove?_child (by decide +kernel) hremoved
  have hgone : t'.entry? ["out", "trace.json"] = none := by
    rw [hset]
    exact Directory.entry?_set_self _ none holds_sample.entry
  have hkept : t'.entry? ["out", .ofText manifestFile] = some (.file sampleManifest.toUTF8) := by
    rw [hset]
    exact Directory.entry?_set_of_not_isPrefix none (by decide) (by decide)
  have happly : Change.apply sampleTree [] (.remove (sampleDirectory.child "trace.json")) =
      .ok t' := by
    rw [Change.apply, hremoved]
    rfl
  have hleft : WriteLeaves [] sampleDirectory new sampleTree t' := by
    refine .steps hmade hpresent ?_
    rw [hsteps]
    exact .next happly .stop
  exact ⟨sampleTree, t', old, new, hold, hnew, hleft, rfl, hgone, hkept,
    verify_of_writeLeaves holds_sample hold hnew hnames (hmessages ▸ hfree) hleft⟩

end TaskNetwork.ReportDirectory
