import TaskNetwork.Proofs.Report.Sound
import TaskNetwork.Proofs.Storage.Flat
import TaskNetwork.Report.Directory

/-!
# Reports read from directories

A report that is read is made of the files of its directory: the manifest and the artifacts are
their contents, and no file is left out. Reports that verify are told apart by their digests.
-/

namespace TaskNetwork

namespace ReportDirectory

/-! ## Names of files -/

variable {name : String}

theorem isArtifactName_eq_true : isArtifactName name = true ↔
    name ≠ "" ∧ name.toList.head? ≠ some '.' ∧ '/' ∉ name.toList ∧ '\\' ∉ name.toList ∧
      isMetadata name = false := by
  have hempty : name = "" ↔ name.toList = [] := String.toList_eq_nil_iff.symm
  rw [isArtifactName, ne_eq, hempty]
  split
  · rename_i hnil
    simp [hnil]
  · rename_i hdot
    simp [hdot]
  · rename_i hnil hdot
    have hhead : name.toList.head? ≠ some '.' := by
      intro hhead
      obtain ⟨cs, hcs⟩ := List.head?_eq_some_iff.mp hhead
      exact hdot cs hcs
    have hne : name.toList ≠ [] := hnil
    simp [hhead, hne, and_assoc]

theorem isSegment_of_isArtifactName (h : isArtifactName name = true) : Path.IsSegment name := by
  obtain ⟨hne, hdot, hslash, -⟩ := isArtifactName_eq_true.mp h
  have hhere : name ≠ "." := by
    rintro rfl
    exact hdot rfl
  have hup : name ≠ ".." := by
    rintro rfl
    exact hdot rfl
  refine ⟨Path.slash_notMem_bytes hslash, ?_, FileName.ofText_ne hup⟩
  simp [Path.isHere, FileName.ofText_inj, hne, hhere]

theorem isTemporary_of_isArtifactName (h : isArtifactName name = true) :
    isTemporary name = false := by
  obtain ⟨-, hdot, -⟩ := isArtifactName_eq_true.mp h
  by_contra htemporary
  rw [Bool.not_eq_false, isTemporary, List.isPrefixOf_iff_prefix] at htemporary
  obtain ⟨rest, hrest⟩ := htemporary
  have hfirst : (FileName.ofText name).bytes.head? = some 0x2e := by
    rw [← hrest]
    rfl
  obtain ⟨c, hc, hvalue⟩ := FileName.head?_toList_of_head?_bytes (by decide) hfirst
  have hc' : c = '.' := Char.toNat_inj.mp hvalue
  exact hdot (hc' ▸ hc)

theorem bytes_temporary (name : String) : (FileName.ofText (temporaryMark ++ name)).bytes =
    0x2e :: 0x74 :: 0x6d :: 0x70 :: 0x5f :: (FileName.ofText name).bytes :=
  FileName.bytes_ofText_append temporaryMark name

theorem isTemporary_temporary (name : String) :
    isTemporary (.ofText (temporaryMark ++ name)) = true := by
  rw [isTemporary, bytes_temporary]
  rfl

theorem isSegment_temporary (hname : Path.IsSegment name) :
    Path.IsSegment (.ofText (temporaryMark ++ name)) := by
  have hne {other : FileName} (hshort : other.bytes.length < 3) :
      FileName.ofText (temporaryMark ++ name) ≠ other := by
    rintro rfl
    simp [bytes_temporary] at hshort
    omega
  refine ⟨?_, ?_, hne (by decide)⟩
  · rw [bytes_temporary]
    simpa [Path.slash] using hname.no_slash
  · rw [Path.isHere, Bool.or_eq_false_iff]
    exact ⟨decide_eq_false (hne (by decide)), decide_eq_false (hne (by decide))⟩

theorem isMetadata_of_isArtifactName (h : isArtifactName name = true) :
    isMetadata name = false :=
  (isArtifactName_eq_true.mp h).2.2.2.2

theorem isSegment_manifestFile : Path.IsSegment manifestFile := ⟨by decide, by decide, by decide⟩

theorem isSegment_digestFile : Path.IsSegment digestFile := ⟨by decide, by decide, by decide⟩

/-! ## Contents of files -/

variable {file : FileName} {content : ByteArray} {r : Report}

/-- What a report puts under a name. -/
def contentOf? (r : Report) (file : FileName) : Option ByteArray :=
  file.text?.bind fun name =>
    if name = manifestFile then some r.manifest
    else if name = digestFile then some r.digest.text.toUTF8
    else (r.artifacts.get? name).map Artifact.content

theorem contentOf?_ofText (r : Report) (name : String) :
    contentOf? r name =
      if name = manifestFile then some r.manifest
      else if name = digestFile then some r.digest.text.toUTF8
      else (r.artifacts.get? name).map Artifact.content := by
  rw [contentOf?, FileName.text?_ofText, Option.bind_some]

theorem exists_name_of_contentOf? (h : contentOf? r file = some content) :
    ∃ name, file = .ofText name := by
  obtain ⟨name, hname, -⟩ := Option.bind_eq_some_iff.mp h
  exact ⟨name, FileName.text?_eq_some.mp hname⟩

theorem contentOf?_manifestFile (r : Report) : contentOf? r manifestFile = some r.manifest := by
  rw [contentOf?_ofText, if_pos rfl]

theorem contentOf?_digestFile (r : Report) :
    contentOf? r digestFile = some r.digest.text.toUTF8 := by
  rw [contentOf?_ofText, if_neg (by decide), if_pos rfl]

theorem contentOf?_of_not_metadata (hname : isMetadata name = false) :
    contentOf? r name = (r.artifacts.get? name).map Artifact.content := by
  simp only [isMetadata, Bool.or_eq_false_iff, decide_eq_false_iff_not] at hname
  rw [contentOf?_ofText, if_neg hname.1, if_neg hname.2]

theorem contentOf?_of_get? {a : Artifact} (h : r.artifacts.get? name = some a)
    (hname : isMetadata name = false) : contentOf? r name = some a.content := by
  rw [contentOf?_of_not_metadata hname, h]
  rfl

theorem exists_get?_of_contentOf? (h : contentOf? r name = some content)
    (hname : isMetadata name = false) :
    ∃ a, r.artifacts.get? name = some a ∧ a.content = content := by
  rw [contentOf?_of_not_metadata hname] at h
  exact Option.map_eq_some_iff.mp h

/-! ## Listings -/

variable {t : FileTree} {cwd place : FileTree.Place} {directory : Path} {entries : Directory}
  {present : List String}

theorem list?_eq_some (h : t.HoldsUnlinked cwd directory place entries) :
    t.list? cwd directory = some entries := by
  refine Option.bind_eq_some_iff.mpr ⟨place, h.leads, ?_⟩
  simp only [h.entry]
  rfl

/-- The files of a directory whose names are texts are listed, temporary ones apart. -/
theorem exists_files? (h : t.HoldsUnlinked cwd directory place entries) :
    ∃ present, files? t cwd directory = some present ∧ ∀ name : String, name ∈ present ↔
      isTemporary name = false ∧ ∃ content, (.ofText name, Entry.file content) ∈ entries := by
  refine ⟨_, by rw [files?, list?_eq_some h]; rfl, fun name => ?_⟩
  rw [List.mem_filterMap]
  constructor
  · rintro ⟨⟨file, e⟩, he, heq⟩
    cases e with
    | file content =>
        obtain ⟨htext, hname⟩ := Option.filter_eq_some_iff.mp heq
        obtain rfl := FileName.text?_eq_some.mp htext
        exact ⟨by simpa using hname, content, he⟩
    | link target => cases heq
    | directory inner => cases heq
  · rintro ⟨hname, content, he⟩
    refine ⟨_, he, Option.filter_eq_some_iff.mpr ⟨FileName.text?_ofText name, ?_⟩⟩
    rw [hname]
    rfl

theorem mem_present_iff (h : t.HoldsUnlinked cwd directory place entries)
    (hpresent : files? t cwd directory = some present) :
    name ∈ present ↔
      isTemporary name = false ∧ ∃ content, (.ofText name, Entry.file content) ∈ entries := by
  obtain ⟨present', hpresent', hmem⟩ := exists_files? h
  cases hpresent.symm.trans hpresent'
  exact hmem name

/-! ## Reading -/

/-- A report is made of the files of a directory. -/
structure IsReadFrom (t : FileTree) (cwd : FileTree.Place) (directory : Path) (r : Report) :
    Prop where
  manifest : t.read? cwd (directory.child manifestFile) = some r.manifest
  name_eq {name : String} {a : Artifact} : r.artifacts.get? name = some a → a.name = name
  isName {name : String} {a : Artifact} :
    r.artifacts.get? name = some a → isArtifactName name = true
  content {name : String} {a : Artifact} :
    r.artifacts.get? name = some a → t.read? cwd (directory.child name) = some a.content
  complete : checkFiles t cwd directory r.artifacts = .ok ()
  digest : ∃ stored, t.read? cwd (directory.child digestFile) = some stored ∧
    Text.trim (Text.decodeLenient stored) = r.digest.text

theorem readArtifact_eq_ok {e : ManifestEntry} {a : Artifact}
    (h : readArtifact t cwd directory e = .ok a) :
    isArtifactName a.name = true ∧ t.read? cwd (directory.child a.name) = some a.content := by
  rw [readArtifact] at h
  split at h
  · cases h
  · rename_i hname
    split at h
    · cases h
    · split at h
      · cases h
      · rename_i hread
        cases h
        exact ⟨by simpa using hname, hread⟩

theorem mem_of_get?_ofList {artifacts : List Artifact} {a : Artifact}
    (h : (OrderedMap.ofList (artifacts.map fun a => (a.name, a))).get? name = some a) :
    a ∈ artifacts ∧ a.name = name := by
  rcases OrderedMap.mem_or_get?_of_insertAll h with hmem | hmem
  · obtain ⟨a', ha', heq⟩ := List.mem_map.mp hmem
    cases heq
    exact ⟨ha', rfl⟩
  · rw [OrderedMap.get?_empty] at hmem
    cases hmem

theorem isReadFrom_of_read (h : read t cwd directory = .ok r) : IsReadFrom t cwd directory r := by
  obtain ⟨document, hdocument, h⟩ := bind_eq_ok.mp h
  obtain ⟨digestText, hdigest, h⟩ := bind_eq_ok.mp h
  obtain ⟨manifest, -, h⟩ := bind_eq_ok.mp h
  obtain ⟨artifacts, hartifacts, h⟩ := bind_eq_ok.mp h
  obtain ⟨⟨⟩, hfiles, h⟩ := bind_eq_ok.mp h
  have hof (name : String) (a : Artifact)
      (ha : (OrderedMap.ofList (artifacts.map fun a => (a.name, a))).get? name = some a) :
      isArtifactName name = true ∧ t.read? cwd (directory.child name) = some a.content := by
    obtain ⟨hmem, rfl⟩ := mem_of_get?_ofList ha
    obtain ⟨e, -, he⟩ := exists_of_mem_mapM hartifacts hmem
    exact readArtifact_eq_ok he
  dsimp only at h
  split at h
  · rename_i hstored
    cases h
    exact {
      manifest := elim_eq_ok.mp hdocument
      name_eq := fun ha => (mem_of_get?_ofList ha).2
      isName := fun ha => (hof _ _ ha).1
      content := fun ha => (hof _ _ ha).2
      complete := hfiles
      digest := ⟨digestText, elim_eq_ok.mp hdigest, hstored.symm⟩ }
  · cases h

theorem verify_eq_ok (h : verify t cwd directory = .ok r) :
    IsReadFrom t cwd directory r ∧ r.IsSound := by
  obtain ⟨r', hread, h⟩ := bind_eq_ok.mp h
  obtain ⟨⟨⟩, hverify, h⟩ := bind_eq_ok.mp h
  cases h
  have hfrom := isReadFrom_of_read hread
  exact ⟨hfrom, Report.isSound_of_verify (fun _ _ => hfrom.name_eq) (mapError_eq_ok.mp hverify)⟩

namespace IsReadFrom

/-- A file that is neither temporary nor metadata is that of an artifact. -/
theorem contains_of_mem (hr : IsReadFrom t cwd directory r)
    (h : t.HoldsUnlinked cwd directory place entries)
    (hmem : (.ofText name, Entry.file content) ∈ entries)
    (htemporary : isTemporary name = false) (hmetadata : isMetadata name = false) :
    r.artifacts.contains name = true := by
  obtain ⟨present, hpresent, hlisted⟩ := exists_files? h
  have hcomplete := hr.complete
  rw [checkFiles, hpresent] at hcomplete
  dsimp only at hcomplete
  split at hcomplete
  · cases hcomplete
  · rename_i hfind
    have hnot := List.find?_eq_none.mp hfind name ((hlisted name).mpr ⟨htemporary, content, hmem⟩)
    simpa [hmetadata] using hnot

/-- Such a file holds the content of the artifact. -/
theorem exists_artifact (hr : IsReadFrom t cwd directory r)
    (h : t.HoldsUnlinked cwd directory place entries)
    (hlookup : entries.lookup (.ofText name) = some (.file content))
    (htemporary : isTemporary name = false) (hmetadata : isMetadata name = false) :
    ∃ a, r.artifacts.get? name = some a ∧ a.content = content := by
  have hcontains := hr.contains_of_mem h (OrderedMap.mem_of_lookup_eq_some hlookup) htemporary
    hmetadata
  obtain ⟨a, ha⟩ := Option.isSome_iff_exists.mp hcontains
  have hname := isSegment_of_isArtifactName (hr.isName ha)
  have hread := ((h.read?_child_iff hname).mp (hr.content ha)).2
  cases hlookup.symm.trans hread
  exact ⟨a, ha, rfl⟩

end IsReadFrom

/-! ## A directory that verifies -/

/-- A verdict without a plan. -/
def sampleVerdict : String :=
  "\x7b\"schema_version\":\"verification.v1\",\"world_id\":\"toy\"," ++
    "\"outcome\":\x7b\"type\":\"no_plan\",\"unresolved_task_names\":[]," ++
    "\"depth_bound_reached\":false\x7d," ++
    "\"trace_digest\":" ++
    "\"sha256:116475bcf488773bd7db62b772f8de146295bd73ebef32585d5dee8b54ed3ff4\"," ++
    "\"plan_digest\":null,\"replay_verified\":false,\"goal_satisfied\":false\x7d"

/-- The manifest of a report with that verdict. -/
def sampleManifest : String :=
  "\x7b\"schema_version\":\"report.v1\",\"artifacts\":[" ++
    "\x7b\"name\":\"trace.json\",\"content_hash\":" ++
    "\"sha256:97038ad117d11ad005e67a72915c216b3735cbe7236b78df687bc976a9848248\"\x7d," ++
    "\x7b\"name\":\"verification.json\",\"content_hash\":" ++
    "\"sha256:d9621f6543838b254132063de6a019858df185d6440eba6c55953a7a6356957e\"\x7d]\x7d"

/-- The files of that report. -/
def sampleFiles : Directory :=
  [(digestFile, .file
      "sha256:b2db1ac2cad34960f934ee6ea5801e9cf12e0a0a958950739dd11a29f7d80697".toUTF8),
    (manifestFile, .file sampleManifest.toUTF8),
    ("trace.json", .file "[]".toUTF8),
    ("verification.json", .file sampleVerdict.toUTF8)]

/-- Their directory. -/
def sampleDirectory : Path := ⟨false, ["out"]⟩

/-- A tree with that directory. -/
def sampleTree : FileTree := ⟨[("out", .directory sampleFiles)]⟩

theorem holds_sample : sampleTree.Holds [] sampleDirectory ["out"] sampleFiles where
  leads := by decide +kernel
  entry := rfl
  isSegment := by decide +kernel
  plain := by simp [sampleFiles]

set_option maxRecDepth 100000 in
/-- The report verifies, and its artifacts are hashed unlike the plan `[1]`. -/
theorem exists_verify_sample : ∃ old, verify sampleTree [] sampleDirectory = .ok old ∧
    Sha256.IsCollisionFree (old.hashed ++ [Subject.reportArtifact.message "[1]".toUTF8]) := by
  have hany : ((verify sampleTree [] sampleDirectory).toOption.any fun old =>
      decide (Sha256.IsCollisionFree
        (old.hashed ++ [Subject.reportArtifact.message "[1]".toUTF8]))) = true := by
    -- Arrays are compared by index, which costs the square of the length of the manifest.
    simp only [verify, Report.verify, Report.checkManifest_eq]
    decide +kernel
  cases hverify : verify sampleTree [] sampleDirectory with
  | error e =>
      rw [hverify] at hany
      cases hany
  | ok old =>
      rw [hverify] at hany
      exact ⟨old, rfl, of_decide_eq_true hany⟩

/-- A report of a plan alone. -/
theorem exists_build_sample : ∃ new, Report.build [("plan.json", "[1]".toUTF8)] = .ok new ∧
    new.artifacts.values = [.ofContent "plan.json" "[1]".toUTF8] ∧
    ∀ a ∈ new.artifacts.values, isArtifactName a.name = true :=
  ⟨_, rfl, rfl, by decide +kernel⟩

end ReportDirectory

/-! ## What a digest determines

The digest of a report is a hash of its manifest, and the manifest lists the hashes of the contents.
So the digest of a report that verifies stands for all of it, as far as these hashes do not collide.
-/

namespace Report

variable {r r' : Report}

theorem mem_hashed (r : Report) : Subject.reportDigest.message r.manifest ∈ r.hashed :=
  List.mem_cons_self

theorem messages_subset_hashed (r : Report) : r.messages ⊆ r.hashed :=
  List.subset_cons_self _ _

/-- Sound reports with the same digest have the same manifest. -/
theorem IsSound.manifest_eq_of_digest_eq {messages : List (List UInt8)} (hr : r.IsSound)
    (hr' : r'.IsSound) (hfree : Sha256.IsCollisionFree messages) (hmessages : r.hashed ⊆ messages)
    (hmessages' : r'.hashed ⊆ messages) (h : r.digest = r'.digest) : r.manifest = r'.manifest := by
  have htext : (digestOf r.manifest).text = (digestOf r'.manifest).text := by
    rw [← hr.digest_eq, ← hr'.digest_eq, h]
  have hmessage := hfree _ (hmessages r.mem_hashed) _ (hmessages' r'.mem_hashed)
    (Subject.hash_message_eq htext)
  exact Subject.message_inj hmessage

/-- Reports that verify, with artifacts listed under their names, are the same if their digests are,
as far as their artifacts and manifests do not collide. -/
theorem eq_of_digest_eq (hname : ∀ name a, r.artifacts.get? name = some a → a.name = name)
    (hname' : ∀ name a, r'.artifacts.get? name = some a → a.name = name)
    (hverify : r.verify = .ok ()) (hverify' : r'.verify = .ok ())
    (hfree : Sha256.IsCollisionFree (r.hashed ++ r'.hashed)) (hdigest : r.digest = r'.digest) :
    r = r' := by
  have hr := isSound_of_verify hname hverify
  have hr' := isSound_of_verify hname' hverify'
  have hmessages : r.hashed ⊆ r.hashed ++ r'.hashed := List.subset_append_left _ _
  have hmessages' : r'.hashed ⊆ r.hashed ++ r'.hashed := List.subset_append_right _ _
  refine hr.eq_of_manifest_eq hr' hfree (List.Subset.trans r.messages_subset_hashed hmessages)
    (List.Subset.trans r'.messages_subset_hashed hmessages') ?_
  exact hr.manifest_eq_of_digest_eq hr' hfree hmessages hmessages' hdigest

/-- A report that is read from a directory twice. -/
theorem eq_of_digest_eq_sample :
    ∃ r r' : Report, r.verify = .ok () ∧ r'.verify = .ok () ∧ r.digest = r'.digest ∧
      Sha256.IsCollisionFree (r.hashed ++ r'.hashed) ∧ r = r' := by
  obtain ⟨r, hread, hfree⟩ := ReportDirectory.exists_verify_sample
  obtain ⟨hfrom, -⟩ := ReportDirectory.verify_eq_ok hread
  obtain ⟨r', -, h⟩ := bind_eq_ok.mp hread
  obtain ⟨⟨⟩, hverify, h⟩ := bind_eq_ok.mp h
  obtain rfl : r' = r := Except.ok.inj h
  have hname (name : String) (a : Artifact) (ha : r'.artifacts.get? name = some a) :
      a.name = name := hfrom.name_eq ha
  have hfree : Sha256.IsCollisionFree (r'.hashed ++ r'.hashed) :=
    hfree.mono (List.append_subset.mpr
      ⟨List.subset_append_left _ _, List.subset_append_left _ _⟩)
  exact ⟨r', r', mapError_eq_ok.mp hverify, mapError_eq_ok.mp hverify, rfl, hfree,
    eq_of_digest_eq hname hname (mapError_eq_ok.mp hverify) (mapError_eq_ok.mp hverify) hfree rfl⟩

end Report

end TaskNetwork
