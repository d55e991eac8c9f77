import TaskNetwork.Proofs.Report.Sound
import TaskNetwork.Proofs.Text

/-!
# What a built report holds

A report is built of contents unless two of them have the same name. It holds each content under its
name and nothing else, and lists them in the order of their names, in whatever order they came.
-/

namespace TaskNetwork.Report

open Json (Document)

variable {artifacts before : OrderedMap String Artifact}
  {contents contents' : List (String × ByteArray)} {name : String} {r : Report}

/-! ## Names -/

theorem exists_addArtifacts (hnames : (contents.map Prod.fst).Nodup)
    (hnew : ∀ name ∈ contents.map Prod.fst, before.contains name = false) :
    ∃ artifacts, addArtifacts before contents = .ok artifacts := by
  induction contents generalizing before with
  | nil => exact ⟨before, rfl⟩
  | cons c rest ih =>
      obtain ⟨name, content⟩ := c
      obtain ⟨hname, hrest⟩ := List.nodup_cons.mp hnames
      rw [addArtifacts, hnew name List.mem_cons_self]
      refine ih hrest fun other hother => ?_
      have hne : other ≠ name := by
        rintro rfl
        exact hname hother
      rw [OrderedMap.contains_insert, hnew other (List.mem_cons_of_mem _ hother)]
      simpa using hne

theorem exists_build (hnames : (contents.map Prod.fst).Nodup) : ∃ r, build contents = .ok r := by
  obtain ⟨artifacts, hadd⟩ : ∃ artifacts, addArtifacts ∅ contents = .ok artifacts :=
    exists_addArtifacts hnames fun _ _ => rfl
  rw [build, hadd]
  exact ⟨_, rfl⟩

/-! ## Artifacts -/

theorem lookup_eq_none_of_addArtifacts (h : addArtifacts before contents = .ok artifacts)
    (hname : before.contains name = true) : contents.lookup name = none := by
  induction contents generalizing before with
  | nil => rfl
  | cons c rest ih =>
      obtain ⟨name', content⟩ := c
      rw [addArtifacts] at h
      split at h
      · cases h
      · rename_i hnew
        have hne : (name == name') = false := beq_false_of_ne fun heq => hnew (heq ▸ hname)
        rw [List.lookup_cons, hne]
        refine ih h ?_
        rw [OrderedMap.contains_insert, hname, Bool.or_true]

theorem get?_of_addArtifacts (h : addArtifacts before contents = .ok artifacts) (name : String) :
    artifacts.get? name =
      ((contents.lookup name).map (Artifact.ofContent name)).or (before.get? name) := by
  induction contents generalizing before with
  | nil =>
      cases h
      rfl
  | cons c rest ih =>
      obtain ⟨name', content⟩ := c
      rw [addArtifacts] at h
      split at h
      · cases h
      · rw [ih h, OrderedMap.get?_insert, List.lookup_cons]
        cases hname : name == name' with
        | true =>
            obtain rfl := eq_of_beq hname
            have hcontains :
                (before.insert name (.ofContent name content)).contains name = true := by
              rw [OrderedMap.contains_insert, hname, Bool.true_or]
            rw [lookup_eq_none_of_addArtifacts h hcontains]
            rfl
        | false => rfl

theorem get?_of_build (h : build contents = .ok r) (name : String) :
    r.artifacts.get? name = (contents.lookup name).map (Artifact.ofContent name) := by
  obtain ⟨artifacts, hadd, h⟩ := bind_eq_ok.mp h
  obtain rfl := Except.ok.inj h
  have hget := get?_of_addArtifacts hadd name
  rw [show (∅ : OrderedMap String Artifact).get? name = none from rfl, Option.or_none] at hget
  exact hget

theorem nodup_of_addArtifacts (h : addArtifacts before contents = .ok artifacts) :
    (contents.map Prod.fst).Nodup := by
  induction contents generalizing before with
  | nil => exact List.nodup_nil
  | cons c rest ih =>
      obtain ⟨name, content⟩ := c
      rw [addArtifacts] at h
      split at h
      · cases h
      · refine List.nodup_cons.mpr ⟨fun hmem => ?_, ih h⟩
        obtain ⟨c, hc, hname⟩ := List.mem_map.mp hmem
        have hcontains : (before.insert name (.ofContent name content)).contains name = true := by
          simp [OrderedMap.contains_insert]
        have hnone := lookup_eq_none_of_addArtifacts h hcontains
        simpa [hname] using List.lookup_eq_none_iff.mp hnone c hc

/-- Contents make no report exactly if two of them have the same name. -/
theorem nodup_iff_exists_build :
    (contents.map Prod.fst).Nodup ↔ ∃ r, build contents = .ok r := by
  refine ⟨exists_build, fun ⟨r, h⟩ => ?_⟩
  obtain ⟨artifacts, hadd, -⟩ := bind_eq_ok.mp h
  exact nodup_of_addArtifacts hadd

theorem duplicateArtifact_iff :
    (∃ name, build contents = .error (.duplicateArtifact name)) ↔
      ¬ (contents.map Prod.fst).Nodup := by
  rw [nodup_iff_exists_build]
  cases hbuild : build contents with
  | error e =>
      cases e with
      | duplicateArtifact name => exact iff_of_true ⟨name, rfl⟩ nofun
  | ok r => exact iff_of_false nofun fun h => h ⟨r, rfl⟩

theorem get?_iff_of_build (h : build contents = .ok r) {a : Artifact} :
    r.artifacts.get? name = some a ↔
      ∃ content, (name, content) ∈ contents ∧ a = .ofContent name content := by
  have hnames := nodup_iff_exists_build.mpr ⟨r, h⟩
  rw [get?_of_build h, Option.map_eq_some_iff]
  refine exists_congr fun content => and_congr ?_ eq_comm
  exact ⟨OrderedMap.mem_of_lookup_eq_some, OrderedMap.lookup_eq_some_of_mem hnames⟩

/-! ## The order of contents -/

theorem IsSound.eq_of_artifacts_eq {r' : Report} (hr : r.IsSound) (hr' : r'.IsSound)
    (h : r.artifacts = r'.artifacts) : r = r' := by
  have hmanifest : r.manifest = r'.manifest := by rw [hr.manifest_eq, hr'.manifest_eq, h]
  have hdigest : r.digest = r'.digest := by rw [hr.digest_eq, hr'.digest_eq, hmanifest]
  cases r
  cases r'
  cases h
  cases hmanifest
  cases hdigest
  rfl

theorem build_of_perm (hperm : contents.Perm contents') (h : build contents = .ok r) :
    build contents' = .ok r := by
  have hnames := nodup_iff_exists_build.mpr ⟨r, h⟩
  obtain ⟨r', h'⟩ := exists_build ((hperm.map Prod.fst).nodup_iff.mp hnames)
  have hartifacts : r'.artifacts = r.artifacts := OrderedMap.ext_get? fun name =>
    Option.ext fun a => by
      rw [get?_iff_of_build h', get?_iff_of_build h]
      exact exists_congr fun _ => and_congr_left fun _ => hperm.mem_iff.symm
  rw [h', (isSound_of_build h').eq_of_artifacts_eq (isSound_of_build h) hartifacts]

/-! ## Manifests -/

/-- A report holds contents as artifacts with their hashes, and its manifest lists them once, in the
order of the bytes of their names. -/
structure Packs (r : Report) (contents : List (String × ByteArray)) : Prop where
  get?_iff {name : String} {a : Artifact} : r.artifacts.get? name = some a ↔
    ∃ content, (name, content) ∈ contents ∧ a = ⟨name, content, Subject.reportArtifact.hash content⟩
  exists_entries : ∃ entries,
    Document.parse Manifest r.manifest = .ok ⟨Manifest.currentVersion, entries⟩ ∧
      entries.Pairwise (fun e e' => e.name.toUTF8.data.toList < e'.name.toUTF8.data.toList) ∧
      ∀ e, e ∈ entries ↔ ∃ content, (e.name, content) ∈ contents ∧
        e.contentHash = (Subject.reportArtifact.hash content).text

theorem IsSound.pairwise_names (h : r.IsSound) :
    (manifestOf r.artifacts).artifacts.Pairwise fun e e' => e.name < e'.name := by
  have hkeys := r.artifacts.pairwise_keys
  rw [← h.names_values] at hkeys
  exact List.pairwise_map.mpr (List.pairwise_map.mp hkeys)

theorem mem_manifestOf_of_build (h : build contents = .ok r) {e : ManifestEntry} :
    e ∈ (manifestOf r.artifacts).artifacts ↔ ∃ content, (e.name, content) ∈ contents ∧
      e.contentHash = (Subject.reportArtifact.hash content).text := by
  obtain ⟨name, contentHash⟩ := e
  simp only [manifestOf, List.mem_map, OrderedMap.mem_values_iff, get?_iff_of_build h]
  constructor
  · rintro ⟨_, ⟨name', content, hmem, rfl⟩, heq⟩
    obtain ⟨rfl, rfl⟩ := ManifestEntry.mk.inj heq
    exact ⟨content, hmem, rfl⟩
  · rintro ⟨content, hmem, rfl⟩
    exact ⟨_, ⟨name, content, hmem, rfl⟩, rfl⟩

theorem packs_of_build (h : build contents = .ok r) : r.Packs contents := by
  have hsound := isSound_of_build h
  refine ⟨get?_iff_of_build h, _, hsound.parse_manifest, ?_, fun _ => mem_manifestOf_of_build h⟩
  exact hsound.pairwise_names.imp Text.toUTF8_lt_toUTF8

/-- The order of contents does not matter. In every order they make no report exactly if two of them
have the same name, and otherwise the same report, which holds just these contents. -/
theorem build_perm (hperm : contents.Perm contents') :
    ((∃ name, build contents = .error (.duplicateArtifact name)) ↔
        ∃ name, build contents' = .error (.duplicateArtifact name)) ∧
      ((∃ name, build contents = .error (.duplicateArtifact name)) ↔
        ¬ (contents.map Prod.fst).Nodup) ∧
      ((contents.map Prod.fst).Nodup →
        ∃ r, build contents = .ok r ∧ build contents' = .ok r ∧ r.Packs contents) := by
  refine ⟨?_, duplicateArtifact_iff, fun hnames => ?_⟩
  · rw [duplicateArtifact_iff, duplicateArtifact_iff, (hperm.map Prod.fst).nodup_iff]
  · obtain ⟨r, h⟩ := exists_build hnames
    exact ⟨r, h, build_of_perm hperm h, packs_of_build h⟩

/-- A name that starts beyond ASCII is given before or after one that does not. -/
theorem build_perm_accented :
    List.Perm [("é.json", "[1]".toUTF8), ("z.json", "[2]".toUTF8)]
        [("z.json", "[2]".toUTF8), ("é.json", "[1]".toUTF8)] ∧
      ∃ r, build [("é.json", "[1]".toUTF8), ("z.json", "[2]".toUTF8)] = .ok r ∧
        build [("z.json", "[2]".toUTF8), ("é.json", "[1]".toUTF8)] = .ok r ∧
        r.Packs [("é.json", "[1]".toUTF8), ("z.json", "[2]".toUTF8)] := by
  have hperm : List.Perm [("é.json", "[1]".toUTF8), ("z.json", "[2]".toUTF8)]
      [("z.json", "[2]".toUTF8), ("é.json", "[1]".toUTF8)] := .swap _ _ _
  exact ⟨hperm, (build_perm hperm).2.2 (by decide)⟩

end TaskNetwork.Report
