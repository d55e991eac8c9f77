import TaskNetwork.OrderedMap.Lemmas
import TaskNetwork.Proofs.ContentHash
import TaskNetwork.Proofs.Except
import TaskNetwork.Proofs.Json.Documents

/-!
# Sound reports

In a sound report the hashes, the manifest and the digest are those of its contents. Built reports
are sound, and so are verified ones whose artifacts are listed under their names. As far as hashes
do not collide, the manifest of a sound report determines the rest.
-/

namespace TaskNetwork

open Json (Document)

namespace Report

/-! ## Soundness -/

/-- The messages of the content hashes of a report. -/
def messages (r : Report) : List (List UInt8) :=
  r.artifacts.values.map fun a => Subject.reportArtifact.message a.content

/-- These messages and that of the digest. -/
def hashed (r : Report) : List (List UInt8) :=
  Subject.reportDigest.message r.manifest :: r.messages

/-- What a report says of its contents is so. -/
structure IsSound (r : Report) : Prop where
  artifact_eq {name : String} {a : Artifact} :
    r.artifacts.get? name = some a → a = .ofContent name a.content
  manifest_eq : r.manifest = Document.bytes (manifestOf r.artifacts)
  digest_eq : r.digest = digestOf r.manifest

theorem mem_messages {r : Report} {name : String} {a : Artifact}
    (h : r.artifacts.get? name = some a) :
    Subject.reportArtifact.message a.content ∈ r.messages :=
  List.mem_map_of_mem (OrderedMap.mem_values_iff.mpr ⟨name, h⟩)

namespace IsSound

variable {r : Report} (h : r.IsSound)

include h

theorem name_eq {name : String} {a : Artifact} (ha : r.artifacts.get? name = some a) :
    a.name = name :=
  congrArg Artifact.name (h.artifact_eq ha)

theorem get?_of_mem_values {a : Artifact} (ha : a ∈ r.artifacts.values) :
    r.artifacts.get? a.name = some a := by
  obtain ⟨name, hget⟩ := OrderedMap.mem_values_iff.mp ha
  rwa [h.name_eq hget]

theorem names_values : r.artifacts.values.map Artifact.name = r.artifacts.keys := by
  rw [OrderedMap.values, OrderedMap.keys, List.map_map]
  exact List.map_congr_left fun e he => h.name_eq (OrderedMap.mem_entries_iff.mp he)

/-- The artifacts of a sound report make up its map. -/
theorem ofList_values :
    OrderedMap.ofList (r.artifacts.values.map fun a => (a.name, a)) = r.artifacts := by
  have hentries : r.artifacts.values.map (fun a => (a.name, a)) = r.artifacts.toList := by
    rw [OrderedMap.values, List.map_map]
    refine (List.map_congr_left fun e he => ?_).trans (List.map_id _)
    exact Prod.ext (h.name_eq (OrderedMap.mem_entries_iff.mp he)) rfl
  rw [hentries]
  refine OrderedMap.ext_get? fun name => ?_
  rw [OrderedMap.ofList, OrderedMap.get?_insertAll_toList, OrderedMap.get?_empty, Option.or_none]

theorem parse_manifest :
    Document.parse Manifest r.manifest = .ok (manifestOf r.artifacts) := by
  rw [h.manifest_eq]
  exact Document.parse_bytes _

end IsSound

/-! ## Sources of sound reports -/

theorem artifact_eq_of_addArtifacts {contents : List (String × ByteArray)}
    {before artifacts : OrderedMap String Artifact}
    (hbefore : ∀ name a, before.get? name = some a → a = .ofContent name a.content)
    (h : addArtifacts before contents = .ok artifacts) {name : String} {a : Artifact}
    (ha : artifacts.get? name = some a) : a = .ofContent name a.content := by
  induction contents generalizing before with
  | nil =>
      cases h
      exact hbefore name a ha
  | cons e rest ih =>
      rw [addArtifacts] at h
      split at h
      · cases h
      · refine ih (fun name a ha => ?_) h
        rw [OrderedMap.get?_insert] at ha
        split at ha
        · rename_i hname
          cases ha
          rw [eq_of_beq hname]
          rfl
        · exact hbefore name a ha

theorem isSound_of_build {contents : List (String × ByteArray)} {r : Report}
    (h : build contents = .ok r) : r.IsSound := by
  obtain ⟨artifacts, hadd, h⟩ := bind_eq_ok.mp h
  obtain rfl := Except.ok.inj h
  have hbefore (name : String) (a : Artifact)
      (ha : (OrderedMap.empty : OrderedMap String Artifact).get? name = some a) :
      a = .ofContent name a.content := by
    rw [OrderedMap.get?_empty] at ha
    cases ha
  exact ⟨artifact_eq_of_addArtifacts hbefore hadd, by dsimp only, by dsimp only⟩

/-- Manifests are compared byte by byte. -/
theorem checkManifest_eq (r : Report) : r.checkManifest =
    if (Document.bytes (manifestOf r.artifacts)).data.toList = r.manifest.data.toList then .ok ()
    else .error .manifestMismatch := by
  rw [checkManifest]
  simp only [ByteArray.ext_iff, ← Array.toList_inj]

theorem isSound_of_verify {r : Report}
    (hname : ∀ name a, r.artifacts.get? name = some a → a.name = name)
    (h : r.verify = .ok ()) : r.IsSound := by
  obtain ⟨⟨⟩, hcontents, h⟩ := bind_eq_ok.mp h
  obtain ⟨⟨⟩, hmanifest, h⟩ := bind_eq_ok.mp h
  obtain ⟨⟨⟩, hdigest, -⟩ := bind_eq_ok.mp h
  refine ⟨fun {name a} ha => ?_, ?_, ?_⟩
  · have hcontent := eq_ok_of_forM hcontents (OrderedMap.mem_values_iff.mpr ⟨name, ha⟩)
    rw [checkContent] at hcontent
    split at hcontent
    · rename_i hhash
      rw [Artifact.ofContent, hhash, ← hname name a ha]
    · cases hcontent
  · rw [checkManifest] at hmanifest
    split at hmanifest
    · exact Eq.symm ‹_›
    · cases hmanifest
  · rw [checkDigest] at hdigest
    split at hdigest
    · exact Eq.symm ‹_›
    · cases hdigest

/-! ## What a manifest determines -/

variable {r r' : Report} {messages : List (List UInt8)}

/-- Artifacts with the same entry in the manifest are the same. -/
theorem IsSound.entry_eq (hr : r.IsSound) (hr' : r'.IsSound)
    (hfree : Sha256.IsCollisionFree messages) (hmessages : r.messages ⊆ messages)
    (hmessages' : r'.messages ⊆ messages) {e e' : String × Artifact}
    (he : e ∈ r.artifacts.entries) (he' : e' ∈ r'.artifacts.entries)
    (hname : e.2.name = e'.2.name) (hhash : e.2.contentHash.text = e'.2.contentHash.text) :
    e = e' := by
  obtain ⟨key, a⟩ := e
  obtain ⟨key', a'⟩ := e'
  have ha := OrderedMap.mem_entries_iff.mp he
  have ha' := OrderedMap.mem_entries_iff.mp he'
  have hof := hr.artifact_eq ha
  have hof' := hr'.artifact_eq ha'
  rw [hof, hof'] at hname hhash
  have hmessage := hfree _ (hmessages (mem_messages ha)) _ (hmessages' (mem_messages ha'))
    (Subject.hash_message_eq hhash)
  have hkey : key = key' := hname
  rw [hof, hof', hkey, Subject.message_inj hmessage]

/-- Sound reports with the same manifest are the same, as far as hashes do not collide. -/
theorem IsSound.eq_of_manifest_eq (hr : r.IsSound) (hr' : r'.IsSound)
    (hfree : Sha256.IsCollisionFree messages) (hmessages : r.messages ⊆ messages)
    (hmessages' : r'.messages ⊆ messages) (h : r.manifest = r'.manifest) : r = r' := by
  have hmanifest : manifestOf r.artifacts = manifestOf r'.artifacts := by
    refine Document.bytes_injective ?_
    rw [← hr.manifest_eq, ← hr'.manifest_eq, h]
  have hlists : r.artifacts.values.map (fun a => ManifestEntry.mk a.name a.contentHash.text) =
      r'.artifacts.values.map fun a => ManifestEntry.mk a.name a.contentHash.text :=
    congrArg Manifest.artifacts hmanifest
  simp only [OrderedMap.values, List.map_map] at hlists
  have hlength : r.artifacts.entries.length = r'.artifacts.entries.length := by
    simpa using congrArg List.length hlists
  -- A manifest lists its artifacts in the order of the map, so the maps agree place by place.
  have hentries : r.artifacts.entries = r'.artifacts.entries := by
    refine List.ext_getElem hlength fun i hi hi' => ?_
    have hat := (List.getElem_of_eq hlists (by simpa using hi) :)
    simp only [List.getElem_map, Function.comp_apply, ManifestEntry.mk.injEq] at hat
    exact hr.entry_eq hr' hfree hmessages hmessages' (List.getElem_mem hi)
      (List.getElem_mem hi') hat.1 hat.2
  have hdigest := hr.digest_eq.trans ((congrArg digestOf h).trans hr'.digest_eq.symm)
  obtain ⟨⟨entries, _⟩, manifest, digest⟩ := r
  obtain ⟨⟨entries', _⟩, manifest', digest'⟩ := r'
  cases hentries
  cases h
  cases hdigest
  rfl

end Report

end TaskNetwork
