import TaskNetwork.ContentHash.Basic
import TaskNetwork.Json.Document
import TaskNetwork.OrderedMap.Basic
import TaskNetwork.Text.Basic

/-!
# Reports

A report packs the results of a run as named artifacts. Its manifest lists them in name order with
their content hashes, and its digest is the hash of the manifest.
-/

namespace TaskNetwork

open Json (Document toJson ofJson?)

/-! ## Manifests -/

/-- An artifact in a manifest. -/
structure ManifestEntry where
  name : String
  /-- The written form of the content hash. -/
  contentHash : String
deriving DecidableEq, Repr

/-- The list of a report's artifacts. -/
structure Manifest where
  schemaVersion : String
  artifacts : List ManifestEntry
deriving DecidableEq, Repr

/-- The version that manifests are written in. -/
def Manifest.currentVersion : String := "report.v1"

instance : Document ManifestEntry where
  schema := .record [("name", .text), ("content_hash", .text)]
  toJson e := .object [("name", .text e.name), ("content_hash", .text e.contentHash)]
  ofJson?
    | .object [(_, name), (_, contentHash)] => do return ⟨← name.text?, ← contentHash.text?⟩
    | _ => none

instance : Document Manifest where
  schema := .record
    [("schema_version", .text), ("artifacts", .list (Document.schema ManifestEntry))]
  toJson m := .object
    [("schema_version", .text m.schemaVersion), ("artifacts", .list (m.artifacts.map toJson))]
  ofJson?
    | .object [(_, schemaVersion), (_, artifacts)] => do
      return ⟨← schemaVersion.text?, ← artifacts.listOf? ofJson?⟩
    | _ => none

/-! ## Artifacts and reports -/

/-- A named piece of a report. -/
structure Artifact where
  name : String
  content : ByteArray
  contentHash : ContentHash
deriving DecidableEq

/-- An artifact with the hash of its content. -/
def Artifact.ofContent (name : String) (content : ByteArray) : Artifact :=
  ⟨name, content, Subject.reportArtifact.hash content⟩

/-- Artifacts with their manifest and its digest. -/
structure Report where
  artifacts : OrderedMap String Artifact
  /-- The document of the manifest. -/
  manifest : ByteArray
  digest : ContentHash
deriving DecidableEq

/-- Why artifacts make no report. -/
inductive ReportError where
  | duplicateArtifact (name : String)
deriving DecidableEq, Repr

/-- The refusal in words. -/
def ReportError.message : ReportError → String
  | .duplicateArtifact name => "duplicate artifact: " ++ name

namespace Report

/-- The name of the artifact that holds the plan. -/
def planArtifact : String := "plan.json"

/-- The name of the artifact that holds the trace. -/
def traceArtifact : String := "trace.json"

/-- The name of the artifact that holds the verdict on the run. -/
def verificationArtifact : String := "verification.json"

/-- The manifest of artifacts, in the order of their keys. -/
def manifestOf (artifacts : OrderedMap String Artifact) : Manifest :=
  ⟨Manifest.currentVersion, artifacts.values.map fun a => ⟨a.name, a.contentHash.text⟩⟩

/-- Adds named contents as artifacts; a name may come only once. -/
def addArtifacts (artifacts : OrderedMap String Artifact) :
    List (String × ByteArray) → Except ReportError (OrderedMap String Artifact)
  | [] => .ok artifacts
  | (name, content) :: rest =>
    if artifacts.contains name then .error (.duplicateArtifact name)
    else addArtifacts (artifacts.insert name (.ofContent name content)) rest

/-- The digest of a manifest's document. -/
def digestOf (manifest : ByteArray) : ContentHash := Subject.reportDigest.hash manifest

/-- Builds a report from named contents. -/
def build (contents : List (String × ByteArray)) : Except ReportError Report := do
  let artifacts ← addArtifacts ∅ contents
  let manifest := Document.bytes (manifestOf artifacts)
  return ⟨artifacts, manifest, digestOf manifest⟩

end Report

end TaskNetwork
