import TaskNetwork.Report.Verification
import TaskNetwork.Storage.Tree
import TaskNetwork.Text.Basic
import TaskNetwork.Text.Quoted

/-!
# Report directories

A report is kept in a directory with one file for each artifact, one for the manifest and one for
the digest. Each file is written under a temporary name and then renamed, the digest last, so a
write that breaks off leaves no directory that passes for a report it is not. The manifest decides
what belongs to the report: a missing file and a file too many are both faults. Only files whose
names are texts are looked at; others are neither removed nor found too many.
-/

namespace TaskNetwork

open Json (Document)

namespace ReportDirectory

/-- The file that holds the manifest. -/
def manifestFile : String := "report_manifest.json"

/-- The file that holds the digest. -/
def digestFile : String := "report_digest.txt"

/-- Whether a file holds the manifest or the digest. -/
def isMetadata (name : String) : Bool := name = manifestFile || name = digestFile

/-- What the names of temporary files start with. -/
def temporaryMark : String := ".tmp_"

/-- Whether a file is left over from a write that broke off. -/
def isTemporary (name : FileName) : Bool :=
  (FileName.ofText temporaryMark).bytes.isPrefixOf name.bytes

/-! ## Faults -/

/-- What a file tree refused to do. -/
inductive StorageError where
  | makeDirectory (p : Path)
  | removeStale (p : Path)
  | writeFile (p : Path)
  | renameFile (source target : Path)
  | readDirectory (p : Path)
  | notAFile (p : Path)
deriving DecidableEq, Repr

/-- The refusal in words. -/
def StorageError.message : StorageError → String
  | .makeDirectory p => "create_dir_all " ++ p.shown
  | .removeStale p => "remove stale " ++ p.shown
  | .writeFile p => "write " ++ p.shown
  | .renameFile source target => "rename " ++ source.shown ++ " → " ++ target.shown
  | .readDirectory p => "read_dir " ++ p.shown
  | .notAFile p => "not a file path: " ++ p.shown

/-- Why a directory cannot be written or holds no report. -/
inductive Error where
  | storage (e : StorageError)
  | missingMetadata (file : String)
  | missingArtifact (name : String)
  | extraFile (name : String)
  | unreadableManifest
  | versionMismatch (found : String)
  | illegalName (name : String)
  | illegalHash (name : String) (contentHash : String)
  | digestMismatch (stored : String) (recomputed : ContentHash)
  | verify (e : VerifyError)
deriving DecidableEq, Repr

/-- The fault in words. -/
def Error.message : Error → String
  | .storage e => "I/O error: " ++ e.message
  | .missingMetadata file => "missing metadata file: " ++ file
  | .missingArtifact name => "missing artifact: " ++ name
  | .extraFile name => "undeclared extra file: " ++ name
  | .unreadableManifest => "manifest parse error"
  | .versionMismatch found => "manifest version mismatch: " ++ found
  | .illegalName name =>
      "manifest entry invalid: illegal artifact name " ++ Text.quoted name
  | .illegalHash name contentHash =>
      "manifest entry invalid: invalid content_hash format for " ++ name ++ ": " ++ contentHash
  | .digestMismatch stored recomputed =>
      "digest mismatch: stored=" ++ stored ++ ", recomputed=" ++ recomputed.text
  | .verify e => "verify error: " ++ e.message

/-! ## Writing -/

/-- One change of a file tree. -/
inductive Change where
  | remove (p : Path)
  | write (p : Path) (content : ByteArray)
  | rename (source target : Path)
deriving DecidableEq

/-- Carries a change out. -/
def Change.apply (t : FileTree) (cwd : FileTree.Place) : Change → Except StorageError FileTree
  | .remove p => (t.remove? cwd p).elim (.error (.removeStale p)) .ok
  | .write p content => (t.write? cwd p content).elim (.error (.writeFile p)) .ok
  | .rename source target =>
    (t.rename? cwd source target).elim (.error (.renameFile source target)) .ok

/-- A step of a write: a change, or a fault found before anything is changed. -/
abbrev Step := Except StorageError Change

/-- Writes a file whole: under a temporary name beside it, then renamed. -/
def writeWhole (p : Path) (content : ByteArray) : List Step :=
  match p.parent?, p.fileName? with
  | some directory, some name =>
    let temporary := directory.child (temporaryMark ++ name.shown)
    [.ok (.write temporary content), .ok (.rename temporary p)]
  | _, _ => [.error (.notAFile p)]

/-- The steps of writing a report to a directory that holds the files `present`: stale files are
removed, then artifacts, manifest and digest are written. -/
def writeSteps (r : Report) (directory : Path) (present : List String) : List Step :=
  let stale := present.filter fun name => !r.artifacts.contains name && !isMetadata name
  stale.map (fun name => .ok (.remove (directory.child name))) ++
    r.artifacts.values.flatMap (fun a => writeWhole (directory.child a.name) a.content) ++
    writeWhole (directory.child manifestFile) r.manifest ++
    writeWhole (directory.child digestFile) r.digest.text.toUTF8

/-- Carries steps out until one fails; gives the tree as it is then. -/
def perform (cwd : FileTree.Place) : FileTree → List Step → Except StorageError Unit × FileTree
  | t, [] => (.ok (), t)
  | t, .error e :: _ => (.error e, t)
  | t, .ok change :: steps =>
    match change.apply t cwd with
    | .ok t => perform cwd t steps
    | .error e => (.error e, t)

/-- The plain files of a directory whose names are texts, those of broken-off writes apart. -/
def files? (t : FileTree) (cwd : FileTree.Place) (directory : Path) : Option (List String) := do
  let entries ← t.list? cwd directory
  return entries.filterMap fun
    | (name, .file _) => name.text?.filter fun s => !isTemporary s
    | _ => none

/-- Writes a report to a directory, which is made if need be. -/
def write (t : FileTree) (cwd : FileTree.Place) (directory : Path) (r : Report) :
    Except Error Unit × FileTree :=
  match t.makeDirectory cwd directory with
  | (t, false) => (.error (.storage (.makeDirectory directory)), t)
  | (t, true) =>
    match files? t cwd directory with
    | none => (.error (.storage (.readDirectory directory)), t)
    | some present =>
      let (result, t) := perform cwd t (writeSteps r directory present)
      (result.mapError .storage, t)

/-! ## Reading -/

/-- Whether a manifest may name an artifact so. -/
def isArtifactName (name : String) : Bool :=
  match name.toList with
  | [] => false
  | '.' :: _ => false
  | cs => !cs.contains '/' && !cs.contains '\\' && !isMetadata name

/-- Reads the artifact of a manifest entry. -/
def readArtifact (t : FileTree) (cwd : FileTree.Place) (directory : Path) (e : ManifestEntry) :
    Except Error Artifact :=
  if !isArtifactName e.name then .error (.illegalName e.name)
  else
    match ContentHash.parse? e.contentHash with
    | none => .error (.illegalHash e.name e.contentHash)
    | some contentHash =>
      match t.read? cwd (directory.child e.name) with
      | none => .error (.missingArtifact e.name)
      | some content => .ok ⟨e.name, content, contentHash⟩

/-- Reads the file that holds a piece of metadata. -/
def readMetadata (t : FileTree) (cwd : FileTree.Place) (directory : Path) (file : String) :
    Except Error ByteArray :=
  (t.read? cwd (directory.child file)).elim (.error (.missingMetadata file)) .ok

/-- Reads a manifest of the current version. -/
def readManifest (document : ByteArray) : Except Error Manifest :=
  match Document.parse Manifest document with
  | .error _ => .error .unreadableManifest
  | .ok m =>
    if m.schemaVersion = Manifest.currentVersion then .ok m
    else .error (.versionMismatch m.schemaVersion)

/-- Refuses a directory that holds a file which is neither metadata nor an artifact. -/
def checkFiles (t : FileTree) (cwd : FileTree.Place) (directory : Path)
    (artifacts : OrderedMap String Artifact) : Except Error Unit :=
  match files? t cwd directory with
  | none => .error (.storage (.readDirectory directory))
  | some present =>
    match present.find? fun name => !artifacts.contains name && !isMetadata name with
    | some name => .error (.extraFile name)
    | none => .ok ()

/-- Reads the report that a directory holds. The hashes of the artifacts are those of the
manifest; whether they are right is for `verify` to say. -/
def read (t : FileTree) (cwd : FileTree.Place) (directory : Path) : Except Error Report := do
  let document ← readMetadata t cwd directory manifestFile
  let digestText ← readMetadata t cwd directory digestFile
  let manifest ← readManifest document
  let artifacts ← manifest.artifacts.mapM (readArtifact t cwd directory)
  let artifacts := OrderedMap.ofList (artifacts.map fun a => (a.name, a))
  checkFiles t cwd directory artifacts
  let recomputed := Report.digestOf document
  let stored := Text.trim (Text.decodeLenient digestText)
  if recomputed.text = stored then return ⟨artifacts, document, recomputed⟩
  else .error (.digestMismatch stored recomputed)

/-- Reads the report that a directory holds and verifies it. -/
def verify (t : FileTree) (cwd : FileTree.Place) (directory : Path) : Except Error Report := do
  let r ← read t cwd directory
  r.verify.mapError .verify
  return r

end ReportDirectory

end TaskNetwork
