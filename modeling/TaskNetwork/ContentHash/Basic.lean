import TaskNetwork.ContentHash.Sha256
import TaskNetwork.OrderedMap.Basic
import TaskNetwork.Text.Basic

/-!
# Content hashes

A content hash names an algorithm and gives the digits of a digest. Hashes that the library
computes are SHA-256 of a separator and the data. The separator belongs to the subject of the
hash, so equal bytes with different subjects are hashed as different messages.
-/

namespace TaskNetwork

/-- An algorithm and the digits that it gave; written with a colon between them. -/
structure ContentHash where
  algorithm : String
  digits : String
deriving DecidableEq, Repr, Inhabited

namespace ContentHash

/-- The written form, such as `sha256:00ff…`. -/
def text (h : ContentHash) : String := h.algorithm ++ ":" ++ h.digits

/-- Reads a written hash, which has something on both sides of its first colon. -/
def parse? (s : String) : Option ContentHash :=
  let algorithm := s.toList.takeWhile (· ≠ ':')
  match s.toList.dropWhile (· ≠ ':') with
  | [] => none
  | _ :: digits =>
    if algorithm.isEmpty || digits.isEmpty then none
    else some ⟨String.ofList algorithm, String.ofList digits⟩

/-- Hashes in the order of their written forms, each once. -/
def sorted (hashes : List ContentHash) : List ContentHash :=
  (OrderedMap.ofList (hashes.map fun h => (h.text, h))).values

end ContentHash

/-! ## Subjects -/

/-- What the hashed bytes are. -/
inductive Subject where
  | planTrace
  | planRecord
  | reportArtifact
  | reportDigest
deriving DecidableEq, Repr

namespace Subject

/-- All subjects. -/
def all : List Subject := [planTrace, planRecord, reportArtifact, reportDigest]

/-- The name of the subject. -/
def name : Subject → String
  | planTrace => "PlanTrace"
  | planRecord => "PlanRecord"
  | reportArtifact => "ReportArtifact"
  | reportDigest => "ReportDigest"

/-- The text that is hashed in front of the data; it ends with a zero byte. -/
def separator : Subject → String
  | planTrace => "HTN::PLAN_TRACE::V1\x00"
  | planRecord => "HTN::PLAN_RECORD::V1\x00"
  | reportArtifact => "HTN::REPORT_ARTIFACT::V1\x00"
  | reportDigest => "HTN::REPORT_DIGEST::V1\x00"

/-- The bytes that are hashed for data on a subject. -/
def message (s : Subject) (data : ByteArray) : List UInt8 :=
  s.separator.toUTF8.data.toList ++ data.data.toList

/-- The content hash of data on a subject. -/
def hash (s : Subject) (data : ByteArray) : ContentHash :=
  ⟨"sha256", Text.hexOfBytes (Sha256.hash (s.message data))⟩

end Subject

end TaskNetwork
