import TaskNetwork.Report.Basic

/-!
# Verifying reports

Each report of a run holds a verdict that names the digests of the trace and the plan. A report
verifies if its hashes, its manifest, its digest and the digests in the verdict all agree with the
contents.
-/

namespace TaskNetwork

open Json (Document toJson ofJson?)

/-! ## Verdicts -/

/-- What a run came to. -/
inductive RunOutcome where
  | planFound (stepCount : UInt64)
  | noPlan (unresolvedTaskNames : List String) (depthBoundReached : Bool)
deriving DecidableEq, Repr

/-- The verdict on a run. -/
structure Verification where
  schemaVersion : String
  worldId : String
  outcome : RunOutcome
  traceDigest : String
  /-- The digest of the plan, if one was found. -/
  planDigest : Option String
  /-- Whether the plan was replayed without a refusal. -/
  replayVerified : Bool
  /-- Whether the replay reached the goal. -/
  goalSatisfied : Bool
deriving DecidableEq, Repr

/-- The version that verdicts are written in. -/
def Verification.currentVersion : String := "verification.v1"

instance : Document RunOutcome where
  schema := .tagged "type"
    [("plan_found", .record [("step_count", .word 64)]),
      ("no_plan",
        .record [("unresolved_task_names", .list .text), ("depth_bound_reached", .bool)])]
  toJson
    | .planFound stepCount =>
      .object [("type", .text "plan_found"), ("step_count", .ofNat stepCount.toNat)]
    | .noPlan names depthBoundReached => .object
        [("type", .text "no_plan"), ("unresolved_task_names", .ofTexts names),
          ("depth_bound_reached", .bool depthBoundReached)]
  ofJson?
    | .object [(_, .text "plan_found"), (_, stepCount)] => do
      return .planFound (← stepCount.uint64?)
    | .object [(_, .text "no_plan"), (_, names), (_, depthBoundReached)] => do
      return .noPlan (← names.texts?) (← depthBoundReached.bool?)
    | _ => none

instance : Document Verification where
  schema := .record
    [("schema_version", .text), ("world_id", .text), ("outcome", Document.schema RunOutcome),
      ("trace_digest", .text), ("plan_digest", .option .text), ("replay_verified", .bool),
      ("goal_satisfied", .bool)]
  toJson v := .object
    [("schema_version", .text v.schemaVersion), ("world_id", .text v.worldId),
      ("outcome", toJson v.outcome), ("trace_digest", .text v.traceDigest),
      ("plan_digest", .ofOption .text v.planDigest), ("replay_verified", .bool v.replayVerified),
      ("goal_satisfied", .bool v.goalSatisfied)]
  ofJson?
    | .object
        [(_, schemaVersion), (_, worldId), (_, outcome), (_, traceDigest), (_, planDigest),
          (_, replayVerified), (_, goalSatisfied)] => do
      return {
        schemaVersion := ← schemaVersion.text?
        worldId := ← worldId.text?
        outcome := ← ofJson? outcome
        traceDigest := ← traceDigest.text?
        planDigest := ← planDigest.optionOf? Json.text?
        replayVerified := ← replayVerified.bool?
        goalSatisfied := ← goalSatisfied.bool? }
    | _ => none

/-! ## Faults -/

/-- Why a report does not verify. -/
inductive VerifyError where
  | contentHashMismatch (artifact : String) (expected actual : ContentHash)
  | manifestMismatch
  | digestMismatch (expected actual : ContentHash)
  | missingArtifact (name : String)
  | unreadableVerification
  | unknownVersion (version : String)
  | traceDigestMismatch (declared : String) (recomputed : ContentHash)
  | planDigestMismatch (declared : String) (recomputed : ContentHash)
  | unexpectedPlan
deriving DecidableEq, Repr

/-- The fault in words. -/
def VerifyError.message : VerifyError → String
  | .contentHashMismatch artifact expected actual =>
      "content hash mismatch for " ++ artifact ++ ": expected " ++ expected.text ++
        ", actual " ++ actual.text
  | .manifestMismatch => "manifest does not match artifacts"
  | .digestMismatch expected actual =>
      "report digest mismatch: expected " ++ expected.text ++ ", actual " ++ actual.text
  | .missingArtifact name => "missing artifact: " ++ name
  | .unreadableVerification => "verification.json is invalid"
  | .unknownVersion version => "verification.json is invalid: unknown schema_version " ++ version
  | .traceDigestMismatch declared recomputed =>
      "trace digest mismatch: declared " ++ declared ++ ", recomputed " ++ recomputed.text
  | .planDigestMismatch declared recomputed =>
      "plan digest mismatch: declared " ++ declared ++ ", recomputed " ++ recomputed.text
  | .unexpectedPlan => "plan.json present but verification declares no plan"

/-! ## Checks -/

namespace Report

/-- Checks that an artifact's hash is the hash of its content. -/
def checkContent (a : Artifact) : Except VerifyError Unit :=
  let actual := Subject.reportArtifact.hash a.content
  if actual = a.contentHash then .ok ()
  else .error (.contentHashMismatch a.name a.contentHash actual)

/-- Checks that the manifest is the one of the artifacts. -/
def checkManifest (r : Report) : Except VerifyError Unit :=
  if Document.bytes (manifestOf r.artifacts) = r.manifest then .ok () else .error .manifestMismatch

/-- Checks that the digest is the one of the manifest. -/
def checkDigest (r : Report) : Except VerifyError Unit :=
  let actual := digestOf r.manifest
  if actual = r.digest then .ok () else .error (.digestMismatch r.digest actual)

/-- An artifact that has to be there. -/
def require (r : Report) (name : String) : Except VerifyError Artifact :=
  match r.artifacts.get? name with
  | some a => .ok a
  | none => .error (.missingArtifact name)

/-- The verdict of a report. -/
def readVerification (r : Report) : Except VerifyError Verification := do
  let a ← r.require verificationArtifact
  match Document.parse Verification a.content with
  | .error _ => .error .unreadableVerification
  | .ok v =>
    if v.schemaVersion = Verification.currentVersion then return v
    else .error (.unknownVersion v.schemaVersion)

/-- Checks that the verdict names the digest of the trace. -/
def checkTrace (r : Report) (v : Verification) : Except VerifyError Unit := do
  let a ← r.require traceArtifact
  let recomputed := Subject.planTrace.hash a.content
  if recomputed.text = v.traceDigest then return ()
  else .error (.traceDigestMismatch v.traceDigest recomputed)

/-- Checks that there is a plan exactly if the verdict names one, and that it has the digest that
the verdict names. -/
def checkPlan (r : Report) (v : Verification) : Except VerifyError Unit :=
  match r.artifacts.get? planArtifact, v.planDigest with
  | some a, some declared =>
    let recomputed := Subject.planRecord.hash a.content
    if recomputed.text = declared then .ok ()
    else .error (.planDigestMismatch declared recomputed)
  | none, some _ => .error (.missingArtifact planArtifact)
  | some _, none => .error .unexpectedPlan
  | none, none => .ok ()

/-- Verifies a report; the first fault found is reported. -/
def verify (r : Report) : Except VerifyError Unit := do
  r.artifacts.values.forM checkContent
  r.checkManifest
  r.checkDigest
  let v ← r.readVerification
  r.checkTrace v
  r.checkPlan v

end Report

end TaskNetwork
