import TaskNetwork.Domain
import TaskNetwork.Planner
import TaskNetwork.Replay
import TaskNetwork.Report.Verification
import TaskNetwork.Trace.Document

/-!
# Running worlds

A run plans a world's tasks, replays the plan, checks the goal, and packs the results as a report.
That there is no plan is a result like another.
-/

namespace TaskNetwork

open Json (Document)

/-- What a run of a world gives. -/
structure WorldRun (A : Type) where
  worldId : String
  result : Except PlanFailure (Plan A)
  trace : Trace
  verification : Verification
  report : Report

/-- Why a world cannot be run. -/
inductive RunError where
  | domain (e : DomainError)
  | policy (e : PolicyError)
  /-- The plan that was found does not replay. -/
  | replay (e : ReplayError)
  /-- The plan that was found replays but misses the goal. -/
  | goalNotSatisfied (worldId : String)
  | report (e : ReportError)
deriving DecidableEq, Repr

/-- The failure in words. -/
def RunError.message : RunError → String
  | .domain e => e.message
  | .policy e => e.message
  | .replay e => "plan failed replay: " ++ e.message
  | .goalNotSatisfied worldId =>
      "plan for " ++ worldId ++ " replays but does not satisfy the goal"
  | .report e => e.message

namespace World

variable {S A : Type} [PlanningState S] [Argument A]

/-- Replays a plan and checks the goal. -/
def checkPlan (w : World S A) (d : Domain S A) (plan : Plan A) : Except RunError Unit := do
  let final ← (replay d w.start plan.steps).mapError .replay
  if w.goalSatisfied final then return () else .error (.goalNotSatisfied w.id)

/-- The outcome of a plan or of a failure. -/
def outcomeOf : Except PlanFailure (Plan A) → RunOutcome
  | .ok plan => .planFound plan.steps.length.toUInt64
  | .error failure => .noPlan failure.unresolvedTaskNames failure.depthBoundReached

/-- The verdict on a run that found its plan good, or found none. -/
def verdict (w : World S A) (o : PlanningOutcome A) : Verification where
  schemaVersion := Verification.currentVersion
  worldId := w.id
  outcome := outcomeOf o.result
  traceDigest := o.trace.digest.text
  planDigest := o.result.toOption.map fun plan => plan.record.digest.text
  replayVerified := o.isPlanFound
  goalSatisfied := o.isPlanFound

/-- The contents of the report on a run. -/
def contents (o : PlanningOutcome A) (v : Verification) : List (String × ByteArray) :=
  [(Report.traceArtifact, Document.bytes o.trace),
    (Report.verificationArtifact, Document.bytes v)] ++
    (o.result.toOption.map fun plan => (Report.planArtifact, Document.bytes plan.record)).toList

/-- Runs a world under a policy. -/
def run (w : World S A) (policy : Policy) : Except RunError (WorldRun A) := do
  let domain ← w.domain.mapError .domain
  let planner ← (Planner.create domain policy).mapError .policy
  let o := planner.runTraced w.start w.initialTasks
  match o.result with
  | .ok plan => w.checkPlan domain plan
  | .error _ => pure ()
  let v := w.verdict o
  let report ← (Report.build (contents o v)).mapError .report
  return ⟨w.id, o.result, o.trace, v, report⟩

end World

end TaskNetwork
