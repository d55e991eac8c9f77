import TaskNetwork.Search.Basic
import TaskNetwork.Task

/-!
# Planners and worlds

A planner is a domain with an accepted policy. A run gives a plan or says why there is none, and
in both cases a trace. A world is a planning problem with its surroundings: a domain, a start
state, the tasks to plan and a goal that a plan has to reach.
-/

namespace TaskNetwork

/-- A state that planning starts from or passes through; it has a name for reports. -/
class PlanningState (S : Type) where
  name : S → String

/-- Why no plan was found within the depth bound. -/
structure PlanFailure where
  /-- The names that the domain does not know, in ascending order. -/
  unresolvedTaskNames : List String
  /-- Whether the bound cut a branch, so that a larger one might help. -/
  depthBoundReached : Bool
  framesVisited : UInt64
deriving DecidableEq, Repr

namespace PlanFailure

/-- Whether the search met names that the domain does not know. -/
def isMissingKnowledge (f : PlanFailure) : Bool := !f.unresolvedTaskNames.isEmpty

/-- The failure in words. -/
def message (f : PlanFailure) : String :=
  "plan cannot be formulated (" ++ Text.decimal f.framesVisited.toNat ++ " frames visited)"

end PlanFailure

/-- The result of a run and its trace. -/
structure PlanningOutcome (A : Type) where
  result : Except PlanFailure (Plan A)
  trace : Trace

/-- Whether the run found a plan. -/
def PlanningOutcome.isPlanFound {A : Type} (o : PlanningOutcome A) : Bool := o.result.isOk

/-- A domain with a policy. -/
structure Planner (S A : Type) where
  domain : Domain S A
  policy : Policy

namespace Planner

variable {S A : Type}

/-- Binds a domain to a policy, which has to be acceptable. -/
def create (domain : Domain S A) (policy : Policy) : Except PolicyError (Planner S A) := do
  policy.validate
  return ⟨domain, policy⟩

/-- What a finished search found. -/
def resultOf : Bool × Journal A → Except PlanFailure (Plan A)
  | (true, j) => .ok ⟨j.plan.toList⟩
  | (false, j) => .error ⟨j.unresolved.keys, j.depthBoundHits > 0, j.framesVisited⟩

/-- Why a finished search stopped. -/
def terminationOf : Bool × Journal A → Termination
  | (true, j) => .planFound j.plan.size.toUInt64
  | (false, j) => .searchExhausted (j.depthBoundHits > 0)

variable [PlanningState S] [Argument A]

/-- The trace of a finished search. -/
def traceOf (planner : Planner S A) (start : S) (found : Bool × Journal A) : Trace where
  events := found.2.events.toList
  metadata :=
    { domainId := planner.domain.name
      startStateName := PlanningState.name start
      maxDepth := planner.policy.maxDepth
      framesVisited := found.2.framesVisited
      maxDepthReached := found.2.maxDepthReached
      operatorApplications := found.2.operatorApplications
      methodExpansions := found.2.methodExpansions
      backtracks := found.2.backtracks
      depthBoundHits := found.2.depthBoundHits
      unresolvedTaskNames := found.2.unresolved.keys
      termination := terminationOf found }

/-- Plans tasks from a start state, with a trace. -/
def runTraced (planner : Planner S A) (start : S) (tasks : List (Task A)) : PlanningOutcome A :=
  let found := Search.run planner.domain planner.policy start tasks
  ⟨resultOf found, planner.traceOf start found⟩

/-- Plans tasks from a start state. -/
def run (planner : Planner S A) (start : S) (tasks : List (Task A)) :
    Except PlanFailure (Plan A) :=
  (planner.runTraced start tasks).result

end Planner

/-! ## Worlds -/

/-- A planning problem that can be run. -/
structure World (S A : Type) where
  id : String
  /-- The domain, unless its declarations collide. -/
  domain : Except DomainError (Domain S A)
  start : S
  initialTasks : List (Task A)
  goalSatisfied : S → Bool

end TaskNetwork
