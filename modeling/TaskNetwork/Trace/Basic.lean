import TaskNetwork.Task

/-!
# Decision traces

A trace lists what the search decided about the head task of each frame, in order, and counts
the decisions. It also says why the search stopped.
-/

namespace TaskNetwork

/-- What happened to the head task of a frame. -/
inductive Decision where
  /-- The operator accepted the state, and the task became a step of the plan. -/
  | operatorApplied
  /-- The operator refused the state. -/
  | operatorRejected (detail : String)
  /-- The method replaced the task by so many subtasks. -/
  | methodDecomposed (method : String) (subtaskCount : UInt64)
  /-- The method declined the task. -/
  | methodInapplicable (method : String) (detail : String)
  /-- The branch behind the last applied operator or decomposing method failed and was undone. -/
  | backtracked
  /-- The domain does not know the task. -/
  | unresolved
  /-- The frame lies beyond the depth bound. -/
  | depthBoundReached
deriving DecidableEq, Repr

/-- One decision of a run. -/
structure Event where
  /-- The number of events before this one. -/
  order : UInt64
  depth : UInt32
  /-- The head task; a frame beyond the depth bound may have none. -/
  task : Option TaskRecord
  decision : Decision
deriving DecidableEq, Repr

/-- Why a search stopped. -/
inductive Termination where
  /-- No task was left. -/
  | planFound (stepCount : UInt64)
  /-- Every alternative failed. -/
  | searchExhausted (depthBoundReached : Bool)
deriving DecidableEq, Repr

/-- Counts and circumstances of a run. -/
structure TraceMetadata where
  domainId : String
  startStateName : String
  maxDepth : UInt32
  framesVisited : UInt64
  maxDepthReached : UInt32
  operatorApplications : UInt64
  methodExpansions : UInt64
  backtracks : UInt64
  depthBoundHits : UInt64
  /-- In ascending order, each name once. -/
  unresolvedTaskNames : List String
  termination : Termination
deriving DecidableEq, Repr

/-- The decisions of a run, none if they were not recorded, and its counts. -/
structure Trace where
  events : List Event
  metadata : TraceMetadata
deriving DecidableEq, Repr

/-- The events of one depth, in order. -/
def Trace.eventsAtDepth (t : Trace) (depth : UInt32) : List Event :=
  t.events.filter fun e => e.depth == depth

/-! ## Decisions that stand

The events of a trace nest like brackets: to apply an operator or to decompose a task opens one,
and a backtrack closes it. What is still open stands. -/

namespace Event

/-- The decisions that stand after an event, the last one first. -/
def advance (stack : List Event) (e : Event) : List Event :=
  match e.decision with
  | .operatorApplied | .methodDecomposed _ _ => e :: stack
  | .backtracked => stack.tail
  | .operatorRejected _ | .methodInapplicable _ _ | .unresolved | .depthBoundReached => stack

/-- The decisions that stand after some events. -/
def standing (events : List Event) : List Event := events.foldl advance []

/-- The tasks of the applied operators, in the order of their application. -/
def appliedTasks (stack : List Event) : List (Option TaskRecord) :=
  (stack.reverse.filter fun e => e.decision = .operatorApplied).map (·.task)

/-- An event may come while some decisions stand: it lies as deep as they reach, or it takes back
the last of them. -/
structure Fits (stack : List Event) (e : Event) : Prop where
  depth_eq : e.decision ≠ .backtracked → e.depth.toNat = stack.length
  takes_back : e.decision = .backtracked →
    ∃ top below, stack = top :: below ∧ top.depth = e.depth ∧ top.task = e.task

end Event

/-! ## Counts

What the metadata of a trace say of a run can also be read off its events, if these are recorded. -/

namespace Decision

/-- Whether a method replaced the task. -/
def isDecomposition : Decision → Bool
  | methodDecomposed _ _ => true
  | _ => false

/-- Whether the search goes on in a deeper frame. -/
def leadsOn : Decision → Bool
  | operatorApplied | methodDecomposed _ _ => true
  | _ => false

end Decision

namespace Trace

/-- The number of events with a kind of decision. -/
def count (t : Trace) (kind : Decision → Bool) : Nat := t.events.countP fun e => kind e.decision

/-- The metadata of a trace agree with its events. -/
structure IsCounted (t : Trace) : Prop where
  operatorApplications : t.metadata.operatorApplications.toNat = t.count (· = .operatorApplied)
  methodExpansions : t.metadata.methodExpansions.toNat = t.count Decision.isDecomposition
  backtracks : t.metadata.backtracks.toNat = t.count (· = .backtracked)
  depthBoundHits : t.metadata.depthBoundHits.toNat = t.count (· = .depthBoundReached)
  /-- One frame is the first one, and each other one lies behind a decision. -/
  framesVisited :
    t.metadata.framesVisited.toNat =
      1 + t.metadata.operatorApplications.toNat + t.metadata.methodExpansions.toNat
  maxDepthReached :
    (t.metadata.maxDepthReached = 0 ∧ ∀ e ∈ t.events, e.decision.leadsOn = false) ∨
      ∃ e ∈ t.events, e.decision.leadsOn = true ∧
        t.metadata.maxDepthReached.toNat = e.depth.toNat + 1 ∧
        ∀ e' ∈ t.events, e'.decision.leadsOn = true → e'.depth ≤ e.depth
  ascending : t.metadata.unresolvedTaskNames.Pairwise (· < ·)
  mem_unresolved (name : String) :
    name ∈ t.metadata.unresolvedTaskNames ↔
      ∃ e ∈ t.events, e.decision = .unresolved ∧ ∃ args, e.task = some ⟨name, args⟩

end Trace

end TaskNetwork
