import TaskNetwork.ContentHash.Basic
import TaskNetwork.Json.Document
import TaskNetwork.Task
import TaskNetwork.Trace.Basic

/-!
# Documents of traces and plans

The JSON documents of traces, of plan records and of executor messages, and the content hashes of
traces and plans.
-/

namespace TaskNetwork

open Json (Document toJson ofJson?)

instance : Document TaskRecord where
  schema := .record [("name", .text), ("args", .list .text)]
  toJson t := .object [("name", .text t.name), ("args", .ofTexts t.args)]
  ofJson?
    | .object [(_, name), (_, args)] => do return ⟨← name.text?, ← args.texts?⟩
    | _ => none

instance : Document Decision where
  schema := .tagged "type"
    [("operator_applied", .record []),
      ("operator_rejected", .record [("detail", .text)]),
      ("method_decomposed", .record [("method", .text), ("subtask_count", .word 64)]),
      ("method_inapplicable", .record [("method", .text), ("detail", .text)]),
      ("backtracked", .record []),
      ("unresolved", .record []),
      ("depth_bound_reached", .record [])]
  toJson
    | .operatorApplied => .object [("type", .text "operator_applied")]
    | .operatorRejected detail =>
      .object [("type", .text "operator_rejected"), ("detail", .text detail)]
    | .methodDecomposed method subtaskCount =>
      .object [("type", .text "method_decomposed"), ("method", .text method),
        ("subtask_count", .ofNat subtaskCount.toNat)]
    | .methodInapplicable method detail =>
      .object [("type", .text "method_inapplicable"), ("method", .text method),
        ("detail", .text detail)]
    | .backtracked => .object [("type", .text "backtracked")]
    | .unresolved => .object [("type", .text "unresolved")]
    | .depthBoundReached => .object [("type", .text "depth_bound_reached")]
  ofJson?
    | .object [(_, .text "operator_applied")] => some .operatorApplied
    | .object [(_, .text "operator_rejected"), (_, detail)] => do
      return .operatorRejected (← detail.text?)
    | .object [(_, .text "method_decomposed"), (_, method), (_, subtaskCount)] => do
      return .methodDecomposed (← method.text?) (← subtaskCount.uint64?)
    | .object [(_, .text "method_inapplicable"), (_, method), (_, detail)] => do
      return .methodInapplicable (← method.text?) (← detail.text?)
    | .object [(_, .text "backtracked")] => some .backtracked
    | .object [(_, .text "unresolved")] => some .unresolved
    | .object [(_, .text "depth_bound_reached")] => some .depthBoundReached
    | _ => none

instance : Document Event where
  schema := .record
    [("order", .word 64), ("depth", .word 32), ("task", .option (Document.schema TaskRecord)),
      ("decision", Document.schema Decision)]
  toJson e := .object
    [("order", .ofNat e.order.toNat), ("depth", .ofNat e.depth.toNat),
      ("task", .ofOption toJson e.task), ("decision", toJson e.decision)]
  ofJson?
    | .object [(_, order), (_, depth), (_, task), (_, decision)] => do
      return ⟨← order.uint64?, ← depth.uint32?, ← task.optionOf? ofJson?, ← ofJson? decision⟩
    | _ => none

instance : Document Termination where
  schema := .tagged "type"
    [("plan_found", .record [("step_count", .word 64)]),
      ("search_exhausted", .record [("depth_bound_reached", .bool)])]
  toJson
    | .planFound stepCount =>
      .object [("type", .text "plan_found"), ("step_count", .ofNat stepCount.toNat)]
    | .searchExhausted depthBoundReached =>
      .object [("type", .text "search_exhausted"), ("depth_bound_reached", .bool depthBoundReached)]
  ofJson?
    | .object [(_, .text "plan_found"), (_, stepCount)] => do
      return .planFound (← stepCount.uint64?)
    | .object [(_, .text "search_exhausted"), (_, depthBoundReached)] => do
      return .searchExhausted (← depthBoundReached.bool?)
    | _ => none

instance : Document TraceMetadata where
  schema := .record
    [("domain_id", .text), ("start_state_name", .text), ("max_depth", .word 32),
      ("frames_visited", .word 64), ("max_depth_reached", .word 32),
      ("operator_applications", .word 64), ("method_expansions", .word 64),
      ("backtracks", .word 64), ("depth_bound_hits", .word 64),
      ("unresolved_task_names", .list .text),
      ("termination_reason", Document.schema Termination)]
  toJson m := .object
    [("domain_id", .text m.domainId), ("start_state_name", .text m.startStateName),
      ("max_depth", .ofNat m.maxDepth.toNat), ("frames_visited", .ofNat m.framesVisited.toNat),
      ("max_depth_reached", .ofNat m.maxDepthReached.toNat),
      ("operator_applications", .ofNat m.operatorApplications.toNat),
      ("method_expansions", .ofNat m.methodExpansions.toNat),
      ("backtracks", .ofNat m.backtracks.toNat),
      ("depth_bound_hits", .ofNat m.depthBoundHits.toNat),
      ("unresolved_task_names", .ofTexts m.unresolvedTaskNames),
      ("termination_reason", toJson m.termination)]
  ofJson?
    | .object
        [(_, domainId), (_, startStateName), (_, maxDepth), (_, framesVisited),
          (_, maxDepthReached), (_, operatorApplications), (_, methodExpansions), (_, backtracks),
          (_, depthBoundHits), (_, unresolvedTaskNames), (_, termination)] => do
      return {
        domainId := ← domainId.text?
        startStateName := ← startStateName.text?
        maxDepth := ← maxDepth.uint32?
        framesVisited := ← framesVisited.uint64?
        maxDepthReached := ← maxDepthReached.uint32?
        operatorApplications := ← operatorApplications.uint64?
        methodExpansions := ← methodExpansions.uint64?
        backtracks := ← backtracks.uint64?
        depthBoundHits := ← depthBoundHits.uint64?
        unresolvedTaskNames := ← unresolvedTaskNames.texts?
        termination := ← ofJson? termination }
    | _ => none

instance : Document Trace where
  schema := .record
    [("events", .list (Document.schema Event)), ("metadata", Document.schema TraceMetadata)]
  toJson t := .object
    [("events", .list (t.events.map toJson)), ("metadata", toJson t.metadata)]
  ofJson?
    | .object [(_, events), (_, metadata)] => do
      return ⟨← events.listOf? ofJson?, ← ofJson? metadata⟩
    | _ => none

/-- The content hash of a trace's document. -/
def Trace.digest (t : Trace) : ContentHash := Subject.planTrace.hash (Document.bytes t)

/-! ## Plans -/

instance : Document StepMessage where
  schema := .record [("num", .word 64), ("step", .text)]
  toJson m := .object [("num", .ofNat m.num.toNat), ("step", .text m.step)]
  ofJson?
    | .object [(_, num), (_, step)] => do return ⟨← num.uint64?, ← step.text?⟩
    | _ => none

instance : Document PlanRecord where
  schema := .record [("steps", .list (Document.schema TaskRecord))]
  toJson p := .object [("steps", .list (p.steps.map toJson))]
  ofJson?
    | .object [(_, steps)] => do return ⟨← steps.listOf? ofJson?⟩
    | _ => none

/-- The content hash of a plan record's document. -/
def PlanRecord.digest (p : PlanRecord) : ContentHash := Subject.planRecord.hash (Document.bytes p)

end TaskNetwork
