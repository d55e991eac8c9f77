import TaskNetwork.Domain
import TaskNetwork.OrderedMap.Basic
import TaskNetwork.Policy
import TaskNetwork.Trace.Basic

/-!
# Depth-first decomposition

A frame holds a state and a list of pending tasks. A frame without tasks is a success. Otherwise
its head task decides: an operator applies it and drops it from the list, or fails the frame; the
methods of a compound task are tried in order, each putting its subtasks in the place of the head,
until one leads to success; an unknown head fails the frame. So does a frame beyond the depth
bound.
-/

namespace TaskNetwork

/-! ## The journal of a search

While a search runs it keeps the steps of the branch that it is in, the events so far, and its
counts. The counts are kept apart from the events, because events need not be recorded. -/

/-- What a search has done so far. -/
structure Journal (A : Type) where
  /-- The steps of the current branch, in order. -/
  plan : Array (Task A) := #[]
  events : Array Event := #[]
  /-- The number of decisions so far, recorded or not. -/
  nextOrder : UInt64 := 0
  framesVisited : UInt64 := 0
  maxDepthReached : UInt32 := 0
  operatorApplications : UInt64 := 0
  methodExpansions : UInt64 := 0
  backtracks : UInt64 := 0
  depthBoundHits : UInt64 := 0
  unresolved : OrderedSet String := ∅

namespace Journal

variable {A : Type}

/-- The journal before a search. -/
def start : Journal A := {}

/-- Counts a frame at a depth. -/
def enter (j : Journal A) (depth : UInt32) : Journal A :=
  { j with
    framesVisited := j.framesVisited + 1
    maxDepthReached := max j.maxDepthReached depth }

/-- Takes down a decision on a task. -/
def note [Argument A] (p : Policy) (depth : UInt32) (task : Option (Task A)) (d : Decision)
    (j : Journal A) : Journal A :=
  { j with
    events :=
      if p.recordDecisions then
        j.events.push ⟨j.nextOrder, depth, task.map Task.record, d⟩
      else j.events
    nextOrder := j.nextOrder + 1 }

/-- Counts a frame that is cut by the depth bound. -/
def countCut (j : Journal A) : Journal A := { j with depthBoundHits := j.depthBoundHits + 1 }

/-- Counts an applied operator. -/
def countApplication (j : Journal A) : Journal A :=
  { j with operatorApplications := j.operatorApplications + 1 }

/-- Counts a decomposing method. -/
def countExpansion (j : Journal A) : Journal A :=
  { j with methodExpansions := j.methodExpansions + 1 }

/-- Counts a branch that is given up. -/
def countBacktrack (j : Journal A) : Journal A := { j with backtracks := j.backtracks + 1 }

/-- Adds a step to the plan. -/
def pushStep (t : Task A) (j : Journal A) : Journal A := { j with plan := j.plan.push t }

/-- Takes the last step off the plan. -/
def popStep (j : Journal A) : Journal A := { j with plan := j.plan.pop }

/-- Adds a name to those that the domain does not know. -/
def addUnresolved (name : String) (j : Journal A) : Journal A :=
  { j with unresolved := j.unresolved.add name }

end Journal

/-! ## The search -/

namespace Search

variable {S A M : Type}

/-- Tries alternatives in order until one succeeds. -/
def firstSuccess (attempt : M → Journal A → Bool × Journal A) :
    List M → Journal A → Bool × Journal A
  | [], j => (false, j)
  | m :: ms, j =>
    match attempt m j with
    | (true, j) => (true, j)
    | (false, j) => firstSuccess attempt ms j

variable [Argument A]

/-- Searches from a frame; `room` is the number of levels, this one included, that lie within the
depth bound, and `depth` is the depth of the frame. -/
def seek (d : Domain S A) (p : Policy) :
    (room : Nat) → (depth : UInt32) → S → List (Task A) → Journal A → Bool × Journal A
  | 0, depth, _, tasks, j =>
    (false, ((j.enter depth).countCut).note p depth tasks.head? .depthBoundReached)
  | _ + 1, depth, _, [], j => (true, j.enter depth)
  | room + 1, depth, state, head :: rest, j =>
    let j := j.enter depth
    match d.resolve head.name with
    | .primitive op =>
      match op.apply state head.args with
      | .error failure => (false, j.note p depth head (.operatorRejected failure.message))
      | .ok next =>
        let j := (j.countApplication.note p depth head .operatorApplied).pushStep head
        match seek d p room (depth + 1) next rest j with
        | (true, j) => (true, j)
        | (false, j) => (false, (j.popStep.countBacktrack).note p depth head .backtracked)
    | .compound methods =>
      firstSuccess (fun m j =>
        match m.decompose state head.args with
        | .error failure =>
          (false, j.note p depth head (.methodInapplicable m.name failure.message))
        | .ok subtasks =>
          let j := j.countExpansion.note p depth head
            (.methodDecomposed m.name subtasks.length.toUInt64)
          match seek d p room (depth + 1) state (subtasks ++ rest) j with
          | (true, j) => (true, j)
          | (false, j) => (false, j.countBacktrack.note p depth head .backtracked)) methods j
    | .unknown => (false, (j.addUnresolved head.name).note p depth head .unresolved)

/-- Searches from the first frame of a run. -/
def run (d : Domain S A) (p : Policy) (start : S) (tasks : List (Task A)) : Bool × Journal A :=
  seek d p (p.maxDepth.toNat + 1) 0 start tasks .start

end Search

end TaskNetwork
