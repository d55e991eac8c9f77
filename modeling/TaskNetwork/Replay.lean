import TaskNetwork.Domain
import TaskNetwork.Text.Basic

/-!
# Replays and reachable states

A plan is replayed by applying the operators of its steps one after the other. A replay fails at
the first step that is not primitive or that its operator refuses. The states that operators lead
to are those that some steps end in.
-/

namespace TaskNetwork

/-- Why a replay stops; `index` is the number of steps before. -/
inductive ReplayError where
  | notPrimitive (index : Nat) (name : String)
  | stepRejected (index : Nat) (name : String) (failure : ApplyFailure)
deriving DecidableEq, Repr

/-- The failure in words. -/
def ReplayError.message : ReplayError → String
  | .notPrimitive index name =>
      "step " ++ Text.decimal index ++ " (" ++ name ++ ") is not a primitive task"
  | .stepRejected index name failure =>
      "step " ++ Text.decimal index ++ " (" ++ name ++ ") rejected: " ++ failure.message

namespace Replay

variable {S A : Type}

/-- Applies steps to a state; `index` numbers the first of them. -/
def fromIndex (d : Domain S A) (index : Nat) (state : S) :
    List (Task A) → Except ReplayError S
  | [] => .ok state
  | step :: steps =>
    match d.resolve step.name with
    | .primitive op =>
      match op.apply state step.args with
      | .ok next => fromIndex d (index + 1) next steps
      | .error failure => .error (.stepRejected index step.name failure)
    | _ => .error (.notPrimitive index step.name)

end Replay

/-- The state after the steps of a plan. -/
def replay {S A : Type} (d : Domain S A) (start : S) (steps : List (Task A)) :
    Except ReplayError S :=
  Replay.fromIndex d 0 start steps

/-! ## Reachable states

The states that a list of operators leads to, whatever the tasks are and in whatever order they
come. A task that no operator accepts leaves the state as it is. -/

variable {S A : Type}

/-- The states that operators lead to from a start. -/
inductive Reachable (operators : List (Operator S A)) (start : S) : S → Prop where
  | start : Reachable operators start start
  | apply {state next : S} {op : Operator S A} {args : List A} :
      Reachable operators start state → op ∈ operators → op.apply state args = .ok next →
        Reachable operators start next

/-- The state after a task; it is the same state if no operator accepts the task. -/
def afterTask (operators : List (Operator S A)) (state : S) (task : Task A) : S :=
  match operators.find? fun op => op.name == task.name with
  | none => state
  | some op =>
    match op.apply state task.args with
    | .ok next => next
    | .error _ => state

/-- The state after tasks one after the other. -/
def afterTasks (operators : List (Operator S A)) (start : S) (tasks : List (Task A)) : S :=
  tasks.foldl (afterTask operators) start

theorem Reachable.afterTask {operators : List (Operator S A)} {start state : S}
    (h : Reachable operators start state) (task : Task A) :
    Reachable operators start (afterTask operators state task) := by
  unfold TaskNetwork.afterTask
  split
  · exact h
  · rename_i op hop
    split
    · rename_i next hnext
      exact h.apply (List.mem_of_find?_eq_some hop) hnext
    · exact h

/-- The state after any tasks is reachable. -/
theorem reachable_afterTasks (operators : List (Operator S A)) (start : S)
    (tasks : List (Task A)) : Reachable operators start (afterTasks operators start tasks) := by
  have go : ∀ (tasks : List (Task A)) (state : S), Reachable operators start state →
      Reachable operators start (tasks.foldl (TaskNetwork.afterTask operators) state) := by
    intro tasks
    induction tasks with
    | nil => exact fun _ h => h
    | cons task tasks ih => exact fun _ h => ih _ (h.afterTask task)
  exact go tasks start .start

end TaskNetwork
