import TaskNetwork.Text.Basic

/-!
# Tasks and plans

A task is a name with an ordered list of arguments. Whether it is primitive or compound is not
part of the task: a domain decides that when it looks the name up. A plan is the list of primitive
tasks in the order in which their operators are applied. An empty plan is a success: nothing was
left to do.
-/

namespace TaskNetwork

/-! ## Tasks -/

/-- What a task argument looks like in plans and traces. -/
class Argument (A : Type) where
  /-- The written form. -/
  text : A → String

instance : Argument String := ⟨id⟩

/-- An instruction that is applied by an operator or decomposed by methods. -/
structure Task (A : Type) where
  name : String
  args : List A
deriving DecidableEq, Repr, Inhabited

namespace Task

variable {A : Type}

/-- A task without arguments. -/
def nullary (name : String) : Task A := ⟨name, []⟩

variable [Argument A]

/-- The arguments in their written form. -/
def argTexts (t : Task A) : List String := t.args.map Argument.text

/-- The task as a call: `place(red, t1, left)`. -/
def text (t : Task A) : String := t.name ++ "(" ++ ", ".intercalate t.argTexts ++ ")"

/-- The task as words separated by single spaces: `place red t1 left`. -/
def stepLine (t : Task A) : String := " ".intercalate (t.name :: t.argTexts)

end Task

/-- A task with its arguments in their written form. -/
structure TaskRecord where
  name : String
  args : List String
deriving DecidableEq, Repr, Inhabited

/-- A task as it is written down. -/
def Task.record {A : Type} [Argument A] (t : Task A) : TaskRecord := ⟨t.name, t.argTexts⟩

/-! ## Plans -/

/-- Primitive tasks in the order of their application. -/
structure Plan (A : Type) where
  steps : List (Task A)
deriving DecidableEq, Repr, Inhabited

/-- One step for an executor: its number, from one, and its line. -/
structure StepMessage where
  num : UInt64
  step : String
deriving DecidableEq, Repr

/-- A plan with its tasks as they are written down. -/
structure PlanRecord where
  steps : List TaskRecord
deriving DecidableEq, Repr

namespace Plan

variable {A : Type} [Argument A]

/-- Numbers lines from `n` on. -/
def numberedLines (n : Nat) : List (Task A) → List String
  | [] => []
  | t :: ts => (Text.decimal n ++ ".  " ++ t.text ++ "\n") :: numberedLines (n + 1) ts

/-- The listing of a plan: a heading and one numbered line for each step. -/
def listing (p : Plan A) : String :=
  "HTN Actions:\n" ++ String.join (numberedLines 1 p.steps)

/-- Numbers executor messages from `n` on. -/
def messagesFrom (n : UInt64) : List (Task A) → List StepMessage
  | [] => []
  | t :: ts => ⟨n, t.stepLine⟩ :: messagesFrom (n + 1) ts

/-- The executor messages of a plan. -/
def stepMessages (p : Plan A) : List StepMessage := messagesFrom 1 p.steps

/-- The plan as it is written down. -/
def record (p : Plan A) : PlanRecord := ⟨p.steps.map Task.record⟩

end Plan

end TaskNetwork
