import TaskNetwork.OrderedMap.Basic
import TaskNetwork.Task
import TaskNetwork.Text.Quoted

/-!
# Planning domains

A domain holds the operators that carry out primitive tasks and the methods that decompose
compound ones. A declaration changes a domain in place, and says whether it was accepted; it is
refused when its name is taken on the other side, so every task name resolves to an operator, to a
list of methods, or to nothing.
-/

namespace TaskNetwork

/-! ## Operators -/

/-- Why an operator refuses a state. -/
inductive ApplyFailure where
  | precondition (detail : String)
  | arguments (detail : String)
deriving DecidableEq, Repr

/-- The failure in words. -/
def ApplyFailure.message : ApplyFailure → String
  | .precondition detail => "precondition not met: " ++ detail
  | .arguments detail => "argument mismatch: " ++ detail

/-- A primitive action: it gives the next state or refuses. -/
structure Operator (S A : Type) where
  name : String
  apply : S → List A → Except ApplyFailure S

/-- Operators by name. -/
abbrev OperatorTable (S A : Type) := OrderedMap String (Operator S A)

namespace OperatorTable

variable {S A : Type}

/-- Adds an operator under its own name; an operator of that name gives way. -/
def register (t : OperatorTable S A) (op : Operator S A) : OperatorTable S A :=
  t.insert op.name op

end OperatorTable

/-! ## Methods -/

/-- Why a method declines a task. -/
inductive MethodFailure where
  | notApplicable (detail : String)
  | arguments (detail : String)
deriving DecidableEq, Repr

/-- The failure in words. -/
def MethodFailure.message : MethodFailure → String
  | .notApplicable detail => "method not applicable: " ++ detail
  | .arguments detail => "argument mismatch: " ++ detail

/-- A way to decompose a compound task: subtasks that replace it, or a refusal. -/
structure Method (S A : Type) where
  name : String
  decompose : S → List A → Except MethodFailure (List (Task A))

/-- The methods of each compound task, in the order in which they were added. -/
abbrev MethodTable (S A : Type) := OrderedMap String (List (Method S A))

namespace MethodTable

variable {S A : Type}

/-- The methods of a task, none if the name is not known. -/
def methodsOf (t : MethodTable S A) (task : String) : List (Method S A) :=
  (t.get? task).getD []

/-- Adds a method after those that the task already has. -/
def register (t : MethodTable S A) (task : String) (m : Method S A) : MethodTable S A :=
  t.insert task (t.methodsOf task ++ [m])

end MethodTable

/-! ## Domains -/

/-- The two kinds of task that a domain knows. -/
inductive TaskKind where
  | primitive
  | compound
deriving DecidableEq, Repr

/-- Why a declaration is refused. -/
inductive DomainError where
  /-- The name belongs to a task of the other kind, `existing`. -/
  | ambiguousName (name : String) (existing : TaskKind)
deriving DecidableEq, Repr

/-- Operators and methods for one kind of planning problem. -/
structure Domain (S A : Type) where
  name : String
  operators : OperatorTable S A
  methods : MethodTable S A

/-- What a task name means in a domain. -/
inductive Resolution (S A : Type) where
  | primitive (op : Operator S A)
  | compound (methods : List (Method S A))
  | unknown

namespace Domain

variable {S A : Type}

/-- A domain that knows no task. -/
def empty (name : String) : Domain S A := ⟨name, ∅, ∅⟩

/-- Looks a task name up, among the operators first. -/
def resolve (d : Domain S A) (task : String) : Resolution S A :=
  match d.operators.get? task with
  | some op => .primitive op
  | none =>
    match d.methods.get? task with
    | some methods => .compound methods
    | none => .unknown

/-- Declares operators one after the other, once the names of all of them are found free; gives the
domain as it is then. -/
def declareOperators (d : Domain S A) (ops : List (Operator S A)) :
    Except DomainError Unit × Domain S A :=
  match ops.find? fun op => d.methods.contains op.name with
  | some op => (.error (.ambiguousName op.name .compound), d)
  | none => (.ok (), { d with operators := ops.foldl OperatorTable.register d.operators })

/-- Declares methods for one task, after the methods that it already has; gives the domain as it is
then. -/
def declareMethods (d : Domain S A) (task : String) (ms : List (Method S A)) :
    Except DomainError Unit × Domain S A :=
  if d.operators.contains task then (.error (.ambiguousName task .primitive), d)
  else (.ok (), { d with methods := ms.foldl (fun t m => t.register task m) d.methods })

end Domain

/-! ## Batches -/

/-- Operators, or methods for one task, that are declared together. -/
inductive Batch (S A : Type) where
  | operators (ops : List (Operator S A))
  | methods (task : String) (ms : List (Method S A))

namespace Domain

variable {S A : Type}

/-- Declares a batch; gives the domain as it is then. -/
def declare (d : Domain S A) : Batch S A → Except DomainError Unit × Domain S A
  | .operators ops => d.declareOperators ops
  | .methods task ms => d.declareMethods task ms

/-- Declares batches until one is refused; gives the domain as it is then. -/
def declareAll (d : Domain S A) : List (Batch S A) → Except DomainError Unit × Domain S A
  | [] => (.ok (), d)
  | b :: bs =>
    match d.declare b with
    | (.ok _, d) => d.declareAll bs
    | (.error e, d) => (.error e, d)

/-- A new domain with batches, unless one of them is refused. -/
def ofBatches (name : String) (bs : List (Batch S A)) : Except DomainError (Domain S A) :=
  match (empty name).declareAll bs with
  | (.ok _, d) => .ok d
  | (.error e, _) => .error e

end Domain

/-! ## What batches declare

What is in a batch, and what comes of a domain to which batches are declared one after the other,
whether they are accepted or refused. -/

section

variable {S A : Type}

namespace Batch

/-- The kind that the names of a batch get. -/
def kind : Batch S A → TaskKind
  | operators _ => .primitive
  | methods _ _ => .compound

/-- The names that a batch declares, in order. -/
def names : Batch S A → List String
  | operators ops => ops.map Operator.name
  | methods task _ => [task]

/-- The operators in a batch. -/
def declaredOperators : Batch S A → List (Operator S A)
  | operators ops => ops
  | methods _ _ => []

/-- The methods for a task in a batch. -/
def declaredMethods (name : String) : Batch S A → List (Method S A)
  | operators _ => []
  | methods task ms => if name = task then ms else []

/-- The last operator of a name in some batches. -/
def lastOperator? (batches : List (Batch S A)) (name : String) : Option (Operator S A) :=
  (batches.flatMap declaredOperators).findRev? fun op => op.name == name

/-- All methods for a task in some batches, in order. -/
def allMethods (batches : List (Batch S A)) (name : String) : List (Method S A) :=
  batches.flatMap (declaredMethods name)

end Batch

/-- The kind of task that a name stands for. -/
def Resolution.kind? : Resolution S A → Option TaskKind
  | .primitive _ => some .primitive
  | .compound _ => some .compound
  | .unknown => none

namespace Domain

/-- The domain after batches one after the other, accepted or refused. -/
def afterBatches (d : Domain S A) (bs : List (Batch S A)) : Domain S A :=
  bs.foldl (fun d b => (d.declare b).2) d

/-- The batches that are accepted, one after the other. -/
def accepted (d : Domain S A) : List (Batch S A) → List (Batch S A)
  | [] => []
  | b :: bs =>
    match d.declare b with
    | (.ok _, d) => b :: d.accepted bs
    | (.error _, d) => d.accepted bs

end Domain

end

/-! ## Descriptions

One-line descriptions of operators, methods, their tables and whole domains, and the wording of
refused declarations. Names are quoted, so no name can pass for part of the description. -/

section

open Text

variable {S A : Type}

/-- An operator by its name. -/
def Operator.describe (op : Operator S A) : String :=
  recordText "Operator" [("name", quoted op.name)]

/-- A method by its name. -/
def Method.describe (m : Method S A) : String :=
  recordText "Method" [("name", quoted m.name)]

/-- The names of the operators. -/
def OperatorTable.describe (t : OperatorTable S A) : String :=
  bracketed (t.keys.map quoted)

/-- The names of each task's methods. -/
def MethodTable.describe (t : MethodTable S A) : String :=
  braced (t.toList.map fun e => (quoted e.1, bracketed (e.2.map fun m => quoted m.name)))

/-- What a name means, with the operator or the methods behind it. -/
def Resolution.describe : Resolution S A → String
  | .primitive op => "Primitive(" ++ op.describe ++ ")"
  | .compound ms => "Compound(" ++ bracketed (ms.map Method.describe) ++ ")"
  | .unknown => "Unknown"

/-- A domain with the names in its tables. -/
def Domain.describe (d : Domain S A) : String :=
  recordText "Domain"
    [("name", quoted d.name), ("operators", OperatorTable.describe d.operators),
      ("methods", MethodTable.describe d.methods)]

/-- A kind of task by what carries it out. -/
def TaskKind.text : TaskKind → String
  | .primitive => "an operator"
  | .compound => "a method"

/-- The refusal in words. -/
def DomainError.message : DomainError → String
  | .ambiguousName name existing =>
      "task name " ++ quoted name ++ " is already registered as " ++ existing.text

end

end TaskNetwork
