import TaskNetwork.Planner
import TaskNetwork.Text.Basic

/-!
# Scripted worlds

The domain of a scripted world is data. States are whole-number variables; operators and methods
have guards on them, operators change them, and methods list their subtasks. Names in a script may
refer to the arguments of the task: `$0` stands for the first of them.
-/

namespace TaskNetwork.Scripted

/-! ## References to arguments -/

/-- Replaces each `$` that a digit follows by the argument of that number, nothing if there is
none. -/
def substituteChars (args : List String) : List Char → List Char
  | [] => []
  | '$' :: c :: rest =>
    if c.isDigit then (args.getD (c.toNat - '0'.toNat) "").toList ++ substituteChars args rest
    else '$' :: substituteChars args (c :: rest)
  | c :: rest => c :: substituteChars args rest

/-- Replaces the references to arguments in a text. -/
def substitute (args : List String) (s : String) : String :=
  String.ofList (substituteChars args s.toList)

/-! ## States -/

/-- Variables with 64-bit values; a variable that is not listed counts as zero. -/
structure State where
  name : String
  vars : OrderedMap String Int64
deriving DecidableEq

instance : PlanningState State := ⟨State.name⟩

/-- The value of a variable. -/
def State.value (s : State) (var : String) : Int64 := (s.vars.get? var).getD 0

/-! ## Guards and effects -/

/-- How a guard compares. -/
inductive Comparison where
  | equal
  | unequal
  | less
  | atLeast
deriving DecidableEq, Repr

/-- The sign of a comparison. -/
def Comparison.sign : Comparison → String
  | .equal => "=="
  | .unequal => "!="
  | .less => "<"
  | .atLeast => ">="

/-- Whether two numbers compare so. -/
def Comparison.holds : Comparison → Int64 → Int64 → Bool
  | .equal, a, b => a == b
  | .unequal, a, b => a != b
  | .less, a, b => a < b
  | .atLeast, a, b => b ≤ a

/-- A condition on one variable. -/
structure Guard where
  var : String
  comparison : Comparison
  value : Int64
deriving DecidableEq

namespace Guard

/-- The guard with its references to arguments replaced. -/
def instantiate (args : List String) (g : Guard) : Guard := { g with var := substitute args g.var }

/-- Whether a state meets the guard. -/
def holds (s : State) (g : Guard) : Bool := g.comparison.holds (s.value g.var) g.value

/-- What is said of a guard that fails. -/
def refusal (g : Guard) : String :=
  g.var ++ " " ++ g.comparison.sign ++ " " ++ Text.decimalInt g.value.toInt ++ " is false"

/-- The first of several guards that a state does not meet. -/
def firstFailing (s : State) (args : List String) (gs : List Guard) : Option Guard :=
  (gs.map (instantiate args)).find? fun g => !g.holds s

end Guard

/-- A change of one variable: it is given a value, or a number is added to it. -/
inductive Effect where
  | assign (var : String) (value : Int64)
  | add (var : String) (value : Int64)
deriving DecidableEq

/-- Carries an effect out. -/
def Effect.apply (args : List String) (s : State) : Effect → State
  | .assign var value => { s with vars := s.vars.insert (substitute args var) value }
  | .add var value =>
    let var := substitute args var
    { s with vars := s.vars.insert var (s.value var + value) }

/-! ## Operators and methods -/

/-- An operator of a script; with an arity it wants that many arguments. -/
structure OperatorScript where
  name : String
  arity : Option Nat
  guards : List Guard
  effects : List Effect

/-- A method of a script; with an arity it wants that many arguments. -/
structure MethodScript where
  name : String
  arity : Option Nat
  guards : List Guard
  subtasks : List (Task String)

/-- Why a script's guards refuse: the number of arguments, or a condition. -/
inductive Refusal where
  | arity (expected : Nat)
  | guardFailed (g : Guard)

/-- Checks the number of arguments, then the guards in order. -/
def check (arity : Option Nat) (guards : List Guard) (s : State) (args : List String) :
    Option Refusal :=
  match arity.filter fun n => n ≠ args.length with
  | some n => some (.arity n)
  | none => (Guard.firstFailing s args guards).map .guardFailed

/-- What is said of a wrong number of arguments. -/
def arityRefusal (expected : Nat) : String := "expected " ++ Text.decimal expected ++ " args"

/-- The operator of a script. -/
def OperatorScript.operator (o : OperatorScript) : Operator State String where
  name := o.name
  apply s args :=
    match check o.arity o.guards s args with
    | some (.arity n) => .error (.arguments (arityRefusal n))
    | some (.guardFailed g) => .error (.precondition g.refusal)
    | none => .ok (o.effects.foldl (Effect.apply args) s)

/-- A subtask with its references to arguments replaced. -/
def instantiateTask (args : List String) (t : Task String) : Task String :=
  ⟨substitute args t.name, t.args.map (substitute args)⟩

/-- The method of a script. -/
def MethodScript.method (m : MethodScript) : Method State String where
  name := m.name
  decompose s args :=
    match check m.arity m.guards s args with
    | some (.arity n) => .error (.arguments (arityRefusal n))
    | some (.guardFailed g) => .error (.notApplicable g.refusal)
    | none => .ok (m.subtasks.map (instantiateTask args))

/-! ## Worlds -/

/-- Scripts that are declared together. -/
inductive Declaration where
  | operators (scripts : List OperatorScript)
  | methods (task : String) (scripts : List MethodScript)

/-- The operators or methods of the scripts. -/
def Declaration.batch : Declaration → Batch State String
  | .operators scripts => .operators (scripts.map OperatorScript.operator)
  | .methods task scripts => .methods task (scripts.map MethodScript.method)

/-- A scripted world. -/
structure Script where
  name : String
  declarations : List Declaration
  start : State
  tasks : List (Task String)
  goal : List Guard

/-- A script as a world; its goal holds when every goal guard does. -/
def Script.world (s : Script) : World State String where
  id := s.name
  domain := Domain.ofBatches s.name (s.declarations.map Declaration.batch)
  start := s.start
  initialTasks := s.tasks
  goalSatisfied state := (Guard.firstFailing state [] s.goal).isNone

end TaskNetwork.Scripted
