import TaskNetwork.Planner
import TaskNetwork.Text.Basic

/-!
# The travel world

A traveller goes from place to place by taxi or on foot. The taxi is tried first; it comes and
drives before it is paid, so a traveller without enough cash makes the search go back.
-/

namespace TaskNetwork

namespace Travel

/-- Where the traveller and the taxi are, and the money. -/
structure State where
  name : String
  place : String
  cash : UInt32
  owe : UInt32
  taxiAt : Option String
deriving DecidableEq, Repr, Inhabited

instance : PlanningState State := ⟨State.name⟩

/-- At home with some cash. -/
def startState (cash : UInt32) : State := ⟨"start", "home", cash, 0, none⟩

/-- The blocks between two places, none if the places are not known. -/
def distance (origin dest : String) : UInt32 :=
  match origin, dest with
  | "home", "park" => 8
  | "park", "home" => 8
  | "home", "shop" => 1
  | "shop", "home" => 1
  | _, _ => 0

/-- The fare of a taxi ride. -/
def fare (blocks : UInt32) : UInt32 := 3 + blocks / 2

/-! ## Operators -/

/-- Walks to a place. -/
def walk (s : State) : List String → Except ApplyFailure State
  | [origin, dest] =>
    if s.place ≠ origin then .error (.precondition ("not at " ++ origin))
    else .ok { s with place := dest }
  | _ => .error (.arguments "expected (from, to)")

/-- Calls the taxi to a place. -/
def callTaxi (s : State) : List String → Except ApplyFailure State
  | [place] => .ok { s with taxiAt := some place }
  | _ => .error (.arguments "expected (at)")

/-- Rides the taxi to a place, on credit. -/
def rideTaxi (s : State) : List String → Except ApplyFailure State
  | [origin, dest] =>
    if s.taxiAt ≠ some origin ∨ s.place ≠ origin then .error (.precondition "no taxi here")
    else .ok { s with place := dest, taxiAt := some dest, owe := fare (distance origin dest) }
  | _ => .error (.arguments "expected (from, to)")

/-- Pays what is owed. -/
def payDriver (s : State) : List String → Except ApplyFailure State := fun _ =>
  if s.cash < s.owe then
    .error (.precondition
      ("cash " ++ Text.decimal s.cash.toNat ++ " < fare " ++ Text.decimal s.owe.toNat))
  else .ok { s with cash := s.cash - s.owe, owe := 0 }

/-- The operators of the travel world. -/
def operators : List (Operator State String) :=
  [⟨"walk", walk⟩, ⟨"call_taxi", callTaxi⟩, ⟨"ride_taxi", rideTaxi⟩, ⟨"pay_driver", payDriver⟩]

/-! ## Methods -/

/-- Travels by taxi. -/
def byTaxi (_ : State) : List String → Except MethodFailure (List (Task String))
  | [origin, dest] =>
    .ok [⟨"call_taxi", [origin]⟩, ⟨"ride_taxi", [origin, dest]⟩, .nullary "pay_driver"]
  | _ => .error (.arguments "expected (from, to)")

/-- Travels on foot, unless it is too far. -/
def byFoot (_ : State) : List String → Except MethodFailure (List (Task String))
  | [origin, dest] =>
    if distance origin dest > 2 then .error (.notApplicable "too far to walk")
    else .ok [⟨"walk", [origin, dest]⟩]
  | _ => .error (.arguments "expected (from, to)")

/-- The task that the methods of the travel world decompose. -/
def travelTask : String := "travel"

/-- The methods of the travel task, in the order in which they are tried. -/
def methods : List (Method State String) :=
  [⟨"travel_by_taxi", byTaxi⟩, ⟨"travel_by_foot", byFoot⟩]

/-- The name of the travel world. -/
def worldId : String := "travel"

/-- The domain of the travel world. -/
def domain : Except DomainError (Domain State String) :=
  Domain.ofBatches worldId [.operators operators, .methods travelTask methods]

/-- Travelling from one place to another; the goal is to be there and to owe nothing. -/
def world (start : State) (origin dest : String) : World State String where
  id := worldId
  domain := domain
  start := start
  initialTasks := [⟨travelTask, [origin, dest]⟩]
  goalSatisfied s := s.place = dest && s.owe = 0

end Travel

/-! ## Counting method calls

The effort of a search is measured in calls of the travel world's own two methods. Methods that
are declared later do not count, whatever their names; they stand behind the own ones, so
positions tell them apart. -/

/-- The method that a decision is about. -/
def Decision.method? : Decision → Option String
  | .methodDecomposed method _ => some method
  | .methodInapplicable method _ => some method
  | _ => none

/-- How often a trace has a method of a name called. -/
def Trace.callsOf (t : Trace) (method : String) : Nat :=
  t.events.countP fun e => e.decision.method? = some method

/-- Renames every method by its task and its position among the methods of the task. -/
def Domain.renameMethods {S A : Type} (rename : String → Nat → String) (d : Domain S A) :
    Domain S A :=
  { d with
    methods := d.methods.mapValues fun task ms =>
      ms.mapIdx fun position m => { m with name := rename task position } }

namespace Travel

/-- Whether the travel world itself has the method at a position of a task. -/
def isOwnMethod (task : String) (position : Nat) : Bool :=
  task = travelTask && position < methods.length

/-- The name under which own methods are counted. -/
def countedName : String := "counted"

/-- The calls of own methods in a search. -/
def callsInSearch (planner : Planner State String) (start : State) (tasks : List (Task String)) :
    Nat :=
  let domain := planner.domain.renameMethods fun task position =>
    if isOwnMethod task position then countedName else ""
  let observer : Planner State String :=
    ⟨domain, { planner.policy with recordDecisions := true }⟩
  (observer.runTraced start tasks).trace.callsOf countedName

/-- The calls of own methods if every method of a task is tried once. -/
def callsInTrial (d : Domain State String) (task : String) : Nat :=
  match d.resolve task with
  | .compound ms => (List.range ms.length).countP (isOwnMethod task)
  | _ => 0

end Travel

end TaskNetwork
