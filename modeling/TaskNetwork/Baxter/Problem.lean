import TaskNetwork.Baxter.Domain
import TaskNetwork.Replay

/-!
# The swap world: problems

A problem says where blocks start and where some of them have to end. No block starts or ends in a
hand, no two blocks start in one slot, and every block of the goal has a start.
-/

namespace TaskNetwork.Baxter

/-- The name of the swap world. -/
def worldId : String := "baxter_swap"

/-- Why a problem is refused. -/
inductive ProblemError where
  | inHand (block : String)
  | sharedSlot (slot : Location)
  | unknownBlock (block : String)
deriving DecidableEq, Repr

/-- The refusal in words. -/
def ProblemError.message : ProblemError → String
  | .inHand block => "invalid problem: " ++ block ++ " cannot start or end in a hand"
  | .sharedSlot slot => "invalid problem: more than one block starts at " ++ slot.text
  | .unknownBlock block => "No such block: " ++ block

/-- Where blocks start and where they have to end. -/
structure Problem where
  start : OrderedMap String Location
  goal : Goal
deriving DecidableEq

namespace Problem

/-- The blocks that a list of positions puts into a hand. -/
def blocksInHand (positions : List (String × Location)) : List String :=
  positions.filterMap fun
    | (block, .held _) => some block
    | _ => none

/-- The number of blocks at a place. -/
def countAt (positions : OrderedMap String Location) (loc : Location) : Nat :=
  positions.values.count loc

/-- Checks a problem; of several faults the first in this order is reported. -/
def create (start goal : OrderedMap String Location) : Except ProblemError Problem :=
  match blocksInHand (start.toList ++ goal.toList) with
  | block :: _ => .error (.inHand block)
  | [] =>
    match [Location.t1, Location.t2].find? fun slot => countAt start slot > 1 with
    | some slot => .error (.sharedSlot slot)
    | none =>
      match goal.keys.find? fun block => !start.contains block with
      | some block => .error (.unknownBlock block)
      | none => .ok ⟨start, goal⟩

/-- Red at the center, blue and green in the slots; blue and green change places. -/
def swap : Problem where
  start := OrderedMap.ofList [("red", .center), ("blue", .t1), ("green", .t2)]
  goal := OrderedMap.ofList [("red", .center), ("blue", .t2), ("green", .t1)]

/-- The state that planning starts from. -/
def startState (p : Problem) : State := .ofPositions "Start state" p.start

/-- Whether the hands are empty and every block of the goal is where it should be. -/
def goalSatisfied (p : Problem) (s : State) : Bool :=
  s.handsEmpty && p.goal.toList.all fun e => s.pos.get? e.1 = some e.2

end Problem

/-- The domain of the swap world. -/
def domain : Except DomainError (Domain State Arg) :=
  Domain.ofBatches worldId
    [.operators operators, .methods "put" [⟨"place_held_block", put⟩],
      .methods "get" [⟨"pickup_block", get⟩], .methods "move_one" [⟨"get_then_put", moveOne⟩],
      .methods "move_blocks" [⟨"advance_one_block", moveBlocks⟩]]

/-- A problem as a world. -/
def Problem.world (p : Problem) : World State Arg where
  id := worldId
  domain := domain
  start := p.startState
  initialTasks := [⟨"move_blocks", [.goal p.goal]⟩]
  goalSatisfied := p.goalSatisfied

/-! ## Consistent states

A state is consistent with the positions that blocks started from if it has the same blocks, the
hands hold what its positions say, and no slot gained or lost room: a slot that held a block at the
start holds one or is vacated, and a slot that was empty stays empty and is never vacated. -/

/-- What a state says of its blocks agrees, and its slots have the room that they started with. -/
structure State.IsConsistent (s : State) (start : OrderedMap String Location) : Prop where
  known : s.pos.keys = start.keys
  holding {block : String} {hand : Hand} :
    s.holding hand = some block ↔ s.pos.get? block = some (.held hand)
  vacated {loc : Location} : s.vacated.contains loc = true → loc.isSlot = true
  room {slot : Location} :
    slot.isSlot = true →
      Problem.countAt s.pos slot + (if s.vacated.contains slot then 1 else 0) =
        Problem.countAt start slot
  single {slot : Location} : slot.isSlot = true → Problem.countAt start slot ≤ 1

/-- The states that a problem leads to. -/
def Problem.Reaches (p : Problem) (s : State) : Prop := Reachable operators p.startState s

end TaskNetwork.Baxter
