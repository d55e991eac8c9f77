import TaskNetwork.OrderedMap.Basic
import TaskNetwork.Planner

/-!
# The blocks world: places and states

One hand moves blocks between towers on a table. A state says where each block is, which blocks
are clear, that is neither covered nor held, and which block the hand holds.
-/

namespace TaskNetwork.Blocks

/-- The name of the table. -/
def tableName : String := "table"

/-- Where a block can be. -/
inductive Place where
  | table
  | hand
  /-- On top of another block. -/
  | on (below : String)
deriving DecidableEq, Repr

/-- The name of a place; the top of a block is named as the block. -/
def Place.text : Place → String
  | .table => tableName
  | .hand => "hand"
  | .on below => below

/-- Where blocks have to end; a block that is not listed may end anywhere. -/
abbrev Goal := OrderedMap String Place

/-- What tasks of the blocks world speak about. -/
inductive Arg where
  | block (name : String)
  | table
  | goal (goal : Goal)
deriving DecidableEq

instance : Argument Arg where
  text
    | .block name => name
    | .table => tableName
    | .goal _ => "goal"

/-! ## States -/

/-- Where the blocks are, which of them are clear, and what the hand holds. -/
structure State where
  name : String
  pos : OrderedMap String Place
  clear : OrderedMap String Bool
  holding : Option String
deriving DecidableEq

instance : PlanningState State := ⟨State.name⟩

namespace State

/-- Blocks at their places with an empty hand; a block is clear if no block is on it. -/
def ofPositions (name : String) (pos : OrderedMap String Place) : State where
  name := name
  pos := pos
  clear := pos.mapValues fun block _ => !pos.values.contains (.on block)
  holding := none

/-- Whether a block is known and clear. -/
def isClear (s : State) (block : String) : Bool := (s.clear.get? block).getD false

/-- Puts a block at a place, on the way marking it clear or not and changing what is held. -/
def move (s : State) (block : String) (place : Place) (clear : Bool) (holding : Option String) :
    State :=
  { s with
    pos := s.pos.insert block place
    clear := s.clear.replace block clear
    holding := holding }

/-- Marks a known block as clear or not. -/
def setClear (s : State) (block : String) (clear : Bool) : State :=
  { s with clear := s.clear.replace block clear }

end State

end TaskNetwork.Blocks
