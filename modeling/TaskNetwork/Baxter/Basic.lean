import TaskNetwork.OrderedMap.Basic
import TaskNetwork.Planner

/-!
# The swap world: hands, places and states

A robot with two hands moves blocks between three places: the center, which both hands reach, and
one slot for each hand. A slot is vacated when a block is picked up from it, and only a vacated
slot takes a block.
-/

namespace TaskNetwork.Baxter

/-! ## Hands and places -/

/-- The two hands. -/
inductive Hand where
  | left
  | right
deriving DecidableEq, Repr

/-- Where a block can be. -/
inductive Location where
  | center
  /-- The slot of the left hand. -/
  | t1
  /-- The slot of the right hand. -/
  | t2
  | held (hand : Hand)
deriving DecidableEq, Repr

/-- The slot that a hand serves. -/
def Hand.slot : Hand → Location
  | .left => .t1
  | .right => .t2

/-- The name of a hand. -/
def Hand.text : Hand → String
  | .left => "left"
  | .right => "right"

namespace Location

/-- Whether a place takes one block only. -/
def isSlot : Location → Bool
  | t1 => true
  | t2 => true
  | _ => false

/-- The name of a place; a hand is named as a hand. -/
def text : Location → String
  | center => "center"
  | t1 => "t1"
  | t2 => "t2"
  | held hand => hand.text

/-- The position of a place in the order in which places are listed. -/
def rank : Location → Nat
  | center => 0
  | t1 => 1
  | t2 => 2
  | held .left => 3
  | held .right => 4

theorem rank_inj {a b : Location} (h : a.rank = b.rank) : a = b := by
  rcases a with _ | _ | _ | _ | _ <;> rcases b with _ | _ | _ | _ | _ <;> simp_all [rank]

instance : Ord Location := ⟨compareOn rank⟩

instance : Std.TransOrd Location := inferInstanceAs (Std.TransCmp (compareOn rank))

instance : Std.LawfulEqOrd Location where
  eq_of_compare h := rank_inj (Nat.compare_eq_eq.1 h)

end Location

/-! ## Goals and arguments -/

/-- Where blocks have to end; a block that is not listed may end anywhere. -/
abbrev Goal := OrderedMap String Location

/-- What tasks of the swap world speak about. -/
inductive Arg where
  | block (name : String)
  | location (loc : Location)
  | hand (hand : Hand)
  | goal (goal : Goal)
deriving DecidableEq

instance : Argument Arg where
  text
    | .block name => name
    | .location loc => loc.text
    | .hand hand => hand.text
    | .goal _ => "goal"

/-! ## States -/

/-- Where the blocks are, what the hands hold, and which slots are vacated. -/
structure State where
  name : String
  pos : OrderedMap String Location
  holdingLeft : Option String
  holdingRight : Option String
  vacated : OrderedSet Location
deriving DecidableEq

instance : PlanningState State := ⟨State.name⟩

namespace State

/-- Blocks at their places, with empty hands and no vacated slot. -/
def ofPositions (name : String) (pos : OrderedMap String Location) : State :=
  ⟨name, pos, none, none, ∅⟩

/-- The block that a hand holds. -/
def holding (s : State) : Hand → Option String
  | .left => s.holdingLeft
  | .right => s.holdingRight

/-- Changes what a hand holds. -/
def setHolding (s : State) (hand : Hand) (block : Option String) : State :=
  match hand with
  | .left => { s with holdingLeft := block }
  | .right => { s with holdingRight := block }

/-- Whether both hands are empty. -/
def handsEmpty (s : State) : Bool := s.holdingLeft.isNone && s.holdingRight.isNone

end State

end TaskNetwork.Baxter
