import TaskNetwork.Baxter.Basic

/-!
# The swap world: operators and methods

A hand picks a block up from the center or from its own slot. It places a block that it holds at
the center, or in its own slot if that slot is vacated. A block in a slot that has to leave it goes
to the center first; a block at the center goes to its slot once the slot is vacated. Of the blocks
that can move, the first one by name does.
-/

namespace TaskNetwork.Baxter

/-! ## Picking up and placing -/

/-- Takes a block from a place where a free hand reaches it. -/
def State.takeUp (s : State) (block : String) (loc : Location) (hand : Hand) : State :=
  State.setHolding
    { s with
      pos := s.pos.insert block (.held hand)
      vacated := if loc.isSlot then s.vacated.add loc else s.vacated }
    hand (some block)

/-- Picks a block up with a hand. -/
def pickup (s : State) : List Arg → Except ApplyFailure State
  | [.block block, .hand hand] =>
    match s.pos.get? block with
    | none => .error (.precondition ("unknown block " ++ block))
    | some loc =>
      if loc ≠ .center ∧ loc ≠ hand.slot then
        .error (.precondition
          (block ++ " at " ++ loc.text ++ " is out of reach of the " ++ hand.text ++ " hand"))
      else if (s.holding hand).isSome then
        .error (.precondition (hand.text ++ " hand is full"))
      else
        .ok (s.takeUp block loc hand)
  | _ => .error (.arguments "pickup expects (block, hand)")

/-- Puts a block down at a place that has been found free. -/
def State.putDown (s : State) (block : String) (dest : Location) (hand : Hand) : State :=
  State.setHolding { s with pos := s.pos.insert block dest } hand none

/-- Places a block that a hand holds. -/
def place (s : State) : List Arg → Except ApplyFailure State
  | [.block block, .location dest, .hand hand] =>
    if s.pos.get? block ≠ some (.held hand) then
      .error (.precondition (block ++ " is not held by the " ++ hand.text ++ " hand"))
    else
      match dest with
      | .center => .ok (s.putDown block .center hand)
      | .held _ => .error (.arguments "cannot place a block into a hand")
      | slot =>
        if slot ≠ hand.slot then
          .error (.precondition
            (slot.text ++ " is out of reach of the " ++ hand.text ++ " hand"))
        else if !s.vacated.contains slot then
          .error (.precondition (slot.text ++ " is occupied"))
        else
          .ok (State.putDown { s with vacated := s.vacated.erase slot } block slot hand)
  | _ => .error (.arguments "place expects (block, dest, hand)")

/-- The operators of the swap world. -/
def operators : List (Operator State Arg) := [⟨"pickup", pickup⟩, ⟨"place", place⟩]

/-! ## Moving blocks toward a goal -/

/-- The blocks that a goal wants elsewhere, with where they are and where they should be. -/
def misplaced (s : State) (goal : Goal) : List (String × Location × Location) :=
  s.pos.toList.filterMap fun e =>
    match goal.get? e.1 with
    | none => none
    | some target => if e.2 = target then none else some (e.1, e.2, target)

/-- The next move of a block on its way, and the hand for it, if it can move now. -/
def stepToward (s : State) : Location → Location → Option (Location × Hand)
  | .t1, .center => some (.center, .left)
  | .t1, .t2 => some (.center, .left)
  | .t2, .center => some (.center, .right)
  | .t2, .t1 => some (.center, .right)
  | .center, .t1 => if s.vacated.contains .t1 then some (.t1, .left) else none
  | .center, .t2 => if s.vacated.contains .t2 then some (.t2, .right) else none
  | _, _ => none

/-- The task of moving one block. -/
def moveOneTask (block : String) (dest : Location) (hand : Hand) : Task Arg :=
  ⟨"move_one", [.block block, .location dest, .hand hand]⟩

/-- Moves one block toward the goal and goes on, or is done. -/
def moveBlocks (s : State) : List Arg → Except MethodFailure (List (Task Arg))
  | [.goal goal] =>
    let moves := (misplaced s goal).filterMap fun (block, here, target) =>
      (stepToward s here target).map fun step => moveOneTask block step.1 step.2
    match moves with
    | move :: _ => .ok [move, ⟨"move_blocks", [.goal goal]⟩]
    | [] =>
      if (misplaced s goal).isEmpty then .ok []
      else .error (.notApplicable "no misplaced block can move toward its goal")
  | _ => .error (.arguments "move_blocks expects (goal)")

/-- Moves one block: gets it and puts it. -/
def moveOne (_ : State) : List Arg → Except MethodFailure (List (Task Arg))
  | [.block block, .location dest, .hand hand] =>
    .ok [⟨"get", [.block block, .hand hand]⟩,
      ⟨"put", [.block block, .location dest, .hand hand]⟩]
  | _ => .error (.arguments "move_one expects (block, dest, hand)")

/-- Gets a block by picking it up. -/
def get (_ : State) : List Arg → Except MethodFailure (List (Task Arg))
  | [.block block, .hand hand] => .ok [⟨"pickup", [.block block, .hand hand]⟩]
  | _ => .error (.arguments "get expects (block, hand)")

/-- Puts a held block by placing it. -/
def put (s : State) : List Arg → Except MethodFailure (List (Task Arg))
  | [.block block, .location dest, .hand hand] =>
    if s.holdingLeft = some block ∨ s.holdingRight = some block then
      .ok [⟨"place", [.block block, .location dest, .hand hand]⟩]
    else .error (.notApplicable (block ++ " is not held"))
  | _ => .error (.arguments "put expects (block, dest, hand)")

end TaskNetwork.Baxter
