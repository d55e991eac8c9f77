import TaskNetwork.Blocks.Basic

/-!
# The blocks world: operators and methods

The hand takes a clear block from the table or from the block below it, and leaves the block it
holds on the table or on a clear block. A block is done if neither it nor any block below it has to
move again; any other block is covered, or can go to its final place, or has to wait because that
place is not ready. The first block by name that can go to its final place does. When none can, the
first waiting block that is not on the table is parked there. When every block is done, nothing is
left to do.
-/

namespace TaskNetwork.Blocks

/-! ## Picking up, putting down, stacking and unstacking -/

/-- Picks a clear block up from the table. -/
def pickup (s : State) : List Arg → Except ApplyFailure State
  | [.block b] =>
    if s.pos.get? b ≠ some .table ∨ !s.isClear b ∨ s.holding.isSome then
      .error (.precondition (b ++ " is not a clear block on the table with the hand empty"))
    else .ok (s.move b .hand false (some b))
  | _ => .error (.arguments "pickup expects (block)")

/-- Takes a clear block off the block below it. -/
def unstack (s : State) : List Arg → Except ApplyFailure State
  | [.block b, .block c] =>
    if s.pos.get? b ≠ some (.on c) ∨ !s.isClear b ∨ s.holding.isSome then
      .error (.precondition (b ++ " is not a clear block on " ++ c ++ " with the hand empty"))
    else .ok ((s.move b .hand false (some b)).setClear c true)
  | _ => .error (.arguments "unstack expects (block, block)")

/-- Puts the held block on the table. -/
def putdown (s : State) : List Arg → Except ApplyFailure State
  | [.block b] =>
    if s.pos.get? b ≠ some .hand then .error (.precondition (b ++ " is not held"))
    else .ok (s.move b .table true none)
  | _ => .error (.arguments "putdown expects (block)")

/-- Puts the held block on a clear block. -/
def stack (s : State) : List Arg → Except ApplyFailure State
  | [.block b, .block c] =>
    if s.pos.get? b ≠ some .hand ∨ !s.isClear c then
      .error (.precondition (b ++ " is not held or " ++ c ++ " is not clear"))
    else .ok ((s.move b (.on c) true none).setClear c false)
  | _ => .error (.arguments "stack expects (block, block)")

/-- The operators of the blocks world. -/
def operators : List (Operator State Arg) :=
  [⟨"pickup", pickup⟩, ⟨"unstack", unstack⟩, ⟨"putdown", putdown⟩, ⟨"stack", stack⟩]

/-! ## What is left to do with a block -/

/-- What is left to do with a block. -/
inductive Status where
  /-- The block and all blocks below it are where they have to end. -/
  | done
  /-- The block is covered or held. -/
  | inaccessible
  | moveToTable
  | moveToBlock
  /-- The place where the block has to end is not ready. -/
  | waiting
deriving DecidableEq, Repr

/-- Whether a goal wants a block elsewhere than `here`. -/
def contradicts (goal : Goal) (block : String) (here : Option Place) : Bool :=
  match goal.get? block with
  | none => false
  | some target => here ≠ some target

/-- Walks down the tower below a block, at most `bound` blocks, to see whether all are where they
have to end. -/
def isDoneWithin (s : State) (goal : Goal) : (bound : Nat) → (block : String) → Bool
  | 0, _ => false
  | bound + 1, block =>
    let here := s.pos.get? block
    !contradicts goal block here &&
      match here with
      | some (.on below) => isDoneWithin s goal bound below
      | some .table => true
      | _ => false

/-- Whether a block and all blocks below it are where they have to end. No tower has more blocks
than the state, so the bound cuts only a chain that goes round in a circle. -/
def isDone (s : State) (goal : Goal) (block : String) : Bool :=
  isDoneWithin s goal (s.pos.size + 1) block

/-- What is left to do with a block. -/
def status (s : State) (goal : Goal) (block : String) : Status :=
  if isDone s goal block then .done
  else if !s.isClear block then .inaccessible
  else
    match goal.get? block with
    | none => .moveToTable
    | some .table => .moveToTable
    | some (.on target) =>
      if isDone s goal target && s.isClear target then .moveToBlock else .waiting
    | some .hand => .waiting

/-! ## Moving blocks toward a goal -/

/-- Where a block should go now, by its status, if it can go to its final place. -/
def finalMove (s : State) (goal : Goal) (block : String) : Option (String × Arg) :=
  match status s goal block with
  | .moveToTable => some (block, .table)
  | .moveToBlock =>
    match goal.get? block with
    | some (.on target) => some (block, .block target)
    | _ => none
  | _ => none

/-- Whether a block waits and can be parked on the table. -/
def canPark (s : State) (goal : Goal) (block : String) : Bool :=
  status s goal block = .waiting && s.pos.get? block ≠ some .table

/-- Moves one block and goes on. -/
def moveThenContinue (block : String) (dest : Arg) (goal : Goal) : List (Task Arg) :=
  [⟨"move_one", [.block block, dest]⟩, ⟨"move_blocks", [.goal goal]⟩]

/-- Moves one block toward the goal and goes on, or is done. -/
def moveBlocks (s : State) : List Arg → Except MethodFailure (List (Task Arg))
  | [.goal goal] =>
    match s.clear.keys.findSome? (finalMove s goal) with
    | some (block, dest) => .ok (moveThenContinue block dest goal)
    | none =>
      match s.clear.keys.find? (canPark s goal) with
      | some block => .ok (moveThenContinue block .table goal)
      | none =>
        if s.clear.keys.all fun block => status s goal block = .done then .ok []
        else .error (.notApplicable "no block can be moved")
  | _ => .error (.arguments "move_blocks expects (goal)")

/-- Moves one block: gets it and puts it. -/
def moveOne (_ : State) : List Arg → Except MethodFailure (List (Task Arg))
  | [.block b, .block c] => .ok [⟨"get", [.block b]⟩, ⟨"put", [.block b, .block c]⟩]
  | [.block b, .table] => .ok [⟨"get", [.block b]⟩, ⟨"put", [.block b, .table]⟩]
  | _ => .error (.arguments "move_one expects (block, dest)")

/-- Gets a clear block from the table or from the block below it. -/
def get (s : State) : List Arg → Except MethodFailure (List (Task Arg))
  | [.block b] =>
    if !s.isClear b then .error (.notApplicable (b ++ " is not clear"))
    else
      match s.pos.get? b with
      | some .table => .ok [⟨"pickup", [.block b]⟩]
      | some (.on c) => .ok [⟨"unstack", [.block b, .block c]⟩]
      | _ => .error (.notApplicable (b ++ " cannot be picked up"))
  | _ => .error (.arguments "get expects (block)")

/-- Puts the held block on the table or on a block. -/
def put (s : State) : List Arg → Except MethodFailure (List (Task Arg))
  | [.block b, dest] =>
    if s.holding ≠ some b then .error (.notApplicable (b ++ " is not held"))
    else
      match dest with
      | .table => .ok [⟨"putdown", [.block b]⟩]
      | .block c => .ok [⟨"stack", [.block b, .block c]⟩]
      | .goal _ => .error (.arguments "put destination is a goal")
  | _ => .error (.arguments "put expects (block, dest)")

end TaskNetwork.Blocks
