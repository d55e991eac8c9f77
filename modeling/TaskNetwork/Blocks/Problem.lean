import TaskNetwork.Blocks.Domain
import TaskNetwork.Replay

/-!
# The blocks world: problems

A problem is given by facts, each of which puts a block on a support: the table or another block.
The start facts list all blocks. The goal facts override the start position of the blocks that
they name; every other block has to end where it started.
-/

namespace TaskNetwork.Blocks

/-- The name of the blocks world. -/
def worldId : String := "blocks_world"

/-- A block stands on a support, which is a block or the table. -/
structure Fact where
  block : String
  on : String
deriving DecidableEq, Repr, Inhabited

/-- Why facts are refused. -/
inductive ProblemError where
  | unknownBlock (block : String)
  | onItself (block : String)
  | listedTwice (block : String)
  | sharedSupport (below : String)
  | supportCycle (block : String)
deriving DecidableEq, Repr

/-- The refusal in words. -/
def ProblemError.message : ProblemError → String
  | .unknownBlock block => "No such block: " ++ block
  | .onItself block => "invalid problem: " ++ block ++ " cannot be on itself"
  | .listedTwice block => "invalid problem: " ++ block ++ " is listed twice"
  | .sharedSupport below => "invalid problem: more than one block on " ++ below
  | .supportCycle block => "invalid problem: support cycle through " ++ block

/-! ## From facts to positions -/

/-- The place that a fact gives its block, if block and support are known. -/
def Fact.place (isKnown : String → Bool) (f : Fact) : Except ProblemError Place :=
  if !isKnown f.block then .error (.unknownBlock f.block)
  else if f.on = tableName then .ok .table
  else if f.on = f.block then .error (.onItself f.block)
  else if isKnown f.on then .ok (.on f.on)
  else .error (.unknownBlock f.on)

/-- Adds the positions of facts to those of facts before them. -/
def addFacts (isKnown : String → Bool) (pos : OrderedMap String Place) :
    List Fact → Except ProblemError (OrderedMap String Place)
  | [] => .ok pos
  | f :: fs => do
    let place ← f.place isKnown
    if pos.contains f.block then .error (.listedTwice f.block)
    else addFacts isKnown (pos.insert f.block place) fs

/-- The first block, in the order of the blocks on top, that carries two blocks. -/
def sharedSupport? (pos : OrderedMap String Place) : Option String :=
  pos.values.findSome? fun
    | .on below => if pos.values.count (.on below) > 1 then some below else none
    | _ => none

/-- The positions that facts describe; each block is listed once and carries at most one block. -/
def positions (isKnown : String → Bool) (facts : List Fact) :
    Except ProblemError (OrderedMap String Place) := do
  let pos ← addFacts isKnown ∅ facts
  match sharedSupport? pos with
  | some below => .error (.sharedSupport below)
  | none => return pos

/-! ## Towers -/

/-- Whether the supports below `block` lead to `goal` in at most `bound` steps. -/
def leadsTo (pos : OrderedMap String Place) (goal : String) :
    (bound : Nat) → (block : String) → Bool
  | 0, _ => false
  | bound + 1, block =>
    match pos.get? block with
    | some (.on below) => below = goal || leadsTo pos goal bound below
    | _ => false

/-- The first block that stands, over any number of blocks, on itself. -/
def cycle? (pos : OrderedMap String Place) : Option String :=
  pos.keys.find? fun block => leadsTo pos block pos.size block

/-- Accepts positions in which no block stands on itself. -/
def checkAcyclic (pos : OrderedMap String Place) : Except ProblemError Unit :=
  match cycle? pos with
  | some block => .error (.supportCycle block)
  | none => .ok ()

/-! ## Problems -/

/-- Where blocks start and where they have to end. -/
structure Problem where
  start : OrderedMap String Place
  goal : Goal
deriving DecidableEq

namespace Problem

/-- Builds a problem from the facts of its start and of its goal. -/
def ofFacts (start goal : List Fact) : Except ProblemError Problem := do
  let startPos ← positions (fun name => start.any fun f => f.block == name) start
  let goalPos ← positions startPos.contains goal
  let merged := startPos.insertAll goalPos.toList
  checkAcyclic startPos
  checkAcyclic merged
  return ⟨startPos, merged⟩

/-- Three blocks on the table, to be stacked `a` on `b` on `c`. -/
def stacking : Problem where
  start := OrderedMap.ofList [("a", .table), ("b", .table), ("c", .table)]
  goal := OrderedMap.ofList [("a", .on "b"), ("b", .on "c"), ("c", .table)]

/-- The state that planning starts from. -/
def startState (p : Problem) : State := .ofPositions "Start state" p.start

/-- Whether the hand is empty and every block of the goal is where it should be. -/
def goalSatisfied (p : Problem) (s : State) : Bool :=
  s.holding.isNone && p.goal.toList.all fun e => s.pos.get? e.1 = some e.2

end Problem

/-- The domain of the blocks world. -/
def domain : Except DomainError (Domain State Arg) :=
  Domain.ofBatches worldId
    [.operators operators, .methods "put" [⟨"put_held_block", put⟩],
      .methods "get" [⟨"get_clear_block", get⟩], .methods "move_one" [⟨"get_then_put", moveOne⟩],
      .methods "move_blocks" [⟨"move_by_status", moveBlocks⟩]]

/-- A problem as a world. -/
def Problem.world (p : Problem) : World State Arg where
  id := worldId
  domain := domain
  start := p.startState
  initialTasks := [⟨"move_blocks", [.goal p.goal]⟩]
  goalSatisfied := p.goalSatisfied

/-! ## Turning a tower over

The towers `b0` on `b1` and so on down to the table, to be rebuilt the other way round. Their plans
grow with the height, which makes them a yardstick for the depth bound. -/

/-- The name of the block with a number. -/
def numberedBlock (i : Nat) : String := "b" ++ Text.decimal i

/-- A tower with `b0` on top and the last block on the table. -/
def towerFacts (height : Nat) : List Fact :=
  (List.range height).map fun i =>
    ⟨numberedBlock i, if i + 1 = height then tableName else numberedBlock (i + 1)⟩

/-- The same tower with `b0` on the table and the last block on top. -/
def invertedFacts (height : Nat) : List Fact :=
  (List.range height).map fun i =>
    ⟨numberedBlock i, if i = 0 then tableName else numberedBlock (i - 1)⟩

/-- Why there is no such problem. -/
inductive TowerError where
  | noBlocks
  | rejected (e : ProblemError)
deriving DecidableEq, Repr

/-- The refusal in words. -/
def TowerError.message : TowerError → String
  | .noBlocks => "tower needs at least one block"
  | .rejected e => e.message

/-- The problem of turning a tower over. -/
def invertedTower (height : Nat) : Except TowerError Problem :=
  if height = 0 then .error .noBlocks
  else (Problem.ofFacts (towerFacts height) (invertedFacts height)).mapError .rejected

/-- The steps that turn a tower over. The top block goes to the table, each block below it onto the
one that was moved before, and the last one comes from the table. -/
def inversionSteps (height : Nat) : List (Task Arg) :=
  [⟨"unstack", [.block (numberedBlock 0), .block (numberedBlock 1)]⟩,
    ⟨"putdown", [.block (numberedBlock 0)]⟩] ++
  (List.range' 1 (height - 2)).flatMap (fun i =>
    [⟨"unstack", [.block (numberedBlock i), .block (numberedBlock (i + 1))]⟩,
      ⟨"stack", [.block (numberedBlock i), .block (numberedBlock (i - 1))]⟩]) ++
  [⟨"pickup", [.block (numberedBlock (height - 1))]⟩,
    ⟨"stack", [.block (numberedBlock (height - 1)), .block (numberedBlock (height - 2))]⟩]

/-- The policy with the largest depth bound, for towers whose plans outgrow the default. -/
def deepPolicy : Policy := { maxDepth := Policy.maxDepthCeiling }

/-! ## Towers and consistent states

Positions are towers if every block stands, over any number of blocks, on the table, and no block
carries two. A state is consistent if its positions are towers but for the block in the hand, and
what it says of clear blocks and of the hand agrees with its positions. -/

/-- The supports below a block lead to the table. -/
inductive Grounded (pos : OrderedMap String Place) : String → Prop where
  | table {block : String} : pos.get? block = some .table → Grounded pos block
  | on {block below : String} :
      pos.get? block = some (.on below) → Grounded pos below → Grounded pos block

/-- Every block stands in a tower on the table. -/
structure IsTowers (pos : OrderedMap String Place) : Prop where
  support {block below : String} :
    pos.get? block = some (.on below) → pos.contains below = true ∧ below ≠ block
  unshared {block block' below : String} :
    pos.get? block = some (.on below) → pos.get? block' = some (.on below) → block = block'
  grounded {block : String} : pos.contains block = true → Grounded pos block

/-- What a state says of its blocks agrees. -/
structure State.IsConsistent (s : State) (blocks : List String) : Prop where
  known : s.pos.keys = blocks
  known_clear : s.clear.keys = blocks
  holding {block : String} : s.holding = some block ↔ s.pos.get? block = some .hand
  support {block below : String} :
    s.pos.get? block = some (.on below) →
      below ∈ blocks ∧ below ≠ block ∧ s.holding ≠ some below
  unshared {block block' below : String} :
    s.pos.get? block = some (.on below) → s.pos.get? block' = some (.on below) → block = block'
  clear {block : String} :
    block ∈ blocks →
      (s.isClear block = true ↔
        s.holding ≠ some block ∧ ∀ above, s.pos.get? above ≠ some (.on block))
  ends {block : String} : block ∈ blocks → Grounded s.pos block ∨ s.holding = some block

/-- The states that a problem leads to. -/
def Problem.Reaches (p : Problem) (s : State) : Prop := Reachable operators p.startState s

end TaskNetwork.Blocks
