import TaskNetwork.Baxter.Problem
import TaskNetwork.Blocks.Problem
import TaskNetwork.Json.Document

/-!
# Problem files

A problem file is a JSON document that names a world and gives the facts of its start and goal:
positions by block for the swap world, facts for the blocks world.
-/

namespace TaskNetwork

open Json (Document toJson ofJson?)

/-! ## Places and facts -/

namespace Baxter

/-- The hand of a name. -/
def Hand.ofText? (s : String) : Option Hand :=
  if s = "left" then some .left else if s = "right" then some .right else none

instance : Document Hand where
  schema := .choice ["left", "right"] []
  toJson h := .text h.text
  ofJson? j := j.text?.bind Hand.ofText?

/-- The place, other than a hand, of a name. -/
def Location.ofText? (s : String) : Option Location :=
  if s = "center" then some .center
  else if s = "t1" then some .t1
  else if s = "t2" then some .t2
  else none

instance : Document Location where
  schema := .choice ["center", "t1", "t2"] [("held", Document.schema Hand)]
  toJson
    | .held hand => .object [("held", toJson hand)]
    | loc => .text loc.text
  ofJson?
    | .text s => Location.ofText? s
    | .object [(_, hand)] => (ofJson? hand).map .held
    | _ => none

/-- The object of a map of positions. -/
def positionsToJson (positions : OrderedMap String Location) : Json :=
  .object (positions.toList.map fun e => (e.1, toJson e.2))

/-- The map of positions of an object. -/
def positionsOfJson? : Json → Option (OrderedMap String Location)
  | .object members =>
    (members.mapM fun m => (ofJson? m.2).map fun loc => (m.1, loc)).map OrderedMap.ofList
  | _ => none

end Baxter

instance : Document Blocks.Fact where
  schema := .record [("block", .text), ("on", .text)]
  toJson f := .object [("block", .text f.block), ("on", .text f.on)]
  ofJson?
    | .object [(_, block), (_, on)] => do return ⟨← block.text?, ← on.text?⟩
    | _ => none

/-! ## Files -/

/-- The contents of a problem file. -/
inductive ProblemFile where
  | baxterSwap (start goal : OrderedMap String Baxter.Location)
  | blocksWorld (start goal : List Blocks.Fact)
deriving DecidableEq

instance : Document ProblemFile where
  schema := .tagged "world"
    [("baxter_swap",
        .record [("start", .map (Document.schema Baxter.Location)),
          ("goal", .map (Document.schema Baxter.Location))]),
      ("blocks_world",
        .record [("start", .list (Document.schema Blocks.Fact)),
          ("goal", .list (Document.schema Blocks.Fact))])]
  toJson
    | .baxterSwap start goal => .object
        [("world", .text "baxter_swap"), ("start", Baxter.positionsToJson start),
          ("goal", Baxter.positionsToJson goal)]
    | .blocksWorld start goal => .object
        [("world", .text "blocks_world"), ("start", .list (start.map toJson)),
          ("goal", .list (goal.map toJson))]
  ofJson?
    | .object [(_, .text "baxter_swap"), (_, start), (_, goal)] => do
      return .baxterSwap (← Baxter.positionsOfJson? start) (← Baxter.positionsOfJson? goal)
    | .object [(_, .text "blocks_world"), (_, start), (_, goal)] => do
      return .blocksWorld (← start.listOf? ofJson?) (← goal.listOf? ofJson?)
    | _ => none

/-- A problem of one of the built-in worlds. -/
inductive Problem where
  | baxter (problem : Baxter.Problem)
  | blocks (problem : Blocks.Problem)
deriving DecidableEq

/-- Why a problem file describes no problem. -/
inductive ProblemError where
  | baxter (e : Baxter.ProblemError)
  | blocks (e : Blocks.ProblemError)
deriving DecidableEq, Repr

/-- The refusal in words. -/
def ProblemError.message : ProblemError → String
  | .baxter e => e.message
  | .blocks e => e.message

/-- Whether a problem is refused because it names a block that does not exist. -/
def ProblemError.isUnknownBlock : ProblemError → Bool
  | .baxter (.unknownBlock _) => true
  | .blocks (.unknownBlock _) => true
  | _ => false

/-- Checks the facts of a problem file. -/
def ProblemFile.problem : ProblemFile → Except ProblemError Problem
  | .baxterSwap start goal => ((Baxter.Problem.create start goal).mapError .baxter).map .baxter
  | .blocksWorld start goal => ((Blocks.Problem.ofFacts start goal).mapError .blocks).map .blocks

/-- What an accepted problem file holds. -/
theorem ProblemFile.cases_of_problem {file : ProblemFile} {problem : Problem}
    (h : file.problem = .ok problem) :
    (∃ start goal p, file = .baxterSwap start goal ∧ problem = .baxter p ∧
      Baxter.Problem.create start goal = .ok p) ∨
    ∃ start goal p, file = .blocksWorld start goal ∧ problem = .blocks p ∧
      Blocks.Problem.ofFacts start goal = .ok p := by
  cases file with
  | baxterSwap start goal =>
      rw [ProblemFile.problem] at h
      cases hp : Baxter.Problem.create start goal with
      | error e =>
          rw [hp] at h
          cases h
      | ok p =>
          rw [hp] at h
          cases h
          exact .inl ⟨start, goal, p, rfl, rfl, hp⟩
  | blocksWorld start goal =>
      rw [ProblemFile.problem] at h
      cases hp : Blocks.Problem.ofFacts start goal with
      | error e =>
          rw [hp] at h
          cases h
      | ok p =>
          rw [hp] at h
          cases h
          exact .inr ⟨start, goal, p, rfl, rfl, hp⟩

end TaskNetwork
