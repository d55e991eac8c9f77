import TaskNetwork.Json.Document

/-!
# Planner policies

A policy bounds the depth of the search and says whether decisions are recorded. The search
recurses once for each level, so there is also a ceiling on the bound itself.
-/

namespace TaskNetwork

/-- The depth bound unless another one is given. -/
def Policy.defaultMaxDepth : UInt32 := 50

/-- The largest depth bound that a planner accepts. -/
def Policy.maxDepthCeiling : UInt32 := 1024

/-- How a planner searches. -/
structure Policy where
  /-- Frames deeper than this fail. -/
  maxDepth : UInt32 := Policy.defaultMaxDepth
  /-- Whether the trace lists decisions, or only counts them. -/
  recordDecisions : Bool := true
deriving DecidableEq, Repr, Inhabited

/-- Why a planner refuses a policy. -/
inductive PolicyError where
  | zeroDepth
  | aboveCeiling (maxDepth : UInt32)
deriving DecidableEq, Repr

/-- The refusal in words. -/
def PolicyError.message (e : PolicyError) : String :=
  "invalid planner policy: " ++
    match e with
    | .zeroDepth => "max_depth must be at least 1"
    | .aboveCeiling maxDepth =>
        "max_depth " ++ Text.decimal maxDepth.toNat ++ " exceeds ceiling " ++
          Text.decimal Policy.maxDepthCeiling.toNat

namespace Policy

/-- Accepts a policy with a depth bound from one to the ceiling. -/
def validate (p : Policy) : Except PolicyError Unit :=
  if p.maxDepth = 0 then .error .zeroDepth
  else if p.maxDepth > maxDepthCeiling then .error (.aboveCeiling p.maxDepth)
  else .ok ()

instance : Json.Document Policy where
  schema := .record [("max_depth", .word 32), ("record_decisions", .bool)]
  toJson p :=
    .object [("max_depth", .ofNat p.maxDepth.toNat), ("record_decisions", .bool p.recordDecisions)]
  ofJson?
    | .object [(_, maxDepth), (_, recordDecisions)] => do
      return ⟨← maxDepth.uint32?, ← recordDecisions.bool?⟩
    | _ => none

end Policy

end TaskNetwork
