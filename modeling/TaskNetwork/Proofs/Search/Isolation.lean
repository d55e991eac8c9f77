import TaskNetwork.Proofs.Search.Counts
import TaskNetwork.Travel

/-!
# Branches do not leak

All branches of a search work on one journal, in which a failing branch undoes its steps and leaves
its counts and events. What a search adds to the journal, and whether it finds something, is told by
its course, so it is the same whatever was in the journal before. The journal only decides from
where on the events are numbered.
-/

namespace TaskNetwork

variable {S A : Type}

/-- The event with its number counted from another one on. -/
def Event.countedFrom (first : UInt64) (e : Event) : Event := { e with order := first + e.order }

/-- A counter goes up by a number, unless that is more than it can count. -/
def RisesBy (n : Nat) (before after : UInt64) : Prop :=
  before.toNat + n < 2 ^ 64 → after.toNat = before.toNat + n

theorem risesBy_of_eq_add {n : Nat} {before after : UInt64}
    (h : after = before + UInt64.ofNat n) : RisesBy n before after := by
  intro hlt
  have hn : n < 2 ^ 64 := Nat.lt_of_le_of_lt (Nat.le_add_left n before.toNat) hlt
  rw [h, UInt64.toNat_add, UInt64.toNat_ofNat_of_lt' hn, Nat.mod_eq_of_lt hlt]

/-! ## What a course tells -/

namespace Search.Course

/-- The greatest depth of the frames that are entered. -/
def deepest (c : Course A) : UInt32 := (c.acts.filterMap Act.entered?).foldl max 0

/-- The names that are found missing in the domain. -/
def missingNames (c : Course A) : List String := c.acts.filterMap Act.missingName?

/-- The events of the course, numbered from zero on, or none if decisions are not recorded. -/
def events [Argument A] (p : Policy) (c : Course A) : List Event :=
  if p.recordDecisions then
    (c.acts.filterMap Act.event?).mapIdx fun i e => { e with order := UInt64.ofNat i }
  else []

end Search.Course

open Search (Act Course)

namespace Journal

variable [Argument A] {p : Policy} {j : Journal A} {c : Course A}

/-- The second journal is the first one with what a course tells added, and else the same. -/
structure Adds (p : Policy) (c : Course A) (j j' : Journal A) : Prop where
  plan_of_none : c.found = none → j'.plan = j.plan
  plan_of_some {steps : List (Task A)} :
    c.found = some steps → j'.plan.toList = j.plan.toList ++ steps
  events : j'.events.toList = j.events.toList ++ (c.events p).map (Event.countedFrom j.nextOrder)
  nextOrder : RisesBy (c.decisions fun _ => true) j.nextOrder j'.nextOrder
  framesVisited : RisesBy c.entries j.framesVisited j'.framesVisited
  maxDepthReached : j'.maxDepthReached = max j.maxDepthReached c.deepest
  operatorApplications :
    RisesBy (c.decisions (· = .operatorApplied)) j.operatorApplications j'.operatorApplications
  methodExpansions :
    RisesBy (c.decisions Decision.isDecomposition) j.methodExpansions j'.methodExpansions
  backtracks : RisesBy (c.decisions (· = .backtracked)) j.backtracks j'.backtracks
  depthBoundHits : RisesBy c.cuts j.depthBoundHits j'.depthBoundHits
  unresolved (name : String) :
    name ∈ j'.unresolved.keys ↔ name ∈ j.unresolved.keys ∨ name ∈ c.missingNames

/-! ## Taking a course down -/

theorem nextOrder_follow :
    (j.follow p c).nextOrder = j.nextOrder + UInt64.ofNat (c.decisions fun _ => true) := by
  refine foldl_take_count (f := nextOrder) (fun j act => ?_) c.acts
  cases act with
  | enter depth => exact (UInt64.add_zero _).symm
  | decide depth task decision => cases decision <;> cases task <;> rfl

theorem take_decide_eq (hrecord : p.recordDecisions = true) (depth : UInt32)
    (task : Option (Task A)) (decision : Decision) :
    (take p j (.decide depth task decision)).nextOrder = j.nextOrder + 1 ∧
      (take p j (.decide depth task decision)).events.toList =
        j.events.toList ++ [⟨j.nextOrder, depth, task.map Task.record, decision⟩] := by
  have hcount : (j.count task decision).nextOrder = j.nextOrder ∧
      (j.count task decision).events = j.events := by
    cases decision <;> cases task <;> exact ⟨rfl, rfl⟩
  simp [take, note, hrecord, hcount]

/-- Each decision becomes an event, and the events get the numbers that come next. -/
theorem toList_events_follow (hrecord : p.recordDecisions = true) :
    (j.follow p c).events.toList = j.events.toList ++
      (c.acts.filterMap Act.event?).mapIdx fun i e =>
        { e with order := j.nextOrder + UInt64.ofNat i } := by
  show (c.acts.foldl (take p) j).events.toList = _
  induction c.acts generalizing j with
  | nil => exact (List.append_nil _).symm
  | cons act acts ih =>
      rw [List.foldl_cons, ih]
      cases act with
      | enter depth => rfl
      | decide depth task decision =>
          obtain ⟨horder, hevents⟩ := take_decide_eq (j := j) hrecord depth task decision
          -- The number of an event wraps round like the counter does, so no bound is needed here.
          have hnext (i : Nat) : j.nextOrder + 1 + UInt64.ofNat i =
              j.nextOrder + UInt64.ofNat (i + 1) := by
            rw [UInt64.ofNat_add, UInt64.add_comm (.ofNat i), UInt64.add_assoc]
            rfl
          have hevent : Act.event? (.decide depth task decision) =
              some ⟨0, depth, task.map Task.record, decision⟩ := rfl
          rw [horder, hevents, List.filterMap_cons_some hevent, List.mapIdx_cons, List.append_assoc]
          simp [hnext]

theorem events_follow_silent (hrecord : p.recordDecisions = false) :
    (j.follow p c).events = j.events := by
  show (c.acts.foldl (take p) j).events = _
  induction c.acts generalizing j with
  | nil => rfl
  | cons act acts ih =>
      rw [List.foldl_cons, ih]
      cases act with
      | enter depth => rfl
      | decide depth task decision =>
          rw [take, note, hrecord]
          cases decision <;> cases task <;> rfl

theorem follow_adds (p : Policy) (c : Course A) (j : Journal A) : j.Adds p c (j.follow p c) where
  plan_of_none h := by rw [follow_of_none h, plan_foldl_take]
  plan_of_some h := by simp [follow, h]
  events := by
    cases hrecord : p.recordDecisions with
    | false => simp [events_follow_silent hrecord, Course.events, hrecord]
    | true =>
        rw [toList_events_follow hrecord, Course.events, if_pos hrecord,
          List.mapIdx_eq_zipIdx_map, List.mapIdx_eq_zipIdx_map, List.map_map]
        rfl
  nextOrder := risesBy_of_eq_add nextOrder_follow
  framesVisited := risesBy_of_eq_add framesVisited_follow
  maxDepthReached := by
    -- The course starts from depth zero, and the journal from what it has reached already.
    have hle : max j.maxDepthReached 0 ≤ j.maxDepthReached :=
      (Std.LawfulOrderSup.max_le_iff _ _ _).mpr ⟨UInt32.le_refl _, UInt32.zero_le⟩
    have hzero : max j.maxDepthReached 0 = j.maxDepthReached :=
      UInt32.le_antisymm hle Std.left_le_max
    have hfold : (c.acts.filterMap Act.entered?).foldl max (max j.maxDepthReached 0) =
        max j.maxDepthReached c.deepest := List.foldl_assoc
    rw [maxDepthReached_follow, ← hfold, hzero]
  operatorApplications := risesBy_of_eq_add operatorApplications_follow
  methodExpansions := risesBy_of_eq_add methodExpansions_follow
  backtracks := risesBy_of_eq_add backtracks_follow
  depthBoundHits := risesBy_of_eq_add depthBoundHits_follow
  unresolved name := by rw [mem_unresolved_follow, Course.missingNames, List.mem_filterMap]

end Journal

namespace Search

variable [Argument A]

/-- A search finds what its course tells, whatever is in the journal, and adds what the course
tells: steps if it finds a plan, and else none. -/
theorem seek_isolated (d : Domain S A) (p : Policy) (room : Nat) (depth : UInt32) (state : S)
    (tasks : List (Task A)) (j : Journal A) :
    (seek d p room depth state tasks j).1 = (course d room depth state tasks).found.isSome ∧
      j.Adds p (course d room depth state tasks) (seek d p room depth state tasks j).2 := by
  rw [seek_eq]
  exact ⟨rfl, j.follow_adds p _⟩

/-- Nobody knows how to sleep in the travel world. The search for a way to do so adds seven frames
and fourteen decisions to those of a branch before it, and leaves the step of that branch alone. -/
theorem seek_isolated_asleep :
    ∃ d j', Travel.domain = .ok d ∧
      seek d { maxDepth := 3 } 4 0 (Travel.startState 20)
        [⟨Travel.travelTask, ["home", "shop"]⟩, ⟨"sleep", []⟩]
        { plan := #[⟨"call_taxi", ["home"]⟩], nextOrder := 5, framesVisited := 9,
          maxDepthReached := 6, unresolved := OrderedSet.ofMembers ["wake"] } = (false, j') ∧
      j'.plan = #[⟨"call_taxi", ["home"]⟩] ∧ j'.nextOrder.toNat = 5 + 14 ∧
      j'.framesVisited.toNat = 9 + 7 ∧ j'.maxDepthReached = 6 ∧
      "wake" ∈ j'.unresolved.keys ∧ "sleep" ∈ j'.unresolved.keys := by
  obtain ⟨d, hd⟩ : ∃ d, Travel.domain = .ok d := ⟨_, rfl⟩
  obtain ⟨hverdict, hadds⟩ := seek_isolated d { maxDepth := 3 } 4 0 (Travel.startState 20)
    [⟨Travel.travelTask, ["home", "shop"]⟩, ⟨"sleep", []⟩]
    { plan := #[⟨"call_taxi", ["home"]⟩], nextOrder := 5, framesVisited := 9,
      maxDepthReached := 6, unresolved := OrderedSet.ofMembers ["wake"] }
  cases hd
  refine ⟨_, _, rfl, Prod.ext hverdict rfl, hadds.plan_of_none rfl, hadds.nextOrder ?_,
    hadds.framesVisited ?_, hadds.maxDepthReached, (hadds.unresolved _).mpr ?_,
    (hadds.unresolved _).mpr ?_⟩
  · decide
  · decide
  · decide
  · decide

end Search

end TaskNetwork
