import TaskNetwork.Domain
import TaskNetwork.Search.Basic

/-!
# The course of a search

What a search does, told without a journal: the steps of the plan if there is one, and all frames
that are entered and decisions that are taken, in their order. The course of a search depends on
nothing that was before it, and the acts in it are counted without a limit. A journal takes a course
down act by act.
-/

namespace TaskNetwork

namespace Search

variable {S A M : Type}

/-! ## Courses -/

/-- One act of a search. -/
inductive Act (A : Type) where
  /-- A frame is entered. -/
  | enter (depth : UInt32)
  /-- It is decided on the head task of a frame. -/
  | decide (depth : UInt32) (task : Option (Task A)) (decision : Decision)

/-- Whether a frame is entered. -/
def Act.isEntry : Act A → Bool
  | enter _ => true
  | decide _ _ _ => false

/-- Whether a frame is cut by the depth bound. -/
def Act.isCut : Act A → Bool
  | decide _ _ .depthBoundReached => true
  | _ => false

/-- The name that is found missing in the domain, if the act finds one. -/
def Act.missingName? : Act A → Option String
  | decide _ (some task) .unresolved => some task.name
  | _ => none

/-- What a search finds and does. -/
structure Course (A : Type) where
  /-- The steps of the plan, if one is found. -/
  found : Option (List (Task A))
  acts : List (Act A)

namespace Course

/-- The number of frames that are entered. -/
def entries (c : Course A) : Nat := c.acts.countP Act.isEntry

/-- The number of frames that are cut by the depth bound. -/
def cuts (c : Course A) : Nat := c.acts.countP Act.isCut

/-- Enters a frame first. -/
def entering (depth : UInt32) (c : Course A) : Course A := ⟨c.found, .enter depth :: c.acts⟩

/-- A decision with which nothing is found. -/
def refusal (depth : UInt32) (task : Option (Task A)) (decision : Decision) : Course A :=
  ⟨none, [.decide depth task decision]⟩

/-- A decision on a task that does some steps, with the course behind it. If nothing is found there
the decision is taken back. -/
def behind (depth : UInt32) (head : Task A) (decision : Decision) (done : List (Task A))
    (c : Course A) : Course A :=
  match c.found with
  | some steps => ⟨some (done ++ steps), .decide depth head decision :: c.acts⟩
  | none => ⟨none, .decide depth head decision :: (c.acts ++ [.decide depth head .backtracked])⟩

/-- Goes on with another course if nothing is found. -/
def orElse (c c' : Course A) : Course A :=
  match c.found with
  | some _ => c
  | none => ⟨c'.found, c.acts ++ c'.acts⟩

/-- Tries alternatives in order until something is found. -/
def firstFound (attempt : M → Course A) (ms : List M) : Course A :=
  ms.foldr (fun m c => (attempt m).orElse c) ⟨none, []⟩

end Course

/-- The course of a search from a frame; `room` and `depth` are those of the frame. -/
def course (d : Domain S A) : (room : Nat) → (depth : UInt32) → S → List (Task A) → Course A
  | 0, depth, _, tasks => (Course.refusal depth tasks.head? .depthBoundReached).entering depth
  | _ + 1, depth, _, [] => Course.entering depth ⟨some [], []⟩
  | room + 1, depth, state, head :: rest => Course.entering depth <|
    match d.resolve head.name with
    | .primitive op =>
      match op.apply state head.args with
      | .error failure => .refusal depth head (.operatorRejected failure.message)
      | .ok next => (course d room (depth + 1) next rest).behind depth head .operatorApplied [head]
    | .compound methods =>
      Course.firstFound (fun m =>
        match m.decompose state head.args with
        | .error failure => .refusal depth head (.methodInapplicable m.name failure.message)
        | .ok subtasks =>
          (course d room (depth + 1) state (subtasks ++ rest)).behind depth head
            (.methodDecomposed m.name subtasks.length.toUInt64) []) methods
    | .unknown => .refusal depth head .unresolved

/-- The course of one method of a compound head task. -/
def methodCourse (d : Domain S A) (room : Nat) (depth : UInt32) (state : S) (head : Task A)
    (rest : List (Task A)) (m : Method S A) : Course A :=
  match m.decompose state head.args with
  | .error failure => .refusal depth head (.methodInapplicable m.name failure.message)
  | .ok subtasks =>
    (course d room (depth + 1) state (subtasks ++ rest)).behind depth head
      (.methodDecomposed m.name subtasks.length.toUInt64) []

/-- The course of a run. -/
def courseOfRun (d : Domain S A) (p : Policy) (start : S) (tasks : List (Task A)) : Course A :=
  course d (p.maxDepth.toNat + 1) 0 start tasks

end Search

/-! ## Journals -/

namespace Journal

variable {A : Type}

/-- Counts a decision on a task by its kind. -/
def count (task : Option (Task A)) (decision : Decision) (j : Journal A) : Journal A :=
  match decision, task with
  | .operatorApplied, _ => j.countApplication
  | .methodDecomposed _ _, _ => j.countExpansion
  | .backtracked, _ => j.countBacktrack
  | .depthBoundReached, _ => j.countCut
  | .unresolved, some t => j.addUnresolved t.name
  | .unresolved, none | .operatorRejected _, _ | .methodInapplicable _ _, _ => j

variable [Argument A]

/-- Takes an act down. -/
def take (p : Policy) (j : Journal A) : Search.Act A → Journal A
  | .enter depth => j.enter depth
  | .decide depth task decision => (j.count task decision).note p depth task decision

/-- Takes a course down, and adds the steps that it finds to the plan. -/
def follow (p : Policy) (j : Journal A) (c : Search.Course A) : Journal A :=
  { c.acts.foldl (take p) j with plan := j.plan ++ (c.found.getD []).toArray }

end Journal

end TaskNetwork
