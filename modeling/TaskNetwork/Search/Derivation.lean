import TaskNetwork.Domain

/-!
# Derivations and decomposition forests

What it means to work tasks off, said without a search. A step deals with the first task of a
configuration: its operator is applied and the task is done, or one of its methods puts subtasks in
its place. A derivation is a sequence of steps; it is successful when no task is left. Which steps
were taken is kept as a list of choices, and no two derivations from one configuration make the
same choices (`Derivation.unique`).

A decomposition forest says what a plan is made of without a list of pending tasks. A list of tasks
is decomposed into a forest with one tree for each task: a leaf for a primitive task, and for a
compound one a node over the forest of its subtasks. The leaves from left to right are the steps of
a plan.
-/

namespace TaskNetwork

/-- A state and the tasks to be done from there. -/
structure Configuration (S A : Type) where
  state : S
  tasks : List (Task A)

/-- How the first task is dealt with. -/
inductive Choice where
  /-- Its operator is applied. -/
  | operator
  /-- The method at this position among its methods replaces it. -/
  | method (position : Nat)
deriving DecidableEq, Repr

/-- The positions of the methods in a list of choices. -/
def Choice.positions (choices : List Choice) : List Nat :=
  choices.filterMap fun
    | operator => none
    | method position => some position

variable {S A : Type}

/-- One step: the configuration before it, the choice, the primitive task that it does, if it does
one, and the configuration after it. -/
inductive Step (d : Domain S A) :
    Configuration S A → Choice → Option (Task A) → Configuration S A → Prop where
  | operator {state next : S} {head : Task A} {rest : List (Task A)} {op : Operator S A} :
      d.resolve head.name = .primitive op → op.apply state head.args = .ok next →
        Step d ⟨state, head :: rest⟩ .operator (some head) ⟨next, rest⟩
  | method {state : S} {head : Task A} {rest subtasks : List (Task A)}
      {methods : List (Method S A)} {position : Nat} {m : Method S A} :
      d.resolve head.name = .compound methods → methods[position]? = some m →
        m.decompose state head.args = .ok subtasks →
          Step d ⟨state, head :: rest⟩ (.method position) none ⟨state, subtasks ++ rest⟩

/-- Steps one after the other, with the choices made and the primitive tasks done. -/
inductive Derivation (d : Domain S A) :
    Configuration S A → List Choice → List (Task A) → Configuration S A → Prop where
  | refl (c : Configuration S A) : Derivation d c [] [] c
  | head {c c' c'' : Configuration S A} {choice : Choice} {done : Option (Task A)}
      {choices : List Choice} {dones : List (Task A)} :
      Step d c choice done c' → Derivation d c' choices dones c'' →
        Derivation d c (choice :: choices) (done.toList ++ dones) c''

/-- A derivation after which no task is left. -/
def Derivation.Succeeds (d : Domain S A) (c : Configuration S A) (choices : List Choice)
    (steps : List (Task A)) (final : S) : Prop :=
  Derivation d c choices steps ⟨final, []⟩

/-- A choice leads to one configuration only. -/
theorem Step.unique {d : Domain S A} {c c₁ c₂ : Configuration S A} {choice : Choice}
    {done₁ done₂ : Option (Task A)} (h₁ : Step d c choice done₁ c₁)
    (h₂ : Step d c choice done₂ c₂) : done₁ = done₂ ∧ c₁ = c₂ := by
  cases h₁ with
  | operator hr ha =>
      cases h₂ with
      | operator hr' ha' =>
          rw [hr] at hr'
          cases hr'
          rw [ha] at ha'
          cases ha'
          exact ⟨rfl, rfl⟩
  | method hr hm hd =>
      cases h₂ with
      | method hr' hm' hd' =>
          rw [hr] at hr'
          cases hr'
          rw [hm] at hm'
          cases hm'
          rw [hd] at hd'
          cases hd'
          exact ⟨rfl, rfl⟩

/-- The choices of a derivation determine its end and what it does. -/
theorem Derivation.unique {d : Domain S A} {c c₁ c₂ : Configuration S A} {choices : List Choice}
    {dones₁ dones₂ : List (Task A)} (h₁ : Derivation d c choices dones₁ c₁)
    (h₂ : Derivation d c choices dones₂ c₂) : dones₁ = dones₂ ∧ c₁ = c₂ := by
  induction h₁ generalizing dones₂ with
  | refl => cases h₂; exact ⟨rfl, rfl⟩
  | head hs _ ih =>
      cases h₂ with
      | head hs' hd' =>
          obtain ⟨rfl, rfl⟩ := hs.unique hs'
          obtain ⟨rfl, rfl⟩ := ih hd'
          exact ⟨rfl, rfl⟩

/-! ## Forests -/

/-- A row of trees over tasks. -/
inductive Forest (A : Type) where
  | empty
  /-- A leaf, and the trees to its right. -/
  | leaf (task : Task A) (right : Forest A)
  /-- A node with the position of its method, the trees below it and those to its right. -/
  | node (task : Task A) (position : Nat) (below right : Forest A)
deriving DecidableEq, Repr

namespace Forest

/-- The number of leaves and nodes. -/
def size : Forest A → Nat
  | empty => 0
  | leaf _ right => right.size + 1
  | node _ _ below right => below.size + right.size + 1

/-- The tasks of the leaves from left to right. -/
def leaves : Forest A → List (Task A)
  | empty => []
  | leaf task right => task :: right.leaves
  | node _ _ below right => below.leaves ++ right.leaves

/-- The forest decomposes the tasks from a state and leads to another state. -/
inductive Decomposes (d : Domain S A) : S → List (Task A) → Forest A → S → Prop where
  | empty (state : S) : Decomposes d state [] .empty state
  | leaf {state next final : S} {head : Task A} {rest : List (Task A)} {op : Operator S A}
      {right : Forest A} :
      d.resolve head.name = .primitive op → op.apply state head.args = .ok next →
        Decomposes d next rest right final →
          Decomposes d state (head :: rest) (.leaf head right) final
  | node {state next final : S} {head : Task A} {rest subtasks : List (Task A)}
      {methods : List (Method S A)} {position : Nat} {m : Method S A} {below right : Forest A} :
      d.resolve head.name = .compound methods → methods[position]? = some m →
        m.decompose state head.args = .ok subtasks → Decomposes d state subtasks below next →
          Decomposes d next rest right final →
            Decomposes d state (head :: rest) (.node head position below right) final

end Forest

end TaskNetwork
